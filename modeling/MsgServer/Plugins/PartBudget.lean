import MsgServer.Core.OperationRequest

/-!
The size of an upload part that plugins/transfer.py negotiates, and the packet that later
carries one. The size is worked out from a packet with the caller's own other fields and no
data; what every part packet adds to that one is the written data alone.
-/

namespace MsgServer.PartBudget

open Codec Library.Members

/-- `TransportLimits`, without the encodings. -/
structure TransportLimits where
  maxRequestBytes : Int
  maxResponseBytes : Int
  maxPathBytes : Option Int

structure App where
  limits : TransportLimits
  maxPartBytes : Int

structure Negotiated where
  partBytes : Int
  maxRequestBytes : Int
  maxResponseBytes : Int
  maxPathBytes : Int
  deriving DecidableEq

/-- `a.get(key, fallback)`, where the schema admits a whole number of at least one; a float
without a fraction is the number it is equal to. -/
def argument (arguments : JsonMap) (key : Text) (fallback : Int) : Except Failure Int :=
  match arguments.lookup key with
  | none => .ok fallback
  | some (.int value) => do
      require (1 ≤ value) "schema_validation"
      return value
  | some _ => .error { code := "schema_validation" }

/-- `dict.update`: a key keeps its place, a new one goes to the end. -/
def update (members : JsonMap) : JsonMap → JsonMap
  | [] => members
  | (key, value) :: rest =>
      if members.any fun entry => entry.1 = key then
        update (members.map fun entry => if entry.1 = key then (key, value) else entry) rest
      else update (members ++ [(key, value)]) rest

/-- The arguments of `transfer.part_put`. -/
def partArguments (transferId : Text) (offset : Nat) (data digest : Text) : JsonMap :=
  [("transfer_id".toList, .str transferId), ("offset".toList, .int offset),
    ("data".toList, .str data), ("digest".toList, .str digest)]

def partPut : Text := "transfer.part_put".toList

def zeroDigest : Text := "sha256:".toList ++ List.replicate 64 '0'

/-- The packet that `negotiate` measures. -/
def measured (request : OperationRequest) : JsonMap :=
  update request.wire
    [("operation".toList, .str partPut),
      ("request_id".toList, .str (List.replicate 64 'r')),
      ("payload_digest".toList, .str zeroDigest),
      ("arguments".toList, .object
        (partArguments ("tr_".toList ++ List.replicate 32 '0') (2 ^ 63 - 1) [] zeroDigest))]

def pathPrefix : Text := "/-/g/transfer.part_put/j/".toList

def negotiate (app : App) (request : OperationRequest) : Except Failure Negotiated := do
  let a := request.arguments
  let limits := app.limits
  let requestBytes := min limits.maxRequestBytes
    (← argument a "max_request_bytes".toList limits.maxRequestBytes)
  let responseBytes := min limits.maxResponseBytes
    (← argument a "max_response_bytes".toList limits.maxResponseBytes)
  -- A comparison with `None` is a `TypeError`.
  let maxPathBytes ← requireRow limits.maxPathBytes "TypeError"
  let pathBytes := min maxPathBytes (← argument a "max_path_bytes".toList maxPathBytes)
  let overhead := ((canonical (.object (measured request))).length : Int) + 48
  let pathBudget := (pathBytes - (pathPrefix.length : Int)) * 3 / 4 - overhead
  let requestBudget := requestBytes - overhead
  let responseBudget := responseBytes - 1024
  let requested ← argument a "requested_part_bytes".toList app.maxPartBytes
  let chosen := min app.maxPartBytes (min requested (min (requestBudget * 3 / 4)
    (min (pathBudget * 3 / 4) (responseBudget * 3 / 4))))
  require (1 ≤ chosen) "transport_limit_too_small"
  return { partBytes := chosen, maxRequestBytes := requestBytes,
           maxResponseBytes := responseBytes, maxPathBytes := pathBytes }

/-! The packet of a part -/

/-- `sha256:` and 64 hexadecimal digits. -/
def IsDigest (text : Text) : Prop :=
  ∃ digits : Text, text = "sha256:".toList ++ digits ∧ digits.length = 64 ∧
    ∀ char ∈ digits, char ∈ "0123456789abcdef".toList

/-- `'tr_' + uuid4().hex`. -/
def IsTransferId (text : Text) : Prop :=
  ∃ digits : Text, text = "tr_".toList ++ digits ∧ digits.length = 32 ∧
    ∀ char ∈ digits, char ∈ "0123456789abcdef".toList

structure Part where
  transferId : Text
  offset : Nat
  data : List UInt8
  digest : Text

def Part.arguments (part : Part) : JsonMap :=
  partArguments part.transferId part.offset (b64 part.data) part.digest

/-- The fields of a packet that `negotiate` takes from the caller's own. -/
def otherFields (request : OperationRequest) : JsonMap :=
  request.wire.filter fun entry =>
    entry.1 ∉ ["request_id".toList, "operation".toList, "arguments".toList,
      "payload_digest".toList]

def otherSize (request : OperationRequest) : Nat :=
  (canonical (.object (otherFields request))).length

/-- A packet that puts a part, whose other fields have the size that `request` had. -/
structure PartPacket (request put : OperationRequest) (part : Part) : Prop where
  operation : put.operation = partPut
  idLength : put.requestId.length ≤ 64
  idSafe : ∀ char ∈ put.requestId, char ∈ Library.UrlBase64.alphabet
  transferId : IsTransferId part.transferId
  offset : part.offset < 2 ^ 63
  digest : IsDigest part.digest
  arguments : put.arguments.Perm part.arguments
  payloadDigest : IsDigest put.payloadDigest
  others : otherSize put = otherSize request

/-! What the packet of a part weighs -/

theorem plain_hexadecimal {start digits : Text} (plain : Plain start)
    (hexadecimal : ∀ char ∈ digits, char ∈ "0123456789abcdef".toList) :
    Plain (start ++ digits) := by
  have all : Plain "0123456789abcdef".toList := by unfold Plain; decide
  intro char member
  rcases List.mem_append.mp member with early | late
  · exact plain char early
  · exact all char (hexadecimal char late)

theorem IsDigest.size {digest : Text} (shaped : IsDigest digest) : size (quote digest) = 73 := by
  obtain ⟨digits, rfl, count, hexadecimal⟩ := shaped
  have plain : Plain "sha256:".toList := by unfold Plain; decide
  rw [size_quote_plain (plain_hexadecimal plain hexadecimal), List.length_append, count]
  rfl

theorem IsTransferId.size {id : Text} (shaped : IsTransferId id) : size (quote id) = 37 := by
  obtain ⟨digits, rfl, count, hexadecimal⟩ := shaped
  have plain : Plain "tr_".toList := by unfold Plain; decide
  rw [size_quote_plain (plain_hexadecimal plain hexadecimal), List.length_append, count]
  rfl

theorem zeroDigest_shaped : IsDigest zeroDigest :=
  ⟨List.replicate 64 '0', rfl, rfl, by decide⟩

/-- The four fields that `negotiate` replaces. -/
def headFields (requestId operation arguments payloadDigest : Json) : JsonMap :=
  [("request_id".toList, requestId), ("operation".toList, operation),
    ("arguments".toList, arguments), ("payload_digest".toList, payloadDigest)]

def memberSum (members : JsonMap) : Nat := (members.map memberSize).sum

theorem memberSum_perm {first second : JsonMap} (same : first.Perm second) :
    memberSum first = memberSum second :=
  (same.map memberSize).sum_nat

/-- What the keys and the marks around four fields weigh. -/
def headWeight : Nat :=
  size (quote "request_id".toList) + size (quote "operation".toList) +
    size (quote "arguments".toList) + size (quote "payload_digest".toList) + 4

theorem memberSum_head (requestId operation arguments payloadDigest : Json) :
    memberSum (headFields requestId operation arguments payloadDigest) =
      headWeight + size (dumps requestId) + size (dumps operation) + size (dumps arguments) +
        size (dumps payloadDigest) := by
  simp only [memberSum, headFields, memberSize, headWeight, List.map_cons, List.map_nil,
    List.sum_cons, List.sum_nil]
  omega

/-- Any packet is its four replaced fields and the others. -/
theorem size_split {members others : JsonMap} {head : JsonMap}
    (first : (members.filter fun entry => entry.1 ∈ ["request_id".toList, "operation".toList,
      "arguments".toList, "payload_digest".toList]) = head)
    (second : (members.filter fun entry => entry.1 ∉ ["request_id".toList, "operation".toList,
      "arguments".toList, "payload_digest".toList]) = others) :
    size (dumps (.object members)) =
      2 + memberSum head + memberSum others + (members.length - 1) := by
  have split : (head ++ others).Perm members := by
    rw [← first, ← second]
    simpa using List.filter_append_perm (fun entry : Text × Json => decide (entry.1 ∈
      ["request_id".toList, "operation".toList, "arguments".toList,
        "payload_digest".toList])) members
  have sum := memberSum_perm split
  rw [memberSum, List.map_append, List.sum_append] at sum
  rw [size_object, ← memberSum, ← sum, memberSum, memberSum]
  omega

theorem otherSize_eq (request : OperationRequest) :
    otherSize request = 10 + memberSum (otherFields request) := by
  have count : (otherFields request).length = 9 := rfl
  rw [otherSize, canonical, ← size, size_object, count, memberSum]
  omega

theorem size_packet (request : OperationRequest) :
    size (dumps (.object request.wire)) =
      memberSum (headFields (.str request.requestId) (.str request.operation)
        (.object request.arguments) (.str request.payloadDigest)) + otherSize request + 4 := by
  have count : request.wire.length = 13 := rfl
  have split : size (dumps (.object request.wire)) =
      2 + memberSum (headFields (.str request.requestId) (.str request.operation)
        (.object request.arguments) (.str request.payloadDigest)) +
      memberSum (otherFields request) + (request.wire.length - 1) := size_split rfl rfl
  rw [split, count, otherSize_eq]
  omega

theorem size_measured (request : OperationRequest) :
    size (dumps (.object (measured request))) =
      memberSum (headFields (.str (List.replicate 64 'r')) (.str partPut)
        (.object (partArguments ("tr_".toList ++ List.replicate 32 '0') (2 ^ 63 - 1) []
          zeroDigest)) (.str zeroDigest)) + otherSize request + 4 := by
  have count : (measured request).length = 13 := rfl
  have split : size (dumps (.object (measured request))) =
      2 + memberSum (headFields (.str (List.replicate 64 'r')) (.str partPut)
        (.object (partArguments ("tr_".toList ++ List.replicate 32 '0') (2 ^ 63 - 1) []
          zeroDigest)) (.str zeroDigest)) +
      memberSum (otherFields request) + ((measured request).length - 1) := size_split rfl rfl
  rw [split, count, otherSize_eq]
  omega

/-- The arguments of a part packet, against those that `negotiate` measures. -/
theorem size_arguments {part : Part} {arguments : JsonMap}
    (transferId : IsTransferId part.transferId) (offset : part.offset < 2 ^ 63)
    (digest : IsDigest part.digest) (same : arguments.Perm part.arguments) :
    size (dumps (.object arguments)) ≤
      size (dumps (.object (partArguments ("tr_".toList ++ List.replicate 32 '0') (2 ^ 63 - 1)
        [] zeroDigest))) + (b64 part.data).length := by
  have zeroId : IsTransferId ("tr_".toList ++ List.replicate 32 '0') :=
    ⟨List.replicate 32 '0', rfl, rfl, by decide⟩
  have digits : size (decimal (part.offset : Int)) ≤ 19 := size_decimal (by omega) (by omega)
  -- The offset that is measured has the most digits that an offset can have.
  have most : size (decimal ((2 ^ 63 - 1 : Nat) : Int)) = 19 := size_ascii (by decide)
  have empty : size (quote []) = 2 := size_quote_plain (by simp [Plain])
  have sum := memberSum_perm same
  have count := same.length_eq
  rw [size_object, size_object, ← memberSum, ← memberSum, sum, count]
  simp only [Part.arguments, partArguments, memberSum, memberSize, List.map_cons, List.map_nil,
    List.sum_cons, List.sum_nil, List.length_cons, List.length_nil, dumps, size_b64,
    transferId.size, zeroId.size, digest.size, zeroDigest_shaped.size, empty, most]
  omega

/-- What a part packet weighs above the measured one is the written data. -/
theorem part_size {request put : OperationRequest} {part : Part}
    (packet : PartPacket request put part) :
    put.packet.length ≤
      (canonical (.object (measured request))).length + (b64 part.data).length := by
  have plainId : Plain put.requestId := fun char member =>
    plain_alphabet char (packet.idSafe char member)
  have plainLong : Plain (List.replicate 64 'r') := by unfold Plain; decide
  have id := size_quote_plain plainId
  have longId := size_quote_plain plainLong
  have short := packet.idLength
  have arguments := size_arguments packet.transferId packet.offset packet.digest packet.arguments
  change size (dumps (.object put.wire)) ≤ size (dumps (.object (measured request))) + _
  rw [size_packet, size_measured, memberSum_head, memberSum_head, packet.others,
    packet.operation]
  simp only [dumps, id, longId, packet.payloadDigest.size, zeroDigest_shaped.size,
    List.length_replicate] at *
  omega

/-- What an accepted negotiation says: its part size is at most each of its three budgets. -/
structure Within (app : App) (request : OperationRequest) (limits : Negotiated) : Prop where
  part : limits.partBytes ≤ app.maxPartBytes
  body : limits.partBytes ≤ (limits.maxRequestBytes -
    (((canonical (.object (measured request))).length : Int) + 48)) * 3 / 4
  path : limits.partBytes ≤ ((limits.maxPathBytes - 25) * 3 / 4 -
    (((canonical (.object (measured request))).length : Int) + 48)) * 3 / 4
  response : limits.partBytes ≤ (limits.maxResponseBytes - 1024) * 3 / 4
  positive : 1 ≤ limits.partBytes
  requestLimit : limits.maxRequestBytes ≤ app.limits.maxRequestBytes
  responseLimit : limits.maxResponseBytes ≤ app.limits.maxResponseBytes
  pathLimit : ∀ maximum, app.limits.maxPathBytes = some maximum → limits.maxPathBytes ≤ maximum

theorem negotiate_ok {app : App} {request : OperationRequest} {limits : Negotiated}
    (done : negotiate app request = .ok limits) : Within app request limits := by
  simp only [negotiate, Library.Program.except_bind_ok, requireRow_ok, require_ok, exists_const,
    Library.Program.except_pure, Except.ok.injEq] at done
  obtain ⟨requestBytes, _, responseBytes, _, maximum, some, pathBytes, _, requested, _,
    positive, rfl⟩ := done
  have start : (pathPrefix.length : Int) = 25 := by decide
  simp only [start] at positive ⊢
  constructor
  case pathLimit =>
    intro other same
    rw [some, Option.some.injEq] at same
    exact same ▸ min_le_left _ _
  all_goals
    dsimp only
    omega

/-- Every part packet with at most the negotiated data fits in the negotiated body and, with
or without compression, in the negotiated path. -/
theorem part_fits {app : App} {request : OperationRequest} {limits : Negotiated}
    (accepted : negotiate app request = .ok limits) {put : OperationRequest} {part : Part}
    (packet : PartPacket request put part) (small : (part.data.length : Int) ≤ limits.partBytes) :
    (put.packet.length : Int) ≤ limits.maxRequestBytes ∧
      (size put.plainPath : Int) ≤ limits.maxPathBytes ∧
      ∀ compress, (size (put.callPath compress) : Int) ≤ limits.maxPathBytes := by
  have within := negotiate_ok accepted
  have written : (b64 part.data).length = (4 * part.data.length + 2) / 3 :=
    Library.UrlBase64.encode_length part.data
  have weight := part_size packet
  have body : (put.packet.length : Int) ≤ limits.maxRequestBytes := by
    have budget := within.body
    omega
  have path : (size put.plainPath : Int) ≤ limits.maxPathBytes := by
    have budget := within.path
    have operation : size partPut = 17 := size_ascii (by decide)
    have encoding : size "j".toList = 1 := size_ascii (by decide)
    have twice : (b64 put.packet).length = (4 * put.packet.length + 2) / 3 :=
      Library.UrlBase64.encode_length put.packet
    rw [OperationRequest.plainPath, size_packetPath, packet.operation, operation, encoding, twice]
    omega
  refine ⟨body, path, fun compress => ?_⟩
  have least := put.callPath_le compress
  omega

def smallApp : App :=
  { limits := { maxRequestBytes := 4096, maxResponseBytes := 4096, maxPathBytes := some 2048 },
    maxPartBytes := 65536 }

def openRequest : OperationRequest :=
  { requestId := "open-1".toList, protocolVersion := 1, operation := "transfer.open".toList,
    contractVersion := 1, targetService := "https://msg.example".toList,
    subject := some "r_1".toList,
    arguments := [("direction".toList, .str "upload".toList), ("max_path_bytes".toList, .int 4096)],
    expectedGenerations := [], expiresAt := none, payloadDigest := zeroDigest,
    proof := .token "c_1".toList [1, 2, 3], returnFields := [], source := .msg }

def firstPart : Part :=
  { transferId := "tr_".toList ++ List.replicate 32 'a', offset := 4096,
    data := List.replicate 300 7, digest := zeroDigest }

def putRequest : OperationRequest :=
  { openRequest with
      requestId := "put-1".toList, operation := partPut, arguments := firstPart.arguments }

theorem negotiate_small :
    negotiate smallApp openRequest = .ok
      { partBytes := 641, maxRequestBytes := 4096, maxResponseBytes := 4096,
        maxPathBytes := 2048 } := by
  decide +kernel

theorem putRequest_packet : PartPacket openRequest putRequest firstPart where
  operation := rfl
  idLength := by decide
  idSafe := by decide
  transferId := ⟨List.replicate 32 'a', rfl, rfl, by decide⟩
  offset := by decide
  digest := zeroDigest_shaped
  arguments := List.Perm.refl _
  payloadDigest := zeroDigest_shaped
  others := rfl

theorem part_fits_small :
    (putRequest.packet.length : Int) ≤ 4096 ∧ (size putRequest.plainPath : Int) ≤ 2048 ∧
      ∀ compress, (size (putRequest.callPath compress) : Int) ≤ 2048 :=
  part_fits negotiate_small putRequest_packet (by
    have count : firstPart.data.length = 300 := List.length_replicate
    dsimp only
    omega)

end MsgServer.PartBudget
