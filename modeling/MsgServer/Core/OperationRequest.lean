import MsgServer.Core.CanonicalJson

/-!
The request record of core/models.py with its wire object and, from transports/client.py,
the path that carries a packet in a GET. A datetime is in UTC, as `validate_record` leaves
every field of a record, and is given by its calendar fields.
-/

namespace MsgServer.Codec

open Library.Members

/-! Datetimes -/

def leapYear (year : Nat) : Bool := year % 4 = 0 ∧ (year % 100 ≠ 0 ∨ year % 400 = 0)

def daysInMonth (year month : Nat) : Nat :=
  if month = 2 then (if leapYear year then 29 else 28)
  else if month ∈ [4, 6, 9, 11] then 30 else 31

structure Datetime where
  year : Nat
  month : Nat
  day : Nat
  hour : Nat
  minute : Nat
  second : Nat
  microsecond : Nat
  date : 1 ≤ year ∧ year ≤ 9999 ∧ 1 ≤ month ∧ month ≤ 12 ∧ 1 ≤ day ∧ day ≤ daysInMonth year month
  time : hour < 24 ∧ minute < 60 ∧ second < 60 ∧ microsecond < 1000000
  deriving DecidableEq

def pad (width value : Nat) : Text :=
  List.replicate (width - (Nat.toDigits 10 value).length) '0' ++ Nat.toDigits 10 value

/-- `timestamp`, with `isoformat(timespec='microseconds')`. -/
def timestamp (value : Datetime) : Text :=
  pad 4 value.year ++ '-' :: pad 2 value.month ++ '-' :: pad 2 value.day ++ 'T' ::
    pad 2 value.hour ++ ':' :: pad 2 value.minute ++ ':' :: pad 2 value.second ++ '.' ::
    pad 6 value.microsecond ++ ['Z']

/-! Records -/

structure Signature where
  keyId : Text
  algorithm : Text
  value : List UInt8

inductive RequestProof where
  | signature (signature : Signature) (certificates : List Text)
  | token (credentialId : Text) (token : List UInt8)
  | none

inductive Source where
  | msg | manual | mcp | unknown

structure OperationRequest where
  requestId : Text
  protocolVersion : Int
  operation : Text
  contractVersion : Int
  targetService : Text
  subject : Option Text
  arguments : JsonMap
  expectedGenerations : List (Text × Int)
  expiresAt : Option Datetime
  payloadDigest : Text
  proof : RequestProof
  returnFields : List Text
  source : Source

/-! `wire` -/

def optional {α : Type} (wire : α → Json) : Option α → Json
  | some value => wire value
  | none => .null

def Signature.wire (signature : Signature) : Json :=
  .object [("key_id".toList, .str signature.keyId),
    ("algorithm".toList, .str signature.algorithm),
    ("value".toList, .str (b64 signature.value))]

def RequestProof.wire : RequestProof → Json
  | .signature signed certificates =>
      .object [("signature".toList, signed.wire),
        ("certificates".toList, .array (certificates.map .str))]
  | .token credentialId secret =>
      .object [("credential_id".toList, .str credentialId), ("token".toList, .str (b64 secret))]
  | .none => .null

def Source.wire : Source → Json
  | .msg => .str "msg".toList
  | .manual => .str "manual".toList
  | .mcp => .str "mcp".toList
  | .unknown => .str "unknown".toList

def OperationRequest.wire (request : OperationRequest) : JsonMap :=
  [("request_id".toList, .str request.requestId),
    ("protocol_version".toList, .int request.protocolVersion),
    ("operation".toList, .str request.operation),
    ("contract_version".toList, .int request.contractVersion),
    ("target_service".toList, .str request.targetService),
    ("subject".toList, optional .str request.subject),
    ("arguments".toList, .object request.arguments),
    ("expected_generations".toList, .array (request.expectedGenerations.map fun entry =>
      .array [.str entry.1, .int entry.2])),
    ("expires_at".toList, optional (fun time => .str (timestamp time)) request.expiresAt),
    ("payload_digest".toList, .str request.payloadDigest),
    ("proof".toList, request.proof.wire),
    ("return_fields".toList, .array (request.returnFields.map .str)),
    ("source".toList, request.source.wire)]

/-- The bytes of the canonical packet. -/
def OperationRequest.packet (request : OperationRequest) : List UInt8 :=
  canonical (.object request.wire)

/-! The packet in a path -/

def packetPath (operation encoding encoded : Text) : Text :=
  "/-/g/".toList ++ operation ++ "/".toList ++ encoding ++ "/".toList ++ encoded

/-- The path with the plain encoding. -/
def OperationRequest.plainPath (request : OperationRequest) : Text :=
  packetPath request.operation "j".toList (b64 request.packet)

/-- The path of `PathGETTransport.call`, with `gzip.compress` as a parameter. -/
def OperationRequest.callPath (compress : List UInt8 → List UInt8)
    (request : OperationRequest) : Text :=
  let encoded := b64 request.packet
  let compressed := b64 (compress request.packet)
  if compressed.length + 1 < encoded.length then
    packetPath request.operation "gz".toList compressed
  else request.plainPath

theorem size_packetPath (operation encoding : Text) (data : List UInt8) :
    size (packetPath operation encoding (b64 data)) =
      size operation + size encoding + (b64 data).length + 7 := by
  have encoded : size (b64 data) = (b64 data).length :=
    size_ascii fun char member => (plain_b64 data char member).2
  have start : size "/-/g/".toList = 5 := size_ascii (by decide)
  have slash : size "/".toList = 1 := size_ascii (by decide)
  unfold packetPath
  rw [size_append, size_append, size_append, size_append, size_append, encoded, start, slash]
  omega

/-- Compression is taken only where it shortens the path. -/
theorem OperationRequest.callPath_le (compress : List UInt8 → List UInt8)
    (request : OperationRequest) :
    size (request.callPath compress) ≤ size request.plainPath := by
  unfold callPath
  dsimp only
  split
  · rename_i shorter
    have packed : size "gz".toList = 2 := size_ascii (by decide)
    have plain : size "j".toList = 1 := size_ascii (by decide)
    rw [plainPath, size_packetPath, size_packetPath, packed, plain]
    omega
  · exact Nat.le_refl _

end MsgServer.Codec
