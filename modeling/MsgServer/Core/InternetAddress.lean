import MsgServer.Core.OperationRequest

/-!
Account addresses and the signed envelopes between services of core/internet_address.py, with
the parts of core/codec.py and security/crypto.py they use. The hash, the signature scheme and
the reading of a date are parameters; an envelope has the fields its schema asks for.
-/

namespace MsgServer.Internet

open Library Codec

/-- What the installation computes with: `hexdigest` of SHA-256, the Ed25519 check of a
signature on bytes, `parse_time` and `timestamp` in microseconds, and the network location of
the service URL. -/
structure World where
  sha256 : List UInt8 → Text
  ed25519 : List UInt8 → List UInt8 → List UInt8 → Bool
  parseTime : Text → Except Failure Int
  timestamp : Int → Text
  netloc : Text

variable (world : World)

/-! Bytes -/

/-- `unb64`. -/
def unb64 (limit : Nat) (value : Text) : Except Failure (List UInt8) := do
  require (value.length ≤ limit * 4 / 3 + 4) "invalid_base64"
  match UrlBase64.decode value with
  | none => .error { code := "invalid_base64" }
  | some result => do
      require (b64 result = value ∧ result.length ≤ limit) "invalid_base64"
      return result

def maxBytes : Nat := 16 * 1024 * 1024

def digest (value : Json) : Text := "sha256:".toList ++ world.sha256 (canonical value)

def keyId (publicKey : List UInt8) : Text := "k_".toList ++ world.sha256 publicKey

def framed (payload : List UInt8) (purpose : Text) : List UInt8 :=
  utf8 "msg.lmm.best/v1/".toList ++ utf8 purpose ++ 0 :: payload

def verify (publicKey payload : List UInt8) (signature : Codec.Signature) (purpose : Text) :
    Except Failure Unit := do
  require (signature.algorithm = "ed25519".toList ∧ signature.keyId = keyId world publicKey)
    "invalid_signature"
  require (world.ed25519 publicKey signature.value (framed payload purpose) = true)
    "invalid_signature"

/-! Addresses -/

def isLabel (char : Char) : Bool := char.isAlphanum || char = '-'

/-- The first group of the pattern. -/
def isHandle : Text → Bool
  | [] => false
  | first :: rest =>
      first.isLower && rest.all (fun char => char.isLower || char.isDigit || char = '-') &&
        1 ≤ rest.length && rest.length ≤ 40

/-- The port behind the host: none, or a colon and one to five digits. -/
def isPort : Text → Bool
  | [] => true
  | colon :: digits =>
      colon = ':' && digits.all Char.isDigit && 1 ≤ digits.length && digits.length ≤ 5

def hostOf (authority : Text) : Text := authority.takeWhile fun char => char ≠ ':'

def portOf (authority : Text) : Text := authority.dropWhile fun char => char ≠ ':'

/-- The second group of the pattern. -/
def isAuthority (authority : Text) : Bool :=
  hostOf authority ≠ [] && (hostOf authority).all (fun char => isLabel char || char = '.') &&
    isPort (portOf authority)

/-- One label of the host name. -/
def labelFits (label : Text) : Bool :=
  label.all isLabel && (label.head?.any Char.isAlphanum) && (label.getLast?.any Char.isAlphanum)

def numeral (digits : Text) : Nat :=
  digits.foldl (fun value char => value * 10 + (char.toNat - 48)) 0

def portFits (port : Text) : Bool :=
  port = [] || (0 < numeral port.tail && numeral port.tail ≤ 65535)

def lower (text : Text) : Text := text.map Char.toLower

def addressParts (value : Text) : Except Failure (Text × Text) := do
  require (value.length ≤ 300) "invalid_internet_address"
  let handle := value.takeWhile fun char => char ≠ '@'
  let authority := (value.dropWhile fun char => char ≠ '@').tail
  require ('@' ∈ value ∧ isHandle handle ∧ isAuthority authority) "invalid_internet_address"
  require (((lower (hostOf authority)).splitOnP fun char => char = '.').all labelFits)
    "invalid_internet_address"
  require (portFits (portOf authority)) "invalid_internet_address"
  return (handle, lower authority)

/-- `handle + '@' + authority`. -/
def written (parts : Text × Text) : Text := parts.1 ++ '@' :: parts.2

/-- The authority of `account_address('@aa', service_url)`. -/
def serviceAuthority : Except Failure Text := do
  let own ← addressParts ("aa@".toList ++ world.netloc)
  let parts ← addressParts (written own)
  return parts.2

/-! Envelopes -/

/-- The signature as it stands in the envelope. -/
structure WireSignature where
  keyId : Text
  algorithm : Text
  value : Text
  deriving DecidableEq

structure Envelope where
  messageId : Text
  sender : Text
  senderSubject : Text
  recipient : Text
  recipientSubject : Text
  issuedAt : Text
  expiresAt : Text
  body : Text
  signature : WireSignature
  deriving DecidableEq

namespace Envelope

variable (envelope : Envelope)

/-- The signed members, of version 1. -/
def members : JsonMap :=
  [("version".toList, .int 1),
    ("message_id".toList, .str envelope.messageId),
    ("sender".toList, .str envelope.sender),
    ("sender_subject".toList, .str envelope.senderSubject),
    ("recipient".toList, .str envelope.recipient),
    ("recipient_subject".toList, .str envelope.recipientSubject),
    ("issued_at".toList, .str envelope.issuedAt),
    ("expires_at".toList, .str envelope.expiresAt),
    ("body".toList, .str envelope.body)]

def wire : Json :=
  .object (envelope.members ++ [("signature".toList,
    .object [("key_id".toList, .str envelope.signature.keyId),
      ("algorithm".toList, .str envelope.signature.algorithm),
      ("value".toList, .str envelope.signature.value)])])

/-- `envelope_bytes`. -/
def bytes : List UInt8 := canonical (.object envelope.members)

/-- The digest that names a message of one sender. -/
def marker : Text :=
  digest world (.array [.str envelope.senderSubject, .str envelope.sender,
    .str envelope.messageId])

def requestId : Text := "internet-".toList ++ world.sha256 (canonical envelope.wire)

end Envelope

def purpose : Text := "internet-message-v1".toList

def maxBodyBytes : Nat := 16384

def verifyEnvelope (envelope : Envelope) (publicKey : List UInt8) : Except Failure Unit := do
  let value ← unb64 maxBytes envelope.signature.value
  verify world publicKey envelope.bytes
    { keyId := envelope.signature.keyId
      algorithm := envelope.signature.algorithm
      value := value } purpose

end MsgServer.Internet
