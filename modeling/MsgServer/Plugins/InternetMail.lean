import MsgServer.Core.InternetAddress

/-!
The mail between services of plugins/internet.py: contacts, inbox and replay fences of each
account, and the four operations that change them. What a transaction reads beside the mail
is given with each request.
-/

namespace MsgServer.Internet

open Library Codec

structure Contact where
  address : Text
  subjectId : Text
  publicKey : Text
  keyId : Text
  deriving DecidableEq

structure Message where
  envelope : Envelope
  receivedAt : Text
  id : Text
  deriving DecidableEq

structure Seen where
  marker : Text
  digest : Text
  expiresAt : Text
  deriving DecidableEq

/-- The setting `internet-mail:` of one account. -/
structure Mail where
  contacts : Table Contact.address
  messages : List Message
  seen : Table Seen.marker

def Mail.empty : Mail := { contacts := Table.empty, messages := [], seen := Table.empty }

def maxContacts : Nat := 100
def maxMessages : Nat := 64
def maxSeen : Nat := 1024

abbrev Settings := Text → Mail

def noMail : Settings := fun _ => Mail.empty

def Settings.set (settings : Settings) (subject : Text) (mail : Mail) : Settings :=
  Function.update settings subject mail

@[simp] theorem Settings.set_self (settings : Settings) (subject : Text) (mail : Mail) :
    settings.set subject mail subject = mail := Function.update_self ..

theorem Settings.set_ne (settings : Settings) {subject other : Text} (mail : Mail)
    (different : other ≠ subject) : settings.set subject mail other = settings other :=
  Function.update_of_ne different ..

structure Principal where
  subject : Option Text
  actor : Option Text
  method : Text

structure Account where
  type : Text
  state : Text

/-- What the transaction of one request finds: `Authorizer.require_base`, the rows of the
accounts, the handles, and the settings of the service. -/
structure Facts where
  requireBase : Text → Text → Except Failure Unit
  resource : Text → Except Failure Account
  resolve : Text → Except Failure Text
  archived : Text → Bool
  acceptWrites : Bool

inductive Call where
  | allow (address subjectId publicKey : Text)
  | revoke (address : Text)
  | receive (envelope : Envelope)
  | delete (id : Text)

structure Request where
  principal : Principal
  requestId : Text
  now : Int
  facts : Facts
  call : Call

/-- The data of a handler's output. -/
inductive Data where
  | allowed (address keyId : Text)
  | revoked (address : Text)
  | received (messageId : Text) (duplicate : Bool)
  | deleted (id : Text)
  deriving DecidableEq

variable (world : World)

def owner (request : Request) (operation : Text) : Except Failure Text := do
  let subject ← requireRow request.principal.subject "authentication_required"
  require (request.principal.actor = some subject) "authentication_required"
  request.facts.requireBase operation subject
  let account ← request.facts.resource subject
  require (account.state = "active".toList) "not_found"
  return subject

/-! Contacts -/

def allow (request : Request) (address subjectId publicKey : Text) (settings : Settings) :
    Except Failure (Data × Settings) := do
  let subject ← owner request "communication.internet_allow".toList
  let parts ← addressParts address
  let bytes ← unb64 32 publicKey
  require (bytes.length = 32) "invalid_public_key"
  let mail := settings subject
  require (mail.contacts.contains (written parts) ∨ mail.contacts.rows.length < maxContacts)
    "internet_contacts_full"
  let contact : Contact :=
    { address := written parts, subjectId := subjectId, publicKey := publicKey
      keyId := keyId world bytes }
  return (.allowed (written parts) (keyId world bytes),
    settings.set subject { mail with contacts := mail.contacts.put contact })

def revoke (request : Request) (address : Text) (settings : Settings) :
    Except Failure (Data × Settings) := do
  let subject ← owner request "communication.internet_revoke".toList
  let parts ← addressParts address
  let mail := settings subject
  return (.revoked (written parts),
    settings.set subject { mail with contacts := mail.contacts.delete (written parts) })

/-! Delivery -/

/-- The signature, checked with the recorded key. -/
def verifySender (contact : Contact) (envelope : Envelope) : Except Failure Unit := do
  let publicKey ← unb64 32 contact.publicKey
  verifyEnvelope world envelope publicKey

/-- The times, in microseconds. -/
def verifyTimes (now : Int) (envelope : Envelope) : Except Failure Unit := do
  let issued ← world.parseTime envelope.issuedAt
  let expires ← world.parseTime envelope.expiresAt
  require (issued ≤ now + 30000000 ∧ issued < expires ∧ expires ≤ issued + 600000000 ∧
    now < expires) "internet_message_expired"

/-- The account that the envelope is for. -/
def recipientOf (facts : Facts) (envelope : Envelope) : Except Failure Text := do
  let sender ← addressParts envelope.sender
  require (envelope.sender = written sender) "invalid_internet_address"
  let recipient ← addressParts envelope.recipient
  let own ← serviceAuthority world
  require (recipient.2 = own) "internet_wrong_recipient"
  let subject ← facts.resolve ("/@".toList ++ recipient.1)
  let account ← facts.resource subject
  require (account.type = "user".toList ∧ account.state = "active".toList ∧
    facts.archived subject = false ∧ subject = envelope.recipientSubject)
    "internet_wrong_recipient"
  return subject

/-- The checks of `receive`, up to the replay fence; they give the recipient. -/
def screen (request : Request) (envelope : Envelope) (settings : Settings) :
    Except Failure Text := do
  require (request.principal.method = "anonymous".toList) "anonymous_only"
  require (request.facts.acceptWrites = true) "writes_paused"
  let subject ← recipientOf world request.facts envelope
  let contact ← requireRow ((settings subject).contacts.find? envelope.sender)
    "internet_sender_not_allowed"
  require (contact.subjectId = envelope.senderSubject) "internet_sender_not_allowed"
  verifySender world contact envelope
  verifyTimes world request.now envelope
  require (size envelope.body ≤ maxBodyBytes) "internet_body_too_large"
  require (request.requestId = envelope.requestId world) "internet_request_id_mismatch"
  return subject

/-- Every record of the fence has a date. -/
def parseAll : List Seen → Except Failure Unit
  | [] => .ok ()
  | row :: rest => do
      let _ ← world.parseTime row.expiresAt
      parseAll rest

/-- `parse_time(v['expires_at']) > ctx.now`. -/
def unexpired (now : Int) (row : Seen) : Bool :=
  match world.parseTime row.expiresAt with
  | .ok expires => now < expires
  | .error _ => false

def purge (now : Int) (seen : Table Seen.marker) : Except Failure (Table Seen.marker) := do
  parseAll world seen.rows
  return seen.keep (unexpired world now)

/-- The mail with a new message and its fence. -/
def file (now : Int) (envelope : Envelope) (mail : Mail) (seen : Table Seen.marker) : Mail :=
  { mail with
    messages := mail.messages ++ [
      { envelope := envelope, receivedAt := world.timestamp now, id := envelope.marker world }]
    seen := seen.put
      { marker := envelope.marker world, digest := digest world envelope.wire
        expiresAt := envelope.expiresAt } }

def receive (request : Request) (envelope : Envelope) (settings : Settings) :
    Except Failure (Data × Settings) := do
  let subject ← screen world request envelope settings
  let mail := settings subject
  let seen ← purge world request.now mail.seen
  match seen.find? (envelope.marker world) with
  | some previous => do
      require (previous.digest = digest world envelope.wire) "internet_message_conflict"
      return (.received envelope.messageId true, settings)
  | none => do
      require (mail.messages.length < maxMessages ∧ seen.rows.length < maxSeen)
        "internet_inbox_full"
      return (.received envelope.messageId false,
        settings.set subject (file world request.now envelope mail seen))

/-! The inbox -/

def Mail.drop (mail : Mail) (id : Text) : Mail :=
  { mail with messages := mail.messages.filter fun message => message.id ≠ id }

def delete (request : Request) (id : Text) (settings : Settings) :
    Except Failure (Data × Settings) := do
  let subject ← owner request "communication.internet_delete".toList
  return (.deleted id, settings.set subject ((settings subject).drop id))

def act (request : Request) (settings : Settings) : Except Failure (Data × Settings) :=
  match request.call with
  | .allow address subjectId publicKey => allow world request address subjectId publicKey settings
  | .revoke address => revoke request address settings
  | .receive envelope => receive world request envelope settings
  | .delete id => delete request id settings

end MsgServer.Internet
