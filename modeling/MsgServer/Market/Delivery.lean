import MsgServer.Market.Escrow

/-!
market/delivery.py and market/managed_delivery.py: a deposited package or the
seller's own payload becomes the one delivery of an order, and the buyer's signed
acceptance releases the escrow. Reading a delivery, transfers and the inbox are
left out; the bytes of blobs are what the world says of them.
-/

namespace MsgServer.Market

open Library Ledger

variable (terms : Terms) (world : World)

def packageKinds : List ItemKind := [.file, .bundle, .text]

/-- The deposited snapshot that a package digest commits to. -/
def Package.snapshot (row : Package) : Package := { row with id := "", digest := "" }

def packageMatches (order : Order) (row : Package) : Prop :=
  row.listingId = order.listingId ∧ row.seller = order.seller ∧
    some row.revision = order.packageRevision ∧ some row.digest = order.packageDigest ∧
    row.deliveryMode = .managedInstant

instance (order : Order) (row : Package) : Decidable (packageMatches order row) :=
  inferInstanceAs (Decidable (_ ∧ _))

def verifyBlobs (refs : List PayloadRef) : Except Failure Unit :=
  refs.forM fun ref => verifyBlob world ref.blob

def totalBytes (refs : List PayloadRef) : Nat := (refs.map fun ref => ref.blob.size).sum

/-- `package` of market/delivery.py. -/
def readPackage (order : Order) : Except Failure Package := do
  let row ← requireRow (order.packageId.bind world.package) "package_missing"
  require (packageMatches order row ∧ row.kind ∈ packageKinds) "package_digest_mismatch"
  require (some (terms.packageDigest row.snapshot) = order.packageDigest ∧
    row.totalSize ≤ 1024 ^ 4) "package_digest_mismatch"
  require (1 ≤ row.payloadRefs.length ∧ row.payloadRefs.length ≤ 32) "package_digest_mismatch"
  verifyBlobs world row.payloadRefs
  require (totalBytes row.payloadRefs = row.totalSize) "package_digest_mismatch"
  return row

/-- `order['package_digest'] or contract_digest(order)`. -/
def deliveredDigest (order : Order) : String :=
  match order.packageDigest.filter fun digest => digest != "" with
  | some digest => digest
  | none => terms.termsCommitment order.listingRevision order.termsDigest

def bodyFor (order : Order) (deliveryId : String) (kind : ItemKind) (manifest : String)
    (refs : List PayloadRef) : DeliveryBody :=
  ⟨deliveryId, order.id, order.buyer, kind, manifest, refs, deliveredDigest terms order, "site"⟩

def encryptionCheck (market : State) (order : Order) : Except Failure Unit := do
  let locked ← contract terms market order.id
  let key ← requireRow locked.recipientKey "delivery_recipient_mismatch"
  let row ← requireRow (world.subkey key.keyId) "delivery_recipient_mismatch"
  require (row.subject = order.buyer ∧ row.recipient = key.recipient ∧ row.retired = false)
    "delivery_recipient_mismatch"

/-- `validate_target` of market/targets.py, without its email half. -/
def validateTarget (market : State) (order : Order) (encryption : Bool) : Except Failure Unit := do
  require (order.deliveryTarget.subjectId = order.buyer ∧ order.deliveryTarget.channel = "site")
    "delivery_recipient_mismatch"
  if encryption = true then encryptionCheck terms world market order else .ok ()

def saveTarget (order : Order) (target : Target) : Tx Order := do
  updateOrder order.id fun row => { row with deliveryTarget := target }
  return { order with deliveryTarget := target }

/-- Mail only ever changes the email part of the target. -/
def enqueueNotification (order : Order) : Tx Order := do
  let email ← read fun _ => world.mail order
  match email with
  | none => return order
  | some email => saveTarget order { order.deliveryTarget with email := some email }

structure Prepared where
  kind : ItemKind
  manifest : String
  refs : List PayloadRef
  /-- The sealed envelope, less the order and the recipient it is for. -/
  sealed : Option (Option RecipientKey × PayloadRef × String)

def newDelivery (order : Order) (now : Nat) (goods : Prepared) : Delivery where
  id := "dlv_" ++ world.entropy
  orderId := order.id
  recipientSubject := order.buyer
  kind := goods.kind
  payloadRefs := goods.refs
  manifest := goods.manifest
  packageDigest := deliveredDigest terms order
  deliveryDigest := terms.deliveryDigest
    (bodyFor terms order ("dlv_" ++ world.entropy) goods.kind goods.manifest goods.refs)
  channel := "site"
  state := .prepared
  preparedAt := now
  claimedAt := none
  receipt := none

def storeEnvelope (order : Order) : Option (Option RecipientKey × PayloadRef × String) → Tx Unit
  | none => pure ()
  | some (key, payload, digest) =>
      insertEnvelope ⟨order.id, order.buyer, key, payload, digest⟩

/-- The one delivery of a funded order. -/
def storeDelivery (order : Order) (origin : Origin) (goods : Prepared) : Tx Order := do
  read fun _ => require (order.state = .funded ∧ order.deliveredAt = none) "order_not_deliverable"
  read fun market => validateTarget terms world market order goods.sealed.isSome
  insertDelivery (newDelivery terms world order origin.now goods)
  storeEnvelope order goods.sealed
  let delivered ← transition terms order .delivered origin .verifiedDelivery
  updateOrder order.id fun row => { row with deliveredAt := some origin.now }
  return { delivered with deliveredAt := some origin.now }

/-- `prepare`. -/
def prepare (order : Order) (origin : Origin) (goods : Prepared) : Tx Order := do
  let delivered ← storeDelivery terms world order origin goods
  enqueueNotification world delivered

def plainSettlement (origin : Origin) (reason : Reason) (refundMinor : Int) : SettleRequest where
  origin := origin
  reason := reason
  refundMinor := refundMinor
  decision := none
  fulfill := none

/-- The faults of storage that refund; anything else is raised again. -/
def packageFault (failure : Failure) : Option Reason :=
  if failure.code = "package_missing" then some .packageMissing
  else if failure.code = "package_digest_mismatch" then some .packageDigestMismatch
  else none

def refundFault (order : Order) (origin : Origin) (failure : Failure) : Tx Order :=
  match packageFault failure with
  | none => throw failure
  | some reason => do
      let (refunded, _) ← settle terms world order
        (plainSettlement origin reason order.totalPriceMinor)
      return refunded

def acceptInstant (order : Order) (origin : Origin) (locked : Contract) : Tx Order :=
  if locked.version = 4 then pure order
  else do
    let accepted ← transition terms order .accepted origin .managedInstantVerified
    let (settled, _) ← settle terms world accepted
      (plainSettlement origin .managedInstantVerified 0)
    return settled

def deliverPackage (order : Order) (origin : Origin) (row : Package) : Tx Order := do
  let prepared ← prepare terms world order origin ⟨row.kind, row.manifest, row.payloadRefs, none⟩
  let locked ← read fun market => contract terms market order.id
  acceptInstant terms world prepared origin locked

/-- Prepares automatically; releases only under the pinned settlement policy. -/
def automatic (order : Order) (origin : Origin) : Tx Order :=
  match readPackage terms world order with
  | .error failure => refundFault terms world order origin failure
  | .ok row => deliverPackage terms world order origin row

def packageStands (order : Order) (delivery : Delivery) : Except Failure Unit := do
  let row ← requireRow (order.packageId.bind world.package) "delivery_digest_mismatch"
  require (some row.digest = order.packageDigest ∧ row.manifest = delivery.manifest ∧
    row.payloadRefs = delivery.payloadRefs) "delivery_digest_mismatch"

def envelopeStands (market : State) (order : Order) (locked : Contract) (delivery : Delivery) :
    Except Failure Unit := do
  let envelope ← requireRow (market.envelopes.find? order.id) "delivery_digest_mismatch"
  require (envelope.recipientSubject = order.buyer ∧ envelope.recipientKey = locked.recipientKey ∧
    some envelope.ciphertextRef = delivery.payloadRefs.head?) "delivery_recipient_mismatch"

def goodsStand (market : State) (order : Order) (locked : Contract) (delivery : Delivery) :
    Except Failure Unit :=
  match locked.listing.deliveryMode with
  | .managedInstant => packageStands world order delivery
  | .sealedManual => envelopeStands market order locked delivery
  | .service => .ok ()

/-- `verified`. -/
def verifiedDelivery (market : State) (order : Order) : Except Failure Delivery := do
  let delivery ← requireRow (market.deliveries.find? order.id) "delivery_not_found"
  validateTarget terms world market order false
  require (delivery.recipientSubject = order.buyer) "delivery_recipient_mismatch"
  require (delivery.packageDigest = deliveredDigest terms order ∧
    delivery.deliveryDigest = terms.deliveryDigest
      (bodyFor terms order delivery.id delivery.kind delivery.manifest delivery.payloadRefs))
    "delivery_digest_mismatch"
  let locked ← contract terms market order.id
  goodsStand world market order locked delivery
  verifyBlobs world delivery.payloadRefs
  return delivery

def origin (request : Request) (actor : String) : Origin := ⟨world.now, actor, request.requestId⟩

structure Acceptance where
  request : Request
  orderId : String
  deliveryDigest : String

def acknowledge (order : Order) (delivery : Delivery) (buyer : String) (request : Request)
    (row : Delivery) : Delivery :=
  { row with
    state := .claimed
    claimedAt := some world.now
    receipt := some (.acknowledged
      ⟨order.id, delivery.id, buyer, delivery.deliveryDigest, request.payloadDigest, world.now⟩) }

/-- A delivered order is accepted and settled; a settled one only acknowledged. -/
def acceptDelivered (order : Order) (origin : Origin) : Tx Order :=
  if order.state = .delivered then do
    let accepted ← transition terms order .accepted origin .buyerAcceptance
    let (settled, _) ← settle terms world accepted (plainSettlement origin .buyerAcceptance 0)
    return settled
  else pure order

def acceptUnclaimed (request : Request) (order : Order) (delivery : Delivery) (buyer : String) :
    Tx Unit :=
  if delivery.state = .claimed then pure ()
  else do
    let _ ← acceptDelivered terms world order (origin world request buyer)
    updateDelivery order.id (acknowledge world order delivery buyer request)

/-- `accept`. -/
def acceptDelivery (acceptance : Acceptance) : Tx Unit := do
  let buyer ← read fun _ => signedSubject acceptance.request
  let order ← read fun market => readBuyerOrder market acceptance.orderId buyer
  let delivery ← read fun market => verifiedDelivery terms world market order
  read fun _ => require (delivery.deliveryDigest = acceptance.deliveryDigest) "delivery_mismatch"
  read fun _ => require (order.state = .delivered ∨ order.state = .settled)
    "delivery_not_acceptable"
  acceptUnclaimed terms world acceptance.request order delivery buyer

/-- delivery.prepare@2. -/
def prepareOrder (request : Request) (orderId : String) : Tx Unit := do
  let buyer ← read fun _ => signedSubject request
  let order ← read fun market => readBuyerOrder market orderId buyer
  let locked ← read fun market => contract terms market order.id
  read fun _ => require (locked.listing.deliveryMode = .managedInstant) "seller_delivery_required"
  if order.state = .funded then do
    let _ ← automatic terms world order (origin world request buyer)
    return ()
  else return ()

/-- `payload` is what the seller's resource, its revision and its bytes answer. -/
structure Submission where
  request : Request
  orderId : String
  payload : Except Failure PayloadRef
  payloadDigest : String
  recipientKeyId : Option String
  ageEncrypted : Bool

def sealedGoods (market : State) (submission : Submission) (order : Order) (locked : Contract)
    (payload : PayloadRef) : Except Failure Prepared := do
  validateTarget terms world market order true
  require (submission.recipientKeyId = locked.recipientKey.map RecipientKey.keyId)
    "delivery_recipient_mismatch"
  require (submission.ageEncrypted = true) "encrypted_delivery_required"
  return ⟨locked.listing.itemKind, "age-x25519", [payload],
    some (locked.recipientKey, payload, submission.request.payloadDigest)⟩

def submittedGoods (market : State) (submission : Submission) (order : Order) (locked : Contract)
    (payload : PayloadRef) : Except Failure Prepared :=
  if locked.listing.deliveryMode = .sealedManual then
    sealedGoods terms world market submission order locked payload
  else do
    require (submission.recipientKeyId = none) "unexpected_recipient_key"
    return ⟨locked.listing.itemKind, "service-evidence", [payload], none⟩

def submissionDeadline (order : Order) (locked : Contract) : Except Failure Unit := do
  let fundedAt ← requireRow order.fundedAt "internal_error"
  require (world.now < fundedAt + locked.policy.deliveryTimeout) "delivery_deadline_passed"

/-- delivery.submit@1. -/
def submitDelivery (submission : Submission) : Tx Unit := do
  let seller ← read fun _ => signedSubject submission.request
  let order ← read fun market => readOrder market submission.orderId seller
  read fun _ => require (order.seller = seller) "order_not_found"
  let locked ← read fun market => contract terms market order.id
  read fun _ => require (locked.listing.deliveryMode = .sealedManual ∨
    locked.listing.deliveryMode = .service) "order_delivery_mode_unsupported"
  read fun _ => require (order.state = .funded) "order_not_deliverable"
  read fun _ => submissionDeadline world order locked
  let payload ← read fun _ => submission.payload
  read fun _ => require (payload.blob.digest = submission.payloadDigest) "delivery_digest_mismatch"
  let goods ← read fun market => submittedGoods terms world market submission order locked payload
  let _ ← prepare terms world order (origin world submission.request seller) goods
  return ()

/-! The managed deliveries of published checkouts. -/

def maxInlineBytes : Nat := 1024 * 1024

def legacyTarget (order : Order) : Prop := order.deliveryTarget = ⟨order.buyer, "site", none, none⟩

instance (order : Order) : Decidable (legacyTarget order) :=
  inferInstanceAs (Decidable (_ = _))

/-- `read_managed_package`. -/
def readManagedPackage (order : Order) : Except Failure Package := do
  let row ← requireRow (order.packageId.bind world.package) "delivery_package_mismatch"
  require (packageMatches order row ∧ (row.kind = .file ∨ row.kind = .bundle))
    "delivery_package_mismatch"
  require (some (terms.packageDigest row.snapshot) = order.packageDigest ∧
    row.totalSize ≤ maxInlineBytes) "delivery_package_mismatch"
  require (row.payloadRefs ≠ [] ∧ (row.kind = .bundle ∨ row.payloadRefs.length = 1))
    "delivery_package_mismatch"
  require (∀ ref ∈ row.payloadRefs, ref.blob.size ≤ maxInlineBytes) "delivery_package_mismatch"
  verifyBlobs world row.payloadRefs
  require (totalBytes row.payloadRefs = row.totalSize) "delivery_package_mismatch"
  return row

def managedBody (order : Order) (deliveryId : String) (row : Package) : DeliveryBody :=
  ⟨deliveryId, order.id, order.buyer, row.kind, row.manifest, row.payloadRefs,
    order.packageDigest.getD "", "site"⟩

/-- `validate_target(order, delivery)` and `verify_managed_delivery`. -/
def verifyManaged (order : Order) (delivery : Option Delivery) : Except Failure Delivery := do
  require (legacyTarget order) "delivery_recipient_mismatch"
  let stored ← requireRow delivery "delivery_mismatch"
  require (stored.orderId = order.id ∧ stored.recipientSubject = order.buyer ∧
    stored.channel = "site") "delivery_recipient_mismatch"
  require (some stored.packageDigest = order.packageDigest) "delivery_mismatch"
  let row ← readManagedPackage terms world order
  require (stored.kind = row.kind ∧ stored.manifest = row.manifest ∧
    stored.payloadRefs = row.payloadRefs ∧
    stored.deliveryDigest = terms.deliveryDigest (managedBody order stored.id row))
    "delivery_mismatch"
  return stored

def managedDelivery (order : Order) (row : Package) : Delivery where
  id := "dlv_" ++ world.entropy
  orderId := order.id
  recipientSubject := order.buyer
  kind := row.kind
  payloadRefs := row.payloadRefs
  manifest := row.manifest
  packageDigest := order.packageDigest.getD ""
  deliveryDigest := terms.deliveryDigest (managedBody order ("dlv_" ++ world.entropy) row)
  channel := "site"
  state := .prepared
  preparedAt := world.now
  claimedAt := none
  receipt := none

def undelivered (buyer : String) (row : Order) : Bool :=
  row.buyer == buyer && row.state == .funded && row.deliveredAt == none

def markDelivered (now : Nat) (row : Order) : Order :=
  { row with state := .delivered, deliveredAt := some now }

/-- `prepare_managed`: prepares inside the caller's transaction. -/
def prepareManaged (order : Order) : Tx Unit := do
  read fun _ => require (order.state = .funded ∧ order.deliveredAt = none) "order_not_deliverable"
  read fun _ => require (legacyTarget order) "delivery_recipient_mismatch"
  read fun market => require (order.currencyId = currencyId ∧
    balance market.books order.escrowSubject = order.totalPriceMinor) "escrow_balance_mismatch"
  let row ← read fun _ => readManagedPackage terms world order
  insertDelivery (managedDelivery terms world order row)
  updateOrderWhere order.id (undelivered order.buyer) "order_not_deliverable"
    (markDelivered world.now)

/-- delivery.prepare@1. -/
def prepareLegacy (request : Request) (orderId : String) : Tx Unit := do
  let buyer ← read fun _ => signedSubject request
  let order ← read fun market => readBuyerOrder market orderId buyer
  prepareManaged terms world order

end MsgServer.Market
