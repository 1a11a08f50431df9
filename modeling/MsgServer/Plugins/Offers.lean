import MsgServer.Market.State

/-!
The fulfilment half of plugins/offers.py and plugins/hosting_capacity.py: the one
installed provider, which grants hosting capacity for a paid quote.
-/

namespace MsgServer.Market

open Library

def entitlementKind : String := "hosting_bytes_v1"
def maxCapacityBytes : Nat := 1024 ^ 4

/-- What a provider is told of the purchase it fulfils. -/
structure PurchaseInput where
  subjectId : String
  requestId : String
  quantity : Nat
  offer : Offer
  deriving DecidableEq

def unexpired (row : Entitlement) (now : Nat) : Bool :=
  match row.expiresAt with
  | none => true
  | some expiry => decide (now < expiry)

def extraCapacity (market : State) (subject : String) (now : Nat) : Nat :=
  ((market.entitlements.rows.filter fun row =>
    row.subjectId == subject && row.entitlementKind == entitlementKind && unexpired row now).map
      Entitlement.quantity).sum

def insertEntitlement (row : Entitlement) : Tx Unit :=
  Program.write fun market => do
    require (0 < row.quantity ∧ ∀ other ∈ market.entitlements.rows,
      ¬ (other.subjectId = row.subjectId ∧ other.purchaseRequestId = row.purchaseRequestId) ∧
        other.redeemTransactionId ≠ row.redeemTransactionId) "constraint_conflict"
    let entitlements ← insertRow market.entitlements row
    return { market with entitlements := entitlements }

def granted (terms : Terms) (purchase : PurchaseInput) (now : Nat) (transactionId : String) :
    Entitlement where
  id := terms.entitlementId purchase.subjectId purchase.requestId
  subjectId := purchase.subjectId
  offerId := purchase.offer.offerId
  purchaseRequestId := purchase.requestId
  quantity := purchase.quantity
  entitlementKind := purchase.offer.entitlementKind
  grantedAt := now
  expiresAt := purchase.offer.durationSeconds.map fun seconds => now + seconds
  redeemTransactionId := transactionId

/-- `_grant_hosting`. -/
def grantHosting (terms : Terms) (purchase : PurchaseInput) (now : Nat)
    (transactionId : String) : Tx String := do
  read fun market => require (extraCapacity market purchase.subjectId now + purchase.quantity +
    terms.baseCapacity ≤ maxCapacityBytes) "entitlement_capacity_exceeded"
  insertEntitlement (granted terms purchase now transactionId)
  return terms.entitlementId purchase.subjectId purchase.requestId

end MsgServer.Market
