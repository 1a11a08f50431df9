import MsgServer.Core.Contents

/-!
The pins of the content store of storage/git.py. A pin of a lease is a Git reference where
the index says that the content is a Git object, and a file where it says that it is one.
The name of a lease is the digest of it, a parameter. Deleting a reference or a file that is
not there does nothing.
-/

namespace MsgServer.Pins

open Library Contents

structure World where
  store : Store
  /-- `refs/pins/{name}/{key}`. -/
  refs : String → String → Option Bytes
  /-- The files of `pins/{name}/{key}`. -/
  files : String → String → Bool

def World.empty : World where
  store := Store.empty
  refs := fun _ _ => none
  files := fun _ _ => false

def World.setRef (world : World) (name digest : String) (object : Option Bytes) : World :=
  { world with
    refs := fun other key => if other = name ∧ key = digest then object else world.refs other key }

def World.setFile (world : World) (name digest : String) (present : Bool) : World :=
  { world with
    files := fun other key =>
      if other = name ∧ key = digest then present else world.files other key }

def entryOf (world : World) (digest : String) : Except Failure Contents.Entry := do
  require (isDigest digest) "invalid_digest"
  requireRow (world.store.index digest) "content_missing"

variable (hash : Hash) (nameOf : String → String)

def pin (world : World) (digest lease : String) : Except Failure World := do
  let entry ← entryOf world digest
  match entry with
  | .git object _ => return world.setRef (nameOf lease) digest (some object)
  | .binary _ => return world.setFile (nameOf lease) digest true

def unpin (world : World) (digest lease : String) : Except Failure World := do
  let entry ← entryOf world digest
  match entry with
  | .git _ _ => return world.setRef (nameOf lease) digest none
  | .binary _ => return world.setFile (nameOf lease) digest false

def pinned (world : World) (digest lease : String) : Except Failure Bool := do
  let entry ← entryOf world digest
  match entry with
  | .git _ _ => return (world.refs (nameOf lease) digest).isSome
  | .binary _ => return world.files (nameOf lease) digest

/-- `expected_digest=None` expects what the bytes have. -/
def putBytes (world : World) (data : Bytes) (mediaType : String) (expected : Option String) :
    Except Failure World := do
  let (_, store) ← put hash world.store data mediaType (expected.getD (hash.digest data))
  return { world with store }

/-! Runs -/

inductive Op
  | put (data : Bytes) (mediaType : String) (expected : Option String)
  | pin (digest lease : String)
  | unpin (digest lease : String)
  deriving DecidableEq

def Op.run (world : World) : Op → Except Failure World
  | .put data mediaType expected => putBytes hash world data mediaType expected
  | .pin digest lease => Pins.pin nameOf world digest lease
  | .unpin digest lease => Pins.unpin nameOf world digest lease

/-- A pin or an unpin that was done, the newest first. -/
structure Event where
  digest : String
  lease : String
  pins : Bool
  deriving DecidableEq

def Op.event : Op → Option Event
  | .put _ _ _ => none
  | .pin digest lease => some { digest, lease, pins := true }
  | .unpin digest lease => some { digest, lease, pins := false }

structure State where
  world : World
  events : List Event

def State.first : State where
  world := World.empty
  events := []

/-- An operation that fails leaves everything as it was. -/
def State.step (state : State) (op : Op) : State :=
  match op.run hash nameOf state.world with
  | .ok world => { world, events := op.event.toList ++ state.events }
  | .error _ => state

def runs (ops : List Op) : State := ops.foldl (State.step hash nameOf) State.first

/-- The last pin or unpin of a digest and a lease. -/
def last (events : List Event) (digest lease : String) : Option Bool :=
  (events.find? fun event => event.digest = digest ∧ event.lease = lease).map Event.pins

def isGit : Contents.Entry → Bool
  | .git _ _ => true
  | .binary _ => false

/-- What the store promises of the leases that are used. -/
structure Coherent (leases : String → Prop) (state : State) : Prop where
  pinned : ∀ digest lease entry, leases lease → state.world.store.index digest = some entry →
    (pinned nameOf state.world digest lease = .ok true ↔
      last state.events digest lease = some true)
  cleared : ∀ digest lease, leases lease → last state.events digest lease = some false →
    state.world.refs (nameOf lease) digest = none ∧
      state.world.files (nameOf lease) digest = false
  read : ∀ data ∈ state.world.store.seen, ∀ mediaType,
    read state.world.store { digest := hash.digest data, size := data.length, mediaType } =
      .ok data

/-- The operation puts content that a lease holds under the other kind of media type. -/
def Switches (leases : String → Prop) (world : World) : Op → Prop
  | .put data mediaType expected =>
      expected.getD (hash.digest data) = hash.digest data ∧
        ∃ entry, world.store.index (hash.digest data) = some entry ∧
          isGit entry ≠ isText mediaType ∧
          ∃ lease, leases lease ∧ Pins.pinned nameOf world (hash.digest data) lease = .ok true
  | .pin _ _ => False
  | .unpin _ _ => False

end MsgServer.Pins
