import Mathlib.Data.Finset.Card
import Mathlib.Order.Defs.LinearOrder
import MsgServer.Core.Models

/-!
The registry of transports/flight_simulation.py: which ships a world holds, who
flies them and which ticket brings one back. Instants are read off an arbitrary
linearly ordered clock, and `stale` is its own arithmetic for the retention. The
physical half of a ship is one value, and every call carries what the physics made
of it, so the results hold for any rounding. Events, collectibles and gravity are
left out: nothing here reads them.
-/

namespace MsgServer.Flight

open Library

abbrev Index (κ : Type) := Table (Prod.fst : κ × String → κ)

def Index.get {κ : Type} [DecidableEq κ] (index : Index κ) (key : κ) : Option String :=
  (index.find? key).map Prod.snd

@[simp] theorem Index.get_put {κ : Type} [DecidableEq κ] (index : Index κ) (key wanted : κ)
    (value : String) :
    Index.get (index.put (key, value)) wanted = if key = wanted then some value else index.get wanted := by
  unfold Index.get
  rw [Table.find?_put]
  by_cases same : key = wanted
  · simp [same]
  · simp [same]

@[simp] theorem Index.get_delete {κ : Type} [DecidableEq κ] (index : Index κ) (key wanted : κ) :
    Index.get (index.delete key) wanted = if wanted = key then none else index.get wanted := by
  unfold Index.get
  rw [Table.find?_delete]
  by_cases same : wanted = key
  · simp [same]
  · simp [same]

@[simp] theorem Index.get_empty {κ : Type} [DecidableEq κ] (wanted : κ) :
    Index.get (Table.empty : Index κ) wanted = none := rfl

structure Ship (τ β : Type) where
  id : String
  subjectId : Option String
  handle : String
  guest : Bool
  publicSubjectId : Option String
  ackSeq : Int := -1
  offlineSince : Option τ := none
  body : β

/-- What the constructor has checked. -/
structure Limits (τ : Type) where
  maxPlayers : Nat
  maxRetained : Nat
  /-- `now - since >= retention_seconds` -/
  stale : τ → τ → Bool
  players : 1 ≤ maxPlayers ∧ maxPlayers ≤ 96
  retained : maxPlayers ≤ maxRetained ∧ maxRetained ≤ 512

structure World (τ β : Type) where
  ships : Table (Ship.id : Ship τ β → String)
  active : Finset String
  subjects : Index (Option String)
  tickets : Index String
  shipTickets : Index String
  lastStep : τ

/-- `__init__` and `clear`. -/
def World.empty {τ β : Type} (now : τ) : World τ β :=
  ⟨Table.empty, ∅, Table.empty, Table.empty, Table.empty, now⟩

/-- What the physics of one call makes of a ship that is there and of one that is born. -/
structure Physics (τ β : Type) where
  settle : Ship τ β → β
  birth : β

/-- `inside` says that both spawn fields are given, the position lies in the world and
the region is one of the nineteen. -/
structure Spawn where
  inside : Bool

/-- `publicSubjectId` is absent or given, and then perhaps null. -/
structure Identity where
  subjectId : Option String
  handle : String
  guest : Bool
  publicSubjectId : Option (Option String)
  spawn : Option Spawn

/-- What `secrets` draws for one join. -/
structure Draw where
  hex : String
  ticket : String

def Draw.shipId (draw : Draw) : String := "ship_" ++ draw.hex

/-- `inRange` stands for the checks on the five numbers, the brake and the set of keys. -/
structure Packet where
  v : Int
  type : String
  seq : Int
  inRange : Bool
  actions : List String

variable {τ β : Type}

def withBody (physics : Physics τ β) (ship : Ship τ β) : Ship τ β :=
  { ship with body := physics.settle ship }

def World.revise (world : World τ β) (shipId : String) (change : Ship τ β → Ship τ β) :
    World τ β :=
  { world with ships := world.ships.modify shipId change }

def dropSubject (subjects : Index (Option String)) (ship : Ship τ β) : Index (Option String) :=
  if ship.subjectId.isSome then subjects.delete ship.subjectId else subjects

/-- `_remove`. -/
def remove (world : World τ β) (shipId : String) : Except Failure (World τ β) := do
  let ship ← requireRow (world.ships.find? shipId) "KeyError"
  let ticket ← requireRow (world.shipTickets.get shipId) "KeyError"
  return { world with
    ships := world.ships.delete shipId
    subjects := dropSubject world.subjects ship
    shipTickets := world.shipTickets.delete shipId
    tickets := world.tickets.delete ticket }

/-- The last four assignments of a birth. -/
def dock (world : World τ β) (ship : Ship τ β) (ticket : String) : World τ β :=
  { world with
    ships := world.ships.put ship
    shipTickets := world.shipTickets.put (ship.id, ticket)
    tickets := world.tickets.put (ticket, ship.id) }

def enlist (world : World τ β) (ship : Ship τ β) : World τ β :=
  { world with subjects := world.subjects.put (ship.subjectId, ship.id) }

def claim (world : World τ β) (ship : Ship τ β) : World τ β :=
  if ship.subjectId.isSome then enlist world ship else world

def board (world : World τ β) (ship : Ship τ β) : World τ β :=
  { world with active := insert ship.id world.active }

variable (limits : Limits τ)

def expired (now : τ) (world : World τ β) (ship : Ship τ β) : Bool :=
  decide (ship.id ∉ world.active) && ship.offlineSince.any (limits.stale now)

/-- `_prune` goes over the ships as they were when it began. -/
def prune (now : τ) (world : World τ β) : Except Failure (World τ β) :=
  world.ships.rows.foldlM
    (fun left ship => if expired limits now left ship then remove left ship.id else .ok left) world

section Oldest

variable [LinearOrder τ]

/-- One comparison of `min`; None does not compare. -/
def older (best ship : Ship τ β) : Except Failure (Ship τ β) :=
  match best.offlineSince, ship.offlineSince with
  | some left, some right => .ok (if right < left then ship else best)
  | _, _ => .error { code := "TypeError" }

def oldest : List (Ship τ β) → Except Failure (Ship τ β)
  | [] => .error { code := "world_full" }
  | ship :: rest => rest.foldlM older ship

def candidates (world : World τ β) : List (Ship τ β) :=
  world.ships.rows.filter fun ship => decide (ship.id ∉ world.active)

/-- `_free_retained_slot`. -/
def freeRetainedSlot (world : World τ β) : Except Failure (World τ β) :=
  if world.ships.rows.length < limits.maxRetained then .ok world
  else do
    let ship ← oldest (candidates world)
    remove world ship.id

end Oldest

def publicId (identity : Identity) : Option String :=
  identity.publicSubjectId.getD identity.subjectId

def plainCharacter (character : Char) : Bool := 32 ≤ character.toNat && character.toNat != 127

def subjectFits (identity : Identity) : Prop :=
  identity.guest = true ∧ identity.subjectId = none ∨
    identity.guest = false ∧
      ∃ subject ∈ identity.subjectId, 1 ≤ subject.length ∧ subject.length ≤ 160

instance (identity : Identity) : Decidable (subjectFits identity) :=
  inferInstanceAs (Decidable (_ ∨ _))

/-- The checks with which `join` begins. -/
def checkIdentity (identity : Identity) : Except Failure Unit := do
  require (1 ≤ identity.handle.length ∧ identity.handle.length ≤ 160 ∧
    identity.handle.toList.all plainCharacter = true) "invalid_identity"
  require (subjectFits identity) "invalid_identity"
  require (publicId identity = none ∨ publicId identity = identity.subjectId) "invalid_identity"
  require (identity.guest = true ∨ publicId identity ≠ none ∨ identity.spawn ≠ none)
    "invalid_spawn"
  require (∀ spawn ∈ identity.spawn, identity.guest = false ∧ spawn.inside = true) "invalid_spawn"

/-- The ship that comes back: the one the ticket names, else the one of the subject. -/
def requestedShip (world : World τ β) (identity : Identity) : Option String →
    Except Failure (Option String)
  | none => .ok (if identity.subjectId.isSome then world.subjects.get identity.subjectId else none)
  | some ticket => do
      require (20 ≤ ticket.length ∧ ticket.length ≤ 128) "invalid_resume"
      let shipId ← requireRow (world.tickets.get ticket) "invalid_resume"
      let ship ← requireRow (world.ships.find? shipId) "KeyError"
      require (ship.subjectId = identity.subjectId) "invalid_resume"
      return some shipId

/-- A join past its checks. -/
structure Entry (τ β : Type) where
  now : τ
  identity : Identity
  draw : Draw
  physics : Physics τ β

def projected (entry : Entry τ β) (old : Ship τ β) : Ship τ β :=
  { old with
    id := entry.draw.shipId
    publicSubjectId := publicId entry.identity
    handle := entry.identity.handle
    offlineSince := none
    body := entry.physics.birth }

/-- `_change_projection`. -/
def changeProjection (world : World τ β) (entry : Entry τ β) (old : Ship τ β) :
    Except Failure (World τ β × Ship τ β) := do
  let left ← remove world old.id
  return (dock (enlist left (projected entry old)) (projected entry old) entry.draw.ticket,
    projected entry old)

def handled (identity : Identity) (ship : Ship τ β) : Ship τ β :=
  if publicId identity = none then ship else { ship with handle := identity.handle }

/-- The returning ship under the identity it now shows. -/
def presented (world : World τ β) (entry : Entry τ β) (ship : Ship τ β) :
    Except Failure (World τ β × Ship τ β) :=
  if ship.publicSubjectId = publicId entry.identity then
    .ok (world.revise ship.id (handled entry.identity), handled entry.identity ship)
  else changeProjection world entry ship

def awake (physics : Physics τ β) (ship : Ship τ β) : Ship τ β :=
  { ship with offlineSince := none, body := physics.settle ship }

def resumeShip (world : World τ β) (entry : Entry τ β) (shipId : String) :
    Except Failure (World τ β × String × String) := do
  let ship ← requireRow (world.ships.find? shipId) "KeyError"
  let (shown, current) ← presented world entry ship
  let ticket ← requireRow (shown.shipTickets.get current.id) "KeyError"
  return (board (shown.revise current.id (awake entry.physics)) current, current.id, ticket)

def newborn (entry : Entry τ β) : Ship τ β where
  id := entry.draw.shipId
  subjectId := entry.identity.subjectId
  handle := entry.identity.handle
  guest := entry.identity.guest
  publicSubjectId := publicId entry.identity
  body := entry.physics.birth

section Join

variable [LinearOrder τ]

def newShip (world : World τ β) (entry : Entry τ β) :
    Except Failure (World τ β × String × String) := do
  let left ← freeRetainedSlot limits world
  return (dock (claim (board left (newborn entry)) (newborn entry)) (newborn entry)
    entry.draw.ticket, entry.draw.shipId, entry.draw.ticket)

/-- A world without players starts its physical clock again. -/
def resumedClock (now : τ) (world : World τ β) : World τ β :=
  if world.active = ∅ then { world with lastStep := now } else world

def seat (world : World τ β) (entry : Entry τ β) :
    Option String → Except Failure (World τ β × String × String)
  | some shipId => resumeShip world entry shipId
  | none => newShip limits world entry

/-- `join` on the world that `_prune` left. -/
def enter (world : World τ β) (entry : Entry τ β) (resume : Option String) :
    Except Failure (World τ β × String × String) := do
  checkIdentity entry.identity
  let target ← requestedShip world entry.identity resume
  require (∀ shipId ∈ target, shipId ∉ world.active) "identity_active"
  require (world.active.card < limits.maxPlayers) "world_full"
  seat limits (resumedClock entry.now world) entry target

/-- `join`: whatever it refuses, the stale ships are gone. -/
def join (world : World τ β) (entry : Entry τ β) (resume : Option String) :
    World τ β × Except Failure (String × String) :=
  match prune limits entry.now world with
  | .error failure => (world, .error failure)
  | .ok pruned =>
      match enter limits pruned entry resume with
      | .error failure => (pruned, .error failure)
      | .ok (next, answer) => (next, .ok answer)

end Join

def grounded (now : τ) (physics : Physics τ β) (ship : Ship τ β) : Ship τ β :=
  { ship with offlineSince := some now, body := physics.settle ship }

def leave (world : World τ β) (now : τ) (physics : Physics τ β) (shipId : String) : World τ β :=
  if shipId ∈ world.active then
    { world with active := world.active.erase shipId }.revise shipId (grounded now physics)
  else world

/-- `valid_input`. -/
def validInput (packet : Packet) : Bool :=
  packet.v == 1 && packet.type == "input" && decide (0 ≤ packet.seq ∧ packet.seq ≤ 2 ^ 53 - 1) &&
    packet.inRange && decide (packet.actions.length ≤ 3) && decide packet.actions.Nodup &&
    packet.actions.all fun action => decide (action ∈ ["laser", "shield", "dash"])

/-- The physics of every active ship; a laser or a tick reaches more than one. -/
def simulate (world : World τ β) (physics : Physics τ β) : World τ β :=
  { world with
    ships := world.ships.rewrite fun ship =>
      if ship.id ∈ world.active then withBody physics ship else ship }

def acknowledge (seq : Int) (ship : Ship τ β) : Ship τ β := { ship with ackSeq := seq }

def input (world : World τ β) (physics : Physics τ β) (shipId : String) (packet : Packet) :
    World τ β × Bool :=
  if shipId ∈ world.active ∧ validInput packet = true then
    match world.ships.find? shipId with
    | none => (world, false)
    | some ship =>
        if packet.seq ≤ ship.ackSeq then (world, false)
        else (simulate (world.revise shipId (acknowledge packet.seq)) physics, true)
  else (world, false)

/-- `step`; a clock that went back does nothing. -/
def tick [LinearOrder τ] (world : World τ β) (now : τ) (physics : Physics τ β) :
    Except Failure (World τ β) :=
  if now < world.lastStep then .ok world
  else prune limits now { simulate world physics with lastStep := now }

end MsgServer.Flight
