import Mathlib.Data.List.Sort
import MsgServer.Transports.Flight

/-!
The input queue of one pilot in transports/flight_space.py and what the world of
transports/flight_simulation.py does with a command. The five numbers of an input are values
of one type; what an action or a change of the region does to the rest of a ship is a
parameter, as the physics is. A ship that is not in the world takes no command.
-/

namespace MsgServer.FlightInput

open Flight (Packet validInput)

/-- An input frame with its numbers. -/
structure Input (ρ : Type) extends Packet where
  throttle : ρ
  strafe : ρ
  lift : ρ
  yaw : ρ
  pitch : ρ
  brake : Bool

inductive Command (ρ : Type) where
  | input (packet : Input ρ)
  | region (index : Int)

variable {ρ β : Type}

/-- The actions of a command; a change of the region has none. -/
def Command.actions : Command ρ → List String
  | .input packet => packet.actions
  | .region _ => []

/-! The world -/

/-- A ship: the number it acknowledges, its aim, its controls and all the rest. -/
structure Ship (ρ β : Type) where
  active : Bool
  ackSeq : Int
  yaw : ρ
  pitch : ρ
  controls : ρ × ρ × ρ × Bool
  body : β

/-- `alive` is `hp > 0`, `act` is `_action` for a ship with its aim, and `jump` is
`change_region` where it is admitted. -/
structure Space (ρ β : Type) where
  zero : ρ
  alive : β → Bool
  act : ρ → ρ → β → String → β
  jump : Int → β → Option β

variable (space : Space ρ β)

/-- `input`. -/
def input (ship : Ship ρ β) (packet : Input ρ) : Ship ρ β × Bool :=
  if ¬ ship.active ∨ validInput packet.toPacket = false then (ship, false)
  else if packet.seq ≤ ship.ackSeq then (ship, false)
  else
    let steered := { ship with
      ackSeq := packet.seq
      yaw := packet.yaw
      pitch := packet.pitch
      controls := (packet.throttle, packet.strafe, packet.lift, packet.brake) }
    if space.alive steered.body then
      ({ steered with
        body := packet.actions.foldl (space.act packet.yaw packet.pitch) steered.body }, true)
    else (steered, true)

def changeRegion (ship : Ship ρ β) (region : Int) : Ship ρ β × Bool :=
  if ¬ ship.active ∨ ¬ (0 ≤ region ∧ region < 19) then (ship, false)
  else
    match space.jump region ship.body with
    | none => (ship, false)
    | some body =>
        ({ ship with controls := (space.zero, space.zero, space.zero, false), body }, true)

def command (ship : Ship ρ β) : Command ρ → Ship ρ β × Bool
  | .input packet => input space ship packet
  | .region index => changeRegion space ship index

/-! The queue -/

inductive Reply where
  | error (code : String)
  | other
  deriving DecidableEq

abbrev Entry (ρ : Type) := Nat × Command ρ

structure Peer (ρ : Type) where
  queue : List Reply
  pending : List (Entry ρ)
  latestControl : Option (Nat × Input ρ)
  inputSeq : Int
  arrivalOrder : Nat

def maxPendingCommands : Nat := 8

/-- `_enqueue`; the queue of the writer holds two packets and drops the older one. -/
def enqueue (peer : Peer ρ) (reply : Reply) : Peer ρ :=
  let kept := if peer.queue.length < 2 then peer.queue else peer.queue.tail
  { peer with queue := kept ++ [reply] }

/-- The end of `_queue_controls`. -/
def push (peer : Peer ρ) (entry : Entry ρ) : Peer ρ :=
  if maxPendingCommands ≤ peer.pending.length then enqueue peer (.error "input_busy")
  else { peer with pending := peer.pending ++ [entry] }

def queuedActions (peer : Peer ρ) : List String :=
  peer.pending.flatMap fun entry => entry.2.actions

/-- `{**packet, 'actions': actions}`. -/
def Input.withActions (packet : Input ρ) (actions : List String) : Input ρ :=
  { packet with actions }

/-- `_queue_controls`. -/
def queueControls (peer : Peer ρ) (frame : Command ρ) : Peer ρ :=
  let order := peer.arrivalOrder + 1
  match frame with
  | .input packet =>
      let peer := { peer with
        arrivalOrder := order
        inputSeq := packet.seq
        latestControl := some (order, packet.withActions []) }
      let actions := packet.actions.filter fun action => action ∉ queuedActions peer
      if actions = [] then peer
      else push peer (order, .input (packet.withActions actions))
  | .region index => push { peer with arrivalOrder := order } (order, .region index)

/-- `sorted(pending, key=lambda item: item[0])` with the latest control at the end. -/
def drained (peer : Peer ρ) : List (Entry ρ) :=
  (peer.pending ++ (peer.latestControl.map fun latest =>
    (latest.1, Command.input latest.2)).toList).insertionSort fun left right => left.1 ≤ right.1

/-- The commands one after the other, each with the world's answer. -/
def commands (ship : Ship ρ β) : List (Entry ρ) → Ship ρ β × List (Entry ρ × Bool)
  | [] => (ship, [])
  | entry :: rest =>
      let (ship, answer) := command space ship entry.2
      let (last, answers) := commands ship rest
      (last, (entry, answer) :: answers)

/-- `_drain_inputs`; a region that is refused is reported. -/
def drainInputs (ship : Ship ρ β) (peer : Peer ρ) : Ship ρ β × Peer ρ :=
  let (ship, answers) := commands space ship (drained peer)
  let peer := { peer with pending := [], latestControl := none }
  (ship, answers.foldl
    (fun peer (entry, answer) =>
      match entry.2, answer with
      | .region _, false => enqueue peer (.error "region_unavailable")
      | _, _ => peer) peer)

end MsgServer.FlightInput
