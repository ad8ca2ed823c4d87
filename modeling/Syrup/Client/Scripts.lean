import Syrup.Exec
import Syrup.Lib.Run

/-!
# Scripts of a client

How `client.c` runs the scripts of a player. A script is a coroutine: resumed with a number, it goes on
until it ends, or until it yields, which it does where it shows a dialogue and where it warps the player.
Then `client_script_cont` resumes it, when the player answers, or has joined the map.

What a script yields at is only known to the client as `scriptState`, which is written by all dialogues
and by all warps (`client_warp`), whoever the cause of the warp. What the script really waits for
(`waits`) is noted beside it, and so is whether the player has answered dialogues that have been offered,
and completed transfers, and done nothing else of the kind (`honest`).
-/

namespace Syrup

/-- `enum ScriptState`. -/
inductive ScriptState
  | ok
  | yesNo
  | getNumber
  | simple
  | next
  | prevNext
  | prev
  | acceptDecline
  | warp
  deriving DecidableEq

/-- `enum ClientResultType`. -/
inductive ScriptContResult
  | ban
  | error
  | success
  | next
  deriving DecidableEq

/-- A dialogue, as a script shows it. -/
inductive Dialogue
  | ok
  | yesNo
  | simple (selectionCount : UInt32)
  | next
  | prevNext
  | prev
  | acceptDecline
  | getNumber (min max : UInt32)
  deriving DecidableEq

/-- What a script does when it is resumed. -/
inductive ScriptOutcome (σ : Type)
  | finished
  | failed
  | dialogue (d : Dialogue) (script : σ)
  | warp (map : UInt32) (script : σ)

/-- What a script waits for. -/
inductive ScriptWait
  | dialogue (d : Dialogue)
  | warp (map : UInt32)
  deriving DecidableEq

/-- Why `client_script_cont` is called. -/
inductive Cause
  | packet (prev action : UInt8) (selection : UInt32)
  | joined (map : UInt32)
  deriving DecidableEq

/-- What `client_script_cont` has done. -/
inductive ScriptEvent
  | resumed (wait : Option ScriptWait) (cause : Cause)
  | banned (cause : Cause)
  deriving DecidableEq

namespace Dialogue

/-- The state in which a dialogue puts the client. -/
def state : Dialogue → ScriptState
  | ok => .ok
  | yesNo => .yesNo
  | simple _ => .simple
  | next => .next
  | prevNext => .prevNext
  | prev => .prev
  | acceptDecline => .acceptDecline
  | getNumber _ _ => .getNumber

/-- The bounds that a dialogue writes to the client. -/
def bounds : Dialogue → Option (UInt32 × UInt32)
  | simple selectionCount => some (1, selectionCount)
  | getNumber min max => some (min, max)
  | _ => none

/-- The type of a dialogue in the packet, which is sent back in the answer. -/
def type : Dialogue → UInt8
  | ok | next | prevNext | prev => 0
  | yesNo => 1
  | getNumber _ _ => 3
  | simple _ => 4
  | acceptDecline => 12

/-- A packet answers a dialogue: it is what a player can click on. The chat is ended by `255`, where
    something is to be chosen by `0`. -/
def Answered (d : Dialogue) (prev action : UInt8) (selection : UInt32) : Prop :=
  prev = d.type ∧ match d with
    | ok | next => action = 1 ∨ action = 255
    | yesNo | prevNext | .prev | acceptDecline => action = 0 ∨ action = 1 ∨ action = 255
    | simple selectionCount => action = 0 ∨ action = 1 ∧ 1 ≤ selection ∧ selection ≤ selectionCount
    | getNumber min max => action = 0 ∨ action = 1 ∧ min ≤ selection ∧ selection ≤ max

instance (d : Dialogue) (prev action : UInt8) (selection : UInt32) :
    Decidable (d.Answered prev action selection) := by
  unfold Answered
  cases d <;> exact instDecidableAnd

end Dialogue

namespace ScriptState

/-- `prev` is the type of a dialogue with this state. -/
def accepts (state : ScriptState) (prev : UInt8) : Bool :=
  match prev with
  | 0 => state = .ok || state = .next || state = .prevNext || state = .prev
  | 1 => state = .yesNo
  | 3 => state = .getNumber
  | 4 => state = .simple
  | 12 => state = .acceptDecline
  | _ => false

/-- `is_empty_dialoge`. -/
def isEmptyDialogue (state : ScriptState) : Bool := state = .getNumber || state = .simple

/-- The chat is ended. In an empty dialogue this is `0`. -/
def ends (state : ScriptState) (action : UInt8) : Bool :=
  action = if state.isEmptyDialogue then 0 else 255

/-- `action` is valid for the state. -/
def allows (state : ScriptState) (action : UInt8) : Bool :=
  match state with
  | ok | next => action = 1
  | yesNo | prevNext | prev | acceptDecline => action = 0 || action = 1
  | getNumber | simple | warp => true

/-- The number with which a script is resumed. -/
def reply (state : ScriptState) (action : UInt8) (selection : UInt32) : ℤ :=
  match state with
  | ok | next => 1
  | yesNo | prevNext | prev | acceptDecline => if action = 0 then -1 else 1
  | getNumber | simple => selection.toBitVec.toInt
  | warp => 0

end ScriptState

/-- `struct Client`, as far as it is about scripts, with the map of its room, and the one to which the
    session is under way. Instances of scripts are numbered. -/
structure ScriptClient (σ : Type) where
  script : Option (ℕ × σ)
  scriptState : ScriptState
  min : UInt32
  max : UInt32
  joined : Bool
  room : UInt32
  target : Option UInt32
  online : Bool
  allocs : ℕ
  frees : ℕ → ℕ
  waits : Option ScriptWait
  honest : Bool
  log : List ScriptEvent

namespace ScriptClient

variable {σ : Type}

/-- A client that has logged in and is under way to its map. Its state has not been written yet. -/
def start (state : ScriptState) (min max map : UInt32) : ScriptClient σ where
  script := none
  scriptState := state
  min := min
  max := max
  joined := false
  room := map
  target := some map
  online := true
  allocs := 0
  frees _ := 0
  waits := none
  honest := true
  log := []

/-- Notes an event. -/
def record (s : ScriptClient σ) (e : ScriptEvent) : ScriptClient σ := { s with log := s.log ++ [e] }

/-- `client_close_script`, and what is done wherever a script ends. -/
def closeScript (s : ScriptClient σ) : ScriptClient σ :=
  match s.script with
  | none => s
  | some (k, _) =>
    { s with script := none, frees := Function.update s.frees k (s.frees k + 1) }

/-- `client_warp`. -/
def warp (s : ScriptClient σ) (map : UInt32) : ScriptClient σ :=
  { s with scriptState := .warp, joined := false, target := some map }

/-- `client_send_ok` and its siblings. -/
def send (s : ScriptClient σ) (d : Dialogue) : ScriptClient σ :=
  match d.bounds with
  | none => { s with scriptState := d.state, waits := some (.dialogue d) }
  | some (min, max) =>
    { s with scriptState := d.state, min := min, max := max, waits := some (.dialogue d) }

/-- What comes of a run of the script with a number. -/
def ran (s : ScriptClient σ) (k : ℕ) : ScriptOutcome σ → ScriptClient σ × ScriptContResult
  | .finished => (s.closeScript, .success)
  | .failed => (s.closeScript, .error)
  | .dialogue d script => ({ s.send d with script := some (k, script) }, .next)
  | .warp map script =>
    ({ s.warp map with script := some (k, script), waits := some (.warp map) }, .next)

variable (resume : σ → ℤ → ScriptOutcome σ)

/-- `client_script_cont`. -/
def scriptCont (s : ScriptClient σ) (cause : Cause) (prev action : UInt8) (selection : UInt32) :
    ScriptClient σ × ScriptContResult :=
  match s.script with
  | none => (s, .success)
  | some (k, script) =>
    if s.scriptState ≠ .warp ∧ s.scriptState.accepts prev = false then (s.record (.banned cause), .ban)
    else if s.scriptState.ends action then (s.closeScript, .success)
    else if s.scriptState.isEmptyDialogue ∧ action ≠ 1 then
      (s.closeScript.record (.banned cause), .ban)
    else if s.scriptState.allows action = false then (s.closeScript.record (.banned cause), .ban)
    else if s.scriptState.isEmptyDialogue ∧ (action.toUInt32 < s.min ∨ s.max < action.toUInt32) then
      (s.closeScript.record (.banned cause), .ban)
    else (s.record (.resumed s.waits cause)).ran k
      (resume script (s.scriptState.reply action selection))

/-- A script is allocated and run, in `client_npc_talk`, `client_launch_map_script`,
    `client_start_quest`, `client_end_quest` and `client_launch_portal_script`. -/
def launch (s : ScriptClient σ) (script : σ) : ScriptClient σ × ScriptContResult :=
  { s with script := some (s.allocs, script), allocs := s.allocs + 1 }.ran s.allocs (resume script 0)

end ScriptClient

/-! ## The system -/

/-- What `map_join` returns: `0`, `-1`, or `-2` if the boat has left. -/
inductive MapJoin
  | joined
  | noMemory
  | redirected (map : UInt32)

/-- What happens to a client. A script is launched by an NPC, a quest or a portal; a map event may close
    the script before it warps the player. -/
inductive ScriptAction (σ : Type)
  | launch (byNpc alloc : Bool) (script : σ)
  | dialogue (prev action : UInt8) (selection : UInt32)
  | mapTransferComplete (join : MapJoin) (enter : Option σ)
  | warp (map : UInt32)
  | eventWarp (close : Bool) (map : UInt32)
  | arrive
  | logout

namespace ScriptAction

variable {σ : Type} (resume : σ → ℤ → ScriptOutcome σ)

/-- `RECEIVE_OPCODE_MAP_TRANSFER_COMPLETE`. A client that is kicked leaves the handler. -/
def transferComplete (join : MapJoin) (enter : Option σ) (s : ScriptClient σ) : ScriptClient σ :=
  let s := { s with honest := s.honest && !s.joined }
  match join with
  | .redirected map => s.warp map
  | join =>
    let s := match join with
      | .joined => { s with joined := true }
      | _ => s
    let (s, res) := s.scriptCont resume (.joined s.room) 0 0 0
    match res, enter with
    | .success, some script => (s.launch resume script).1
    | _, _ => s

/-- What a player says that has been offered a dialogue, or whose script has ended meanwhile. -/
def offered (s : ScriptClient σ) (prev action : UInt8) (selection : UInt32) : Bool :=
  match s.script, s.waits with
  | some _, some (.dialogue d) => decide (d.Answered prev action selection)
  | some _, _ => false
  | none, _ => true

/-- A dialogue packet. -/
def answer (prev action : UInt8) (selection : UInt32) (s : ScriptClient σ) : ScriptClient σ :=
  ({ s with honest := s.honest && offered s prev action selection }.scriptCont resume
    (.packet prev action selection) prev action selection).1

/-- What is done. Packets are not read while the session is under way. -/
def run : ScriptAction σ → ScriptClient σ → Exec (ScriptClient σ)
  | launch byNpc alloc script, s =>
    if s.target.isSome ∨ s.script.isSome then return s
    else if alloc then return (s.launch resume script).1
    -- only client_npc_talk() looks whether there is a script
    else if byNpc then return s
    else .error .nullPointer
  | dialogue prev action selection, s =>
    return if s.target.isSome then s else answer resume prev action selection s
  | mapTransferComplete join enter, s =>
    return if s.target.isSome then s else transferComplete resume join enter s
  | warp map, s => return if s.target.isSome then s else s.warp map
  | eventWarp close map, s =>
    return if s.joined then (if close then s.closeScript else s).warp map else s
  | arrive, s =>
    match s.target with
    | none => return s
    | some map => return { s with room := map, target := none }
  | logout, s => return { s.closeScript with online := false }

/-- A step: nothing happens to a client that has logged out. -/
def step (a : ScriptAction σ) (s : ScriptClient σ) : Exec (ScriptClient σ) :=
  if s.online then run resume a s else return s

end ScriptAction

end Syrup
