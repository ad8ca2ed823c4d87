import Syrup.Exec
import Syrup.Lib.Run
import Mathlib.Data.Finset.Insert

/-!
# Timers of rooms

The part of `server.c` in which rooms have timers. The timers of a room are an array of handles, each of
which knows its place (`index`); a timer that is stopped, or that has expired, is replaced by the last
one. A room dies with whatever has kept it alive last: a timer, a session, or `keepAlive`
(`destroy_room`).

The event loop of a worker does one thing at a time (`RoomCode`): the callback of a timer that has
expired, after which `on_timer_expired` goes on with the handle and the room; an event of a map, which
warps out its players, one after the other (`start_sailing`, `end_sailing`); or the handler of a packet.
All of them may use timers. Handles and rooms have addresses, and using one that has been freed is a
fault.
-/

namespace Syrup

/-- `struct TimerHandle`. -/
structure TimerHandle where
  room : ℕ
  index : ℕ

/-- `struct Room`, with the sessions that are in it, of which some are players of its map. -/
structure TimedRoom where
  timers : ℕ → ℕ
  timerCount : ℕ
  sessions : Finset ℕ
  players : List ℕ
  keepAlive : Bool

/-- What a worker is doing: the callback of a timer, an event of a map, or a packet of a session. -/
inductive RoomCode
  | timer (handle room : ℕ)
  | event (room : ℕ)
  | packet (room session : ℕ)
  deriving DecidableEq

/-- What has happened. -/
inductive RoomEvent
  | ran (handle : ℕ)
  | stopped (handle : ℕ)
  | destroyed (room : ℕ)
  deriving DecidableEq

/-- The rooms of a worker. Addresses are not used again. -/
structure TimerServer where
  handle : ℕ → Option TimerHandle
  nextHandle : ℕ
  room : ℕ → Option TimedRoom
  nextRoom : ℕ
  code : Option RoomCode
  log : List RoomEvent

/-- Nothing keeps a room alive. -/
def TimedRoom.Idle (room : TimedRoom) : Prop :=
  room.timerCount = 0 ∧ room.sessions = ∅ ∧ room.keepAlive = false

instance (room : TimedRoom) : Decidable room.Idle := instDecidableAnd

/-- The room a worker is busy with. -/
def RoomCode.room : RoomCode → ℕ
  | timer _ r | event r | packet r _ => r

namespace TimerServer

/-- A worker that has been started. -/
def start : TimerServer where
  handle _ := none
  nextHandle := 0
  room _ := none
  nextRoom := 0
  code := none
  log := []

variable (s : TimerServer)

/-- Rewrites a room. -/
def setRoom (r : ℕ) (room : Option TimedRoom) : TimerServer :=
  { s with room := Function.update s.room r room }

/-- Rewrites a handle. -/
def setHandle (h : ℕ) (timer : Option TimerHandle) : TimerServer :=
  { s with handle := Function.update s.handle h timer }

/-- Notes an event. -/
def record (e : RoomEvent) : TimerServer := { s with log := s.log ++ [e] }

/-- A room is destroyed if nothing keeps it alive. -/
def settle (r : ℕ) (room : TimedRoom) : TimerServer :=
  if room.Idle then (s.setRoom r none).record (.destroyed r) else s.setRoom r (some room)

/-- `create_room`, when the first session arrives. -/
def createRoom (n : ℕ) : TimerServer :=
  { s with nextRoom := s.nextRoom + 1 }.setRoom s.nextRoom (some ⟨fun _ => 0, 0, {n}, [], false⟩)

/-- `room_add_timer`. -/
def addTimer (alloc : Bool) (r : ℕ) : Exec TimerServer := do
  let room ← Exec.deref (s.room r)
  if alloc then
    return ({ s with nextHandle := s.nextHandle + 1 }.setHandle s.nextHandle
        (some ⟨r, room.timerCount⟩)).setRoom r (some { room with
      timers := Function.update room.timers room.timerCount s.nextHandle
      timerCount := room.timerCount + 1 })
  else return s

/-- The last timer of a room takes the place of another one, which is freed; the room is destroyed if
    nothing else keeps it alive. -/
def removeTimer (h : ℕ) (timer : TimerHandle) : Exec TimerServer := do
  let room ← Exec.deref (s.room timer.room)
  let last := room.timers (room.timerCount - 1)
  let moved ← Exec.deref (s.handle last)
  let s := s.setHandle last (some { moved with index := timer.index })
  return (s.setHandle h none).settle timer.room { room with
    timers := Function.update room.timers timer.index last
    timerCount := room.timerCount - 1 }

/-- `room_stop_timer`. -/
def stopTimer (h : ℕ) : Exec TimerServer := do
  let timer ← Exec.deref (s.handle h)
  let s ← s.removeTimer h timer
  return s.record (.stopped h)

/-- A session goes out of a room: it has been transferred, or is destroyed. -/
def depart (r n : ℕ) : Exec TimerServer := do
  let room ← Exec.deref (s.room r)
  return s.settle r { room with
    sessions := room.sessions.erase n
    players := room.players.erase n }

/-- `client_warp`. The session is transferred `now` if all that has been sent to it has gone out, else by
    the event loop. -/
def warp (now : Bool) (r n : ℕ) : Exec TimerServer := do
  if now then s.depart r n
  else
    let room ← Exec.deref (s.room r)
    return s.setRoom r (some { room with players := room.players.erase n })

/-- The next round of the loop of a map event: a player is warped out. -/
def warpNext (now : Bool) (r : ℕ) : Exec TimerServer := do
  let room ← Exec.deref (s.room r)
  match room.players with
  | [] => return s
  | n :: _ => s.warp now r n

/-- The worker is done with what it has been doing: the end of `on_timer_expired`, or of the loop of a
    map event, which looks at the map again. -/
def finish : RoomCode → Exec TimerServer
  | .timer h _ => do
    let timer ← Exec.deref (s.handle h)
    { s with code := none }.removeTimer h timer
  | .event r => do
    let _ ← Exec.deref (s.room r)
    return { s with code := none }
  | .packet _ _ => return { s with code := none }

end TimerServer

/-! ## The system -/

/-- What happens to the rooms of a worker. -/
inductive TimerAction
  | create (n : ℕ)
  | arrive (r n : ℕ)
  | depart (r n : ℕ)
  | expire (h : ℕ)
  | event (r : ℕ)
  | packet (r n : ℕ)
  | join
  | addTimer (alloc : Bool)
  | stopTimer (h : ℕ)
  | keepAlive
  | breakOff
  | leave (now : Bool)
  | warpNext (now : Bool)
  | finish

namespace TimerAction

/-- The code is busy with a room that it can use. The handler of a packet that has sent its session
    away is over. -/
def Busy (s : TimerServer) : RoomCode → Prop
  | .packet r n => ∃ room ∈ s.room r, n ∈ room.sessions
  | _ => True

/-- A timer of a room. -/
def IsTimer (s : TimerServer) (r h : ℕ) : Prop := ∃ timer ∈ s.handle h, timer.room = r

instance (s : TimerServer) : (code : RoomCode) → Decidable (Busy s code)
  | .packet r n => match h : s.room r with
    | none => .isFalse fun ⟨_, hr, _⟩ => nomatch h.symm.trans hr
    | some room => if hn : n ∈ room.sessions then .isTrue ⟨room, h, hn⟩
      else .isFalse fun ⟨_, hr, hn'⟩ => hn (Option.some.inj (h.symm.trans hr) ▸ hn')
  | .timer _ _ | .event _ => .isTrue trivial

instance (s : TimerServer) (r h : ℕ) : Decidable (IsTimer s r h) :=
  match hh : s.handle h with
  | none => .isFalse fun ⟨_, hm, _⟩ => nomatch hh.symm.trans hm
  | some timer => if hr : timer.room = r then .isTrue ⟨timer, hh, hr⟩
    else .isFalse fun ⟨_, hm, hr'⟩ => hr (Option.some.inj (hh.symm.trans hm) ▸ hr')

/-- What the event loop starts. Sessions arrive in, and packets come from, rooms that are there. -/
def dispatch : TimerAction → TimerServer → Exec TimerServer
  | create n, s => return s.createRoom n
  | arrive r n, s =>
    match s.room r with
    | none => return s
    | some room => return s.setRoom r (some { room with sessions := insert n room.sessions })
  | depart r n, s => if Busy s (.packet r n) then s.depart r n else return s
  | expire h, s =>
    match s.handle h with
    | none => return s
    | some timer => return { s with code := some (.timer h timer.room) }.record (.ran h)
  | event r, s => return if (s.room r).isSome then { s with code := some (.event r) } else s
  | packet r n, s => return if Busy s (.packet r n) then { s with code := some (.packet r n) } else s
  | _, s => return s

/-- What the code does that the worker is busy with. -/
def execute (code : RoomCode) : TimerAction → TimerServer → Exec TimerServer
  | join, s =>
    match code with
    | .packet r n => do
      let room ← Exec.deref (s.room r)
      return s.setRoom r (some { room with players := room.players ++ [n] })
    | _ => return s
  | addTimer alloc, s => s.addTimer alloc code.room
  | stopTimer h, s => if IsTimer s code.room h then s.stopTimer h else return s
  | keepAlive, s => do
    let room ← Exec.deref (s.room code.room)
    return s.setRoom code.room (some { room with keepAlive := true })
  | breakOff, s => do
    let room ← Exec.deref (s.room code.room)
    return s.settle code.room { room with keepAlive := false }
  | leave now, s =>
    match code with
    | .packet r n => s.warp now r n
    | _ => return s
  | warpNext now, s =>
    match code with
    | .event r => s.warpNext now r
    | _ => return s
  | _, s => return s

/-- A step of the worker. -/
def step (a : TimerAction) (s : TimerServer) : Exec TimerServer :=
  match s.code with
  | none => dispatch a s
  | some code =>
    match a with
    | finish => s.finish code
    | a => if Busy s code then execute code a s else return s

end TimerAction

end Syrup
