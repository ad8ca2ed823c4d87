import Syrup.HashMap
import Syrup.Server.Sessions

/-!
# Rooms and workers

The part of `server.c` in which sessions go from room to room, with the thread coordinator. A room is
created by a worker when the first session arrives, and dies with its last session and timer
(`destroy_room`). The coordinator says on which thread the room of a map is: it is asked when a
session is to be transferred (`map_thread_coordinator_ref`), and told when a room dies
(`map_thread_coordinator_unref`).

A worker reads its commands from a pipe, one after the other. A session is handed over by a command
`NEW_CLIENT`; and a session can send a command to another one (`session_send_command`), upon which its
worker waits for a semaphore that is posted where the command is processed.

The threads take steps in any order. `do_transfer` is two steps, between which others may run: up to
where the coordinator has been asked, and from where the session is sent.
-/

namespace Syrup

/-- `struct Pair`. -/
structure Pair where
  map : UInt32
  thread : ℕ
  deriving DecidableEq

/-- `struct RoomId`, with the address of a room. -/
structure RoomId where
  id : UInt32
  room : ℕ
  deriving DecidableEq

/-- `struct IdSession`. -/
structure IdSession (N : Type) where
  id : UInt32
  session : N

namespace Env

variable (env : Env)

/-- The keys of `mapDict`. -/
def pairs : Hashing Pair UInt32 := ⟨Pair.map, env.hash32⟩

/-- The keys of `rooms`. -/
def roomIds : Hashing RoomId UInt32 := ⟨RoomId.id, env.hash32⟩

/-- The keys of the sessions of a room. -/
def idSessions (N : Type) : Hashing (IdSession N) UInt32 := ⟨IdSession.id, env.hash32⟩

end Env

/-! ## The thread coordinator -/

/-- `map_thread_coordinator_ref`: the thread, or `none` for `-1`. -/
def mapThreadCoordinatorRef (env : Env) (alloc : Bool) (mapDict : HashSet Pair) (map : UInt32) :
    Exec (Option ℕ × HashSet Pair) :=
  match hashSetGet env.pairs mapDict map with
  | some pair => return (some pair.thread, mapDict)
  | none => do
    let (inserted, mapDict) ← hashSetInsert env.pairs alloc mapDict ⟨map, 0⟩
    if inserted then
      let pair ← Exec.deref (hashSetGet env.pairs mapDict map)
      return (some pair.thread, mapDict)
    else return (none, mapDict)

/-- `map_thread_coordinator_get`. -/
def mapThreadCoordinatorGet (env : Env) (mapDict : HashSet Pair) (map : UInt32) : Option ℕ :=
  (hashSetGet env.pairs mapDict map).map Pair.thread

/-- `map_thread_coordinator_unref`. -/
def mapThreadCoordinatorUnref (env : Env) (alloc : Bool) (mapDict : HashSet Pair) (map : UInt32) :
    Exec (HashSet Pair) :=
  hashSetRemove env.pairs alloc mapDict map

/-! ## The state -/

/-- `struct Room`; `manager` is the thread of its manager. -/
structure Room (N : Type) where
  id : UInt32
  manager : ℕ
  sessions : HashSet (IdSession N)
  timerCount : ℕ
  keepAlive : Bool

/-- How far a session has got with `do_transfer`: the coordinator has told the thread to which it is
    to be sent, or it is in the pipe of a worker. -/
inductive Transfer
  | none
  | sending (thread : ℕ)
  | queued
  deriving DecidableEq

/-- `struct Session`, as far as it is about going from room to room. -/
structure RoomSession where
  id : UInt32
  room : Option ℕ
  targetRoom : UInt32
  transfer : Transfer

/-- `struct WorkerCommand`. A user command has a number, which stands for its semaphore; its `target` is
    never written to. -/
inductive WorkerCommand (N : Type)
  | newClient (session : N)
  | userCommand (ticket : ℕ) (id target : UInt32)

/-- A channel server and its workers. Of the past it knows for which maps `unrefs` have been called,
    and whether there was an entry, to which targets commands have been sent (`calls`), and which
    commands have been `delivered`, to the sessions with which ids. -/
structure Channel (N : Type) where
  mapDict : HashSet Pair
  sessions : HashSet SessionRoom
  pipe : ℕ → List (WorkerCommand N)
  rooms : ℕ → HashSet RoomId
  room : ℕ → Option (Room N)
  nextRoom : ℕ
  session : N → Option RoomSession
  waiting : ℕ → Option ℕ
  unrefs : List (UInt32 × Bool)
  calls : List UInt32
  delivered : List (ℕ × UInt32)

namespace Channel

variable {N : Type}

/-- A server that has been started. -/
def start : Channel N where
  mapDict := hashSetInit
  sessions := hashSetInit
  pipe _ := []
  rooms _ := hashSetInit
  room _ := none
  nextRoom := 0
  session _ := none
  waiting _ := none
  unrefs := []
  calls := []
  delivered := []

/-- Rewrites a room. -/
def setRoom (c : Channel N) (p : ℕ) (room : Option (Room N)) : Channel N :=
  { c with room := Function.update c.room p room }

/-- Writes a command to the pipe of a worker. -/
def write (c : Channel N) (thread : ℕ) (cmd : WorkerCommand N) : Channel N :=
  { c with pipe := Function.update c.pipe thread (c.pipe thread ++ [cmd]) }

/-- Posts the semaphore of a command. -/
def post (c : Channel N) (ticket : ℕ) : Channel N :=
  { c with waiting := fun thread => if c.waiting thread = some ticket then none else c.waiting thread }

variable [DecidableEq N]

/-- Rewrites a session. -/
def setSession (c : Channel N) (n : N) (session : Option RoomSession) : Channel N :=
  { c with session := Function.update c.session n session }

end Channel

/-! ## The calls -/

variable {N : Type} [DecidableEq N] (env : Env)

namespace Channel

/-- `destroy_room`. -/
def destroyRoom (alloc : ℕ → Bool) (c : Channel N) (p : ℕ) : Exec (Channel N) := do
  let room ← Exec.deref (c.room p)
  let rooms ← hashSetRemove env.roomIds (alloc 0) (c.rooms room.manager) room.id
  let mapDict ← mapThreadCoordinatorUnref env (alloc 1) c.mapDict room.id
  let mapped := (mapThreadCoordinatorGet env c.mapDict room.id).isSome
  let c := { c with
    mapDict := mapDict
    rooms := Function.update c.rooms room.manager rooms
    unrefs := c.unrefs ++ [(room.id, mapped)] }
  return c.setRoom p none

/-- A room dies if nothing is left in it that keeps it alive. -/
def destroyIdle (alloc : ℕ → Bool) (c : Channel N) (p : ℕ) (room : Room N) : Exec (Channel N) :=
  if room.timerCount = 0 ∧ hashSetSize room.sessions = 0 ∧ room.keepAlive = false then
    destroyRoom env alloc (c.setRoom p (some room)) p
  else return c.setRoom p (some room)

/-- A session goes out of its room. -/
def leaveRoom (alloc : ℕ → Bool) (c : Channel N) (p : ℕ) (id : UInt32) : Exec (Channel N) := do
  let room ← Exec.deref (c.room p)
  let sessions ← hashSetRemove (env.idSessions N) (alloc 2) room.sessions id
  destroyIdle env alloc c p { room with sessions := sessions }

/-- A session is accepted, and assigned an id. -/
def connect (alloc : Bool) (c : Channel N) (n : N) (id : UInt32) : Exec (Channel N) := do
  if (c.session n).isNone then
    let (inserted, sessions) ← hashSetInsert env.sessionRooms alloc c.sessions ⟨id, noRoom⟩
    let c := { c with sessions := sessions }
    return if inserted then c.setSession n (some ⟨id, none, noRoom, .none⟩) else c
  else return c

/-- `session_change_room`, and `do_transfer` up to where the coordinator has been asked. -/
def transferRef (alloc : ℕ → Bool) (c : Channel N) (n : N) (room : UInt32) : Exec (Channel N) := do
  let session ← Exec.deref (c.session n)
  if session.id = 0 then .error .assertion
  else if session.transfer = .none then
    match ← mapThreadCoordinatorRef env (alloc 0) c.mapDict room with
    | (none, _) => .error .outOfBounds
    | (some thread, mapDict) =>
      return { c with mapDict := mapDict }.setSession n
        (some { session with targetRoom := room, transfer := .sending thread })
  else return c

/-- `do_transfer` from where the session is sent. A session that cannot be sent is shut down where it
    is. -/
def transferSend (alloc : ℕ → Bool) (sent : Bool) (c : Channel N) (n : N) : Exec (Channel N) := do
  let session ← Exec.deref (c.session n)
  match session.transfer with
  | .sending thread =>
    if sent then
      let c := (c.write thread (.newClient n)).setSession n
        (some { session with transfer := .queued })
      match session.room with
      | none => do
        let (_, sessions) ← hashSetInsert env.sessionRooms (alloc 3) c.sessions
          ⟨session.id, session.targetRoom⟩
        return { c with sessions := sessions }
      | some p => do
        let c ← leaveRoom env alloc c p session.id
        match hashSetGet env.sessionRooms c.sessions session.id with
        | none => return c
        | some r =>
          let entry := { r with room := session.targetRoom }
          return { c with sessions := hashSetWrite env.sessionRooms c.sessions session.id entry }
    else return c.setSession n (some { session with transfer := .none })
  | _ => return c

/-- The last part of `NEW_CLIENT`: the session is in the room. -/
def enterRoom (alloc : Bool) (c : Channel N) (p : ℕ) (n : N) (session : RoomSession) :
    Exec (Channel N) := do
  let room ← Exec.deref (c.room p)
  let (_, sessions) ← hashSetInsert (env.idSessions N) alloc room.sessions ⟨session.id, n⟩
  return (c.setRoom p (some { room with sessions := sessions })).setSession n
    (some { session with room := some p, transfer := .none })

/-- `create_room`, as the manager of a thread calls it. -/
def createRoom (c : Channel N) (thread : ℕ) (id : UInt32) : Channel N :=
  { c with nextRoom := c.nextRoom + 1 }.setRoom c.nextRoom (some ⟨id, thread, hashSetInit, 0, false⟩)

/-- `WORKER_COMMAND_NEW_CLIENT`. If no room can be `created`, the session is in none, and stays
    there. -/
def newClient (alloc : ℕ → Bool) (created : Bool) (c : Channel N) (thread : ℕ) (n : N) :
    Exec (Channel N) := do
  let session ← Exec.deref (c.session n)
  match hashSetGet env.roomIds (c.rooms thread) session.targetRoom with
  | some r => enterRoom env (alloc 1) c r.room n session
  | none =>
    if created then
      let (_, rooms) ← hashSetInsert env.roomIds (alloc 0) (c.rooms thread)
        ⟨session.targetRoom, c.nextRoom⟩
      let c' := { c with rooms := Function.update c.rooms thread rooms }
      enterRoom env (alloc 1) (c'.createRoom thread session.targetRoom) c.nextRoom n session
    else return c.setSession n (some { session with room := none })

/-- `session_send_command`, of a session whose worker is `thread`. What is in the memory of the
    command is left in its `target`. -/
def sendCommand (sent : Bool) (garbage : UInt32) (c : Channel N) (thread : ℕ) (target : UInt32) :
    Exec (Channel N) :=
  match hashSetGet env.sessionRooms c.sessions target with
  | none => return c
  | some r =>
    match mapThreadCoordinatorGet env c.mapDict r.room with
    | none => .error .outOfBounds
    | some thread' =>
      if sent then
        return { c.write thread' (.userCommand c.calls.length r.id garbage) with
          waiting := Function.update c.waiting thread (some c.calls.length)
          calls := c.calls ++ [target] }
      else return c

/-- The session with an id in the room with another one. -/
def findSession (c : Channel N) (thread : ℕ) (room id : UInt32) : Exec (Option N) :=
  match hashSetGet env.roomIds (c.rooms thread) room with
  | none => return none
  | some r => do
    let room ← Exec.deref (c.room r.room)
    return (hashSetGet (env.idSessions N) room.sessions id).map IdSession.session

/-- `WORKER_COMMAND_USER_COMMAND`. The room of the session is looked up under `target`. -/
def userCommand (sent : Bool) (c : Channel N) (thread ticket : ℕ) (id target : UInt32) :
    Exec (Channel N) := do
  let r ← Exec.deref (hashSetGet env.sessionRooms c.sessions target)
  match ← findSession env c thread r.room id with
  | some n =>
    let session ← Exec.deref (c.session n)
    return { c.post ticket with delivered := c.delivered ++ [(ticket, session.id)] }
  | none =>
    match mapThreadCoordinatorGet env c.mapDict r.room with
    | some thread' =>
      return if sent then c.write thread' (.userCommand ticket id target) else c
    | none => return c.post ticket

/-- `on_worker_command`: a worker reads the next command from its pipe. -/
def onWorkerCommand (alloc : ℕ → Bool) (ok : Bool) (c : Channel N) (thread : ℕ) :
    Exec (Channel N) :=
  match c.pipe thread with
  | [] => return c
  | cmd :: l =>
    let c := { c with pipe := Function.update c.pipe thread l }
    match cmd with
    | .newClient n => newClient env alloc ok c thread n
    | .userCommand ticket id target => userCommand env ok c thread ticket id target

/-- `destroy_session` and `destroy_pending_session`. Nothing is heard of a session that is under way. -/
def destroySession (alloc : ℕ → Bool) (c : Channel N) (n : N) : Exec (Channel N) := do
  let session ← Exec.deref (c.session n)
  if session.transfer = .none then
    match session.room with
    | none => return c.setSession n none
    | some p => do
      let sessions ← hashSetRemove env.sessionRooms (alloc 3) c.sessions session.id
      leaveRoom env alloc ({ c with sessions := sessions }.setSession n none) p session.id
  else return c

/-- `room_add_timer`. -/
def addTimer (c : Channel N) (p : ℕ) : Exec (Channel N) := do
  let room ← Exec.deref (c.room p)
  return c.setRoom p (some { room with timerCount := room.timerCount + 1 })

/-- `room_stop_timer`, and the end of `on_timer_expired`. -/
def stopTimer (alloc : ℕ → Bool) (c : Channel N) (p : ℕ) : Exec (Channel N) := do
  let room ← Exec.deref (c.room p)
  if room.timerCount = 0 then return c
  else destroyIdle env alloc c p { room with timerCount := room.timerCount - 1 }

/-- `room_keep_alive`. -/
def keepAlive (c : Channel N) (p : ℕ) : Exec (Channel N) := do
  let room ← Exec.deref (c.room p)
  return c.setRoom p (some { room with keepAlive := true })

/-- `room_break_off`. -/
def breakOff (alloc : ℕ → Bool) (c : Channel N) (p : ℕ) : Exec (Channel N) := do
  let room ← Exec.deref (c.room p)
  destroyIdle env alloc c p { room with keepAlive := false }

end Channel

/-! ## The system -/

/-- What the threads do. -/
inductive RoomAction (N : Type)
  | connect (alloc : Bool) (n : N) (id : UInt32)
  | transferRef (alloc : ℕ → Bool) (n : N) (room : UInt32)
  | transferSend (alloc : ℕ → Bool) (sent : Bool) (n : N)
  | onWorkerCommand (alloc : ℕ → Bool) (ok : Bool) (thread : ℕ)
  | destroySession (alloc : ℕ → Bool) (n : N)
  | sendCommand (sent : Bool) (garbage : UInt32) (n : N) (target : UInt32)
  | addTimer (p : ℕ)
  | stopTimer (alloc : ℕ → Bool) (p : ℕ)
  | keepAlive (p : ℕ)
  | breakOff (alloc : ℕ → Bool) (p : ℕ)

namespace Channel

/-- The thread of a room. -/
def threadOfRoom (c : Channel N) (p : ℕ) : Option ℕ := (c.room p).map Room.manager

/-- The worker of a session. A pending session has none. -/
def threadOf (c : Channel N) (n : N) : Option ℕ :=
  (c.session n).bind fun session => session.room.bind c.threadOfRoom

end Channel

/-- The worker that does something. -/
def RoomAction.worker : RoomAction N → Channel N → Option ℕ
  | transferRef _ n _, c | transferSend _ _ n, c | destroySession _ n, c | sendCommand _ _ n _, c =>
    c.threadOf n
  | onWorkerCommand _ _ thread, _ => some thread
  | addTimer p, c | stopTimer _ p, c | keepAlive p, c | breakOff _ p, c => c.threadOfRoom p
  | connect .., _ => none

/-- What is done by a worker that does not wait. -/
def RoomAction.run : RoomAction N → Channel N → Exec (Channel N)
  | connect alloc n id, c => c.connect env alloc n id
  | transferRef alloc n room, c => c.transferRef env alloc n room
  | transferSend alloc sent n, c => c.transferSend env alloc sent n
  | onWorkerCommand alloc ok thread, c => c.onWorkerCommand env alloc ok thread
  | destroySession alloc n, c => c.destroySession env alloc n
  | sendCommand sent garbage n target, c =>
    match c.threadOf n with
    | none => return c
    | some thread => c.sendCommand env sent garbage thread target
  | addTimer p, c => c.addTimer p
  | stopTimer alloc p, c => c.stopTimer env alloc p
  | keepAlive p, c => c.keepAlive p
  | breakOff alloc p, c => c.breakOff env alloc p

/-- A step: a worker that waits does nothing. -/
def RoomAction.step (a : RoomAction N) (c : Channel N) : Exec (Channel N) :=
  if ((a.worker c).bind c.waiting).isSome then return c else a.run env c

end Syrup
