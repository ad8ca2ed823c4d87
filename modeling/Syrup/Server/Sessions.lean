import Syrup.HashMap
import Syrup.Wz

/-!
# Sessions

The part of `server.c` that keeps track of the sessions of a channel. A session is pending until it
is sent to the worker of a room: it is accepted without an id, and is assigned that of a character
which the login server has announced (`session_assign_id`); from then on it can change rooms
(`session_change_room`, `do_transfer`), the first time to leave the pending ones.

All workers share one set, `sessions`, of the ids and the rooms of the sessions, by which commands
find them. It is locked around every access, so that the calls are taken one after the other.
-/

namespace Syrup

/-- `struct SessionRoom`. -/
structure SessionRoom where
  id : UInt32
  room : UInt32
  deriving DecidableEq

/-- The `room` of a session that is in none, `-1`. -/
def noRoom : UInt32 := 0xFFFFFFFF

/-- `struct Session`, as far as it is about ids and rooms. A session without an id has the id `0`, and
    `room` is `none` as long as the session is pending. -/
structure Session where
  id : UInt32
  room : Option UInt32
  deriving DecidableEq

namespace Env

variable (env : Env)

/-- The keys of `pendings`. -/
def pendings : Hashing UInt32 UInt32 := ⟨id, env.hash32⟩

/-- The keys of `sessions`. -/
def sessionRooms : Hashing SessionRoom UInt32 := ⟨SessionRoom.id, env.hash32⟩

end Env

/-- A channel server and its workers, with the sessions there are, which are told apart by `N`. -/
structure Server (N : Type) where
  pendings : HashSet UInt32
  sessions : HashSet SessionRoom
  session : N → Option Session

namespace Server

variable {N : Type}

/-- A server that has been started. -/
def start : Server N := ⟨hashSetInit, hashSetInit, fun _ => none⟩

variable [DecidableEq N]

/-- Rewrites a session. -/
def setSession (s : Server N) (n : N) (session : Option Session) : Server N :=
  { s with session := Function.update s.session n session }

end Server

variable {N : Type} [DecidableEq N] (env : Env)

/-- A connection is accepted. -/
def acceptSession (s : Server N) (n : N) : Server N :=
  if (s.session n).isNone then s.setSession n (some ⟨0, none⟩) else s

/-- The login server announces a character. -/
def announce (alloc : Bool) (s : Server N) (id : UInt32) : Exec (Server N) := do
  let (_, pendings) ← hashSetInsert env.pendings alloc s.pendings id
  return { s with pendings := pendings }

/-- `session_assign_id`. The supervisor of a session that is not pending is not the server. -/
def sessionAssignId (alloc : Bool) (s : Server N) (n : N) (id : UInt32) :
    Exec (Bool × Server N) := do
  let session ← Exec.deref (s.session n)
  if session.room.isSome then .error .outOfBounds
  else if (hashSetGet env.pendings s.pendings id).isNone then return (false, s)
  else
    let pendings ← hashSetRemove env.pendings alloc s.pendings id
    let (inserted, sessions) ← hashSetInsert env.sessionRooms alloc s.sessions ⟨id, noRoom⟩
    let s := { s with pendings := pendings, sessions := sessions }
    return (inserted, if inserted then s.setSession n (some { session with id := id }) else s)

/-- The branch of `do_transfer` for a pending session, which has been sent to a worker. -/
def enterFirst (alloc : Bool) (s : Server N) (n : N) (id room : UInt32) : Exec (Server N) := do
  let (_, sessions) ← hashSetInsert env.sessionRooms alloc s.sessions ⟨id, room⟩
  return { s with sessions := sessions }.setSession n (some ⟨id, some room⟩)

/-- The branch of `do_transfer` for a session in a room, which has been sent to a worker. -/
def changeRoom (s : Server N) (n : N) (id room : UInt32) : Server N :=
  let sessions :=
    match hashSetGet env.sessionRooms s.sessions id with
    | none => s.sessions
    | some r => hashSetWrite env.sessionRooms s.sessions id { r with room := room }
  { s with sessions := sessions }.setSession n (some ⟨id, some room⟩)

/-- `session_change_room`, with the `do_transfer` that it ends in: whether the session can be `sent` to
    the worker of the room is up to a pipe. -/
def sessionChangeRoom (alloc sent : Bool) (s : Server N) (n : N) (room : UInt32) :
    Exec (Server N) := do
  let session ← Exec.deref (s.session n)
  if session.id = 0 then .error .assertion
  else if sent then
    match session.room with
    | none => enterFirst env alloc s n session.id room
    | some _ => return changeRoom env s n session.id room
  else return s

/-- `destroy_pending_session`. -/
def destroyPendingSession (s : Server N) (n : N) : Server N := s.setSession n none

/-- `destroy_session`. -/
def destroySession (alloc : Bool) (s : Server N) (n : N) (id : UInt32) : Exec (Server N) := do
  let sessions ← hashSetRemove env.sessionRooms alloc s.sessions id
  return { s with sessions := sessions }.setSession n none

/-- What happens to the sessions of a server. -/
inductive ServerAction (N : Type)
  | accept (n : N)
  | announce (alloc : Bool) (id : UInt32)
  | assignId (alloc : Bool) (n : N) (id : UInt32)
  | changeRoom (alloc sent : Bool) (n : N) (room : UInt32)
  | destroy (alloc : Bool) (n : N)

/-- The server after it. -/
def ServerAction.step : ServerAction N → Server N → Exec (Server N)
  | accept n, s => .ok (acceptSession s n)
  | announce alloc id, s => Syrup.announce env alloc s id
  | assignId alloc n id, s => do
    let (_, s) ← sessionAssignId env alloc s n id
    return s
  | changeRoom alloc sent n room, s => sessionChangeRoom env alloc sent s n room
  | destroy alloc n, s => do
    let session ← Exec.deref (s.session n)
    if session.room.isSome then destroySession env alloc s n session.id
    else return destroyPendingSession s n

end Syrup
