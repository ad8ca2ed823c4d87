import Syrup.Lib.Lifecycle

/-!
# `client_resume` and the database

Logging in and logging out take several calls of `client_resume`, which goes on from `databaseState`
where the last call has left off: with the lock of the connection (`database_connection_lock`), and
then with a request to the database, which is executed until it needs no more events. A call returns
the events to be waited for (a positive status), after which it is called again, or it returns a
final status.

Here is what a call does with the lock and the requests. What it does with the character is
elsewhere; all it needs here is whether there has been memory for it.
-/

namespace Syrup

open Lifecycle

/-- The types of packet that are handled over several calls: `PACKET_TYPE_LOGIN`,
    `PACKET_TYPE_LOGOUT`. -/
inductive HandlerType
  | login
  | logout
  deriving DecidableEq

/-- The lock of the connection, and what `client->request` points to: a request, numbered in the
    order in which they are created, or `NULL`. -/
inductive Resource
  | lock
  | request (r : Option ℕ)
  deriving DecidableEq

/-- What a call finds: the results of the functions it calls. -/
structure Reply where
  /-- `database_connection_lock`: `-2` if the lock has been obtained, `-1` if it cannot be, and
      otherwise the descriptor that is readable as soon as it has been. -/
  lock : Int32
  /-- Whether `database_request_create` does not return `NULL`, in the state after the lock. -/
  create : Bool
  /-- `database_request_execute`, of the request of the state. -/
  execute : Int32
  /-- Whether there is memory for the character that is loaded, or saved. -/
  memory : Bool
  /-- Whether `database_request_create` does not return `NULL`, for the request that updates the
      character. -/
  createUpdate : Bool
  /-- `database_request_execute`, of the request that updates the character, where it is
      created. -/
  executeUpdate : Int32
  deriving DecidableEq

/-- A client that logs in or out: whether it is in a room, the state and the request that the calls
    share, how many requests have been created, and what has been done with the lock and the
    requests. -/
structure Resumption where
  handlerType : HandlerType
  hasRoom : Bool
  databaseState : ℕ
  request : Option ℕ
  created : ℕ
  trace : List (Op Resource)
  /-- The status that the last call has returned. -/
  status : Option Int32

/-- `POLLIN`. -/
def pollIn : Int32 := 1

namespace Resumption

variable (s : Resumption)

/-- A client before the first call. -/
def start (handlerType : HandlerType) (hasRoom : Bool) : Resumption where
  handlerType := handlerType
  hasRoom := hasRoom
  databaseState := 0
  request := none
  created := 0
  trace := []
  status := none

/-- Something is done with the lock or a request. -/
def log (op : Op Resource) : Resumption := { s with trace := s.trace ++ [op] }

/-- `client->databaseState = databaseState;`. -/
def goto (databaseState : ℕ) : Resumption := { s with databaseState := databaseState }

/-- `return (struct ClientContResult) { status };`. -/
def ret (status : Int32) : Resumption := { s with status := some status }

/-- A lock that is obtained, now or before the next call. -/
def lock : Resumption := s.log (.acquire .lock)

/-- `database_connection_unlock`. -/
def unlock : Resumption := s.log (.release .lock)

/-- `client->request = database_request_create(...);`. -/
def create (ok : Bool) : Resumption :=
  if ok then
    { s with request := some s.created, created := s.created + 1,
             trace := s.trace ++ [.acquire (.request (some s.created))] }
  else { s with request := none }

/-- `database_request_execute`, `database_request_result` or `database_request_get_params`, of
    `client->request`. -/
def use : Resumption := s.log (.use (.request s.request))

/-- `database_request_destroy(client->request);`. -/
def destroy : Resumption := s.log (.release (.request s.request))

variable (reply : Reply)

/-! ## `PACKET_TYPE_LOGIN` -/

/-- State 3: the character is loaded, unless there is no memory. -/
def load : Resumption :=
  let s := (s.goto 4).use
  (s.destroy.unlock).ret (if reply.memory then 0 else -1)

/-- The request for the character has been executed once more. -/
def fetch : Resumption :=
  if reply.execute < 0 then s.destroy.ret (-1)
  else if 0 < reply.execute then s.ret reply.execute
  else load (s.goto 3) reply

/-- State 1: the request for the character. -/
def requestCharacter : Resumption := fetch ((s.create reply.create).goto 2).use reply

/-- State 0: the lock. -/
def lockLogin : Resumption :=
  if reply.lock = -2 then requestCharacter (s.lock.goto 1) reply
  else if reply.lock = -1 then s.ret (-1)
  else (s.lock.goto 1).ret pollIn

/-- `client_resume`, for a login. -/
def resumeLogin : Resumption :=
  match s.databaseState with
  | 0 => lockLogin s reply
  | 1 => requestCharacter s reply
  | 2 => fetch s.use reply
  | 3 => load s reply
  | _ => s.ret 0

/-! ## `PACKET_TYPE_LOGOUT` -/

/-- The request that updates the character has been executed. -/
def finish (status : Int32) : Resumption :=
  if status ≤ 0 then (s.destroy.unlock).ret status else s.ret status

/-- State 3: the ids that have been allocated are assigned, and the character is saved, unless there
    is no memory. -/
def save : Resumption :=
  -- `database_request_get_params` and `database_request_result`
  let s := s.use.use.destroy
  if !reply.memory then s.ret (-1)
  else
    let s := s.create reply.createUpdate
    if s.request.isNone then s.ret (-1)
    else finish (s.use.goto 4) reply.executeUpdate

/-- State 2: the request for the ids. -/
def awaitIds : Resumption :=
  let s := s.use
  if 0 < reply.execute then s.ret reply.execute
  else if reply.execute < 0 then (s.destroy.unlock).ret (-1)
  else save (s.goto 3) reply

/-- State 1: the request for the ids is created. Where it is executed at once, state 2 is passed
    over. -/
def requestIds : Resumption :=
  let s := s.create reply.create
  if s.request.isNone then s.unlock.ret (-1)
  else
    let s := s.use.goto 2
    if 0 < reply.execute then s.ret reply.execute
    else if reply.execute < 0 then (s.destroy.unlock).ret (-1)
    else save (s.destroy.unlock.goto 3) reply

/-- State 0: the lock. A client that is in no room has no character to be saved. -/
def lockLogout : Resumption :=
  if !s.hasRoom then s.ret 0
  else if reply.lock = -2 then requestIds (s.lock.goto 1) reply
  else if reply.lock = -1 then s.ret (-1)
  else (s.lock.goto 1).ret pollIn

/-- State 4: the request that updates the character. The parameters of a request that has been
    executed are freed. -/
def awaitUpdate : Resumption :=
  let s := s.use
  if reply.execute ≤ 0 then finish s.use reply.execute else s.ret reply.execute

/-- `client_resume`, for a logout. -/
def resumeLogout : Resumption :=
  match s.databaseState with
  | 0 => lockLogout s reply
  | 1 => requestIds s reply
  | 2 => awaitIds s reply
  | 3 => save s reply
  | 4 => awaitUpdate s reply
  | _ => s.ret 0

/-- `client_resume`. -/
def resume : Resumption :=
  match s.handlerType with
  | .login => resumeLogin s reply
  | .logout => resumeLogout s reply

/-- The last call has returned a final status. -/
def Over : Prop := ∃ status ∈ s.status, status ≤ 0

instance : Decidable s.Over :=
  match h : s.status with
  | none => .isFalse fun ⟨_, hs, _⟩ => by rw [h] at hs; cases hs
  | some status => decidable_of_iff (status ≤ 0) (by simp [Over, h])

end Resumption

end Syrup
