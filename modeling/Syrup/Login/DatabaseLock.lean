import Syrup.Exec
import Syrup.Lib.Arena
import Syrup.Lib.Run

/-!
# The lock of the database

The sessions of a worker of the login server share a connection to the database, with a lock
(`database.c`): those that wait for it are in a queue, and the first in the queue has it. A packet handler
gets the lock, makes a request, waits for it to be executed, and gives the lock back; and so does the
logout handler, which runs when a client disconnects or is kicked.

What a handler does from one wait to the next is a `Segment`. Events of libevent are not persistent: one
that has fired fires again only if it is set again.

For the statements, the requests and the places in the queue are numbered, and so are the nodes of accounts
that belong to a session; these do not when a character has been admitted. Who gives the lock back, and who
had it, is kept.
-/

namespace Syrup

/-! ## Sessions -/

/-- What is waited for on a file descriptor: `POLLIN` and `POLLOUT`. -/
structure PollMask where
  input : Bool
  output : Bool
  deriving DecidableEq

/-- `session_get_event_disposition`: `libevent_to_poll` tests `ret`, which is `0`, for `EV_READ`. -/
def PollMask.disposition (mask : PollMask) : PollMask := ⟨false, mask.output⟩

/-- `enum PacketType`. -/
inductive PacketType
  | login
  | gender
  | characterList
  | nameCheck
  | createCharacter
  | registerPic
  | verifyPic
  deriving DecidableEq

/-- What `client->handler` points to. -/
inductive HandlerKind
  | packet (type : PacketType)
  | logout
  deriving DecidableEq

/-- The `userEvent` of a session: there is none; it waits for the lock, or for a query of the database,
    in a packet handler or because the client has `left`; for a channel; or for what does not come. -/
inductive Wait
  | none
  | lock (fd : ℕ) (left : Bool)
  | query (mask : PollMask) (left : Bool)
  | channel
  | never
  deriving DecidableEq

/-- `enum SessionState`, of a session to which the client is connected. -/
inductive SessionState
  | connected
  | disconnecting
  | kicking
  deriving DecidableEq

/-- A session: `client->node`, `client->loggedIn`, the request of its handler, `client->type`, what
    `client->handler` points to, its state, and what it waits for. -/
structure LockSession where
  node : Option ℕ
  loggedIn : Bool
  request : Option ℕ
  type : PacketType
  handler : HandlerKind
  state : SessionState
  wait : Wait
  deriving DecidableEq

/-- How a segment ends: the handler waits, is done, or fails. -/
inductive SegmentResult
  | waits (mask : PollMask)
  | done
  | fails
  deriving DecidableEq

/-- What a handler does until it waits, or to its end: whether it calls `account_login`, and gets a node;
    how many requests it destroys and makes anew; and how it ends. -/
structure Segment where
  login : Option Bool
  renewed : ℕ
  result : SegmentResult

/-- What happens when a session is logged out: whether there is memory to wait for the lock, and the first
    segment of the logout handler if it has it. -/
structure Logout where
  alloc : Bool
  segment : Segment

/-! ## The worker -/

/-- `struct LockQueueNode`, and who is in the queue. -/
structure LockEntry (N : Type) where
  owner : N
  fd : ℕ

/-- A worker: the queue for the lock, with those that have given it back, the `eventfd`s that have been
    written to, who has given the lock back and who had it, the requests, the nodes, and the sessions. -/
structure DatabaseWorker (N : Type) where
  queue : List (LockEntry N)
  released : List ℕ
  nextFd : ℕ
  written : List ℕ
  unlocks : List (N × N)
  requests : Arena
  nodes : Arena
  session : N → Option LockSession

/-- What comes of `database_connection_lock`. -/
inductive LockAnswer
  | failed
  | acquired
  | queued (fd : ℕ)

namespace DatabaseWorker

variable {N : Type} (w : DatabaseWorker N)

/-- A worker without sessions. -/
def start : DatabaseWorker N := ⟨[], [], 0, [], [], .empty, .empty, fun _ => none⟩

/-- A session is written back. -/
def setSession [DecidableEq N] (n : N) (o : Option LockSession) : DatabaseWorker N :=
  { w with session := Function.update w.session n o }

/-- The place in the queue that a session gets. -/
def enqueue (n : N) : DatabaseWorker N :=
  { w with queue := w.queue ++ [⟨n, w.nextFd⟩], nextFd := w.nextFd + 1 }

/-- `database_connection_lock`. -/
def lock (n : N) (alloc : Bool) : LockAnswer × DatabaseWorker N :=
  if ¬alloc then (.failed, w)
  else if w.queue.isEmpty then (.acquired, w.enqueue n)
  else (.queued w.nextFd, w.enqueue n)

/-- `database_connection_unlock`: the first one leaves the queue, and the `eventfd` of the next one is
    written to. -/
def unlock (n : N) : Exec (DatabaseWorker N) :=
  match w.queue with
  | [] => .error .nullPointer
  | e :: queue => return { w with
      queue := queue
      released := e.fd :: w.released
      written := (queue.map (·.fd)).head?.toList ++ w.written
      unlocks := (n, e.owner) :: w.unlocks }

end DatabaseWorker

/-! ## Handlers -/

section Handlers

variable {N : Type} (s : LockSession) (w : DatabaseWorker N)

/-- `database_request_create`, if the handler has no request yet. -/
def openRequest : LockSession × DatabaseWorker N :=
  match s.request with
  | some _ => (s, w)
  | none => ({ s with request := some w.requests.next }, { w with requests := w.requests.alloc })

/-- `database_request_destroy`. -/
def closeRequest : LockSession × DatabaseWorker N :=
  match s.request with
  | some r => ({ s with request := none }, { w with requests := w.requests.release r })
  | none => (s, w)

/-- Requests are destroyed and made anew. -/
def renewRequest : ℕ → LockSession → DatabaseWorker N → LockSession × DatabaseWorker N
  | 0, s, w => (s, w)
  | k + 1, s, w =>
    let (s, w) := closeRequest s w
    let (s, w) := openRequest s w
    renewRequest k s w

/-- `client->node = account_login(..)`. -/
def loginNode : Option Bool → LockSession × DatabaseWorker N
  | none => (s, w)
  | some false => ({ s with node := none }, w)
  | some true => ({ s with node := some w.nodes.next }, { w with nodes := w.nodes.alloc })

/-- `account_logout`, if the client is not in the game. -/
def logoutNode : LockSession × DatabaseWorker N :=
  match s.node with
  | some r =>
    if s.loggedIn then (s, w) else ({ s with node := none }, { w with nodes := w.nodes.release r })
  | none => (s, w)

/-- A handler that destroys its request when it fails. -/
def HandlerKind.cleansUp : HandlerKind → Bool
  | packet .characterList => true
  | packet .nameCheck => true
  | packet .createCharacter => true
  | _ => false

/-- A segment of a handler: `login_handler_handle`, `gender_handler_handle`,
    `character_list_handler_handle`, `name_check_handler_handle`, `create_character_handler_handle`, or
    `logout_handler_handle`. -/
def runHandler (kind : HandlerKind) (segment : Segment) : LockSession × DatabaseWorker N :=
  let (s, w) := openRequest s w
  let (s, w) := if kind = .packet .login then renewRequest segment.renewed s w else (s, w)
  let (s, w) := if kind = .packet .login then loginNode s w segment.login else (s, w)
  let (s, w) :=
    match segment.result with
    | .waits _ => (s, w)
    | .done => closeRequest s w
    | .fails => if kind.cleansUp then closeRequest s w else ({ s with request := none }, w)
  match segment.result with
  | .waits _ => (s, w)
  | _ => if kind = .logout then logoutNode s w else (s, w)

/-! ## Callbacks -/

/-- `on_client_disconnect`. The handler that there was is forgotten, with its request. -/
def onClientDisconnect (n : N) (l : Logout) : Exec (LockSession × DatabaseWorker N) :=
  match s.node with
  | none => return (s, w)
  | some _ =>
    let s := { s with handler := .logout, request := none }
    match w.lock n l.alloc with
    | (.failed, w) => return (s, w)
    | (.queued fd, w) => return ({ s with wait := .lock fd true }, w)
    | (.acquired, w) =>
      let (s, w) := runHandler s w .logout l.segment
      match l.segment.result with
      | .waits mask => return ({ s with wait := .query mask true }, w)
      | _ => do return (s, ← w.unlock n)

variable [DecidableEq N]

/-- `kick_session`; and what `on_session_event` does when the client disconnects. -/
def kickSession (n : N) (l : Logout) : Exec (DatabaseWorker N) := do
  let (s, w) ← onClientDisconnect s w n l
  if s.wait = .none then return w.setSession n none
  else return w.setSession n (some { s with state := .disconnecting })

/-- The end of `on_user_fd_ready`, when a handler is done. -/
def finish (n : N) (l : Logout) : Exec (DatabaseWorker N) :=
  let s := { s with wait := .none }
  match s.state with
  | .connected => return w.setSession n (some s)
  | .kicking => kickSession s w n l
  | .disconnecting => return w.setSession n none

/-- What `on_database_lock_ready`, `on_resume_client_packet` and their counterparts for a client that has
    left do after a segment of their handler, and `on_user_fd_ready` after them. -/
def afterSegment (n : N) (left : Bool) (segment : Segment) (l : Logout) (wait : PollMask → Wait) :
    Exec (DatabaseWorker N) :=
  match segment.result with
  | .waits mask => return w.setSession n (some { s with wait := wait mask })
  | .done => do
    let w ← w.unlock n
    finish s w n l
  | .fails => do
    let w ← w.unlock n
    if left then finish s w n l else kickSession { s with wait := .none } w n l

/-- `DEFINE_LOCK_AND_WRITE`, and `on_session_read`. What comes of a name check is not looked at. -/
def lockAndWrite (n : N) (type : PacketType) (alloc : Bool) (segment : Segment) (l : Logout) :
    Exec (DatabaseWorker N) :=
  let s := { s with type := type, handler := .packet type, request := none }
  match w.lock n alloc with
  | (.failed, w) =>
    if type = .nameCheck then return w.setSession n (some s) else kickSession s w n l
  | (.queued fd, w) => return w.setSession n (some { s with wait := .lock fd false })
  | (.acquired, w) =>
    let (s, w) := runHandler s w (.packet type) segment
    match segment.result with
    | .waits mask => return w.setSession n (some { s with wait := .query mask false })
    | .done => do return (← w.unlock n).setSession n (some s)
    | .fails => do
      let w ← w.unlock n
      if type = .nameCheck then return w.setSession n (some s) else kickSession s w n l

/-- `on_database_lock_ready` and `on_database_lock_ready_disconnect`. A packet handler is taken for what
    `client->type` says that it is. -/
def onDatabaseLockReady (n : N) (left : Bool) (segment : Segment) (l : Logout) :
    Exec (DatabaseWorker N) :=
  if s.handler ≠ (if left then .logout else .packet s.type) then .error .assertion
  else
    let kind := s.handler
    let (s, w) := runHandler s w kind segment
    afterSegment s w n left segment l fun mask => .query mask left

/-- `on_resume_client_packet` and `on_resume_client_disconnect`. The event is only set again if it is to be
    another one. -/
def onResumeClient (n : N) (left : Bool) (mask : PollMask) (segment : Segment) (l : Logout) :
    Exec (DatabaseWorker N) :=
  if s.handler ≠ (if left then .logout else .packet s.type) then .error .assertion
  else
    let kind := s.handler
    let (s, w) := runHandler s w kind segment
    afterSegment s w n left segment l fun mask' =>
      if mask' ≠ mask.disposition then .query mask' left else .never

/-- `on_resume_client_packet`, for the handlers of a PIC. -/
def onResumePic (n : N) (admitted : Bool) (l : Logout) : Exec (DatabaseWorker N) :=
  if s.handler ≠ .packet s.type then .error .assertion
  else if admitted then do
    let r ← Exec.deref s.node
    let w := if s.loggedIn then w else { w with nodes := w.nodes.release r }
    finish { s with loggedIn := true } w n l
  else finish s w n l

end Handlers

/-! ## What happens -/

/-- What happens to a session: a client connects; it sends a packet for the handler of which the database
    is needed, or one with a PIC, or one for which it is kicked; the lock is granted; a query goes on; a
    channel answers; the client disconnects; or the worker is shut down. -/
inductive LockEvent (N : Type)
  | connect (n : N)
  | packet (n : N) (type : PacketType) (alloc : Bool) (segment : Segment) (l : Logout)
  | pic (n : N) (type : PacketType) (connected : Bool)
  | badPacket (n : N) (l : Logout)
  | lockReady (n : N) (segment : Segment) (l : Logout)
  | queryReady (n : N) (segment : Segment) (l : Logout)
  | channelReady (n : N) (admitted : Bool) (l : Logout)
  | disconnect (n : N) (l : Logout)
  | shutdown (n : N) (l : Logout)

/-- To which session. -/
def LockEvent.target {N : Type} : LockEvent N → N
  | connect n => n
  | packet n _ _ _ _ => n
  | pic n _ _ => n
  | badPacket n _ => n
  | lockReady n _ _ => n
  | queryReady n _ _ => n
  | channelReady n _ _ => n
  | disconnect n _ => n
  | shutdown n _ => n

section

variable {N : Type} [DecidableEq N]

/-- What happens to a session that there is. Packets are read while it does not wait. -/
def LockEvent.handle (s : LockSession) (w : DatabaseWorker N) : LockEvent N → Exec (DatabaseWorker N)
  | connect _ => return w
  | packet n type alloc segment l =>
    if s.wait = .none ∧ s.state = .connected ∧ type ≠ .registerPic ∧ type ≠ .verifyPic then
      lockAndWrite s w n type alloc segment l
    else return w
  | pic n type connected =>
    if s.wait = .none ∧ s.state = .connected ∧ (type = .registerPic ∨ type = .verifyPic) then
      let s := { s with type := type, handler := .packet type, request := none }
      let wait : Wait :=
        if connected then .channel else if type = .registerPic then .never else .none
      return w.setSession n (some { s with wait := wait })
    else return w
  | badPacket n l => if s.wait = .none ∧ s.state = .connected then kickSession s w n l else return w
  | lockReady n segment l =>
    match s.wait with
    | .lock fd left => if fd ∈ w.written then onDatabaseLockReady s w n left segment l else return w
    | _ => return w
  | queryReady n segment l =>
    match s.wait with
    | .query mask left => onResumeClient s w n left mask segment l
    | _ => return w
  | channelReady n admitted l =>
    match s.wait with
    | .channel => onResumePic s w n admitted l
    | _ => return w
  | disconnect n l => if s.state = .disconnecting then return w else kickSession s w n l
  | shutdown n l =>
    if s.state = .disconnecting then return w
    else if s.wait = .none then kickSession s w n l
    else return w.setSession n (some { s with state := .kicking })

/-- The worker after it. -/
def LockEvent.step (e : LockEvent N) (w : DatabaseWorker N) : Exec (DatabaseWorker N) :=
  match w.session e.target with
  | some s => e.handle s w
  | none =>
    match e with
    | connect n =>
      return w.setSession n (some ⟨none, false, none, .login, .packet .login, .connected, .none⟩)
    | _ => return w

end

end Syrup
