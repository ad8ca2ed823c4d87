import Syrup.Exec
import Syrup.Lib.LockQueues
import Syrup.Lib.Run

/-!
# User events, saves and the end of a session

A session of a channel server is read from by its worker while `EV_READ` is enabled. A handler that has to
wait for the database registers a *user event*, which disables `EV_READ` until it is over. There are two
kinds of them: the periodic save of the character, and the logout when the client has disconnected.

The periodic save waits for the lock of the worker's connection to the database, allocates ids, and then
updates the character by an event of its own, while the session goes on. The session may meanwhile go to
another room, which may be in another worker, with another connection.

A session that is kicked is only shut down for reading: when the end of the input is read, the disconnect
handler is run, and when the logout is over the session is destroyed.

For the statements, the places in the queues for the locks are numbered, and so are the requests; and it is
kept who gives a lock back and who had it, by whom requests are executed and who had the lock then, and
how often a session has been disconnected and destroyed.
-/

namespace Syrup

/-! ## Sessions -/

/-- What `database_request_execute` returns: a negative number, zero, or a positive one. -/
inductive ExecuteStatus
  | fails
  | done
  | waits
  deriving DecidableEq

/-- The event that `session->userEvent` points to, with its handler: the lock is waited for
    (`on_id_allocate_database_unlocked`), or the ids (`on_resume_id_allocate_database_operation`), by a save
    that has this place in the queue; or the logout goes on (`on_client_resume_disconnect`). An event whose
    descriptor has been closed, or that has been deleted, `never` comes. -/
inductive UserEvent
  | lock (k : ℕ)
  | allocate (k : ℕ)
  | logout
  | never
  deriving DecidableEq

/-- A session of a channel server with its client: the worker whose room it is to go to as soon as its
    output is flushed; the one that it is on its way to; `userEvent`; `timer`, and whether it is pending;
    whether `EV_READ` and `EV_WRITE` are enabled; whether the end of the input is there to be read;
    `disconnecting`; `client->conn`, which is that of a worker; `client->request`; and how often
    `onClientDisconnect` and `destroy_session` have been called. -/
structure ChannelSession where
  leaving : Option ℕ
  moving : Option ℕ
  userEvent : Option UserEvent
  timer : Option Bool
  reading : Bool
  writing : Bool
  shut : Bool
  disconnecting : Bool
  conn : ℕ
  request : ℕ
  disconnects : ℕ
  destroys : ℕ
  deriving DecidableEq

namespace ChannelSession

variable (s : ChannelSession)

/-- A session that goes to its first room. -/
def fresh (conn target : ℕ) : ChannelSession where
  leaving := none
  moving := some target
  userEvent := none
  timer := some false
  reading := false
  writing := false
  shut := false
  disconnecting := false
  conn := conn
  request := 0
  disconnects := 0
  destroys := 0

/-- `session_set_event`. -/
def setEvent (e : UserEvent) : ChannelSession :=
  { s with
    userEvent := some e
    timer := if s.userEvent = none then s.timer.map fun _ => false else s.timer
    reading := false }

/-- `session_close_event`. -/
def closeEvent : Exec ChannelSession :=
  match s.userEvent with
  | none => .error .nullPointer
  | some _ => return { s with userEvent := none, timer := s.timer.map fun _ => true }

/-- `shutdown_session`. -/
def shutdown : ChannelSession := { s with shut := true }

/-- `destroy_session`. -/
def destroySession : ChannelSession :=
  { s with leaving := none, reading := false, writing := false, destroys := s.destroys + 1 }

end ChannelSession

/-! ## The system -/

/-- Who has a place in a queue, if it is not a session that waits: a save that updates the character, with
    `save->conn` and `save->request`; or somebody else, such as a logout. -/
inductive BackgroundUse
  | update (conn request : ℕ)
  | other (conn : ℕ)

/-- The sessions, the queues of the connections for their locks, the requests of saves, the connections
    that they are for, those who have places in the queues and are not sessions, who has given a lock back
    and who had it, and by whom a request has been executed and who had the lock. -/
structure SessionSystem where
  session : ℕ → Option ChannelSession
  locks : LockQueues
  requests : Arena
  connOf : ℕ → ℕ
  background : ℕ → Option BackgroundUse
  unlocks : List (ℕ × ℕ)
  executes : List (ℕ × Option ℕ)

namespace SessionSystem

variable (w : SessionSystem)

/-- There are no sessions. -/
def start : SessionSystem := ⟨fun _ => none, .empty, .empty, fun _ => 0, fun _ => none, [], []⟩

/-- `database_connection_unlock(conn);`, by the save that has the place `k`. -/
def unlock (k conn : ℕ) : Exec SessionSystem :=
  match w.locks.unlock conn with
  | none => .error .nullPointer
  | some (owner, locks) => return { w with locks := locks, unlocks := (k, owner) :: w.unlocks }

/-- `database_request_create(conn, ..)`. -/
def create (conn : ℕ) : SessionSystem :=
  { w with
    requests := w.requests.alloc
    connOf := Function.update w.connOf w.requests.next conn }

/-- `database_request_execute(request, ..)`, by the save that has the place `k`. -/
def execute (k request : ℕ) : SessionSystem :=
  { w with executes := (k, w.locks.first (w.connOf request)) :: w.executes }

/-- `database_request_destroy(request);`. -/
def destroy (request : ℕ) : SessionSystem := { w with requests := w.requests.release request }

/-- A session is written back. -/
def put (n : ℕ) (s : ChannelSession) : SessionSystem :=
  { w with session := Function.update w.session n (some s) }

end SessionSystem

/-! ## The periodic save -/

/-- What a save finds: whether the request for the ids can be created, what comes of executing it, whether
    there is memory for the update, and what comes of executing the request for that. -/
structure SaveOutcome where
  create : Bool
  allocate : ExecuteStatus
  memory : Bool
  update : ExecuteStatus

/-- What a handler leaves: whether it has kicked the session (`session_kick` jumps out of it), the session,
    and the rest. -/
structure Handled where
  kicked : Bool
  session : ChannelSession
  system : SessionSystem

section Save

variable (s : ChannelSession) (w : SessionSystem) (k : ℕ) (o : SaveOutcome)

/-- `session_kick`. -/
def ChannelSession.sessionKick : Handled := ⟨true, s.shutdown, w⟩

/-- `start_save`. -/
def ChannelSession.startSave : Exec Handled :=
  let w := w.destroy s.request
  if o.memory then
    let request := w.requests.next
    let w := (w.create s.conn).execute k request
    match o.update with
    | .waits => return ⟨false, s, { w with
        background := Function.update w.background k (some (.update s.conn request)) }⟩
    | .done => do return ⟨false, s, ← (w.destroy request).unlock k s.conn⟩
    | .fails => do return s.sessionKick (← (w.destroy request).unlock k s.conn)
  else do return s.sessionKick (← w.unlock k s.conn)

/-- `on_resume_id_allocate_database_operation`, and the end of `on_id_allocate_database_unlocked`. -/
def ChannelSession.onResumeIdAllocate : Exec Handled :=
  let w := w.execute k s.request
  match o.allocate with
  | .waits => return ⟨false, s.setEvent (.allocate k), w⟩
  | .fails => do
    let w ← (w.destroy s.request).unlock k s.conn
    return ChannelSession.sessionKick (← s.closeEvent) w
  | .done => do ChannelSession.startSave (← s.closeEvent) w k o

/-- `on_id_allocate_database_unlocked`. -/
def ChannelSession.onIdAllocateDatabaseUnlocked : Exec Handled :=
  if o.create then
    { s with request := w.requests.next }.onResumeIdAllocate (w.create s.conn) k o
  else do return ⟨false, s, ← w.unlock k s.conn⟩

/-- `client_save_start`, which returns -1 if there is no memory to wait for the lock. -/
def ChannelSession.clientSaveStart (alloc : Bool) : Exec (Option Handled) :=
  if alloc then
    let k := w.locks.places.next
    let w' := { w with locks := w.locks.lock s.conn }
    match w.locks.first s.conn with
    | none => do return some (← s.onIdAllocateDatabaseUnlocked w' k o)
    | some _ => return some ⟨false, s.setEvent (.lock k), w'⟩
  else return none

/-- `on_client_timer`. -/
def ChannelSession.onClientTimer (alloc : Bool) : Exec Handled := do
  match ← s.clientSaveStart w o alloc with
  | some h => return h
  | none => return s.sessionKick w

end Save

/-- `on_resume_database_operation`, for the save that has the place `k`. -/
def onResumeDatabaseOperation (w : SessionSystem) (k : ℕ) (status : ExecuteStatus) : Exec SessionSystem :=
  match w.background k with
  | some (.update conn request) =>
    let w := w.execute k request
    match status with
    | .waits => return w
    | _ => do
      let w ← (w.destroy request).unlock k conn
      return { w with background := Function.update w.background k none }
  | _ => return w

/-! ## The end of a session -/

/-- What comes of a call of `client_resume` when a client logs out: it waits, it is over, or it fails and has
    closed the event of the session. -/
inductive LogoutStatus
  | waits
  | ends
  | closes
  deriving DecidableEq

section End

variable (s : ChannelSession) (l : LogoutStatus)

/-- `on_client_disconnect`, and whether it has kicked the session. -/
def ChannelSession.onClientDisconnect : Exec (Bool × ChannelSession) :=
  match l with
  | .waits => return (false, s.setEvent .logout)
  | .ends => return (true, s.shutdown)
  | .closes => do return (true, (← s.closeEvent).shutdown)

/-- `kick_common`. -/
def ChannelSession.kickCommon : Exec ChannelSession :=
  match s.userEvent with
  | some _ => return s
  | none => do
    let (kicked, s) ← { s with disconnecting := true, disconnects := s.disconnects + 1 }.onClientDisconnect l
    if kicked then return s.destroySession else return { s with reading := false }

/-- `on_client_resume_disconnect`, and whether it has kicked the session. -/
def ChannelSession.onClientResumeDisconnect : Exec (Bool × ChannelSession) :=
  match l with
  | .waits => return (false, s.setEvent .logout)
  | .ends => do return (true, (← s.closeEvent).shutdown)
  | .closes => do return (true, (← (← s.closeEvent).closeEvent).shutdown)

/-- `on_session_user_fd_ready`, when the handler of the user event has returned, or has kicked the
    session. -/
def ChannelSession.afterResume (kicked : Bool) : Exec ChannelSession :=
  if kicked then
    match s.timer with
    | none => if s.disconnecting then return s.destroySession else s.kickCommon l
    | some _ => return s
  else
    match s.userEvent, s.timer with
    | none, some _ => return { s with timer := some true, reading := true }
    | _, _ => return s

/-- `on_session_event`, when the end of the input is read; libevent has disabled `EV_READ`. -/
def ChannelSession.onSessionEvent : Exec ChannelSession :=
  match s.timer with
  | none => .error .nullPointer
  | some _ => { s with reading := false, timer := none }.kickCommon l

end End

/-! ## Going to another room -/

section Rooms

variable (s : ChannelSession)

/-- An event that has been deleted. -/
def ChannelSession.deleted : ChannelSession := { s with userEvent := s.userEvent.map fun _ => .never }

/-- The user event, or else the timer, is deleted until the session arrives. -/
def ChannelSession.detach : Exec ChannelSession :=
  match s.userEvent, s.timer with
  | some _, _ => return s
  | none, none => .error .nullPointer
  | none, some _ => return { s with timer := some false }

/-- `do_transfer`, and whether the message for the other worker is `sent`. -/
def ChannelSession.doTransfer (target : ℕ) (sent : Bool) : Exec ChannelSession := do
  let s ← { s with leaving := none, reading := false, writing := false }.detach
  if sent then return { s with moving := some target } else return s.deleted.shutdown

/-- `session_change_room`, and whether the output is `empty`. -/
def ChannelSession.sessionChangeRoom (target : ℕ) (empty sent : Bool) : Exec ChannelSession :=
  if empty then s.doTransfer target sent else return { s with leaving := some target, reading := false }

/-- `WORKER_COMMAND_NEW_CLIENT`, and whether the room is there or has been `created`. -/
def ChannelSession.newClient (target : ℕ) (created : Bool) : Exec ChannelSession :=
  let s := { s with moving := none }
  if created then
    let s := { s with reading := true, writing := true, conn := target }
    match s.userEvent, s.timer with
    | some _, _ => return s
    | none, none => .error .nullPointer
    | none, some _ => return { s with timer := some true }
  else return s.deleted.shutdown

end Rooms

/-! ## What happens -/

/-- Why a session is shut down: the peer disconnects; the handler of a packet or a command kicks it
    (`session_kick`); another worker does (`WORKER_COMMAND_KICK`); or its output cannot be written. -/
inductive ShutdownCause
  | peer
  | packet
  | command
  | kick
  | write
  deriving DecidableEq

/-- What happens to a session: it is shut down; the end of its input is read; its timer expires; its user
    event comes; it is to change its room; its output has been flushed when it is to; it arrives. -/
inductive SessionCallback
  | shutdown (cause : ShutdownCause)
  | read (l : LogoutStatus)
  | timer (alloc : Bool) (o : SaveOutcome)
  | userEvent (o : SaveOutcome) (l : LogoutStatus)
  | changeRoom (target : ℕ) (empty sent : Bool)
  | flushed (sent : Bool)
  | arrive (created : Bool)

/-- Whether the session can be shut down so. -/
def ShutdownCause.May (s : ChannelSession) : ShutdownCause → Prop
  | peer => s.destroys = 0
  | packet => s.reading = true
  | command => s.moving = none ∧ s.destroys = 0
  | kick => s.moving = none ∧ s.destroys = 0
  | write => s.writing = true

instance (s : ChannelSession) (cause : ShutdownCause) : Decidable (cause.May s) :=
  match cause with
  | .peer => inferInstanceAs (Decidable (s.destroys = 0))
  | .packet => inferInstanceAs (Decidable (s.reading = true))
  | .command | .kick => inferInstanceAs (Decidable (s.moving = none ∧ s.destroys = 0))
  | .write => inferInstanceAs (Decidable (s.writing = true))

section Step

variable (s : ChannelSession) (w : SessionSystem)

/-- The session and the rest after it. -/
def SessionCallback.handle : SessionCallback → Exec (ChannelSession × SessionSystem)
  | shutdown cause =>
    if cause.May s then
      -- what cannot be written stays in the output, and `EV_WRITE` is disabled
      if cause = .write then return ({ s with writing := false }.shutdown, w) else return (s.shutdown, w)
    else return (s, w)
  | read l =>
    if s.reading ∧ s.shut then do return (← s.onSessionEvent l, w)
    else return (s, w)
  | timer alloc o =>
    if s.timer = some true then do
      let h ← s.onClientTimer w o alloc
      return (h.session, h.system)
    else return (s, w)
  | userEvent o l =>
    if s.moving = none then
      match s.userEvent with
      | some (.lock k) =>
        if k ∈ w.locks.woken then do
          -- the descriptor is closed first
          let h ← { s with userEvent := some .never }.onIdAllocateDatabaseUnlocked w k o
          return (← h.session.afterResume l h.kicked, h.system)
        else return (s, w)
      | some (.allocate k) => do
        let h ← s.onResumeIdAllocate w k o
        return (← h.session.afterResume l h.kicked, h.system)
      | some .logout => do
        let (kicked, s) ← s.onClientResumeDisconnect l
        return (← s.afterResume l kicked, w)
      | _ => return (s, w)
    else return (s, w)
  | changeRoom target empty sent =>
    if s.moving = none ∧ s.destroys = 0 then do return (← s.sessionChangeRoom target empty sent, w)
    else return (s, w)
  | flushed sent =>
    match s.leaving, s.writing with
    | some target, true => do return (← s.doTransfer target sent, w)
    | _, _ => return (s, w)
  | arrive created =>
    match s.moving with
    | some target => do return (← s.newClient target created, w)
    | none => return (s, w)

end Step

/-- What happens: a client connects; something happens to a session; a save that updates its character goes
    on; or somebody else takes a place in the queue for a lock, or gives the lock back. -/
inductive SystemAction
  | connect (n conn target : ℕ)
  | session (n : ℕ) (c : SessionCallback)
  | update (k : ℕ) (status : ExecuteStatus)
  | otherLock (conn : ℕ)
  | otherUnlock (k : ℕ)

/-- The system after it. -/
def SystemAction.step (a : SystemAction) (w : SessionSystem) : Exec SessionSystem :=
  match a with
  | connect n conn target =>
    match w.session n with
    | none => return w.put n (.fresh conn target)
    | some _ => return w
  | session n c =>
    match w.session n with
    | none => return w
    | some s => do
      let (s, w) ← c.handle s w
      return w.put n s
  | update k status => onResumeDatabaseOperation w k status
  | otherLock conn =>
    return { w with
      locks := w.locks.lock conn
      background := Function.update w.background w.locks.places.next (some (.other conn)) }
  | otherUnlock k =>
    match w.background k with
    | some (.other conn) =>
      if w.locks.first conn = some k then do
        let w ← w.unlock k conn
        return { w with background := Function.update w.background k none }
      else return w
    | _ => return w

end Syrup
