import Syrup.Lib.Run
import Syrup.Login.Accounts

/-!
# Sessions, accounts and characters

The node of an account belongs first to the login session on which the login has succeeded, and then to the
character that has been assigned to a channel: `account_logout` frees it if the session ends before, and
`account_logout_by_cid` when the channel tells that the character has left. The messages between the two
servers, the events of the sessions and the queries of the database come in any order; of the messages
about a character the acknowledgement comes before the leave.

* `accounts_run`: if a login only completes on a session that is open and not logged in, a session only
  assigns one character, of its own account, and it ends after the answer of the channel has been handled,
  and before the character has left, there is one node for each account that is in use, and no pointer to
  one that has been freed;
* `accounts_lockedOut`: otherwise an account may be locked out for ever.
-/

namespace Syrup

/-! ## The server -/

/-- What a session waits for: nothing; the queries of a login; a channel, with the `eventfd` that it writes
    to, and whether it has written; or the queries of a logout, and whether these have begun. -/
inductive AccountTask
  | idle
  | loggingIn
  | waiting (cid : UInt32) (fd : ℕ) (answered : Bool)
  | loggingOut (begun : Bool)
  deriving DecidableEq

/-- It is a channel that is waited for. -/
def AccountTask.onChannel : AccountTask → Bool
  | waiting _ _ _ => true
  | _ => false

/-- A session: `client->node`, `client->loggedIn`, and whether the client has disconnected; `account` is
    the account as which it is authenticated. -/
structure AccountSession where
  node : Option ℕ
  account : Option ℕ
  loggedIn : Bool
  closing : Bool
  task : AccountTask
  deriving DecidableEq

/-- How far a character has come: the channel does not know of it yet; it may be in the game; or it has
    left. When the channel knows of it, it sends an acknowledgement, which may have been read. -/
inductive TokenStage
  | requested
  | online (acked : Bool)
  | left (acked : Bool)
  deriving DecidableEq

/-- The acknowledgement has been read. -/
def TokenStage.acked : TokenStage → Bool
  | requested => false
  | online acked => acked
  | left acked => acked

/-- A character that has been assigned to a channel, with the `eventfd` and through which account. -/
structure Token where
  cid : UInt32
  fd : ℕ
  account : Option ℕ
  stage : TokenStage
  deriving DecidableEq

/-- The login server, with its sessions, and what is between it and the channels. -/
structure AccountServer (N : Type) where
  accounts : AccountList
  session : N → Option AccountSession
  tokens : List Token
  nextFd : ℕ

/-- What comes of the queries of a login: the password is wrong; the login is complete, if there is no
    node of the account and there is memory for it; or then the last query fails, and the session is kicked,
    for which it is given the lock of the database or not. -/
inductive LoginResult
  | rejected
  | complete (alloc : Bool) (id : ℕ)
  | broken (alloc : Bool) (id : ℕ) (locked : Bool)

/-- What happens. -/
inductive AccountEvent (N : Type)
  | connect (n : N)
  | login (n : N)
  | loginDone (n : N) (result : LoginResult)
  | assign (n : N) (cid : UInt32)
  | admitted (cid : UInt32)
  | ack (cid : UInt32)
  | resume (n : N)
  | leave (cid : UInt32)
  | left (cid : UInt32)
  | disconnect (n : N) (locked : Bool)
  | logoutBegins (n : N)
  | logoutEnds (n : N)

namespace AccountSession

variable (session : AccountSession)

/-- `on_client_connect`. -/
def new : AccountSession := ⟨none, none, false, false, .idle⟩

/-- `on_user_fd_ready`, after a handler is done: a session whose client has disconnected is destroyed. -/
def finish : Option AccountSession :=
  if session.closing then none else some { session with task := .idle }

/-- `on_client_disconnect`: a session that is logged in is logged out, for which it waits instead of what
    it has waited for. A session that does not wait is destroyed. -/
def disconnect (locked : Bool) : Option AccountSession :=
  if session.node ≠ none ∧ locked then some { session with closing := true, task := .loggingOut false }
  else if session.task = .idle then none
  else some { session with closing := true }

/-- The channel writes to this `eventfd`. -/
def answer (fd : ℕ) (session : AccountSession) : AccountSession :=
  match session.task with
  | .waiting cid fd' _ =>
    if fd' = fd then { session with task := .waiting cid fd' true } else session
  | _ => session

end AccountSession

namespace AccountServer

variable {N : Type} [DecidableEq N] (s : AccountServer N)

/-- Nobody is connected. -/
def start : AccountServer N := ⟨.empty, fun _ => none, [], 0⟩

/-- A session is written back. -/
def setSession (n : N) (o : Option AccountSession) : AccountServer N :=
  { s with session := Function.update s.session n o }

/-- The end of `login_handler_handle`. -/
def loginDone (n : N) (session : AccountSession) : LoginResult → AccountServer N
  | .rejected => s.setSession n session.finish
  | .complete alloc id =>
    let (node, accounts) := s.accounts.accountLogin alloc id
    let session := { session with node := node, account := node.map fun _ => id }
    { s with accounts := accounts }.setSession n session.finish
  | .broken alloc id locked =>
    let (node, accounts) := s.accounts.accountLogin alloc id
    let session := { session with node := node, account := node.map fun _ => id }
    { s with accounts := accounts }.setSession n
      (if node = none then session.finish
       else AccountSession.disconnect { session with task := .idle } locked)

/-- A message of the channel: what it does to the characters with this id. -/
def advance (cid : UInt32) (f : TokenStage → TokenStage) : AccountServer N :=
  { s with tokens := s.tokens.map fun t => if t.cid = cid then { t with stage := f t.stage } else t }

/-- `on_channel_read`, for an acknowledgement. -/
def ack (cid : UInt32) : AccountServer N :=
  match s.tokens.find? fun t => t.cid = cid with
  | none => s
  | some t =>
    if t.stage = .requested then s
    else
      { s with session := fun n => (s.session n).map (AccountSession.answer t.fd) }.advance cid
        fun
        | .requested => .requested
        | .online _ => .online true
        | .left _ => .left true

/-- `on_channel_read`, for the message that a character has left. -/
def left (cid : UInt32) : AccountServer N :=
  if ∃ t ∈ s.tokens, t.cid = cid ∧ t.stage = .left true then
    { s with
      tokens := s.tokens.filter fun t => ¬(t.cid = cid ∧ t.stage = .left true)
      accounts := s.accounts.accountLogoutByCid cid }
  else s

/-- The state of `register_pic_handler_handle` and `verify_pic_handler_handle` in which the channel has
    answered. -/
def resume (n : N) (session : AccountSession) (cid : UInt32) : Exec (AccountServer N) := do
  let ref ← Exec.deref session.node
  let accounts ← s.accounts.accountSetCid ref cid
  return { s with accounts := accounts }.setSession n
    (AccountSession.finish { session with loggedIn := true })

/-- The end of `logout_handler_handle`. -/
def logoutEnds (n : N) (session : AccountSession) : Exec (AccountServer N) :=
  if session.loggedIn then return s.setSession n none
  else do
    let ref ← Exec.deref session.node
    let accounts ← s.accounts.accountLogout ref
    return { s with accounts := accounts }.setSession n none

end AccountServer

/-- The server after it. What cannot happen changes nothing. -/
def AccountEvent.step {N : Type} [DecidableEq N] :
    AccountEvent N → AccountServer N → Exec (AccountServer N)
  | connect n, s => return if s.session n = none then s.setSession n (some .new) else s
  | login n, s =>
    match s.session n with
    | some session =>
      return if session.task = .idle ∧ ¬session.closing then
        s.setSession n (some { session with task := .loggingIn }) else s
    | none => return s
  | loginDone n result, s =>
    match s.session n with
    | some session => return if session.task = .loggingIn then s.loginDone n session result else s
    | none => return s
  | assign n cid, s =>
    match s.session n with
    | some session =>
      return if session.task = .idle ∧ ¬session.closing then
        { s with
          tokens := ⟨cid, s.nextFd, session.account, .requested⟩ :: s.tokens
          nextFd := s.nextFd + 1 }.setSession n
          (some { session with task := .waiting cid s.nextFd false })
        else s
    | none => return s
  | admitted cid, s => return s.advance cid fun
    | .requested => .online false
    | stage => stage
  | ack cid, s => return s.ack cid
  | resume n, s =>
    match s.session n with
    | some session =>
      match session.task with
      | .waiting cid _ true => s.resume n session cid
      | _ => return s
    | none => return s
  | leave cid, s => return s.advance cid fun
    | .online acked => .left acked
    | stage => stage
  | left cid, s => return s.left cid
  | disconnect n locked, s =>
    match s.session n with
    | some session =>
      return if session.closing then s else s.setSession n (session.disconnect locked)
    | none => return s
  | logoutBegins n, s =>
    match s.session n with
    | some session =>
      if session.task = .loggingOut false then do
        let ref ← Exec.deref session.node
        let _ ← s.accounts.get ref
        return s.setSession n (some { session with task := .loggingOut true })
      else return s
    | none => return s
  | logoutEnds n, s =>
    match s.session n with
    | some session =>
      if session.task = .loggingOut true then s.logoutEnds n session else return s
    | none => return s

/-! ## What should hold -/

/-- There is at most one node for each account; there is one for an account while a session that is
    authenticated as it is connected, or a character admitted through it is online; there is none when
    neither is so, nor on the way; no session has a pointer to a node that has been freed, and every node
    that is not in the list has been freed once; and whatever happens, as long as it meets the condition
    `ok`, does not fault. -/
structure AccountServer.Accounted {N : Type} [DecidableEq N]
    (ok : AccountEvent N → AccountServer N → Prop) (s : AccountServer N) : Prop where
  unique : (s.accounts.nodes.map (·.id)).Nodup
  session : ∀ n session id, s.session n = some session → session.account = some id →
    ∃ node ∈ s.accounts.nodes, node.id = id
  online : ∀ t ∈ s.tokens, ∀ acked, t.stage = .online acked →
    ∃ node ∈ s.accounts.nodes, t.account = some node.id
  stuck : ∀ node ∈ s.accounts.nodes,
    (∃ n session, s.session n = some session ∧ session.account = some node.id) ∨
      ∃ t ∈ s.tokens, t.account = some node.id
  pointer : ∀ n session ref, s.session n = some session → session.node = some ref →
    ∃ node ∈ s.accounts.nodes, node.ref = ref
  kept : s.accounts.Kept
  returns : ∀ e, ok e s → ∃ s', e.step s = .ok s'

/-- A login that completes finds the session not logged in, and open, or else cannot get a node. A session
    that assigns a character is logged in, has not assigned another one, and the character is one of its
    account (`owner`). A session that is disconnected does not wait for the channel, and gets the lock of
    the database if it is logged in. The message that a character has left is read when the sessions of
    its account have ended. -/
def Orderly {N : Type} [DecidableEq N] (owner : UInt32 → Option ℕ) :
    AccountEvent N → AccountServer N → Prop
  | .loginDone n (.complete alloc id), s => ∀ session ∈ s.session n, session.node = none ∧
    (session.closing = true → (s.accounts.accountLogin alloc id).1 = none)
  | .loginDone n (.broken _ _ locked), s => ∀ session ∈ s.session n, session.node = none ∧ locked
  | .assign n cid, s => ∀ session ∈ s.session n, session.account ≠ none ∧ session.loggedIn = false ∧
    owner cid = session.account ∧ cid ≠ 0
  | .left cid, s => ∀ t ∈ s.tokens, t.cid = cid → ∀ n, ∀ session ∈ s.session n,
    session.account ≠ t.account
  | .disconnect n locked, s => ∀ session ∈ s.session n, session.node ≠ none →
    locked = true ∧ session.task.onChannel = false
  | _, _ => True

end Syrup
