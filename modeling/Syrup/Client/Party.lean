import Syrup.Server.Rooms.Commands

/-!
# Parties and invitations

The part of `client.c` that is about parties. A client is found by the name of its character in a list
of all who have ever logged in (`find_id_by_name`); an invitation and its rejection are sent to the
session with the id of the character as a `struct ClientCommand`, by `session_send_command`, and
handled where that session is (`client_handle_command`).

`session_send_command` returns when the command has been processed: what its caller then does is kept
with the command (`Sender`), and is done when the semaphore is posted.
-/

namespace Syrup

/-- The bytes of a name. -/
abbrev Name := List UInt8

/-- `enum ClientCommandType`. -/
inductive ClientCommandType
  | partyInvite
  | partyReject
  deriving DecidableEq

/-- `struct ClientCommand`. -/
structure ClientCommand where
  type : ClientCommandType
  id : UInt32
  reason : UInt8
  name : Name

/-- An element of `CLIENTS`. -/
structure NamedClient where
  name : Name
  id : UInt32

/-- `struct Party`. -/
structure Party where
  id : UInt32
  leader : UInt32

/-- `struct Client`, as far as it is about parties, with the session it belongs to. -/
structure Member (N : Type) where
  session : N
  id : UInt32
  name : Name
  party : Option UInt32
  deriving DecidableEq

/-- What a player is shown. -/
inductive PartyPacket
  | invitation (party : UInt32) (name : Name)
  | statusMessage (message : UInt8)
  | created (party : UInt32)
  deriving DecidableEq

/-- Who has sent a command: what is done if it has not been received depends on it. -/
inductive Sender (N : Type)
  | invite (member : Member N)
  | deny
  | reply

/-- What has happened. A packet that names a character is noted with the one who is online under that
    name. -/
inductive PartyEvent (N : Type)
  | invited (command : ℕ) (member : Member N) (name : Name) (receiver : Option (Member N))
  | denied (command : ℕ) (member : Member N) (name : Name) (receiver : Option (Member N))
  | shown (command : Option ℕ) (member : Member N) (packet : PartyPacket)
  deriving DecidableEq

/-- A channel server with its clients and their parties. Commands are numbered in the order in which
    they are allocated; `ctx` is what the user commands of the channel carry. -/
structure PartyServer (N : Type) where
  channel : Channel N
  clients : List NamedClient
  runningId : UInt32
  parties : List Party
  members : List (Member N)
  heap : ℕ → Option ClientCommand
  mallocs : ℕ
  frees : ℕ → ℕ
  ctx : ℕ → Option (ℕ × Sender N)
  log : List (PartyEvent N)

/-! ## Names -/

/-- What `strncpy` copies with the length of a name. -/
def copyName (name : Name) : Name :=
  let text := name.takeWhile (· ≠ 0)
  text ++ List.replicate (name.length - text.length) 0

/-- `strncmp` finds no difference. -/
def strncmpEq (a b : Name) : Bool := a.takeWhile (· ≠ 0) = b.takeWhile (· ≠ 0)

/-- `find_id_by_name`. -/
def findIdByName (clients : List NamedClient) (name : Name) : UInt32 :=
  match clients.find? fun c => decide (name.length = c.name.length) && strncmpEq c.name name with
  | some c => c.id
  | none => 0

namespace PartyServer

variable {N : Type}

/-- A server that has been started. -/
def start : PartyServer N where
  channel := .start
  clients := []
  runningId := 1
  parties := []
  members := []
  heap _ := none
  mallocs := 0
  frees _ := 0
  ctx _ := none
  log := []

/-- Notes an event. -/
def record (s : PartyServer N) (e : PartyEvent N) : PartyServer N := { s with log := s.log ++ [e] }

/-- Allocates a command. -/
def malloc (s : PartyServer N) (cmd : ClientCommand) : PartyServer N :=
  { s with heap := Function.update s.heap s.mallocs (some cmd), mallocs := s.mallocs + 1 }

/-- Frees a command. -/
def free (s : PartyServer N) (k : ℕ) : PartyServer N :=
  { s with
    heap := Function.update s.heap k none
    frees := Function.update s.frees k (s.frees k + 1) }

/-- The character that is online under a name. -/
def online (s : PartyServer N) (name : Name) : Option (Member N) :=
  s.members.find? fun m => decide (m.name = name)

/-- What the caller of `session_send_command` does if it returns `false`. -/
def notSent (s : PartyServer N) (k : ℕ) : Sender N → PartyServer N
  | .invite m => (s.free k).record (.shown (some k) m (.statusMessage 19))
  | .deny => s.free k
  | .reply => s

variable [DecidableEq N] (env : Env)

/-- The client of a session. -/
def member (s : PartyServer N) (n : N) : Option (Member N) :=
  s.members.find? fun m => decide (m.session = n)

/-- The end of the login, with `insert_client`. -/
def login (s : PartyServer N) (n : N) (name : Name) : Exec (PartyServer N) := do
  let session ← Exec.deref (s.channel.session n)
  if (s.member n).isNone then
    return { s with
      clients := s.clients ++ [⟨copyName name, session.id⟩]
      members := s.members ++ [⟨n, session.id, name, none⟩] }
  else return s

/-- A session is destroyed, and its client with it. -/
def logout (alloc : ℕ → Bool) (s : PartyServer N) (n : N) : Exec (PartyServer N) := do
  let channel ← s.channel.destroySession env alloc n
  if (channel.session n).isNone then
    return { s with channel := channel, members := s.members.filter fun m => decide (m.session ≠ n) }
  else return { s with channel := channel }

/-- `client_create_party`, with `party_create`. -/
def createParty (alloc : Bool) (s : PartyServer N) (m : Member N) : PartyServer N :=
  match m.party with
  | some _ => s
  | none =>
    if alloc then
      let joined := fun m' : Member N =>
        if m'.session = m.session then { m' with party := some s.runningId } else m'
      let created : PartyServer N := { s with
        runningId := s.runningId + 1
        parties := s.parties ++ [⟨s.runningId, m.id⟩]
        members := s.members.map joined }
      created.record (.shown none m (.created s.runningId))
    else s.record (.shown none m (.statusMessage 1))

/-- `session_send_command`, and what its caller does if it returns at once. -/
def sendCommand (sent : Bool) (garbage : UInt32) (s : PartyServer N) (thread : ℕ) (sender : Sender N)
    (k : ℕ) (target : UInt32) : Exec (PartyServer N) := do
  let channel ← s.channel.sendCommand env sent garbage thread target
  if (hashSetGet env.sessionRooms s.channel.sessions target).isSome && sent then
    return { s with
      channel := channel
      ctx := Function.update s.ctx s.channel.calls.length (some (k, sender)) }
  else return { s with channel := channel }.notSent k sender

/-- `client_invite_to_party`. -/
def inviteToParty (sent : Bool) (garbage : UInt32) (memory : ClientCommand) (s : PartyServer N)
    (thread : ℕ) (m : Member N) (name : Name) : Exec (PartyServer N) :=
  match m.party with
  | none => return s
  | some party =>
    let cmd := { memory with type := .partyInvite, id := party, name := m.name }
    let event := .invited s.mallocs m name (s.online name)
    ((s.malloc cmd).record event).sendCommand env sent garbage thread (.invite m) s.mallocs
      (findIdByName s.clients name)

/-- `client_reject_party_invitaion`. Its type is that of an invitation, and its `id` is what has been in
    the memory. -/
def rejectPartyInvitation (sent : Bool) (garbage : UInt32) (memory : ClientCommand)
    (s : PartyServer N) (thread : ℕ) (m : Member N) (name : Name) : Exec (PartyServer N) :=
  let cmd := { memory with type := .partyInvite, reason := 0, name := m.name }
  let event := .denied s.mallocs m name (s.online name)
  ((s.malloc cmd).record event).sendCommand env sent garbage thread .deny s.mallocs
    (findIdByName s.clients name)

/-- `client_handle_command`. -/
def handleCommand (sent : Bool) (garbage : UInt32) (s : PartyServer N) (thread : ℕ) (n : N) (k : ℕ) :
    Exec (PartyServer N) := do
  let m ← Exec.deref (s.member n)
  let cmd ← Exec.deref (s.heap k)
  match cmd.type with
  | .partyInvite =>
    if m.party.isSome then
      let id := findIdByName s.clients cmd.name
      let cmd := { cmd with type := .partyReject, reason := 1, id := id }
      let reused := { s with heap := Function.update s.heap k (some cmd) }
      reused.sendCommand env sent garbage thread .reply k id
    else return (s.record (.shown (some k) m (.invitation cmd.id cmd.name))).free k
  | .partyReject =>
    if cmd.reason = 0 then return (s.record (.shown (some k) m (.statusMessage 23))).free k
    else if cmd.reason = 1 then return (s.record (.shown (some k) m (.statusMessage 16))).free k
    else return s

/-- `on_worker_command`. A user command is handled by the client that is found, or its sender learns
    that it has not been received. -/
def work (alloc : ℕ → Bool) (ok sent : Bool) (garbage : UInt32) (s : PartyServer N) (thread : ℕ) :
    Exec (PartyServer N) := do
  let channel ← s.channel.onWorkerCommand env alloc ok thread
  let read := { s with channel := channel }
  match s.channel.pipe thread with
  | .userCommand ticket id target :: _ =>
    let r ← Exec.deref (hashSetGet env.sessionRooms s.channel.sessions target)
    let (k, sender) ← Exec.deref (s.ctx ticket)
    match ← s.channel.findSession env thread r.room id with
    | some n => read.handleCommand env sent garbage thread n k
    | none =>
      if (mapThreadCoordinatorGet env s.channel.mapDict r.room).isNone then
        return read.notSent k sender
      else return read
  | _ => return read

end PartyServer

/-! ## The system -/

variable {N : Type}

/-- What the threads do. Packets come from sessions that are in a room and have logged in. -/
inductive PartyAction (N : Type)
  | rooms (a : RoomAction N)
  | login (n : N) (name : Name)
  | logout (alloc : ℕ → Bool) (n : N)
  | work (alloc : ℕ → Bool) (ok sent : Bool) (garbage : UInt32) (thread : ℕ)
  | createParty (alloc : Bool) (n : N)
  | inviteToParty (sent : Bool) (garbage : UInt32) (memory : ClientCommand) (n : N) (name : Name)
  | rejectPartyInvitation (sent : Bool) (garbage : UInt32) (memory : ClientCommand) (n : N)
      (name : Name)

variable [DecidableEq N] (env : Env)

namespace PartyAction

/-- The worker that does something. -/
def worker : PartyAction N → Channel N → Option ℕ
  | rooms a, c => a.worker c
  | login n _, c | logout _ n, c | createParty _ n, c | inviteToParty _ _ _ n _, c
  | rejectPartyInvitation _ _ _ n _, c => c.threadOf n
  | work _ _ _ _ thread, _ => some thread

/-- The commands of a worker, the end of a session and `session_send_command` are steps of their
    own. -/
def elsewhere : RoomAction N → Bool
  | .onWorkerCommand .. | .destroySession .. | .sendCommand .. => true
  | _ => false

/-- What is done by a worker that does not wait. -/
def run : PartyAction N → PartyServer N → Exec (PartyServer N)
  | rooms a, s =>
    if elsewhere a then return s
    else do
      let channel ← a.run env s.channel
      return { s with channel := channel }
  | login n name, s => s.login n name
  | logout alloc n, s => s.logout env alloc n
  | work alloc ok sent garbage thread, s => s.work env alloc ok sent garbage thread
  | createParty alloc n, s =>
    match s.member n with
    | none => return s
    | some m => return s.createParty alloc m
  | inviteToParty sent garbage memory n name, s =>
    match s.channel.threadOf n, s.member n with
    | some thread, some m => s.inviteToParty env sent garbage memory thread m name
    | _, _ => return s
  | rejectPartyInvitation sent garbage memory n name, s =>
    match s.channel.threadOf n, s.member n with
    | some thread, some m => s.rejectPartyInvitation env sent garbage memory thread m name
    | _, _ => return s

/-- A step: a worker that waits does nothing. -/
def step (a : PartyAction N) (s : PartyServer N) : Exec (PartyServer N) :=
  if ((a.worker s.channel).bind s.channel.waiting).isSome then return s else a.run env s

end PartyAction

end Syrup
