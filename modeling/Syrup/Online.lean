import Syrup.HashMap.FiniteMap
import Syrup.Lib.Arena
import Syrup.Lib.Run

/-!
# Who is online

The connection between the login server and a channel server (`login/server.c`, `channel/server.c`), and
what both keep of the characters that are in the game.

The channel server begins with a byte that tells if it has been connected to before; if it has, the login
server answers with a byte that tells if all are to be kicked. Then the login server sends the tokens of
characters, four bytes each, and the channel server acknowledges each, and tells which characters have left,
in messages of five bytes.

The connection is a stream of bytes in each direction, of which any number may arrive at a time; a callback is
called when some have arrived. Either end of it may be lost before the other one is, with what is on
the way to it; and either server may be restarted.

For the statements, the `eventfd`s are numbered; and the tokens that the login server has assigned, and that
have not left, and whether the token of a message was in the set, are kept.
-/

namespace Syrup

/-! ## What is sent -/

/-- The bytes of a `uint32_t`. -/
def bytes32 (n : UInt32) : List UInt8 :=
  [n.toUInt8, (n >>> 8).toUInt8, (n >>> 16).toUInt8, (n >>> 24).toUInt8]

/-- The `uint32_t` of four bytes. -/
def ofBytes32 (b₀ b₁ b₂ b₃ : UInt8) : UInt32 :=
  b₀.toUInt32 ||| (b₁.toUInt32 <<< 8) ||| (b₂.toUInt32 <<< 16) ||| (b₃.toUInt32 <<< 24)

/-- A message to the login server: the action is `0` for an acknowledgement, and `1` for a leave. -/
structure TokenMessage where
  action : UInt8
  token : UInt32
  deriving DecidableEq

namespace TokenMessage

def acknowledgement (token : UInt32) : TokenMessage := ⟨0, token⟩

def leave (token : UInt32) : TokenMessage := ⟨1, token⟩

def bytes (m : TokenMessage) : List UInt8 := m.action :: bytes32 m.token

/-- A message is taken off the input, if it is there. -/
def take : List UInt8 → Option (TokenMessage × List UInt8)
  | action :: b₀ :: b₁ :: b₂ :: b₃ :: input => some (⟨action, ofBytes32 b₀ b₁ b₂ b₃⟩, input)
  | _ => none

end TokenMessage

/-- The messages that are on the way. -/
def messagesOf : List UInt8 → List TokenMessage
  | action :: b₀ :: b₁ :: b₂ :: b₃ :: input => ⟨action, ofBytes32 b₀ b₁ b₂ b₃⟩ :: messagesOf input
  | _ => []

/-- The tokens that are on the way. -/
def tokensOf : List UInt8 → List UInt32
  | b₀ :: b₁ :: b₂ :: b₃ :: input => ofBytes32 b₀ b₁ b₂ b₃ :: tokensOf input
  | _ => []

/-! ## The servers -/

/-- `struct LoggedInCharacter`; `-1` is `none`. -/
structure LoggedInCharacter where
  id : UInt32
  fd : Option ℕ
  deriving DecidableEq

/-- The set of the characters that are logged in; `hash` is `XXH3_64bits`. -/
def loggedInHashing (hash : UInt32 → UInt64) : Hashing LoggedInCharacter UInt32 :=
  ⟨LoggedInCharacter.id, hash⟩

/-- `struct Channel` of the login server, whether there are timeouts on its event, the input of that, and
    for which characters it has called `onClientLeave`. -/
structure LoginChannel where
  clients : Option (HashSet LoggedInCharacter)
  connected : Bool
  attempts : ℕ
  timeouts : Bool
  input : List UInt8
  nextFd : ℕ
  answers : List (ℕ × ℕ)
  left : List UInt32
  online : UInt32 → Bool
  applied : List Bool

namespace LoginChannel

def start : LoginChannel := ⟨none, false, 0, true, [], 0, [], [], fun _ => false, []⟩

variable (c : LoginChannel)

/-- The characters in the set. -/
def characters : List LoggedInCharacter := c.clients.elim [] HashSet.records

/-- The `eventfd`s: those that have not been written to, and those that have. -/
def eventfds : Arena := ⟨c.characters.filterMap (·.fd), c.answers.map (·.1), c.nextFd⟩

end LoginChannel

/-- What a channel server keeps of the login server: its side of the connection, with what has not been
    read, the tokens for which no client has come yet, those of the sessions, and those of `struct
    LoggedOutNode`, each with whether it has been sent. -/
structure LoginPeer where
  first : UInt8
  connected : Bool
  login : Bool
  input : List UInt8
  pendings : List UInt32
  sessions : List UInt32
  head : List (UInt32 × Bool)

def LoginPeer.start : LoginPeer := ⟨0, false, false, [], [], [], []⟩

/-- Both servers, whether the end of the connection at the login server is there, and what is on the way to
    the login server, and to the channel server. -/
structure Network where
  channel : LoginChannel
  server : LoginPeer
  linked : Bool
  up : List UInt8
  down : List UInt8

namespace Network

variable (hash : UInt32 → UInt64) (s : Network)

def start : Network := ⟨.start, .start, false, [], []⟩

/-- The channel server writes; what is written to a connection the other end of which has been lost is
    lost. -/
def writeUp (bytes : List UInt8) : Network :=
  if s.linked then { s with up := s.up ++ bytes } else s

/-- The login server writes. -/
def writeDown (bytes : List UInt8) : Network :=
  if s.server.login then { s with down := s.down ++ bytes } else s

/-! ## The login server -/

/-- `assign_channel`. -/
def assignChannel (id : UInt32) (fd alloc : Bool) : Exec (Option ℕ × Network) :=
  if ¬fd ∨ ¬s.channel.connected then return (none, s)
  else do
    let clients ← Exec.deref s.channel.clients
    let (inserted, clients) ←
      hashSetInsert (loggedInHashing hash) alloc clients ⟨id, some s.channel.nextFd⟩
    if inserted then
      let channel := { s.channel with
        clients := some clients
        nextFd := s.channel.nextFd + 1
        online := Function.update s.channel.online id true }
      return (some s.channel.nextFd, { s with channel := channel }.writeDown (bytes32 id))
    else return (none, s)

end Network

namespace LoginChannel

variable (hash : UInt32 → UInt64)

/-- `do_leave`. -/
def doLeave (chr : LoggedInCharacter) (c : LoginChannel) : LoginChannel :=
  let c := { c with online := Function.update c.online chr.id false }
  match chr.fd with
  | none => { c with left := c.left ++ [chr.id] }
  | some fd => { c with answers := (fd, 2) :: c.answers }

/-- `do_leave` of all characters that are logged in, after which the set is destroyed. -/
def leaveAll (alloc : Bool) (c : LoginChannel) : Exec LoginChannel :=
  match c.clients with
  | none => return c
  | some clients => do
    let (_, c) ← hashSetU32Foreach (loggedInHashing hash) alloc (fun chr c => ([], doLeave chr c)) clients c
    return { c with clients := none }

/-- `hash_set_u32_create`. -/
def create (create : Bool) : Option (HashSet LoggedInCharacter) :=
  if create then some hashSetInit else none

end LoginChannel

namespace Network

variable (hash : UInt32 → UInt64) (s : Network)

/-- `on_channel_read`, the first one of a connection. -/
def greet (alloc create : Bool) : Exec Network :=
  match s.channel.input with
  | [] => return s
  | first :: input =>
    let c := { s.channel with input := input }
    if first = 0 then do
      let c ← c.leaveAll hash alloc
      return { s with channel := { c with clients := LoginChannel.create create, connected := true } }
    else
      match c.clients with
      | none => return { s with
          channel := { c with clients := LoginChannel.create create, connected := true } }.writeDown [1]
      | some _ => return { s with channel := { c with connected := true } }.writeDown [0]

/-- `on_channel_read`. -/
def onChannelRead (alloc create : Bool) : Exec Network :=
  if ¬s.channel.connected then s.greet hash alloc create
  else
    match TokenMessage.take s.channel.input with
    | none => return s
    | some (⟨action, token⟩, input) =>
      let c := { s.channel with input := input }
      if action = 0 then do
        let clients ← Exec.deref c.clients
        let chr ← Exec.deref (hashSetGet (loggedInHashing hash) clients token)
        return { s with channel := { c with
          clients := some (hashSetWrite (loggedInHashing hash) clients token { chr with fd := none })
          answers := (chr.fd.toList.map fun fd => (fd, 1)) ++ c.answers
          applied := c.applied ++ [true] } }
      else if action = 1 then do
        let clients ← Exec.deref c.clients
        let found := (hashSetGet (loggedInHashing hash) clients token).isSome
        let clients ← hashSetRemove (loggedInHashing hash) alloc clients token
        return { s with channel := { c with
          clients := some clients
          left := c.left ++ [token]
          online := Function.update c.online token false
          applied := c.applied ++ [found] } }
      else return { s with channel := c }

/-- `on_channel_event`, when the connection has been made. -/
def onChannelConnected : Network :=
  { s with channel := { s.channel with attempts := 0, timeouts := false } }

/-- `on_channel_event`, when that takes too long. -/
def onChannelTimeout (alloc : Bool) : Exec Network :=
  if s.channel.attempts < 3 then do
    let c := { s.channel with attempts := s.channel.attempts + 1 }
    if c.attempts = 3 then return { s with channel := ← c.leaveAll hash alloc }
    else return { s with channel := c }
  else return s

/-- `on_channel_event`, when the connection has been lost or could not be made. -/
def onChannelLost : Network :=
  { s with
    channel := { s.channel with connected := false, attempts := 0, timeouts := true, input := [] }
    linked := false }

/-! ## The channel server -/

/-- `on_login_server_connect`. -/
def onLoginServerConnect : Network :=
  { s with
    server := { s.server with
      first := 1
      connected := if s.server.first = 0 then true else s.server.connected
      login := true
      input := [] }
    linked := true
    up := [s.server.first]
    down := [] }

/-- The loop of `on_login_server_read` that sends the tokens of sessions that have ended. -/
def flush : List (UInt32 × Bool) → Network → Network
  | [], s => s
  | (token, _) :: head, s =>
    flush head ({ s with server := { s.server with head := head } }.writeUp (TokenMessage.leave token).bytes)

/-- The loop of `on_login_server_read` that reads tokens. A token for which there is no memory is acknowledged,
    too. -/
def readTokens (alloc : UInt32 → Bool) : List UInt8 → Network → Network
  | b₀ :: b₁ :: b₂ :: b₃ :: input, s =>
    let id := ofBytes32 b₀ b₁ b₂ b₃
    let pendings := if alloc id then id :: s.server.pendings else s.server.pendings
    readTokens alloc input
      ({ s with server := { s.server with pendings := pendings } }.writeUp
        (TokenMessage.acknowledgement id).bytes)
  | input, s => { s with server := { s.server with input := input } }

/-- `on_login_server_read`. Sessions that are kicked end later. -/
def onLoginServerRead (alloc : UInt32 → Bool) : Network :=
  if ¬s.server.connected then
    match s.server.input with
    | [] => s
    | reset :: input =>
      let s := { s with server := { s.server with input := input, connected := true } }
      if reset = 1 then s else flush s.server.head s
  else readTokens alloc s.server.input s

/-- `on_login_server_write`. -/
def onLoginServerWrite : Network :=
  if s.server.login then { s with server := { s.server with head := [] } } else s

/-- `on_login_server_event`. -/
def onLoginServerEvent : Network :=
  { s with server := { s.server with connected := false, login := false, input := [] }, down := [] }

/-- `session_assign_id`, if the token is pending. -/
def sessionAssignId (id : UInt32) (inserted : Bool) : Network :=
  if id ∈ s.server.pendings then { s with server := { s.server with
    pendings := s.server.pendings.erase id
    sessions := if inserted then id :: s.server.sessions else s.server.sessions } }
  else s

/-- `destroy_session`. -/
def destroySession (id : UInt32) (ok alloc : Bool) : Network :=
  let s := { s with server := { s.server with sessions := s.server.sessions.erase id } }
  if id = 0 then s
  else if s.server.connected ∧ ok then s.writeUp (TokenMessage.leave id).bytes
  else if alloc then { s with server := { s.server with head := (id, false) :: s.server.head } }
  else s

/-- `destroy_pending_session`. -/
def destroyPendingSession (id : UInt32) (alloc : Bool) : Exec Network :=
  let s := { s with server := { s.server with sessions := s.server.sessions.erase id } }
  if id = 0 then return s
  else if ¬alloc then .error .nullPointer
  else
    let s := { s with server := { s.server with head := (id, s.server.connected) :: s.server.head } }
    return if s.server.connected then s.writeUp (TokenMessage.leave id).bytes else s

end Network

/-! ## What happens -/

/-- What happens. Of the bytes on the way, `count` arrive. -/
inductive OnlineEvent
  | assign (id : UInt32) (fd alloc : Bool)
  | loginReads (count : ℕ) (alloc create : Bool)
  | channelReads (count : ℕ) (alloc : UInt32 → Bool)
  | accept
  | connected
  | timeout (alloc : Bool)
  | loginLost
  | channelLost
  | drained
  | assignId (id : UInt32) (inserted : Bool)
  | sessionEnds (id : UInt32) (ok alloc : Bool)
  | pendingEnds (id : UInt32) (alloc : Bool)
  | loginRestarts
  | channelRestarts

/-- The servers after it. It is known that the connection has been made before something is read from it,
    and a server does not accept a connection while it has one. -/
def OnlineEvent.step (hash : UInt32 → UInt64) : OnlineEvent → Network → Exec Network
  | assign id fd alloc, s => do return (← s.assignChannel hash id fd alloc).2
  | loginReads count alloc create, s =>
    if s.linked ∧ ¬s.channel.timeouts ∧ s.up.take count ≠ [] then
      { s with
        channel := { s.channel with input := s.channel.input ++ s.up.take count }
        up := s.up.drop count }.onChannelRead hash alloc create
    else return s
  | channelReads count alloc, s =>
    if s.server.login ∧ s.down.take count ≠ [] then
      return { s with
        server := { s.server with input := s.server.input ++ s.down.take count }
        down := s.down.drop count }.onLoginServerRead alloc
    else return s
  | accept, s => return if s.linked ∨ s.server.login then s else s.onLoginServerConnect
  | connected, s => return s.onChannelConnected
  | timeout alloc, s => if s.channel.timeouts then s.onChannelTimeout hash alloc else return s
  | loginLost, s => return s.onChannelLost
  | channelLost, s => return if s.server.login then s.onLoginServerEvent else s
  | drained, s => return s.onLoginServerWrite
  | assignId id inserted, s => return s.sessionAssignId id inserted
  | sessionEnds id ok alloc, s =>
    return if id ∈ s.server.sessions then s.destroySession id ok alloc else s
  | pendingEnds id alloc, s =>
    if id ∈ s.server.sessions then s.destroyPendingSession id alloc else return s
  | loginRestarts, s => return { s with channel := .start, linked := false }
  | channelRestarts, s => return { s with server := .start, down := [] }

end Syrup
