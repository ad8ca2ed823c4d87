import Syrup.Exec
import Syrup.Login.Packets

/-!
# Packet handlers of the login server

A session of the login server, with what its handlers find in the database and change in it. A packet
handler may be suspended while it waits for the database or for a channel; as no packet of the session is
read before it is resumed, it is modelled in one piece, and what it waits for is given by `Answers`.

Of the database there is what the handlers look up: the accounts, and to whom and to which world a
character belongs. Passwords are hashed by `argon2`.
-/

namespace Syrup

/-! ## The database -/

/-- A row of `Accounts`; a PIC that is `NULL` has no bytes. -/
structure AccountRow where
  id : ℕ
  name : List UInt8
  hash : List UInt8
  salt : UInt64
  pic : List UInt8
  tos : Bool
  gender : AccountGender

/-- A row of `Characters`. -/
structure CharacterRow where
  id : ℕ
  accountId : ℕ
  world : UInt8
  name : List UInt8

/-- The database. -/
structure LoginDatabase where
  accounts : List AccountRow
  characters : List CharacterRow

namespace LoginDatabase

variable (db : LoginDatabase)

/-- An id that none of these is, as `AUTO_INCREMENT` gives them. -/
def nextId (ids : List ℕ) : ℕ := ids.foldr max 0 + 1

/-- `DATABASE_REQUEST_TYPE_TRY_CREATE_ACCOUNT`. -/
def tryCreateAccount (name hash : List UInt8) (salt : UInt64) : Option (ℕ × LoginDatabase) :=
  if db.accounts.any (·.name = name) then none
  else
    let id := nextId (db.accounts.map (·.id))
    some (id, { db with accounts := db.accounts ++ [⟨id, name, hash, salt, [], false, .unspecified⟩] })

/-- `DATABASE_REQUEST_TYPE_GET_ACCOUNT_CREDENTIALS`. -/
def getAccountCredentials (name : List UInt8) : Option AccountRow :=
  db.accounts.find? (·.name = name)

/-- `DATABASE_REQUEST_TYPE_GET_ACCOUNT`. -/
def getAccount (id : ℕ) : Option AccountRow := db.accounts.find? (·.id = id)

/-- `DATABASE_REQUEST_TYPE_UPDATE_ACCOUNT`. -/
def updateAccount (id : ℕ) (pic : List UInt8) (tos : Bool) (gender : AccountGender) :
    LoginDatabase :=
  { db with
    accounts := db.accounts.map fun row =>
      if row.id = id then { row with pic := pic, tos := tos, gender := gender } else row }

/-- `DATABASE_REQUEST_TYPE_TRY_CREATE_CHARACTER`. -/
def tryCreateCharacter (accountId : ℕ) (world : UInt8) (name : List UInt8) : LoginDatabase :=
  { db with
    characters := db.characters ++ [⟨nextId (db.characters.map (·.id)), accountId, world, name⟩] }

/-- The character belongs to the account, and to the world. -/
def Owns (accountId : ℕ) (world : UInt8) (character : UInt32) : Prop :=
  ∃ row ∈ db.characters, row.id = character.toNat ∧ row.accountId = accountId ∧ row.world = world

instance (accountId : ℕ) (world : UInt8) (character : UInt32) :
    Decidable (db.Owns accountId world character) :=
  inferInstanceAs (Decidable (∃ row ∈ db.characters, _))

end LoginDatabase

/-! ## The session -/

/-- `struct Account`. -/
structure Account where
  name : List UInt8
  pic : List UInt8
  tos : Bool
  gender : AccountGender

/-- `account_get_default_account`. -/
def accountGetDefaultAccount (name : List UInt8) : Account where
  name := name
  pic := []
  tos := false
  gender := .unspecified

/-- `struct Client`; the node is that of the account with this id, or `NULL`. -/
structure LoginClient where
  node : Option ℕ
  account : Account
  world : UInt8
  channel : UInt8
  loggedIn : Bool

/-- `on_client_create`: the memory of a client contains anything. -/
def onClientCreate (memory : LoginClient) : LoginClient :=
  { memory with node := none, loggedIn := false }

/-- A call of `assign_channel`: with which character, world and channel, for which node, and what the
    database contains, and which PICs have been supplied on the connection, when it is made. -/
structure Assignment where
  character : UInt32
  world : UInt8
  channel : UInt8
  node : Option ℕ
  db : LoginDatabase
  supplied : List (List UInt8)

/-- A session, with what the database contains, whether packets are read, and what is kept for the
    statements: for which accounts a login has succeeded, which PICs have been supplied, and which
    characters have been assigned to a channel. -/
structure LoginSession where
  client : LoginClient
  db : LoginDatabase
  reading : Bool
  logins : List ℕ
  supplied : List (List UInt8)
  assigned : List Assignment

/-- What `assign_channel` comes to: the channel is not connected, or it answers. -/
inductive ChannelAnswer
  | notConnected
  | refused
  | admitted

/-- What a handler waits for or draws: whether the lock of the database is got, which of its queries
    fails, whether there is a node of the account already, a salt, and what the channel answers. -/
structure Answers where
  locked : Bool
  failed : Option ℕ
  taken : Bool
  salt : UInt64
  channel : ChannelAnswer

/-- `LOGIN_CONFIG`: how many channels each world has. -/
abbrev LoginConfig := List ℕ

/-- There is a channel with this index. -/
def LoginConfig.Has (config : LoginConfig) (world channel : UInt8) : Prop :=
  ∃ count, config[world.toNat]? = some count ∧ channel.toNat < count

instance (config : LoginConfig) (world channel : UInt8) : Decidable (config.Has world channel) :=
  match h : config[world.toNat]? with
  | some count =>
    if hlt : channel.toNat < count then .isTrue ⟨count, h, hlt⟩
    else .isFalse fun ⟨count', h', hlt'⟩ => hlt (by
      obtain rfl : count = count' := Option.some.inj (h.symm.trans h')
      exact hlt')
  | none => .isFalse fun ⟨_, h', _⟩ => Option.some_ne_none _ (h'.symm.trans h)

/-- `strncpy`, into a buffer of this length. -/
def strncpy (string : List UInt8) : List UInt8 :=
  let copied := string.takeWhile (· ≠ 0)
  copied ++ List.replicate (string.length - copied.length) 0

namespace LoginSession

section Handlers

variable (argon2 : List UInt8 → UInt64 → List UInt8) (config : LoginConfig) (r : Answers)
  (s : LoginSession)

/-- `account_login`. -/
def accountLogin (id : ℕ) : LoginSession :=
  if r.taken then { s with client := { s.client with node := none } }
  else { s with client := { s.client with node := some id }, logins := id :: s.logins }

/-- `on_client_disconnect`, to the end of `logout_handler_handle`. Nothing is read any more. -/
def disconnect : LoginSession :=
  let s := { s with reading := false }
  match s.client.node with
  | none => s
  | some id =>
    if r.locked then
      let account := s.client.account
      let db := if r.failed = none then s.db.updateAccount id account.pic account.tos account.gender
        else s.db
      { s with
        db := db
        client := { s.client with node := if s.client.loggedIn then some id else none } }
    else s

/-- `kick_session`. -/
def kick : LoginSession := s.disconnect ⟨true, none, false, 0, .refused⟩

/-- `login_handler_handle`. -/
def loginHandlerHandle (name pass : List UInt8) : LoginSession :=
  if ¬r.locked ∨ r.failed = some 0 then s.kick
  else match s.db.tryCreateAccount name (argon2 pass r.salt) r.salt with
    | some (id, db) =>
      let s := { s with db := db }.accountLogin r id
      { s with client := { s.client with account := accountGetDefaultAccount name } }
    | none =>
      if r.failed = some 1 then s.kick
      else match s.db.getAccountCredentials name with
        | none => s
        | some credentials =>
          if credentials.hash ≠ argon2 pass credentials.salt then s
          else
            let s := s.accountLogin r credentials.id
            if s.client.node = none then s
            else
              let s := { s with
                client := { s.client with account := { s.client.account with name := name } } }
              match r.failed, s.db.getAccount credentials.id with
              | none, some row =>
                { s with client := { s.client with account := ⟨name, row.pic, row.tos, row.gender⟩ } }
              | _, _ => s.kick

/-- `handle_tos`; the node is read for the packet. -/
def handleTos (accept : Bool) : Exec LoginSession :=
  let s := { s with client := { s.client with account := { s.client.account with tos := accept } } }
  if accept then do
    let _ ← Exec.deref s.client.node
    return s
  else return s.kick

/-- `gender_handler_create` and `gender_handler_handle`. -/
def genderHandler (gender : AccountGender) : Exec LoginSession :=
  if gender ≠ .unspecified then do
    let s := { s with
      client := { s.client with account := { s.client.account with gender := gender } } }
    let _ ← Exec.deref s.client.node
    return s
  else if r.locked then do
    let id ← Exec.deref s.client.node
    let account := s.client.account
    if r.failed = none then
      return { s with db := s.db.updateAccount id account.pic account.tos account.gender }
    else return s.kick
  else return s.kick

/-- `handle_pin`. -/
def handlePin (c₂ c₃ : UInt8) : LoginSession := if c₂ = 1 ∧ c₃ = 0 then s else s.kick

/-- `character_list_handler_create` and `character_list_handler_handle`. -/
def characterListHandler (world channel : UInt8) : Exec LoginSession :=
  let s := { s with client := { s.client with world := world, channel := channel } }
  if r.locked then do
    let _ ← Exec.deref s.client.node
    return if r.failed = none then s else s.kick
  else return s.kick

/-- `create_character_handler_handle`. -/
def createCharacterHandlerHandle (name : List UInt8) : Exec LoginSession :=
  if r.locked then do
    let id ← Exec.deref s.client.node
    if r.failed = none then return { s with db := s.db.tryCreateCharacter id s.client.world name }
    else return s.kick
  else return s.kick

/-- `assign_channel`. Only the channels of the configuration have been initialised. -/
def assignChannel (character : UInt32) : Exec LoginSession :=
  let client := s.client
  let assignment : Assignment :=
    ⟨character, client.world, client.channel, client.node, s.db, s.supplied⟩
  if config.Has client.world client.channel then
    return { s with assigned := assignment :: s.assigned }
  else .error .outOfBounds

/-- What both handlers of a PIC do when the channel has answered. -/
def letIn : Exec LoginSession := do
  -- `account_set_cid` writes to the node.
  let _ ← Exec.deref s.client.node
  if config.Has s.client.world s.client.channel then
    return { s with client := { s.client with loggedIn := true } }
  else .error .outOfBounds

/-- `register_pic_handler_create` and `register_pic_handler_handle`. If the channel is not connected,
    the session waits for an event that does not come. -/
def registerPicHandler (character : UInt32) (pic : List UInt8) : Exec LoginSession := do
  let s := { s with
    client := { s.client with account := { s.client.account with pic := pic } }
    supplied := pic :: s.supplied }
  let s ← s.assignChannel config character
  match r.channel with
  | .notConnected => return { s with reading := false }
  | .refused => return s
  | .admitted => s.letIn config

/-- `verify_pic_handler_create` and `verify_pic_handler_handle`. -/
def verifyPicHandler (pic : List UInt8) (character : UInt32) : Exec LoginSession := do
  let s := { s with supplied := pic :: s.supplied }
  if s.client.account.pic ≠ strncpy pic then return s
  else
    let s ← s.assignChannel config character
    match r.channel with
    | .notConnected => return s
    | .refused => return s
    | .admitted => s.letIn config

/-- `on_client_packet`. -/
def onClientPacket : Option LoginPacket → Exec LoginSession
  | none => return s.kick
  | some (.login name pass) => return s.loginHandlerHandle argon2 r name pass
  | some .serverList | some .serverStatus | some (.nameCheck _) | some .unknown => return s
  | some (.characterList world channel) => s.characterListHandler r world channel
  | some (.tos accept) => s.handleTos accept
  | some (.gender gender) => s.genderHandler r gender
  | some (.pin c₂ c₃) => return s.handlePin c₂ c₃
  | some (.createCharacter name) => s.createCharacterHandlerHandle r name
  | some (.registerPic character pic) => s.registerPicHandler config r character pic
  | some (.verifyPic pic character) => s.verifyPicHandler config r pic character

end Handlers

end LoginSession

end Syrup
