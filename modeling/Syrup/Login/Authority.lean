import Mathlib.Data.List.TakeWhile
import Syrup.Lib.Run
import Syrup.Login.Handlers

/-!
# What a login session may do

The packets of a login client come in any order, with anything in them. No handler checks whether the
client has logged in before it reads from the node of the account; no handler checks whether a character
belongs to the account, or whether there is a channel with an index; and `register_pic_handler_create`
does not check the PIC of an account that has one, which `verify_pic_handler_handle` does.

* `authority_run`: a client that keeps to what is not checked acts for its account only;
* `authority_usurped`: another one gets into the game with the character of somebody else, without the PIC
  of its own account.
-/

namespace Syrup

/-! ## The connection -/

/-- What happens on a connection: a packet comes, or it is closed. -/
inductive LoginSessionEvent
  | packet (bytes : List UInt8) (r : Answers)
  | disconnect (r : Answers)

/-- The session after it. -/
def LoginSessionEvent.step (argon2 : List UInt8 → UInt64 → List UInt8) (config : LoginConfig) :
    LoginSessionEvent → LoginSession → Exec LoginSession
  | packet bytes r, s =>
    if s.reading then s.onClientPacket argon2 config r (LoginPacket.parse bytes) else return s
  | disconnect r, s => return if s.reading then s.disconnect r else s

/-- A new session: the memory of the client may contain anything, and so may the database. -/
def LoginSession.start (memory : LoginClient) (db : LoginDatabase) : LoginSession where
  client := onClientCreate memory
  db := db
  reading := true
  logins := []
  supplied := []
  assigned := []

/-! ## Authority -/

/-- The character is one of the account and the world of the session, the PIC of the account has been
    supplied if it has one, and there is such a channel. -/
def Assignment.Lawful (config : LoginConfig) (a : Assignment) : Prop :=
  ∃ id, a.node = some id ∧ a.db.Owns id a.world a.character ∧
    (∀ row, a.db.getAccount id = some row → row.pic = [] ∨ row.pic ∈ a.supplied) ∧
    config.Has a.world a.channel

/-- The node is that of an account, the character is one of it in the world that has been chosen, and
    there is such a channel. -/
def LoginSession.MayAssign (config : LoginConfig) (s : LoginSession) (character : UInt32) : Prop :=
  (∃ id, s.client.node = some id ∧ s.db.Owns id s.client.world character) ∧
    config.Has s.client.world s.client.channel

/-- What the handlers do not check: a client that accepts the terms, tells its gender, asks for its
    characters or makes one has logged in; a client that goes into the game has logged in, to a channel
    that there is and with a character of its own; it registers a PIC only if it has none or has supplied
    it before, and there is no zero byte in a PIC that it has not supplied before. -/
def KeepsTo (config : LoginConfig) (s : LoginSession) : Option LoginPacket → Prop
  | some (.characterList _ _) | some (.tos true) | some (.gender _) | some (.createCharacter _) =>
    s.client.node ≠ none
  | some (.registerPic character _) => s.MayAssign config character ∧
    (s.client.account.pic = [] ∨ s.client.account.pic ∈ s.supplied)
  | some (.verifyPic pic character) => s.client.account.pic = strncpy pic →
    s.MayAssign config character ∧ (0 ∉ pic ∨ s.client.account.pic ∈ s.supplied)
  | _ => True

/-- The client keeps to it. -/
def Disciplined (config : LoginConfig) : LoginSessionEvent → LoginSession → Prop
  | .packet bytes _, s => KeepsTo config s (LoginPacket.parse bytes)
  | .disconnect _, _ => True

instance (config : LoginConfig) (s : LoginSession) (character : UInt32) :
    Decidable (s.MayAssign config character) :=
  match h : s.client.node with
  | none => .isFalse fun ⟨⟨_, hid, _⟩, _⟩ => Option.some_ne_none _ (hid.symm.trans h)
  | some id =>
    decidable_of_iff (s.db.Owns id s.client.world character ∧
      config.Has s.client.world s.client.channel)
      ⟨fun ⟨howns, hhas⟩ => ⟨⟨id, h, howns⟩, hhas⟩, fun ⟨⟨id', hid', howns⟩, hhas⟩ => by
        obtain rfl : id = id' := Option.some.inj (h.symm.trans hid')
        exact ⟨howns, hhas⟩⟩

instance (config : LoginConfig) (s : LoginSession) (packet : Option LoginPacket) :
    Decidable (KeepsTo config s packet) :=
  match packet with
  | some (.characterList _ _) | some (.tos true) | some (.gender _) | some (.createCharacter _) =>
    inferInstanceAs (Decidable (s.client.node ≠ none))
  | some (.registerPic character _) => inferInstanceAs (Decidable (s.MayAssign config character ∧ _))
  | some (.verifyPic pic _) => inferInstanceAs (Decidable (s.client.account.pic = strncpy pic → _))
  | none | some (.login _ _) | some .serverList | some .serverStatus | some (.tos false)
  | some (.pin _ _) | some (.nameCheck _) | some .unknown => inferInstanceAs (Decidable True)

instance (config : LoginConfig) (e : LoginSessionEvent) (s : LoginSession) :
    Decidable (Disciplined config e s) :=
  match e with
  | .packet bytes _ => inferInstanceAs (Decidable (KeepsTo config s (LoginPacket.parse bytes)))
  | .disconnect _ => inferInstanceAs (Decidable True)

/-! ## What is kept -/

/-- The session has only acted for accounts for which a login has succeeded. -/
structure LoginSession.Acts (config : LoginConfig) (s : LoginSession) : Prop where
  login : ∀ id, s.client.node = some id → id ∈ s.logins
  lawful : ∀ a ∈ s.assigned, a.Lawful config

/-- The PIC of the account that is logged in, if it has one in the database, is that of the client, or has
    been supplied. -/
def LoginSession.KnowsPic (s : LoginSession) : Prop :=
  ∀ id, s.client.node = some id → ∀ row, s.db.getAccount id = some row →
    row.pic = [] ∨ row.pic ∈ s.supplied ∨ row.pic = s.client.account.pic

/-- What holds of a session, as long as packets are read. -/
def LoginSession.Honest (config : LoginConfig) (s : LoginSession) : Prop :=
  s.Acts config ∧ (s.reading = true → s.KnowsPic)

namespace LoginDatabase

variable {db db' : LoginDatabase} {name hash pic : List UInt8} {salt : UInt64} {id id' : ℕ} {tos : Bool}
  {gender : AccountGender}

theorem lt_nextId {ids : List ℕ} (h : id ∈ ids) : id < nextId ids := by
  refine Nat.lt_succ_of_le ?_
  induction ids with
  | nil => cases h
  | cons a ids ih =>
    rcases List.mem_cons.1 h with rfl | h
    · exact le_max_left ..
    · exact (ih h).trans (le_max_right ..)

/-- A new account has no PIC. -/
theorem getAccount_tryCreateAccount (h : db.tryCreateAccount name hash salt = some (id, db')) :
    ∀ row, db'.getAccount id = some row → row.pic = [] := by
  rw [tryCreateAccount] at h
  split at h
  · cases h
  · cases h
    intro row hrow
    rw [getAccount, List.find?_append] at hrow
    have hnone : db.accounts.find? (fun row => decide (row.id = nextId (db.accounts.map (·.id)))) = none := by
      refine List.find?_eq_none.2 fun row hmem heq => ?_
      have hlt := lt_nextId (List.mem_map_of_mem hmem : row.id ∈ db.accounts.map (·.id))
      exact Nat.ne_of_lt hlt (of_decide_eq_true heq)
    rw [hnone, Option.none_or, List.find?_singleton] at hrow
    split at hrow
    · cases hrow
      rfl
    · cases hrow

/-- An account that is updated has the PIC with which it is updated, and the others keep theirs. -/
theorem getAccount_updateAccount (row : AccountRow)
    (h : (db.updateAccount id pic tos gender).getAccount id' = some row) :
    row.pic = pic ∨ ∃ row', db.getAccount id' = some row' ∧ row'.pic = row.pic := by
  rw [getAccount, updateAccount, List.find?_map] at h
  obtain ⟨row', hrow', rfl⟩ := Option.map_eq_some_iff.1 h
  have hsame : (fun row : AccountRow => decide (row.id = id')) ∘ (fun row =>
      if row.id = id then { row with pic := pic, tos := tos, gender := gender } else row) =
      fun row => decide (row.id = id') := by
    funext row
    simp only [Function.comp_apply]
    split <;> rfl
  rw [hsame] at hrow'
  split
  · exact .inl rfl
  · exact .inr ⟨row', hrow', rfl⟩

end LoginDatabase

namespace LoginSession

variable {argon2 : List UInt8 → UInt64 → List UInt8} {config : LoginConfig} {r : Answers}
  {s : LoginSession}

theorem Acts.accountLogin (h : s.Acts config) (id : ℕ) : (s.accountLogin r id).Acts config := by
  rw [LoginSession.accountLogin]
  split
  · exact ⟨nofun, h.lawful⟩
  · refine ⟨fun id' hid' => ?_, h.lawful⟩
    cases hid'
    exact List.mem_cons_self

/-- Nothing is read from a client that is disconnected. -/
theorem Acts.disconnect (h : s.Acts config) : (s.disconnect r).Honest config := by
  rw [LoginSession.disconnect]
  dsimp only
  split
  · exact ⟨⟨h.login, h.lawful⟩, nofun⟩
  · rename_i id hnode
    split
    · refine ⟨⟨fun id' hid' => ?_, h.lawful⟩, nofun⟩
      dsimp only at hid'
      split at hid'
      · exact h.login id' (hnode.trans hid')
      · cases hid'
    · exact ⟨⟨h.login, h.lawful⟩, nofun⟩

theorem Acts.kick (h : s.Acts config) : s.kick.Honest config := h.disconnect

/-- The PIC of an account that has been updated with that of the client. -/
theorem KnowsPic.updateAccount (h : s.KnowsPic) (id : ℕ) (tos : Bool) (gender : AccountGender) :
    KnowsPic { s with db := s.db.updateAccount id s.client.account.pic tos gender } := by
  intro id' hid' row hrow
  rcases LoginDatabase.getAccount_updateAccount row hrow with heq | ⟨row', hrow', heq⟩
  · exact .inr (.inr heq)
  · rw [← heq]
    exact h id' hid' row' hrow'

theorem Honest.loginHandlerHandle (h : s.Honest config) (name pass : List UInt8) : (s.loginHandlerHandle argon2 r name pass).Honest config := by
  rw [LoginSession.loginHandlerHandle]
  split
  · exact h.1.kick
  split
  · rename_i id db hcreate
    have hpic := LoginDatabase.getAccount_tryCreateAccount hcreate
    have hacts := Acts.accountLogin (s := { s with db := db }) (r := r) ⟨h.1.login, h.1.lawful⟩ id
    refine ⟨⟨hacts.login, hacts.lawful⟩, fun _ id' hid' row hrow => .inl ?_⟩
    rw [LoginSession.accountLogin] at hid' hrow
    split at hid'
    · cases hid'
    · cases hid'
      rw [if_neg ‹_›] at hrow
      exact hpic row hrow
  · split
    · exact h.1.kick
    split
    · exact h
    rename_i credentials hcredentials
    split
    · exact h
    have hacts := h.1.accountLogin (r := r) credentials.id
    dsimp only
    split
    · rename_i hnone
      refine ⟨hacts, fun _ id' hid' => ?_⟩
      rw [hnone] at hid'
      cases hid'
    · split
      · rename_i row hrow
        refine ⟨⟨hacts.login, hacts.lawful⟩, fun _ id' hid' row' hrow' => .inr (.inr ?_)⟩
        rw [LoginSession.accountLogin] at hid' hrow hrow'
        split at hid'
        · cases hid'
        · cases hid'
          rw [if_neg ‹_›] at hrow hrow'
          rw [← Option.some.inj (hrow.symm.trans hrow')]
      · exact Acts.kick ⟨hacts.login, hacts.lawful⟩

theorem deref_node (hnode : s.client.node ≠ none) : ∃ id, Exec.deref s.client.node = .ok id := by
  obtain ⟨id, hid⟩ := Option.ne_none_iff_exists'.1 hnode
  exact ⟨id, Exec.deref_eq_ok.2 hid⟩

theorem Honest.handleTos (h : s.Honest config) (accept : Bool)
    (hnode : accept = true → s.client.node ≠ none) :
    ∃ s', s.handleTos accept = .ok s' ∧ s'.Honest config := by
  rw [LoginSession.handleTos]
  cases accept with
  | true =>
    obtain ⟨id, hid⟩ := deref_node (hnode rfl)
    dsimp only
    rw [if_pos rfl, hid]
    exact ⟨_, rfl, ⟨h.1.login, h.1.lawful⟩, h.2⟩
  | false => exact ⟨_, rfl, Acts.kick ⟨h.1.login, h.1.lawful⟩⟩

theorem Honest.genderHandler (h : s.Honest config) (gender : AccountGender)
    (hnode : s.client.node ≠ none) :
    ∃ s', s.genderHandler r gender = .ok s' ∧ s'.Honest config := by
  obtain ⟨id, hid⟩ := deref_node hnode
  rw [LoginSession.genderHandler]
  dsimp only
  rw [hid, Exec.ok_bind, Exec.ok_bind]
  split
  · exact ⟨_, rfl, ⟨h.1.login, h.1.lawful⟩, h.2⟩
  split
  · by_cases hfailed : r.failed = none
    · refine ⟨{ s with db := s.db.updateAccount id s.client.account.pic s.client.account.tos
                                s.client.account.gender }, ?_, ⟨h.1.login, h.1.lawful⟩,
        fun hreading => (h.2 hreading).updateAccount id _ _⟩
      rw [if_pos hfailed]
      rfl
    · refine ⟨s.kick, ?_, h.1.kick⟩
      rw [if_neg hfailed]
      rfl
  · exact ⟨_, rfl, h.1.kick⟩

theorem Honest.characterListHandler (h : s.Honest config) (world channel : UInt8)
    (hnode : s.client.node ≠ none) :
    ∃ s', s.characterListHandler r world channel = .ok s' ∧ s'.Honest config := by
  obtain ⟨id, hid⟩ := deref_node hnode
  have hacts : Acts config { s with client := { s.client with world := world, channel := channel } } :=
    ⟨h.1.login, h.1.lawful⟩
  rw [LoginSession.characterListHandler]
  dsimp only
  rw [hid, Exec.ok_bind]
  split
  · refine ⟨_, rfl, ?_⟩
    split
    · exact ⟨hacts, h.2⟩
    · exact hacts.kick
  · exact ⟨_, rfl, hacts.kick⟩

theorem Honest.createCharacterHandlerHandle (h : s.Honest config) (name : List UInt8)
    (hnode : s.client.node ≠ none) :
    ∃ s', s.createCharacterHandlerHandle r name = .ok s' ∧ s'.Honest config := by
  obtain ⟨id, hid⟩ := deref_node hnode
  rw [LoginSession.createCharacterHandlerHandle, hid, Exec.ok_bind]
  split
  · by_cases hfailed : r.failed = none
    · refine ⟨{ s with db := s.db.tryCreateCharacter id s.client.world name }, ?_,
        ⟨h.1.login, h.1.lawful⟩, h.2⟩
      rw [if_pos hfailed]
      rfl
    · refine ⟨s.kick, ?_, h.1.kick⟩
      rw [if_neg hfailed]
      rfl
  · exact ⟨_, rfl, h.1.kick⟩

theorem Honest.letIn (h : s.Honest config) (hnode : s.client.node ≠ none)
    (hhas : config.Has s.client.world s.client.channel) :
    ∃ s', s.letIn config = .ok s' ∧ s'.Honest config := by
  obtain ⟨id, hid⟩ := deref_node hnode
  refine ⟨{ s with client := { s.client with loggedIn := true } }, ?_, ⟨h.1.login, h.1.lawful⟩, h.2⟩
  rw [LoginSession.letIn, hid, Exec.ok_bind, if_pos hhas]
  rfl

/-- What comes of a call of `assign_channel` that is lawful, and of the answer of the channel. -/
theorem Acts.assignChannel (h : s.Acts config) {character : UInt32}
    (hmay : s.MayAssign config character)
    (hpic : ∀ id, s.client.node = some id → ∀ row, s.db.getAccount id = some row →
      row.pic = [] ∨ row.pic ∈ s.supplied) :
    ∃ s', s.assignChannel config character = .ok s' ∧ s'.Honest config ∧
      ∃ s'', s'.letIn config = .ok s'' ∧ s''.Honest config := by
  obtain ⟨⟨id, hid, howns⟩, hhas⟩ := hmay
  have hhonest : Honest config { s with assigned :=
      ⟨character, s.client.world, s.client.channel, s.client.node, s.db, s.supplied⟩ :: s.assigned } := by
    refine ⟨⟨h.login, fun a ha => ?_⟩, fun _ id' hid' row hrow => ?_⟩
    · rcases List.mem_cons.1 ha with rfl | ha
      · exact ⟨id, hid, howns, hpic id hid, hhas⟩
      · exact h.lawful a ha
    · exact (hpic id' hid' row hrow).imp_right .inl
  refine ⟨_, ?_, hhonest, hhonest.letIn (Option.ne_none_iff_exists'.2 ⟨id, hid⟩) hhas⟩
  rw [LoginSession.assignChannel, if_pos hhas]
  rfl

theorem Honest.registerPicHandler (h : s.Honest config) (hreading : s.reading = true)
    {character : UInt32} (hmay : s.MayAssign config character)
    (hpic : s.client.account.pic = [] ∨ s.client.account.pic ∈ s.supplied) (pic : List UInt8) :
    ∃ s', s.registerPicHandler config r character pic = .ok s' ∧ s'.Honest config := by
  have hacts : Acts config { s with
      client := { s.client with account := { s.client.account with pic := pic } }
      supplied := pic :: s.supplied } := ⟨h.1.login, h.1.lawful⟩
  have hknown : ∀ id, s.client.node = some id → ∀ row, s.db.getAccount id = some row →
      row.pic = [] ∨ row.pic ∈ pic :: s.supplied := by
    intro id hid row hrow
    rcases h.2 hreading id hid row hrow with hnil | hmem | heq
    · exact .inl hnil
    · exact .inr (List.mem_cons_of_mem _ hmem)
    · rcases hpic with hnil | hmem
      · exact .inl (heq.trans hnil)
      · exact .inr (List.mem_cons_of_mem _ (heq ▸ hmem))
  obtain ⟨s₁, hassign, hhonest, s₂, hadmit, hadmitted⟩ := hacts.assignChannel hmay hknown
  rw [LoginSession.registerPicHandler]
  dsimp only
  rw [hassign, Exec.ok_bind]
  cases r.channel with
  | notConnected => exact ⟨_, rfl, ⟨hhonest.1.login, hhonest.1.lawful⟩, nofun⟩
  | refused => exact ⟨_, rfl, hhonest⟩
  | admitted => exact ⟨_, hadmit, hadmitted⟩

/-- `strncpy` keeps a string without a zero. -/
theorem strncpy_eq {string : List UInt8} (h : 0 ∉ string) : strncpy string = string := by
  have htake : string.takeWhile (· ≠ 0) = string :=
    List.takeWhile_eq_self_iff.2 fun b hb => by
      rw [decide_eq_true_eq]
      rintro rfl
      exact h hb
  rw [strncpy, htake, Nat.sub_self, List.replicate_zero, List.append_nil]

theorem Honest.verifyPicHandler (h : s.Honest config) (hreading : s.reading = true)
    {character : UInt32} {pic : List UInt8} (hkeeps : s.client.account.pic = strncpy pic →
      s.MayAssign config character ∧ (0 ∉ pic ∨ s.client.account.pic ∈ s.supplied)) :
    ∃ s', s.verifyPicHandler config r pic character = .ok s' ∧ s'.Honest config := by
  have hacts : Acts config { s with supplied := pic :: s.supplied } := ⟨h.1.login, h.1.lawful⟩
  rw [LoginSession.verifyPicHandler]
  dsimp only
  by_cases heq : s.client.account.pic = strncpy pic
  · rw [if_neg (not_not_intro heq)]
    obtain ⟨hmay, hpic⟩ := hkeeps heq
    have hsupplied : s.client.account.pic ∈ pic :: s.supplied := by
      rcases hpic with hzero | hmem
      · rw [heq, strncpy_eq hzero]
        exact List.mem_cons_self
      · exact List.mem_cons_of_mem _ hmem
    have hknown : ∀ id, s.client.node = some id → ∀ row, s.db.getAccount id = some row →
        row.pic = [] ∨ row.pic ∈ pic :: s.supplied := by
      intro id hid row hrow
      rcases h.2 hreading id hid row hrow with hnil | hmem | heq
      · exact .inl hnil
      · exact .inr (List.mem_cons_of_mem _ hmem)
      · exact .inr (heq ▸ hsupplied)
    obtain ⟨s₁, hassign, hhonest, s₂, hadmit, hadmitted⟩ := hacts.assignChannel hmay hknown
    rw [hassign, Exec.ok_bind]
    cases r.channel with
    | notConnected | refused => exact ⟨_, rfl, hhonest⟩
    | admitted => exact ⟨_, hadmit, hadmitted⟩
  · rw [if_pos heq]
    refine ⟨_, rfl, hacts, fun hreading id hid row hrow => ?_⟩
    exact (h.2 hreading id hid row hrow).imp_right (.imp_left (List.mem_cons_of_mem _))

/-- A client that keeps to what is not checked does no harm. -/
theorem Honest.onClientPacket (h : s.Honest config) (hreading : s.reading = true)
    {packet : Option LoginPacket} (hkeeps : KeepsTo config s packet) :
    ∃ s', s.onClientPacket argon2 config r packet = .ok s' ∧ s'.Honest config := by
  match packet, hkeeps with
  | none, _ => exact ⟨_, rfl, h.1.kick⟩
  | some (.login name pass), _ => exact ⟨_, rfl, h.loginHandlerHandle name pass⟩
  | some .serverList, _ | some .serverStatus, _ | some (.nameCheck _), _ | some .unknown, _ =>
    exact ⟨_, rfl, h⟩
  | some (.characterList world channel), hnode => exact h.characterListHandler world channel hnode
  | some (.tos true), hnode => exact h.handleTos true fun _ => hnode
  | some (.tos false), _ => exact h.handleTos false nofun
  | some (.gender gender), hnode => exact h.genderHandler gender hnode
  | some (.pin c₂ c₃), _ =>
    refine ⟨_, rfl, ?_⟩
    rw [handlePin]
    split
    · exact h
    · exact h.1.kick
  | some (.createCharacter name), hnode => exact h.createCharacterHandlerHandle name hnode
  | some (.registerPic character pic), hkeeps => exact h.registerPicHandler hreading hkeeps.1 hkeeps.2 pic
  | some (.verifyPic pic character), hkeeps => exact h.verifyPicHandler hreading hkeeps

theorem Honest.step (h : s.Honest config) (e : LoginSessionEvent) (hkeeps : Disciplined config e s) :
    ∃ s', e.step argon2 config s = .ok s' ∧ s'.Honest config := by
  cases e with
  | packet bytes r =>
    rw [LoginSessionEvent.step]
    split
    · exact h.onClientPacket ‹_› hkeeps
    · exact ⟨_, rfl, h⟩
  | disconnect r =>
    refine ⟨_, rfl, ?_⟩
    split
    · exact h.1.disconnect
    · exact h

end LoginSession

end Syrup
