import Syrup.Client.QuestInfos

/-!
# Runs of quest infos

In a run of calls of `client_set_quest_info` each info should be the text that it was set to last, with a terminator,
and the client should know it (`InfoRun`, `SetsInfo`).

What goes wrong:
* a text of 12 characters leaves no room for its terminator: a new one has none, and one that replaces another is
  stored beyond the end of the field;
* of a text that begins with the one before, the client is not told.

A call is right if and only if it is not of these (`infoRun_sets`).
-/

namespace Syrup

/-- A record holds a text. -/
def QuestInfoRecord.Stores (r : QuestInfoRecord) (v : List UInt8) : Prop :=
  r.length.toNat = v.length ∧ cString r.value.val = some v

/-- A set holds a text for each info. -/
def StoresAll (hash : UInt16 → UInt64) (set : HashSet QuestInfoRecord) (values : UInt16 → Option (List UInt8)) :
    Prop :=
  ∃ m, Represents (questInfoRecords hash) set m ∧ ∀ id, Option.Rel QuestInfoRecord.Stores (m id) (values id)

/-- What the infos are after a call. -/
def valuesAfter (values : UInt16 → Option (List UInt8)) (info : UInt16) (v : InfoValue) (ok : Bool) :
    UInt16 → Option (List UInt8) :=
  if ok then Function.update values info (some v.chars) else values

/-- A call returns; then each info is what it has been set to, with a terminator, the client has been told exactly if
    that has changed something, and knows it. -/
def SetsInfo (hash : UInt16 → UInt64) (alloc : Bool) (s : QuestInfos) (values : UInt16 → Option (List UInt8))
    (info : UInt16) (v : InfoValue) : Prop :=
  ∃ ok s', clientSetQuestInfo hash alloc s info v.chars = .ok (ok, s') ∧
    (∀ id, (clientGetQuestInfo hash s' id).map cString = (valuesAfter values info v ok id).map some) ∧
    s'.sent = s.sent ++
      (if valuesAfter values info v ok info = values info then [] else [(info, v.chars)]) ∧
    s'.copy = valuesAfter values info v ok

/-- A first text has room for its terminator, unless there is no room for the info itself; another one has, too,
    and does not begin with the one before, unless it is the same. -/
def SetSafe (alloc : Bool) (s : QuestInfos) (values : UInt16 → Option (List UInt8)) (info : UInt16)
    (v : InfoValue) : Prop :=
  match values info with
  | none => v.chars.length < 12 ∨ ¬s.set.HasRoom alloc
  | some old => v.chars.length < 12 ∧ (old <+: v.chars → old = v.chars)

/-- The runs of safe calls after a login, with the text that each info has been set to last. -/
inductive InfoRun (hash : UInt16 → UInt64) : QuestInfos → (UInt16 → Option (List UInt8)) → Prop
  | login {set : HashSet QuestInfoRecord} {values : UInt16 → Option (List UInt8)} :
      StoresAll hash set values → InfoRun hash ⟨set, values, []⟩ values
  | set {s s' : QuestInfos} {values : UInt16 → Option (List UInt8)} {alloc ok : Bool} {info : UInt16}
      {v : InfoValue} : InfoRun hash s values → SetSafe alloc s values info v →
      clientSetQuestInfo hash alloc s info v.chars = .ok (ok, s') →
      InfoRun hash s' (valuesAfter values info v ok)

/-! ## One call -/

section Call

variable {hash : UInt16 → UInt64} {alloc : Bool} {s : QuestInfos} {m : UInt16 → Option QuestInfoRecord}
  {values : UInt16 → Option (List UInt8)} {info : UInt16} {v : InfoValue}

theorem copy_send (info : UInt16) (value : List UInt8) :
    (s.send info value).copy = Function.update s.copy info (some value) := by
  rw [QuestInfos.copy, QuestInfos.send, List.foldl_append]
  rfl

/-- What is read of infos that are stored. -/
theorem get_stored (hset : Represents (questInfoRecords hash) s.set m)
    (hstores : ∀ id, Option.Rel QuestInfoRecord.Stores (m id) (values id)) (id : UInt16) :
    (clientGetQuestInfo hash s id).map cString = (values id).map some := by
  have hrel := hstores id
  rw [clientGetQuestInfo, hset.get_eq]
  generalize m id = stored at hrel ⊢
  generalize values id = value at hrel ⊢
  cases hrel with
  | some hr => exact congrArg some hr.2
  | none => rfl

/-- What has not been set has no record. -/
theorem stored_none (hstores : ∀ id, Option.Rel QuestInfoRecord.Stores (m id) (values id))
    (hnone : values info = none) : m info = none := by
  have hrel := hstores info
  rw [hnone] at hrel
  generalize m info = stored at hrel ⊢
  cases hrel
  rfl

/-- What has been set has a record that holds it. -/
theorem stored_some (hstores : ∀ id, Option.Rel QuestInfoRecord.Stores (m id) (values id)) {old : List UInt8}
    (hsome : values info = some old) : ∃ r, m info = some r ∧ r.Stores old := by
  have hrel := hstores info
  rw [hsome] at hrel
  generalize m info = stored at hrel ⊢
  cases hrel with
  | some hr => exact ⟨_, rfl, hr⟩

/-- One more text is stored. -/
theorem stores_update (hstores : ∀ id, Option.Rel QuestInfoRecord.Stores (m id) (values id)) {r : QuestInfoRecord}
    {value : List UInt8} (hr : r.Stores value) (id : UInt16) : Option.Rel QuestInfoRecord.Stores
      (Function.update m info (some r) id) (Function.update values info (some value) id) := by
  by_cases hid : id = info
  · rw [hid, Function.update_self, Function.update_self]
    exact .some hr
  · rw [Function.update_of_ne hid, Function.update_of_ne hid]
    exact hstores id

theorem toNat_length (v : InfoValue) : (UInt8.ofNat v.chars.length).toNat = v.chars.length :=
  Nat.mod_eq_of_lt (v.short.trans_lt (by decide))

/-- The field of a new record. -/
def newField (v : InfoValue) : ValueField :=
  ⟨v.chars ++ .replicate (12 - v.chars.length) 0, by
    rw [List.length_append, List.length_replicate]
    exact Nat.add_sub_cancel' v.short⟩

theorem strncpy_new (v : InfoValue) :
    ValueField.strncpy ⟨.replicate 12 0, List.length_replicate⟩ v.chars v.chars.length = .ok (newField v) := by
  rw [ValueField.strncpy, dif_pos v.short]
  refine congrArg Except.ok (Subtype.ext ?_)
  simp only [newField, List.take_length, Nat.sub_self, List.replicate_zero, List.append_nil, List.drop_replicate]

/-- A new field is a string if there is room for its terminator. -/
theorem cString_newField (v : InfoValue) :
    cString (newField v).val = if v.chars.length < 12 then some v.chars else none := by
  rw [newField]
  split
  · rename_i hlt
    obtain ⟨k, hk⟩ : ∃ k, 12 - v.chars.length = k + 1 := ⟨11 - v.chars.length, by omega⟩
    simp only [hk, List.replicate_succ]
    exact cString_append v.nonzero _
  · rename_i hge
    have hfull : 12 - v.chars.length = 0 := by omega
    simp only [hfull, List.replicate_zero, List.append_nil]
    exact cString_eq_none v.nonzero

/-- A first text for which there is no room changes nothing. -/
theorem set_noRoom (hset : Represents (questInfoRecords hash) s.set m) (hnew : m info = none)
    (hroom : ¬s.set.HasRoom alloc) : clientSetQuestInfo hash alloc s info v.chars = .ok (false, s) := by
  rw [clientSetQuestInfo, hset.get_eq, hnew]
  simp only [toNat_length, strncpy_new, Exec.ok_bind, hashSetInsert_noRoom hroom]
  rfl

/-- A first text makes a record, and the client is told. -/
theorem set_new (hset : Represents (questInfoRecords hash) s.set m) (hnew : m info = none)
    (hroom : s.set.HasRoom alloc) : ∃ set',
      clientSetQuestInfo hash alloc s info v.chars = .ok (true, { s with set := set' }.send info v.chars) ∧
        Represents (questInfoRecords hash) set' (Function.update m info
          (some ⟨info, UInt8.ofNat v.chars.length, newField v⟩)) := by
  obtain ⟨set', hinsert, hset'⟩ := hashSetInsert_room (r := ⟨info, UInt8.ofNat v.chars.length, newField v⟩) hset
    hroom hnew
  refine ⟨set', ?_, hset'⟩
  rw [clientSetQuestInfo, hset.get_eq, hnew]
  simp only [toNat_length, strncpy_new, Exec.ok_bind, hinsert]
  rfl

/-- The state when the client has been told of another text, if it is. -/
def announced (s : QuestInfos) (info : UInt16) (v : InfoValue) (old : List UInt8) : QuestInfos :=
  if old <+: v.chars then s else s.send info v.chars

/-- Another text replaces the one before. -/
theorem set_again (hset : Represents (questInfoRecords hash) s.set m) {r : QuestInfoRecord} {old : List UInt8}
    (hold : m info = some r) (hr : r.Stores old) : clientSetQuestInfo hash alloc s info v.chars = (do
      let bytes ← ValueField.strcpy r.value v.chars
      return (true, { announced s info v old with
        set := hashSetWrite (questInfoRecords hash) s.set info
          { r with length := UInt8.ofNat v.chars.length, value := bytes } })) := by
  rw [clientSetQuestInfo, hset.get_eq, hold]
  simp only [hr.1, strncmp_eq hr.2, Exec.ok_bind, announced]
  by_cases hbegins : old <+: v.chars
  · simp only [hbegins, decide_true, Bool.not_true, Bool.false_eq_true, if_false, if_true]
  · simp only [hbegins, decide_false, Bool.not_false, if_false, if_true]
    rfl

/-- A first text is set right exactly if it has room for its terminator, or the info itself has none. -/
theorem sets_new (hset : Represents (questInfoRecords hash) s.set m)
    (hstores : ∀ id, Option.Rel QuestInfoRecord.Stores (m id) (values id)) (hcopy : s.copy = values)
    (hnone : values info = none) :
    SetsInfo hash alloc s values info v ↔ v.chars.length < 12 ∨ ¬s.set.HasRoom alloc := by
  have hnew := stored_none hstores hnone
  by_cases hroom : s.set.HasRoom alloc
  · obtain ⟨set', hcall, hset'⟩ := @set_new hash alloc s m info v hset hnew hroom
    rw [or_iff_left (not_not.2 hroom), SetsInfo, hcall]
    -- What is read is the field of the new record, up to a terminator.
    have hget : (clientGetQuestInfo hash ({ s with set := set' }.send info v.chars) info).map cString =
        some (cString (newField v).val) := by
      rw [clientGetQuestInfo]
      change ((hashSetGet _ set' info).map _).map _ = _
      rw [hset'.get_eq, Function.update_self]
      rfl
    constructor
    · rintro ⟨ok, s', hok, hgets, _⟩
      cases hok
      have hinfo := hgets info
      rw [hget, valuesAfter, if_pos rfl, Function.update_self, cString_newField] at hinfo
      by_contra hlong
      rw [if_neg hlong] at hinfo
      cases hinfo
    · intro hshort
      have hr : (⟨info, UInt8.ofNat v.chars.length, newField v⟩ : QuestInfoRecord).Stores v.chars :=
        ⟨toNat_length v, (cString_newField v).trans (if_pos hshort)⟩
      refine ⟨true, _, rfl, fun id => ?_, ?_, ?_⟩
      · exact get_stored (s := { s with set := set' }.send info v.chars) hset' (stores_update hstores hr) id
      · rw [valuesAfter, if_pos rfl, Function.update_self, hnone, if_neg (Option.some_ne_none _)]
        rfl
      · rw [copy_send]
        exact congrArg (fun known => Function.update known info (some v.chars)) hcopy
  · refine iff_of_true ⟨false, s, set_noRoom hset hnew hroom, get_stored hset hstores, ?_, hcopy⟩ (.inr hroom)
    rw [valuesAfter, if_neg Bool.false_ne_true, if_pos rfl, List.append_nil]

/-- A record with another text, which has room for its terminator. -/
def QuestInfoRecord.replaced (r : QuestInfoRecord) (v : InfoValue) (h : v.chars.length < 12) : QuestInfoRecord :=
  { r with
    length := UInt8.ofNat v.chars.length
    value := ⟨v.chars ++ 0 :: r.value.val.drop (v.chars.length + 1), by
      simp only [List.length_append, List.length_cons, List.length_drop, r.value.property]
      omega⟩ }

theorem stores_replaced (r : QuestInfoRecord) (h : v.chars.length < 12) : (r.replaced v h).Stores v.chars :=
  ⟨toNat_length v, cString_append v.nonzero _⟩

/-- The client is told of a change exactly if the text does not begin with the one before. -/
theorem sent_announced {old : List UInt8} (hsome : values info = some old) : ((announced s info v old).sent =
      s.sent ++ if some v.chars = values info then [] else [(info, v.chars)]) ↔
    (old <+: v.chars → old = v.chars) := by
  rw [hsome, announced]
  by_cases hbegins : old <+: v.chars
  · rw [if_pos hbegins]
    by_cases hsame : old = v.chars
    · rw [hsame, if_pos rfl, List.append_nil]
      exact iff_of_true rfl fun _ => rfl
    · rw [if_neg fun h => hsame (Option.some.inj h).symm]
      refine iff_of_false (fun h => ?_) fun h => hsame (h hbegins)
      have hlen := congrArg List.length h
      rw [List.length_append, List.length_singleton] at hlen
      omega
  · rw [if_neg hbegins,
      if_neg fun h : some v.chars = some old => hbegins (by rw [Option.some.inj h])]
    exact iff_of_true rfl fun h => absurd h hbegins

/-- Then it knows the text. -/
theorem copy_announced (hcopy : s.copy = values) {old : List UInt8} (hsome : values info = some old)
    (h : old <+: v.chars → old = v.chars) :
    (announced s info v old).copy = Function.update values info (some v.chars) := by
  rw [announced]
  split
  · rename_i hbegins
    rw [hcopy, ← h hbegins, ← hsome, Function.update_eq_self]
  · rw [copy_send, hcopy]

/-- Another text is set right exactly if it has room for its terminator, and does not begin with the one before unless
    it is the same. -/
theorem sets_again (hset : Represents (questInfoRecords hash) s.set m)
    (hstores : ∀ id, Option.Rel QuestInfoRecord.Stores (m id) (values id)) (hcopy : s.copy = values)
    {old : List UInt8} (hsome : values info = some old) :
    SetsInfo hash alloc s values info v ↔ v.chars.length < 12 ∧ (old <+: v.chars → old = v.chars) := by
  obtain ⟨r, hr, hstored⟩ := stored_some hstores hsome
  rw [SetsInfo, @set_again hash alloc s m info v hset r old hr hstored, ValueField.strcpy]
  by_cases hshort : v.chars.length < 12
  · rw [dif_pos (show v.chars.length + 1 ≤ 12 from hshort), Exec.ok_bind, and_iff_right hshort,
      ← @sent_announced s values info v old hsome]
    constructor
    · rintro ⟨ok, s', hok, _, hsent, _⟩
      cases hok
      rwa [valuesAfter, if_pos rfl, Function.update_self] at hsent
    · intro hsent
      refine ⟨true, _, rfl, ?_, ?_, ?_⟩
      · have hset' := @Represents.write _ _ _ _ _ _ hset _ _ (r.replaced v hshort) hr rfl
        exact get_stored hset' (stores_update hstores (stores_replaced r hshort))
      · rw [valuesAfter, if_pos rfl, Function.update_self]
        exact hsent
      · exact copy_announced hcopy hsome ((sent_announced hsome).1 hsent)
  · rw [dif_neg (show ¬v.chars.length + 1 ≤ 12 from hshort)]
    refine iff_of_false ?_ fun h => hshort h.1
    rintro ⟨ok, s', hok, _⟩
    cases hok

/-- A call on infos that are in order is right exactly if it is safe. -/
theorem sets_iff (hset : StoresAll hash s.set values) (hcopy : s.copy = values) :
    SetsInfo hash alloc s values info v ↔ SetSafe alloc s values info v := by
  obtain ⟨m, hset, hstores⟩ := hset
  rw [SetSafe]
  cases hvalue : values info with
  | none => exact sets_new hset hstores hcopy hvalue
  | some old => exact sets_again hset hstores hcopy hvalue

/-- A safe call leaves all texts stored. -/
theorem StoresAll.set {s' : QuestInfos} {ok : Bool} (h : StoresAll hash s.set values)
    (hsafe : SetSafe alloc s values info v) (hcall : clientSetQuestInfo hash alloc s info v.chars = .ok (ok, s')) :
    StoresAll hash s'.set (valuesAfter values info v ok) := by
  obtain ⟨m, hset, hstores⟩ := h
  rw [SetSafe] at hsafe
  cases hvalue : values info with
  | none =>
    rw [hvalue] at hsafe
    have hnew := stored_none hstores hvalue
    by_cases hroom : s.set.HasRoom alloc
    · obtain ⟨set', hcall', hset'⟩ := @set_new hash alloc s m info v hset hnew hroom
      rw [hcall'] at hcall
      cases hcall
      have hshort := hsafe.resolve_right (not_not.2 hroom)
      exact ⟨_, hset', stores_update hstores ⟨toNat_length v, (cString_newField v).trans (if_pos hshort)⟩⟩
    · rw [set_noRoom hset hnew hroom] at hcall
      cases hcall
      exact ⟨m, hset, hstores⟩
  | some old =>
    rw [hvalue] at hsafe
    obtain ⟨r, hr, hstored⟩ := stored_some hstores hvalue
    obtain ⟨hshort, _⟩ := hsafe
    rw [@set_again hash alloc s m info v hset r old hr hstored, ValueField.strcpy,
      dif_pos (show v.chars.length + 1 ≤ 12 from hshort)] at hcall
    cases hcall
    -- The record of the text before is written over.
    have hset' := @Represents.write _ _ _ _ _ _ hset _ _ (r.replaced v hshort) hr rfl
    exact ⟨_, hset', stores_update hstores (stores_replaced r hshort)⟩

end Call

/-! ## Runs -/

/-- In a run of safe calls each info is the text that it was set to last, and the client knows it; and a further call is
    right exactly if it is safe. -/
theorem infoRun_sets {hash : UInt16 → UInt64} {s : QuestInfos} {values : UInt16 → Option (List UInt8)}
    (hrun : InfoRun hash s values) :
    (∀ id, (clientGetQuestInfo hash s id).map cString = (values id).map some) ∧ s.copy = values ∧
      ∀ alloc info v, SetsInfo hash alloc s values info v ↔ SetSafe alloc s values info v := by
  have hinv : StoresAll hash s.set values ∧ s.copy = values := by
    induction hrun with
    | login h => exact ⟨h, rfl⟩
    | set hrun hsafe hcall ih =>
      obtain ⟨hstores, hcopy⟩ := ih
      obtain ⟨ok, s', hcall', _, _, hcopy'⟩ := (sets_iff hstores hcopy).2 hsafe
      rw [hcall'] at hcall
      cases hcall
      exact ⟨hstores.set hsafe hcall', hcopy'⟩
  obtain ⟨hstores, hcopy⟩ := hinv
  obtain ⟨m, hset, hall⟩ := hstores
  exact ⟨get_stored hset hall, hcopy, fun _ _ _ => sets_iff ⟨m, hset, hall⟩ hcopy⟩

/-- The text of some digits. -/
def ones (n : ℕ) (h : n ≤ 12) : InfoValue :=
  ⟨.replicate n 0x31, fun c hc => by rw [List.eq_of_mem_replicate hc]; decide, by rwa [List.length_replicate]⟩

/-- Nothing has been set at login. -/
def noInfos : QuestInfos := ⟨hashSetInit, fun _ => none, []⟩

theorem infoRun_none (hash : UInt16 → UInt64) : InfoRun hash noInfos fun _ => none :=
  .login ⟨fun _ => none, .of_entries_zero hashSetInit_wf hashSetInit_entries, fun _ => .none⟩

/-- A text of one digit is set. -/
theorem infoRun_sets_digit : SetsInfo (fun _ => 0) true noInfos (fun _ => none) 7 (ones 1 (by decide)) :=
  ((infoRun_sets (infoRun_none fun _ => 0)).2.2 true 7 (ones 1 (by decide))).2 (.inl (by decide))

/-- One digit is followed by another: the client is not told. Twelve digits have no terminator. -/
theorem infoRun_misses : (∃ s values, InfoRun (fun _ => 0) s values ∧
      ¬SetsInfo (fun _ => 0) true s values 7 (ones 2 (by decide))) ∧
    ¬SetsInfo (fun _ => 0) true noInfos (fun _ => none) 7 (ones 12 (by decide)) := by
  have hempty : StoresAll (fun _ => 0) noInfos.set fun _ => none :=
    ⟨fun _ => none, .of_entries_zero hashSetInit_wf hashSetInit_entries, fun _ => .none⟩
  have hroom : noInfos.set.HasRoom true := .inr rfl
  refine ⟨?_, fun h => ?_⟩
  · have hsafe : SetSafe true noInfos (fun _ => none) 7 (ones 1 (by decide)) := .inl (by decide)
    obtain ⟨ok, s', hcall, _, _, hcopy⟩ := (sets_iff hempty rfl).2 hsafe
    have hok : ok = true := by
      obtain ⟨set', hcall', _⟩ := @set_new (fun _ => 0) true noInfos (fun _ => none) 7 (ones 1 (by decide))
        (.of_entries_zero hashSetInit_wf hashSetInit_entries) rfl hroom
      rw [hcall'] at hcall
      cases hcall
      rfl
    refine ⟨s', _, (infoRun_none _).set hsafe hcall, fun h => ?_⟩
    have hsafe' := (sets_iff (hempty.set hsafe hcall) hcopy).1 h
    rw [SetSafe, valuesAfter, if_pos hok, Function.update_self] at hsafe'
    exact absurd (hsafe'.2 (by decide)) (by decide)
  · have hsafe := (sets_iff hempty rfl).1 h
    rcases hsafe with hshort | hfull
    · exact absurd hshort (by decide)
    · exact hfull hroom

end Syrup
