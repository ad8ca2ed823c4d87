import Syrup.Client.Shop
import Syrup.Holdings

/-!
# `check_quest_requirements`

What a quest requires of a character is a list, of which all has to be met. The kinds that the function
does not know fall into the default of its `switch`, which prints a line and goes on; and so do the
monsters that are to be killed. `client_end_quest` asks for nothing else.
-/

namespace Syrup

open Sweep Slots Machine

/-! ## The functions -/

/-- `item_get_inventory`: `none` is the inventory of equipment. -/
def itemGetInventory (id : UInt32) : Option (Fin inventoryCount) :=
  if id / 1000000 = 1 then none
  else if id / 1000000 = 2 then some 0
  else if id / 1000000 = 3 then some 1
  else if id / 1000000 = 4 then some 2
  else some 3

/-- The loop that counts the pieces of equipment with an id. -/
def countEquips (inv : Inventory Equipment) (id : UInt32) : Int32 :=
  inv.slots.foldl (fun amount j =>
    if !(inv.items j).isEmpty && (inv.items j).val.item.itemId == id then amount + 1 else amount) 0

/-- The loop that sums up the quantities of the stacks with an id. -/
def countStacks (inv : Inventory InventoryItem) (id : UInt32) : Int32 :=
  inv.slots.foldl (fun amount j =>
    if !(inv.items j).isEmpty && (inv.items j).val.item.itemId == id then
      amount + (inv.items j).val.quantity.toInt32
    else amount) 0

/-- The loop that looks for anything with an id: whether there is nothing. -/
def hasNone {α : Type*} (inv : Inventory α) (itemId : α → UInt32) (id : UInt32) : Bool :=
  inv.slots.all fun j => !(!(inv.items j).isEmpty && itemId (inv.items j).val == id)

/-- The part of `check_quest_requirements` for an item. A count of `0` is for an item that is not to be
    there. -/
def checkItem (chr : Character) (id : UInt32) (count : Int32) : Bool :=
  match itemGetInventory id with
  | none =>
    if count ≠ 0 then count ≤ countEquips chr.equipmentInventory id
    else hasNone chr.equipmentInventory (fun e => e.item.itemId) id
  | some k =>
    if count ≠ 0 then count ≤ countStacks (chr.inventory k) id
    else hasNone (chr.inventory k) (fun it => it.item.itemId) id

/-- An `int32_t` that is compared with a `size_t`. -/
def asSize (n : Int32) : ℕ := (n.toInt % 2 ^ 64).toNat

/-- A round of the loop of `check_quest_requirements`: whether it goes on. -/
def checkQuestRequirement (env : Env) (chr : Character) (npc : UInt32) : QuestRequirement → Exec Bool
  | .npc id => .ok (id == npc)
  | .quest id .notStarted =>
    .ok ((hashSetGet env.quests chr.quests id).isNone &&
      (hashSetGet env.completedQuests chr.completedQuests id).isNone)
  | .quest id .started => .ok (hashSetGet env.quests chr.quests id).isSome
  | .quest id .completed => .ok (hashSetGet env.completedQuests chr.completedQuests id).isSome
  | .job jobs => .ok (jobs.contains chr.job)
  | .completedQuest amount => .ok (asSize amount ≤ hashSetSize chr.completedQuests)
  | .meso amount => .ok (amount ≤ chr.mesos)
  | .minLevel level => .ok (level ≤ chr.level)
  | .maxLevel level => .ok (chr.level ≤ level)
  | .item id count => .ok (checkItem chr id count)
  | .info number infos =>
    match hashSetGet env.questInfos chr.questInfos number with
    | none => .ok false
    | some info =>
      -- `infos[0]`, be there one or not.
      match infos with
      | [] => .error .outOfBounds
      | value :: _ => .ok (info.value == value)
  | .mob _ => .ok true
  | .unimplemented => .ok true

/-- `check_quest_requirements`. -/
def checkQuestRequirements (env : Env) (chr : Character) (npc : UInt32) : List QuestRequirement → Exec Bool
  | [] => .ok true
  | r :: reqs => do
    let met ← checkQuestRequirement env chr npc r
    if met then checkQuestRequirements env chr npc reqs else return false

/-- How far `client_end_quest` gets: it returns, or the script of the quest is run, or `end_quest` is
    called. -/
inductive QuestEnding
  | result (result : ClientResult)
  | script
  | ends
  deriving DecidableEq

/-- `client_end_quest`, up to the script or the call of `end_quest`; `running` is whether the client has a
    script. -/
def clientEndQuest (env : Env) (chr : Character) (running : Bool) (qid : UInt16) (npc : UInt32)
    (scripted : Bool) : Exec QuestEnding :=
  if scripted ∧ running then .ok (.result (.of .success))
  else
    match env.questInfo qid with
    | none => .ok (.result (.of .ban))
    | some info =>
      if hashSetGet env.completedQuests chr.completedQuests qid ≠ none then .ok (.result (.of .success))
      else if hashSetGet env.quests chr.quests qid = none then .ok (.result (.of .ban))
      else if scripted ≠ info.endScript then .ok (.result (.of .ban))
      else do
        let met ← checkQuestRequirements env chr npc info.endRequirements
        if !met then return .result (.of .ban)
        else if info.endScript then return .script
        else return .ends

/-! ## What is required -/

/-- How much of an item a character has in the inventory that it goes to. -/
def carried (chr : Character) (id : UInt32) : ℤ :=
  match itemGetInventory id with
  | none => chr.equipmentInventory.weigh (equipCount id)
  | some k => (chr.inventory k).weigh (stackCount id)

/-- A character has none of an item. -/
def CarriesNone (chr : Character) (id : UInt32) : Prop :=
  match itemGetInventory id with
  | none => ∀ i e, chr.equipmentInventory.view i = some e → e.item.itemId ≠ id
  | some k => ∀ i it, (chr.inventory k).view i = some it → it.item.itemId ≠ id

/-- The progress that has been recorded for a quest has reached the count of every monster. -/
def Killed (env : Env) (chr : Character) (qid : UInt16) (mobs : List QuestMob) : Prop :=
  ∃ quest, hashSetGet env.quests chr.quests qid = some quest ∧
    ∀ i mob, mobs[i]? = some mob → ∃ h : i < 5, mob.count.toInt ≤ (quest.progress[i]).toInt

/-- A requirement of a quest is met by a character that talks to a non-player character. (Of the kinds
    that are not implemented nothing is said.) -/
def Satisfies (env : Env) (chr : Character) (qid : UInt16) (npc : UInt32) : QuestRequirement → Prop
  | .npc id => npc = id
  | .quest id .notStarted =>
    hashSetGet env.quests chr.quests id = none ∧ hashSetGet env.completedQuests chr.completedQuests id = none
  | .quest id .started => hashSetGet env.quests chr.quests id ≠ none
  | .quest id .completed => hashSetGet env.completedQuests chr.completedQuests id ≠ none
  | .job jobs => chr.job ∈ jobs
  | .completedQuest amount => amount.toInt ≤ hashSetSize chr.completedQuests
  | .meso amount => amount.toInt ≤ chr.mesos.toInt
  | .minLevel level => level ≤ chr.level
  | .maxLevel level => chr.level ≤ level
  | .item id count => if count = 0 then CarriesNone chr id else count.toInt ≤ carried chr id
  | .info number infos =>
    ∃ info, hashSetGet env.questInfos chr.questInfos number = some info ∧ info.value ∈ infos
  | .mob mobs => Killed env chr qid mobs
  | .unimplemented => True

/-- The function returns, and returns `true` if and only if all requirements are met. -/
def ChecksRight (env : Env) (chr : Character) (qid : UInt16) (npc : UInt32) (reqs : List QuestRequirement) :
    Prop :=
  (checkQuestRequirements env chr npc reqs).Returns fun met =>
    met = true ↔ ∀ r ∈ reqs, Satisfies env chr qid npc r

/-- A requirement in which the function makes no mistake: the number of quests is not negative (or is so
    small that it wraps around below the number that is there), and of several values of an info it is the
    first that is there. -/
def QuestRequirement.Plain (env : Env) (chr : Character) : QuestRequirement → Prop
  | .completedQuest amount => 0 ≤ amount.toInt ∨ 2 ^ 64 + amount.toInt ≤ hashSetSize chr.completedQuests
  | .info number infos =>
    ∀ info, hashSetGet env.questInfos chr.questInfos number = some info → info.value ∈ infos →
      infos.head? = some info.value
  | _ => True

/-- A requirement that is plain and met, monsters left out. -/
def PlainlyMet (env : Env) (chr : Character) (qid : UInt16) (npc : UInt32) (r : QuestRequirement) : Prop :=
  (∀ mobs, r ≠ .mob mobs) → Satisfies env chr qid npc r ∧ r.Plain env chr

/-- Where the function is right: the first value of an info is only looked at where there is one; if all but
    the monsters is plain and met, the monsters have been killed; and if all is met, all is plain. -/
structure Decided (env : Env) (chr : Character) (qid : UInt16) (npc : UInt32) (reqs : List QuestRequirement) :
    Prop where
  reads : ∀ l number l', reqs = l ++ .info number [] :: l' →
    hashSetGet env.questInfos chr.questInfos number ≠ none → ∃ r ∈ l, ¬PlainlyMet env chr qid npc r
  kills : (∀ r ∈ reqs, PlainlyMet env chr qid npc r) → ∀ mobs, .mob mobs ∈ reqs → Killed env chr qid mobs
  plain : (∀ r ∈ reqs, Satisfies env chr qid npc r) → ∀ r ∈ reqs, r.Plain env chr

variable {env : Env} {chr : Character} {qid : UInt16} {npc : UInt32} {id : UInt32}

/-! ## Counting -/

/-- A sum of small numbers in an `int32_t`. -/
theorem foldl_toInt {ι : Type*} {step : Int32 → ι → Int32} {f : ι → ℤ} {l : List ι}
    (hstep : ∀ a j, a.toInt.natAbs ≤ 2147450000 → (step a j).toInt = a.toInt + f j)
    (hf : ∀ j, (f j).natAbs ≤ 32768) (a : Int32) (hl : a.toInt.natAbs + 32768 * l.length ≤ 2147450000) :
    (l.foldl step a).toInt = a.toInt + (l.map f).sum := by
  induction l generalizing a with
  | nil => simp
  | cons j l ih =>
    have ha := hstep a j (by omega)
    have hj := hf j
    rw [List.length_cons] at hl
    rw [List.foldl_cons, ih _ (by omega), ha, List.map_cons, List.sum_cons, Int.add_assoc]

/-- A weight of what an inventory shows, in the order of the slots. -/
theorem weigh_eq_sum_slots {α : Type*} (inv : Inventory α) (w : α → ℤ) :
    inv.weigh w = (inv.slots.map fun j => one w (inv.items j).get?).sum := by
  have hfilter (l : List (Fin maxItemCount)) :
      ((l.filter fun j => j.val < inv.slotCount).map fun j => one w (inv.items j).get?).sum =
        (l.map fun j => if j.val < inv.slotCount then one w (inv.items j).get? else 0).sum := by
    induction l with
    | nil => rfl
    | cons j l ih =>
      rw [List.filter_cons]
      split <;> simp_all
  rw [weigh_eq_sum, Fin.sum_univ_def, Inventory.slots, hfilter]

/-- A loop over the slots of an inventory sums up a weight. -/
theorem foldl_slots_toInt {α : Type*} {inv : Inventory α} {w : α → ℤ} {step : Int32 → Fin maxItemCount → Int32}
    (hstep : ∀ a j, a.toInt.natAbs ≤ 2147450000 → (step a j).toInt = a.toInt + one w (inv.items j).get?)
    (hw : ∀ j, (one w (inv.items j).get?).natAbs ≤ 32768) :
    (inv.slots.foldl step 0).toInt = inv.weigh w := by
  have hlen : inv.slots.length ≤ 252 :=
    (List.length_filter_le ..).trans (List.length_finRange ..).le
  rw [foldl_toInt hstep hw 0 (by rw [zero32]; omega), zero32, Int.zero_add, weigh_eq_sum_slots]

theorem countEquips_toInt (inv : Inventory Equipment) :
    (countEquips inv id).toInt = inv.weigh (equipCount id) := by
  refine foldl_slots_toInt (fun a j ha => ?_) fun j => ?_
  · rw [one_equipCount]
    split
    · exact add32 (by change -2147483648 ≤ a.toInt + 1; omega) (by change a.toInt + 1 ≤ _; omega)
    · exact (Int.add_zero _).symm
  · rw [one_equipCount]
    split <;> decide

theorem countStacks_toInt (inv : Inventory InventoryItem) :
    (countStacks inv id).toInt = inv.weigh (stackCount id) := by
  refine foldl_slots_toInt (fun a j ha => ?_) fun j => ?_
  · have hq := bounds16 (inv.items j).val.quantity
    rw [one_stackCount]
    split
    · rw [add32] <;> rw [Int16.toInt_toInt32] <;> omega
    · exact (Int.add_zero _).symm
  · have hq := bounds16 (inv.items j).val.quantity
    rw [one_stackCount]
    split <;> omega

/-- The loop finds nothing if nothing is shown. -/
theorem hasNone_iff {α : Type*} {inv : Inventory α} {itemId : α → UInt32} :
    hasNone inv itemId id = true ↔ ∀ i a, inv.view i = some a → itemId a ≠ id := by
  rw [hasNone, List.all_eq_true]
  constructor
  · intro h i a hview hid
    obtain ⟨hlt, he, rfl⟩ := Inventory.view_eq_some.1 hview
    have := h i (Inventory.mem_slots.2 hlt)
    simp [he, hid] at this
  · intro h j hj
    cases he : (inv.items j).isEmpty with
    | true => rfl
    | false =>
      have hne := h j _ (Inventory.view_eq_some.2 ⟨Inventory.mem_slots.1 hj, he, rfl⟩)
      simpa using hne

theorem checkItem_iff {count : Int32} : checkItem chr id count = true ↔
    if count = 0 then CarriesNone chr id else count.toInt ≤ carried chr id := by
  rw [checkItem, CarriesNone, carried]
  cases itemGetInventory id with
  | none =>
    dsimp only
    by_cases hcount : count = 0
    · rw [if_neg (not_not.2 hcount), if_pos hcount]
      exact hasNone_iff
    · rw [if_pos hcount, if_neg hcount, decide_eq_true_eq, Int32.le_iff_toInt_le, countEquips_toInt]
  | some k =>
    dsimp only
    by_cases hcount : count = 0
    · rw [if_neg (not_not.2 hcount), if_pos hcount]
      exact hasNone_iff
    · rw [if_pos hcount, if_neg hcount, decide_eq_true_eq, Int32.le_iff_toInt_le, countStacks_toInt]

/-! ## One requirement -/

/-- An `int32_t` is compared as a number that is not negative. -/
theorem asSize_le_iff {n : Int32} {size : ℕ} :
    asSize n ≤ size ↔ n.toInt ≤ size ∧ (0 ≤ n.toInt ∨ 2 ^ 64 + n.toInt ≤ size) := by
  have hb := bounds32 n
  rw [asSize]
  omega

theorem plainlyMet_iff {r : QuestRequirement} (h : ∀ mobs, r ≠ .mob mobs) :
    PlainlyMet env chr qid npc r ↔ Satisfies env chr qid npc r ∧ r.Plain env chr :=
  ⟨fun hr => hr h, fun hr _ => hr⟩

/-- What a round of the loop finds. -/
theorem checkQuestRequirement_ok {r : QuestRequirement}
    (hreads : ∀ number, r = .info number [] → hashSetGet env.questInfos chr.questInfos number = none) :
    ∃ met, checkQuestRequirement env chr npc r = .ok met ∧ (met = true ↔ PlainlyMet env chr qid npc r) := by
  cases r with
  | npc id => exact ⟨_, rfl, by simp [PlainlyMet, Satisfies, QuestRequirement.Plain, eq_comm (a := id)]⟩
  | quest id state => cases state <;> exact ⟨_, rfl, by simp [PlainlyMet, Satisfies, QuestRequirement.Plain,
  Option.isSome_iff_ne_none]⟩
  | job jobs => exact ⟨_, rfl, by simp [PlainlyMet, Satisfies, QuestRequirement.Plain]⟩
  | minLevel level => exact ⟨_, rfl, by simp [PlainlyMet, Satisfies, QuestRequirement.Plain]⟩
  | maxLevel level => exact ⟨_, rfl, by simp [PlainlyMet, Satisfies, QuestRequirement.Plain]⟩
  | completedQuest amount =>
    refine ⟨_, rfl, ?_⟩
    rw [plainlyMet_iff (fun _ h => by cases h), decide_eq_true_eq]
    exact asSize_le_iff
  | meso amount => exact ⟨_, rfl, by simp [PlainlyMet, Satisfies, QuestRequirement.Plain, Int32.le_iff_toInt_le]⟩
  | mob mobs => exact ⟨_, rfl, by simp [PlainlyMet]⟩
  | item id count =>
    refine ⟨_, rfl, ?_⟩
    rw [checkItem_iff]
    simp [PlainlyMet, Satisfies, QuestRequirement.Plain]
  | info number infos =>
    rw [checkQuestRequirement]
    cases hget : hashSetGet env.questInfos chr.questInfos number with
    | none => exact ⟨_, rfl, by simp [PlainlyMet, Satisfies, hget]⟩
    | some info =>
      cases infos with
      | nil => cases hget.symm.trans (hreads number rfl)
      | cons value infos =>
        refine ⟨_, rfl, ?_⟩
        -- Of the values the first one is looked at, and the others are not.
        rw [plainlyMet_iff (fun _ h => by cases h), beq_iff_eq]
        constructor
        · rintro rfl
          refine ⟨⟨info, hget, List.mem_cons_self⟩, fun info' hget' _ => ?_⟩
          cases hget.symm.trans hget'
          rfl
        · rintro ⟨⟨info', hget', hmem⟩, hplain⟩
          cases hget.symm.trans hget'
          exact (Option.some.inj (hplain info hget hmem)).symm
  | unimplemented => exact ⟨_, rfl, by simp [PlainlyMet, Satisfies, QuestRequirement.Plain]⟩

/-- Where the first value of none is looked at, the call does not return; and the requirement is not met. -/
theorem checkQuestRequirement_fault (qid : UInt16) {number : UInt16}
    (hget : hashSetGet env.questInfos chr.questInfos number ≠ none) :
    checkQuestRequirement env chr npc (.info number []) = .error .outOfBounds ∧
      ¬PlainlyMet env chr qid npc (.info number []) := by
  obtain ⟨info, hinfo⟩ := Option.ne_none_iff_exists'.1 hget
  rw [checkQuestRequirement, hinfo]
  exact ⟨rfl, by simp [PlainlyMet, Satisfies]⟩

/-! ## The list -/

/-- Where the function returns, and what. -/
theorem checkQuestRequirements_spec (env : Env) (chr : Character) (qid : UInt16) (npc : UInt32)
    (reqs : List QuestRequirement) :
    (∀ met, checkQuestRequirements env chr npc reqs = .ok met →
      (met = true ↔ ∀ r ∈ reqs, PlainlyMet env chr qid npc r)) ∧
    ((∃ met, checkQuestRequirements env chr npc reqs = .ok met) ↔
      ∀ l number l', reqs = l ++ .info number [] :: l' →
        hashSetGet env.questInfos chr.questInfos number ≠ none → ∃ r ∈ l, ¬PlainlyMet env chr qid npc r) := by
  induction reqs with
  | nil =>
    refine ⟨fun met h => ?_, iff_of_true ⟨true, rfl⟩ fun l number l' h => ?_⟩
    · cases h
      simp
    · simp at h
  | cons r reqs ih =>
    obtain ⟨ihmet, ihret⟩ := ih
    by_cases hfault : ∃ number, r = .info number [] ∧ hashSetGet env.questInfos chr.questInfos number ≠ none
    · obtain ⟨number, rfl, hget⟩ := hfault
      have herror : checkQuestRequirements env chr npc (.info number [] :: reqs) = .error .outOfBounds := by
        rw [checkQuestRequirements, (checkQuestRequirement_fault qid hget).1]
        rfl
      refine ⟨fun met h => (nomatch herror.symm.trans h), iff_of_false ?_ fun h => ?_⟩
      · rintro ⟨met, h⟩
        cases herror.symm.trans h
      · obtain ⟨r, hr, -⟩ := h [] number reqs rfl hget
        cases hr
    · obtain ⟨met, hone, hmet⟩ : ∃ met, checkQuestRequirement env chr npc r = .ok met ∧
          (met = true ↔ PlainlyMet env chr qid npc r) := checkQuestRequirement_ok fun number hr => by
        by_contra hget
        exact hfault ⟨number, hr, hget⟩
      rw [checkQuestRequirements, hone, Exec.ok_bind]
      -- A list that begins with the requirement is split after it.
      have hsplit : (∀ l number l', r :: reqs = l ++ .info number [] :: l' →
          hashSetGet env.questInfos chr.questInfos number ≠ none → ∃ r ∈ l, ¬PlainlyMet env chr qid npc r) ↔
          ∀ l number l', reqs = l ++ .info number [] :: l' →
            hashSetGet env.questInfos chr.questInfos number ≠ none →
              ¬PlainlyMet env chr qid npc r ∨ ∃ r ∈ l, ¬PlainlyMet env chr qid npc r := by
        constructor
        · rintro h l number l' rfl hget
          exact List.exists_mem_cons_iff .. |>.1 (h (r :: l) number l' rfl hget)
        · intro h l number l' hl hget
          cases l with
          | nil => exact absurd ⟨number, (List.cons.inj hl).1, hget⟩ hfault
          | cons r' l =>
            injection hl with hr hl
            subst hr
            exact List.exists_mem_cons_iff .. |>.2 (h l number l' hl hget)
      rw [hsplit, List.forall_mem_cons]
      cases met with
      | false =>
        have hnot : ¬PlainlyMet env chr qid npc r := fun h => by simpa using hmet.2 h
        refine ⟨fun met h => ?_, iff_of_true ⟨false, rfl⟩ fun l number l' _ _ => .inl hnot⟩
        cases h
        exact iff_of_false (by decide) fun h => hnot h.1
      | true =>
        have hyes := hmet.1 rfl
        refine ⟨fun met h => ?_, ?_⟩
        · rw [ihmet met h]
          exact (and_iff_right hyes).symm
        · simp only [hyes, not_true_eq_false, false_or]
          exact ihret

/-- `check_quest_requirements` is right exactly where no monster is missing, and all is plain; and where it
    is right, a quest without a script is not completed before its monsters have been killed. -/
theorem checksRight_iff (reqs : List QuestRequirement) :
    (ChecksRight env chr qid npc reqs ↔ Decided env chr qid npc reqs) ∧
      (ChecksRight env chr qid npc reqs → ∀ info running, env.questInfo qid = some info →
        info.endRequirements = reqs → clientEndQuest env chr running qid npc false = .ok .ends →
          ∀ mobs, .mob mobs ∈ reqs → Killed env chr qid mobs) := by
  obtain ⟨hmet, hret⟩ := checkQuestRequirements_spec env chr qid npc reqs
  refine ⟨⟨fun h => ?_, fun h => ?_⟩, ?_⟩
  · obtain ⟨met, hrun, hright⟩ := Exec.returns_iff.1 h
    rw [hmet met hrun] at hright
    refine ⟨hret.1 ⟨met, hrun⟩, fun hall mobs hmobs => hright.1 hall _ hmobs, fun hall r hr => ?_⟩
    by_cases hmob : ∃ mobs, r = .mob mobs
    · obtain ⟨mobs, rfl⟩ := hmob
      trivial
    · exact (hright.2 hall r hr fun mobs h => hmob ⟨mobs, h⟩).2
  · obtain ⟨met, hrun⟩ := hret.2 h.reads
    refine Exec.returns_iff.2 ⟨met, hrun, (hmet met hrun).trans ⟨fun hall r hr => ?_, fun hall r hr hmob => ?_⟩⟩
    · by_cases hmob : ∃ mobs, r = .mob mobs
      · obtain ⟨mobs, rfl⟩ := hmob
        exact h.kills hall mobs hr
      · exact (hall r hr fun mobs h => hmob ⟨mobs, h⟩).1
    · exact ⟨hall r hr, h.plain hall r hr⟩
  · rintro h info running hinfo rfl hends mobs hmobs
    obtain ⟨met, hrun, hright⟩ := Exec.returns_iff.1 h
    -- The requirements have been checked.
    have hchecked : met = true := by
      rw [clientEndQuest, if_neg (by simp), hinfo] at hends
      dsimp only at hends
      split at hends
      · cases hends
      · split at hends
        · cases hends
        · split at hends
          · cases hends
          · rw [hrun, Exec.ok_bind] at hends
            cases met with
            | true => rfl
            | false => cases hends
    exact hright.1 hchecked _ hmobs

/-! ### A quest for which ten monsters are to be killed -/

/-- Ten snails are to be killed. -/
def cullQuest : QuestInfo where
  id := 1001
  startRequirements := []
  endRequirements := [.minLevel 1, .mob [⟨100100, 10⟩]]
  startScript := false
  endScript := false
  startActs := []
  endActs := []

/-- There is nothing but the quest. -/
def cullEnv : Env := .ofLists [] [] [] [cullQuest]

/-- A player who has killed so many. -/
def cullPlayer (killed : Int32) : Character := { (default : Character) with
  quests := ⟨1, Nat.one_pos, 1, fun _ => .occupied ⟨1001, 1, #v[killed, 0, 0, 0, 0]⟩, false⟩ }

/-- Who has killed all of them may complete the quest, and can. -/
theorem checksRight_killed : ChecksRight cullEnv (cullPlayer 10) 1001 0 cullQuest.endRequirements := by
  have hkilled : Killed cullEnv (cullPlayer 10) 1001 [⟨100100, 10⟩] := by
    refine ⟨⟨1001, 1, #v[10, 0, 0, 0, 0]⟩, by decide +kernel, fun i mob hmob => ?_⟩
    obtain ⟨rfl, rfl⟩ : i = 0 ∧ mob = ⟨100100, 10⟩ := by
      cases i with
      | zero => exact ⟨rfl, (Option.some.inj hmob).symm⟩
      | succ i => cases hmob
    exact ⟨by decide, by decide⟩
  refine (checksRight_iff cullQuest.endRequirements).1.2 ⟨fun l number l' hl _ => ?_, fun _ mobs hmobs => ?_,
    fun _ r hr => ?_⟩
  · have hmem : .info number [] ∈ cullQuest.endRequirements := hl ▸ List.mem_append_right _ List.mem_cons_self
    simp [cullQuest] at hmem
  · obtain rfl : mobs = [⟨100100, 10⟩] := by simpa [cullQuest] using hmobs
    exact hkilled
  · simp only [cullQuest, List.mem_cons, List.not_mem_nil, or_false] at hr
    obtain rfl | rfl := hr <;> trivial

/-- Who has killed none can, too. -/
theorem checksRight_fails : ¬ChecksRight cullEnv (cullPlayer 0) 1001 0 cullQuest.endRequirements ∧
    clientEndQuest cullEnv (cullPlayer 0) false 1001 0 false = .ok .ends := by
  have hrun : checkQuestRequirements cullEnv (cullPlayer 0) 0 cullQuest.endRequirements = .ok true := rfl
  have hquest : hashSetGet cullEnv.quests (cullPlayer 0).quests 1001 =
      some ⟨1001, 1, #v[0, 0, 0, 0, 0]⟩ := by decide +kernel
  refine ⟨fun h => ?_, by decide +kernel⟩
  rw [ChecksRight, hrun] at h
  obtain ⟨quest, hget, hall⟩ := h.1 rfl (.mob [⟨100100, 10⟩]) (by simp [cullQuest])
  cases hquest.symm.trans hget
  obtain ⟨_, hle⟩ := hall 0 ⟨100100, 10⟩ rfl
  exact (show ¬(10 : Int16).toInt ≤ (0 : Int32).toInt by decide) hle

end Syrup
