import Syrup.Client.GainItems.Room
import Syrup.Client.Shop

/-!
# `client_regain_quest_item`

A player who has lost an item that a quest has handed out at its start may ask for it again. The
function looks for the first start act with items, and in its list for the item. The loop over the list
ends in its first round: if it is the first item that has been asked for, it is given, and any other one
is taken for an attempt to cheat.
-/

namespace Syrup

open Sweep Slots Machine

/-! ## The function -/

/-- The loop of `client_has_item` over equipment, from some slots on. -/
def hasEquip (id : UInt32) (items : Fin maxItemCount → Cell Equipment) :
    List (Fin maxItemCount) → Int16 → Bool
  | [], _ => false
  | j :: l, qty =>
    if !(items j).isEmpty && (items j).val.item.itemId == id then
      qty - 1 == 0 || hasEquip id items l (qty - 1)
    else hasEquip id items l qty

/-- The loop of `client_has_item` over stacks, from some slots on. -/
def hasStack (id : UInt32) (items : Fin maxItemCount → Cell InventoryItem) :
    List (Fin maxItemCount) → Int16 → Bool
  | [], _ => false
  | j :: l, qty =>
    if !(items j).isEmpty && (items j).val.item.itemId == id then
      let qty := qty - (items j).val.quantity
      qty ≤ 0 || hasStack id items l qty
    else hasStack id items l qty

/-- `client_has_item`. -/
def clientHasItem (chr : Character) (id : UInt32) (qty : Int16) : Exec Bool :=
  if isEquipId id then
    .ok (hasEquip id chr.equipmentInventory.items chr.equipmentInventory.slots qty)
  else do
    let k ← inventoryOfId id
    return hasStack id (chr.inventory k).items (chr.inventory k).slots qty

/-- The loop of `client_regain_quest_item` over the items of an act. Whatever the first item is, there
    is no second round. -/
def regainItem (env : Env) (alloc : Bool) (c : Client) (itemId : UInt32) :
    List QuestItemAction → Exec (ClientResult × Client)
  | [] =>
    .ok (.ban "Client tried to regain an item from a quest that doesn't give any quest items", c)
  | item :: _ =>
    if item.id = itemId then do
      match ← clientGainItems env alloc c [(itemId, 1)] true with
      | (none, c) => return (.of .error, c)
      | (some true, c) => return (.of .success, c)
      | (some false, c) =>
        return (.of .success,
          c.send (.popupMessage "Please check if you have enough space in your inventory."))
    else
      .ok (.ban "Client tried to regain an item from a quest that doesn't hand it out", c)

/-- The loop of `client_regain_quest_item` over the start acts, which ends at the first one with
    items. -/
def regainFrom (env : Env) (alloc : Bool) (c : Client) (itemId : UInt32) :
    List QuestAct → Exec (ClientResult × Client)
  | [] =>
    .ok (.ban "Client tried to regain an item from a quest that doesn't have any item acts", c)
  | .item items :: _ => regainItem env alloc c itemId items
  | _ :: acts => regainFrom env alloc c itemId acts

/-- `client_regain_quest_item`. -/
def clientRegainQuestItem (env : Env) (alloc : Bool) (c : Client) (qid : UInt16) (itemId : UInt32) :
    Exec (ClientResult × Client) :=
  match env.questInfo qid with
  | none => .ok (.of .ban, c)
  | some info =>
    if hashSetGet env.quests c.character.quests qid = none then .ok (.of .success, c)
    else do
      let has ← clientHasItem c.character itemId 1
      if has then return (.of .success, c) else regainFrom env alloc c itemId info.startActs

/-! ## What is asked of it -/

/-- The items of an act. -/
def QuestAct.items? : QuestAct → Option (List QuestItemAction)
  | .item items => some items
  | _ => none

/-- The items of the first start act that has some. -/
def QuestInfo.handedOut (info : QuestInfo) : List QuestItemAction :=
  (info.startActs.findSome? QuestAct.items?).getD []

/-- One of an item is given. -/
def GainsOne (chr chr' : Character) (id : UInt32) : Prop :=
  ∀ x, held chr' x = held chr x + if x = id then 1 else 0

/-- An item of the first start act with items that is not held is given, or the player is told that
    there is no room for it; and nobody is banned. An item that is in no start act is refused with a
    ban, and nothing else happens. -/
structure Regains (env : Env) (alloc : Bool) (c : Client) (qid : UInt16) (info : QuestInfo)
    (id : UInt32) : Prop where
  gives : (∃ item ∈ info.handedOut, item.id = id) → held c.character id = 0 →
    (clientRegainQuestItem env alloc c qid id).Returns fun (result, c') =>
      result.type ≠ .ban ∧ (GainsOne c.character c'.character id ∨
        c' = c.send (.popupMessage "Please check if you have enough space in your inventory."))
  refuses : (∀ items, .item items ∈ info.startActs → ∀ item ∈ items, item.id ≠ id) →
    (clientRegainQuestItem env alloc c qid id).Returns fun (result, c') => result.type = .ban ∧ c' = c

/-- There is a record of an item, or none is looked up: no slot is empty, and none has a stack that
    might be filled up. -/
def Recorded (env : Env) (chr : Character) (id : UInt32) : Prop :=
  if isEquipId id then
    env.equipInfo id ≠ none ∨ ∀ j ∈ chr.equipmentInventory.slots, (chr.equipmentInventory.items j).isEmpty = false
  else ∃ k, inventoryOfId id = .ok k ∧
    (env.itemInfo id ≠ none ∨ ∀ j ∈ (chr.inventory k).slots, ((chr.inventory k).items j).isEmpty = false ∧
      (itemIsRechargeable id = true ∨ ((chr.inventory k).items j).val.item.itemId ≠ id))

/-- There is an inventory for an item. -/
def HasPlace (id : UInt32) : Prop := isEquipId id = true ∨ ∃ k, inventoryOfId id = .ok k

/-- Where `client_regain_quest_item` does what is asked of it: the item is the first of the list, it
    can be looked up, and there is memory; and of an item that is in no list, none is held, and there
    is an inventory for it. -/
structure Regainable (env : Env) (alloc : Bool) (chr : Character) (info : QuestInfo) (id : UInt32) :
    Prop where
  first : (∃ item ∈ info.handedOut, item.id = id) → held chr id = 0 →
    info.handedOut.head?.map QuestItemAction.id = some id ∧ alloc = true ∧ Recorded env chr id
  held : (∀ items, .item items ∈ info.startActs → ∀ item ∈ items, item.id ≠ id) →
    held chr id = 0 ∧ HasPlace id

variable {env : Env} {alloc : Bool} {c c' : Client} {chr : Character} {qid : UInt16} {info : QuestInfo}
  {id : UInt32} {k : Fin inventoryCount}

/-- What is recorded, there is an inventory for. -/
theorem Recorded.hasPlace (h : Recorded env chr id) : HasPlace id := by
  rw [Recorded] at h
  split at h
  · exact .inl ‹_›
  · exact .inr ⟨h.choose, h.choose_spec.1⟩

/-! ## Whether an item is held -/

theorem hasEquip_one {items : Fin maxItemCount → Cell Equipment} {l : List (Fin maxItemCount)} :
    hasEquip id items l 1 = true ↔
      ∃ j ∈ l, (!(items j).isEmpty && (items j).val.item.itemId == id) = true := by
  induction l with
  | nil => simp [hasEquip]
  | cons j l ih =>
    rw [hasEquip]
    split
    · rename_i hj
      exact iff_of_true (by simp) ⟨j, List.mem_cons_self, hj⟩
    · rename_i hj
      rw [ih, List.exists_mem_cons_iff]
      simp [hj]

theorem hasStack_one {items : Fin maxItemCount → Cell InventoryItem} {l : List (Fin maxItemCount)}
    (hfits : ∀ j ∈ l, CellFits env [id] (items j)) : hasStack id items l 1 = true ↔
      ∃ j ∈ l, 0 < one (stackCount id) (items j).get? := by
  induction l with
  | nil => simp [hasStack]
  | cons j l ih =>
    obtain ⟨hj, hl⟩ := List.forall_mem_cons.1 hfits
    rw [hasStack, List.exists_mem_cons_iff]
    split
    · rename_i hm
      obtain ⟨he, hi⟩ : (items j).isEmpty = false ∧ (items j).val.item.itemId = id := by simpa using hm
      have hget := Cell.get?_of_not_isEmpty he
      have hq := (hj _ hget (by simp [hi])).1
      have hb := bounds16 (items j).val.quantity
      have hsub := sub16 (a := 1) (b := (items j).val.quantity) (by rw [one16]; omega) (by rw [one16]; omega)
      rw [hget, one_some, stackCount, if_pos hi]
      by_cases hpos : 0 < (items j).val.quantity.toInt
      · refine iff_of_true ?_ (.inl hpos)
        simp only [Bool.or_eq_true, decide_eq_true_eq, le16, hsub, one16, zero16]
        exact .inl (by omega)
      · -- An empty stack does not count.
        have hzero : (items j).val.quantity = 0 := eq16.2 (by rw [zero16]; omega)
        rw [hzero, Int16.sub_zero]
        dsimp only
        rw [Bool.or_eq_true, ih hl]
        simp
    · rename_i hm
      rw [ih hl, one_stackCount_of_not hm]
      simp

/-- There is none of what nothing but nothing is shown of. -/
theorem weigh_eq_zero_iff {α : Type*} (inv : Inventory α) (w : α → ℤ)
    (hw : ∀ j ∈ inv.slots, 0 ≤ one w (inv.items j).get?) :
    inv.weigh w = 0 ↔ ¬∃ j ∈ inv.slots, 0 < one w (inv.items j).get? := by
  have hterm : ∀ j ∈ Finset.univ, 0 ≤ if j.val < inv.slotCount then one w (inv.items j).get? else 0 := by
    intro j _
    split
    · exact hw j (Inventory.mem_slots.2 ‹_›)
    · exact le_rfl
  rw [weigh_eq_sum, Finset.sum_eq_zero_iff_of_nonneg hterm]
  constructor
  · rintro h ⟨j, hj, hpos⟩
    have := h j (Finset.mem_univ j)
    rw [if_pos (Inventory.mem_slots.1 hj)] at this
    omega
  · intro h j _
    split
    · have hj := Inventory.mem_slots.2 ‹_›
      exact le_antisymm (not_lt.1 fun hpos => h ⟨j, hj, hpos⟩) (hw j hj)
    · rfl

/-- What `client_has_item` returns. -/
theorem clientHasItem_one (hr : Requestable env chr [(id, 1)]) (hplace : HasPlace id) :
    clientHasItem chr id 1 = .ok (decide (held chr id ≠ 0)) := by
  rw [clientHasItem]
  split
  · rename_i he
    have hweigh := weigh_eq_zero_iff chr.equipmentInventory (equipCount id) fun j _ => by
      rw [one_equipCount]
      split <;> decide
    rw [held, heldIn_of_equip he]
    refine congrArg Except.ok (Bool.eq_iff_iff.2 ?_)
    rw [hasEquip_one, decide_eq_true_eq, ne_eq, hweigh, not_not]
    refine exists_congr fun j => and_congr_right fun _ => ?_
    rw [one_equipCount]
    split <;> simp_all
  · rename_i he
    rw [Bool.not_eq_true] at he
    obtain ⟨k, hk⟩ := hplace.resolve_left (by simp [he])
    have hfits : ∀ j ∈ (chr.inventory k).slots, CellFits env [id] ((chr.inventory k).items j) :=
      fun j hj it hit hmem =>
        hr.fits k j it ((Inventory.view_of_lt (Inventory.mem_slots.1 hj)).trans hit) hmem
    have hweigh := weigh_eq_zero_iff (chr.inventory k) (stackCount id) fun j hj => by
      cases hget : ((chr.inventory k).items j).get? with
      | none => exact le_rfl
      | some it =>
        rw [one_some, stackCount]
        split
        · rename_i hi
          exact (hfits j hj it hget (by simp [hi])).1
        · exact le_rfl
    rw [held, heldIn_of_stack he hk, hk, Exec.ok_bind]
    refine congrArg Except.ok (Bool.eq_iff_iff.2 ?_)
    rw [hasStack_one hfits, decide_eq_true_eq, ne_eq, hweigh, not_not]

/-- Of an item that there is no inventory for, the array of inventories is left. -/
theorem clientHasItem_of_not (hplace : ¬HasPlace id) {b : Bool} : clientHasItem chr id 1 ≠ .ok b := by
  rw [HasPlace, not_or] at hplace
  rw [clientHasItem, if_neg hplace.1]
  intro h
  obtain ⟨k, hk, -⟩ := Exec.bind_eq_ok.1 h
  exact hplace.2 ⟨k, hk⟩

/-! ## Giving one of an item -/

theorem giveEquipBody_idle {j : Fin maxItemCount} {c : Cell Equipment} {s : Int16 × List InventoryModify}
    (he : c.isEmpty = false) : giveEquipBody env id j c s = .ok ⟨c, s, false⟩ := by
  rw [giveEquipBody, he]
  rfl

theorem giveEquipBody_fault {j : Fin maxItemCount} {c : Cell Equipment} {s : Int16 × List InventoryModify}
    (hinfo : env.equipInfo id = none) (he : c.isEmpty = true) :
    giveEquipBody env id j c s = .error .nullPointer := by
  rw [giveEquipBody, if_pos he, hinfo]
  rfl

theorem fillBody_idle {j : Fin maxItemCount} {c : Cell InventoryItem} {s : Int16 × List InventoryModify}
    (hs : s.1 ≠ 0) (hm : ¬(!c.isEmpty && c.val.item.itemId == id) = true) :
    fillBody env id k j c s = .ok ⟨c, s, false⟩ := by
  rw [fillBody, if_neg hm, beq_eq_false_iff_ne.2 hs]
  rfl

theorem fillBody_fault {j : Fin maxItemCount} {c : Cell InventoryItem} {s : Int16 × List InventoryModify}
    (hinfo : env.itemInfo id = none) (hm : (!c.isEmpty && c.val.item.itemId == id) = true) :
    fillBody env id k j c s = .error .nullPointer := by
  rw [fillBody, if_pos hm, hinfo]
  rfl

theorem freshBody_idle {wid : UInt32} {j : Fin maxItemCount} {c : Cell InventoryItem} {s : Fresh}
    (hs : s.amount ≠ 0) (he : c.isEmpty = false) : freshBody env id k wid j c s = .ok ⟨c, s, false⟩ := by
  rw [freshBody, he, beq_eq_false_iff_ne.2 hs]
  rfl

theorem freshBody_fault {wid : UInt32} {j : Fin maxItemCount} {c : Cell InventoryItem} {s : Fresh}
    (hinfo : env.itemInfo id = none) (he : c.isEmpty = true) :
    freshBody env id k wid j c s = .error .nullPointer := by
  rw [freshBody, if_pos he, hinfo]
  rfl

/-- Giving one of an item with a record returns. -/
theorem fillStacks_total (hinfo : env.itemInfo id ≠ none) (inv : Inventory InventoryItem)
    (s : Int16 × List InventoryModify) : ∃ x, fillStacks env id k inv s = .ok x := by
  obtain ⟨info, hinfo⟩ := Option.ne_none_iff_exists'.1 hinfo
  rw [fillStacks]
  split
  · exact ⟨_, rfl⟩
  · refine sweep_total (fun i _ c s => ?_) _ _
    rw [fillBody, hinfo]
    split
    · exact ⟨_, rfl⟩
    · exact ⟨_, rfl⟩

theorem sweep_freshBody_total {wid : UInt32} (hinfo : env.itemInfo id ≠ none) (l : List (Fin maxItemCount))
    (items : Fin maxItemCount → Cell InventoryItem) (s : Fresh) :
    ∃ x, sweep (freshBody env id k wid) l items s = .ok x := by
  obtain ⟨info, hinfo⟩ := Option.ne_none_iff_exists'.1 hinfo
  refine sweep_total (fun i _ c s => ?_) _ _
  rw [freshBody, hinfo]
  split
  · exact ⟨_, rfl⟩
  · exact ⟨_, rfl⟩

theorem sweep_giveEquipBody_total (hinfo : env.equipInfo id ≠ none) (l : List (Fin maxItemCount))
    (items : Fin maxItemCount → Cell Equipment) (s : Int16 × List InventoryModify) :
    ∃ x, sweep (giveEquipBody env id) l items s = .ok x := by
  obtain ⟨info, hinfo⟩ := Option.ne_none_iff_exists'.1 hinfo
  refine sweep_total (fun i _ c s => ?_) _ _
  rw [giveEquipBody, hinfo]
  split
  · exact ⟨_, rfl⟩
  · exact ⟨_, rfl⟩

/-- Without a record, filling up stacks does nothing, unless there is a stack to be filled up. -/
theorem fillStacks_idle {inv : Inventory InventoryItem} {s : Int16 × List InventoryModify} (hs : s.1 ≠ 0)
    (h : ∀ j ∈ inv.slots, itemIsRechargeable id = true ∨
      ¬(!(inv.items j).isEmpty && (inv.items j).val.item.itemId == id) = true) :
    fillStacks env id k inv s = .ok (inv.items, s) := by
  rw [fillStacks]
  split
  · rfl
  · rename_i hr
    exact sweep_idle fun j hj => fillBody_idle hs ((h j hj).resolve_left hr)

theorem fillStacks_fault {inv : Inventory InventoryItem} {s : Int16 × List InventoryModify} (hs : s.1 ≠ 0)
    (hinfo : env.itemInfo id = none) (hr : itemIsRechargeable id ≠ true)
    (h : ∃ j ∈ inv.slots, (!(inv.items j).isEmpty && (inv.items j).val.item.itemId == id) = true) :
    ∃ e, fillStacks env id k inv s = .error e := by
  rw [fillStacks, if_neg hr]
  refine sweep_fault (fun j _ => ?_) ?_
  · by_cases hm : (!(inv.items j).isEmpty && (inv.items j).val.item.itemId == id) = true
    · exact .inr ⟨_, fillBody_fault hinfo hm⟩
    · exact .inl (fillBody_idle hs hm)
  · obtain ⟨j, hj, hm⟩ := h
    exact ⟨j, hj, _, fillBody_fault hinfo hm⟩

/-- Giving equipment returns if there is a record, or no empty slot. -/
theorem sweep_giveEquipBody_iff {l : List (Fin maxItemCount)} {items : Fin maxItemCount → Cell Equipment}
    {s : Int16 × List InventoryModify} : (∃ x, sweep (giveEquipBody env id) l items s = .ok x) ↔
      env.equipInfo id ≠ none ∨ ∀ j ∈ l, (items j).isEmpty = false := by
  by_cases hinfo : env.equipInfo id = none
  · have hsteps : ∀ j ∈ l, giveEquipBody env id j (items j) s = .ok ⟨items j, s, false⟩ ∨
        ∃ e, giveEquipBody env id j (items j) s = .error e := fun j _ => by
      cases hj : (items j).isEmpty with
      | false => exact .inl (giveEquipBody_idle hj)
      | true => exact .inr ⟨_, giveEquipBody_fault hinfo hj⟩
    rw [or_iff_right (not_not.2 hinfo)]
    refine ⟨fun ⟨x, hx⟩ => ?_, fun hall => ⟨_, sweep_idle fun j hj => giveEquipBody_idle (hall j hj)⟩⟩
    by_contra hnot
    push Not at hnot
    obtain ⟨j, hj, he⟩ := hnot
    obtain ⟨e, herror⟩ := sweep_fault hsteps ⟨j, hj, _, giveEquipBody_fault hinfo (by simpa using he)⟩
    cases hx.symm.trans herror
  · exact iff_of_true (sweep_giveEquipBody_total hinfo l items s) (.inl hinfo)

/-- Filling empty slots returns if there is a record, or no empty slot. -/
theorem sweep_freshBody_iff {wid : UInt32} {l : List (Fin maxItemCount)}
    {items : Fin maxItemCount → Cell InventoryItem} {s : Fresh} (hs : s.amount ≠ 0) :
    (∃ x, sweep (freshBody env id k wid) l items s = .ok x) ↔
      env.itemInfo id ≠ none ∨ ∀ j ∈ l, (items j).isEmpty = false := by
  by_cases hinfo : env.itemInfo id = none
  · have hsteps : ∀ j ∈ l, freshBody env id k wid j (items j) s = .ok ⟨items j, s, false⟩ ∨
        ∃ e, freshBody env id k wid j (items j) s = .error e := fun j _ => by
      cases hj : (items j).isEmpty with
      | false => exact .inl (freshBody_idle hs hj)
      | true => exact .inr ⟨_, freshBody_fault hinfo hj⟩
    rw [or_iff_right (not_not.2 hinfo)]
    refine ⟨fun ⟨x, hx⟩ => ?_, fun hall => ⟨_, sweep_idle fun j hj => freshBody_idle hs (hall j hj)⟩⟩
    by_contra hnot
    push Not at hnot
    obtain ⟨j, hj, he⟩ := hnot
    obtain ⟨e, herror⟩ := sweep_fault hsteps ⟨j, hj, _, freshBody_fault hinfo (by simpa using he)⟩
    cases hx.symm.trans herror
  · exact iff_of_true (sweep_freshBody_total hinfo l items s) (.inl hinfo)

/-- Giving one of an item returns exactly if it is recorded, or no record is needed. -/
theorem giveOne_returns_iff (wid : UInt32) :
    (∃ o, giveOne env wid id 1 (.ofCharacter chr) = .ok o) ↔ Recorded env chr id := by
  have hone : ((1 : Int16), ([] : List InventoryModify)).1 ≠ 0 := by decide
  rw [giveOne, if_pos (by decide), Recorded]
  split
  · rw [← sweep_giveEquipBody_iff (s := (1, []))]
    constructor
    · rintro ⟨o, ho⟩
      obtain ⟨x, hx, -⟩ := Exec.bind_eq_ok.1 ho
      exact ⟨x, hx⟩
    · rintro ⟨⟨items, amount, mods⟩, hx⟩
      by_cases hleft : 0 < amount
      · exact ⟨_, Exec.bind_eq_ok.2 ⟨_, hx, if_pos hleft⟩⟩
      · exact ⟨_, Exec.bind_eq_ok.2 ⟨_, hx, if_neg hleft⟩⟩
  · constructor
    · rintro ⟨o, ho⟩
      obtain ⟨k, hk, ho⟩ := Exec.bind_eq_ok.1 ho
      refine ⟨k, hk, or_iff_not_imp_left.2 fun hinfo => ?_⟩
      rw [not_not] at hinfo
      obtain ⟨x, hfill, ho⟩ := Exec.bind_eq_ok.1 ho
      -- Without a record nothing has been filled up.
      have hnone : ∀ j ∈ (chr.inventory k).slots, itemIsRechargeable id = true ∨
          ¬(!((chr.inventory k).items j).isEmpty && ((chr.inventory k).items j).val.item.itemId == id) = true := by
        by_contra hnot
        push Not at hnot
        obtain ⟨j, hj, hr, hm⟩ := hnot
        obtain ⟨e, herror⟩ := fillStacks_fault (k := k) hone hinfo hr ⟨j, hj, hm⟩
        cases hfill.symm.trans herror
      cases hfill.symm.trans (fillStacks_idle hone hnone)
      obtain ⟨y, hfresh, -⟩ := Exec.bind_eq_ok.1 ho
      have hempty := (sweep_freshBody_iff (show (1 : Int16) ≠ 0 by decide)).1 ⟨y, hfresh⟩
      intro j hj
      have he : ((chr.inventory k).items j).isEmpty = false := hempty.resolve_left (not_not.2 hinfo) j hj
      refine ⟨he, (hnone j hj).imp_right fun hm hid => hm ?_⟩
      rw [hid, he]
      simp
    · rintro ⟨k, hk, hrecord⟩
      obtain ⟨⟨items, amount, mods⟩, hfill, hempty⟩ :
          ∃ x, fillStacks env id k (chr.inventory k) (1, []) = .ok x ∧ (env.itemInfo id ≠ none ∨
            ∀ j ∈ (chr.inventory k).slots, (x.1 j).isEmpty = false) := by
        rcases hrecord with hinfo | hall
        · obtain ⟨x, hx⟩ := fillStacks_total hinfo (chr.inventory k) (1, [])
          exact ⟨x, hx, .inl hinfo⟩
        · refine ⟨_, fillStacks_idle hone fun j hj => (hall j hj).2.imp_right fun hid => ?_,
            .inr fun j hj => (hall j hj).1⟩
          simp [hid]
      by_cases hzero : amount = 0
      · exact ⟨_, Exec.bind_eq_ok.2 ⟨k, hk, Exec.bind_eq_ok.2 ⟨_, hfill, if_neg (not_not.2 hzero)⟩⟩⟩
      · obtain ⟨⟨items', s⟩, hfresh⟩ := (sweep_freshBody_iff (s := ⟨amount, chr.activeProjectile, mods⟩)
          hzero).2 hempty
        by_cases hleft : 0 < s.amount
        · exact ⟨_, Exec.bind_eq_ok.2 ⟨k, hk, Exec.bind_eq_ok.2 ⟨_, hfill,
            (if_pos hzero).trans (Exec.bind_eq_ok.2 ⟨_, hfresh, if_pos hleft⟩)⟩⟩⟩
        · exact ⟨_, Exec.bind_eq_ok.2 ⟨k, hk, Exec.bind_eq_ok.2 ⟨_, hfill,
            (if_pos hzero).trans (Exec.bind_eq_ok.2 ⟨_, hfresh, if_neg hleft⟩)⟩⟩⟩

/-- What is given is told: as long as there is nothing to tell, the amount is still to be given. -/
theorem giveOne_mods {wid : UInt32} {g g' : Gain} (h : giveOne env wid id 1 g = .ok (some g')) :
    g'.mods ≠ [] := by
  rw [giveOne, if_pos (by decide)] at h
  split at h
  · obtain ⟨⟨items, amount, mods⟩, hs, h⟩ := Exec.bind_eq_ok.1 h
    have hinv : mods = [] → amount = 1 := sweep_inv (P := fun _ s => s.2 = [] → s.1 = 1) hs
      (fun i _ items s out hP hout => by
        rw [giveEquipBody] at hout
        split at hout
        · obtain ⟨_, _, hout⟩ := Exec.bind_eq_ok.1 hout
          cases hout
          simp
        · cases hout
          exact hP) fun _ => rfl
    simp only at h
    split at h
    · cases h
    · rename_i hle
      cases h
      intro hnil
      exact hle (by rw [hinv hnil]; decide)
  · obtain ⟨k, hk, h⟩ := Exec.bind_eq_ok.1 h
    obtain ⟨⟨items, amount, mods⟩, hs, h⟩ := Exec.bind_eq_ok.1 h
    have hfill : mods = [] → amount = 1 := by
      rw [fillStacks] at hs
      split at hs
      · cases hs
        exact fun _ => rfl
      · exact sweep_inv (P := fun _ s => s.2 = [] → s.1 = 1) hs (fun i _ items s out hP hout => by
          rw [fillBody] at hout
          split at hout
          · obtain ⟨_, _, hout⟩ := Exec.bind_eq_ok.1 hout
            cases hout
            simp
          · cases hout
            exact hP) fun _ => rfl
    simp only at h
    split at h
    · obtain ⟨⟨items', s⟩, hs', h⟩ := Exec.bind_eq_ok.1 h
      have hinv : s.mods = [] → s.amount = 1 := sweep_inv (P := fun _ s => s.mods = [] → s.amount = 1) hs'
        (fun i _ items s out hP hout => by
          rw [freshBody] at hout
          split at hout
          · obtain ⟨_, _, hout⟩ := Exec.bind_eq_ok.1 hout
            cases hout
            simp
          · cases hout
            exact hP) hfill
      simp only at h
      split at h
      · cases h
      · rename_i hle
        cases h
        intro hnil
        exact hle (by rw [hinv hnil]; decide)
    · rename_i hzero
      cases h
      intro hnil
      exact hzero (by rw [hfill hnil]; decide)

/-- A call that is to give one of an item returns exactly if a record is there where one is needed; it
    gives one, or tells that there is no room. -/
theorem clientGainItems_one (hr : Requestable env c.character [(id, 1)]) (hrecord : Recorded env c.character id) :
    ∃ success c', clientGainItems env true c [(id, 1)] true = .ok (some success, c') ∧
      (success = true → GainsOne c.character c'.character id) ∧ (success = false → c' = c) := by
  obtain ⟨o, ho⟩ := (giveOne_returns_iff c.character.weaponId).2 hrecord
  have htake : takeAll [(id, 1)] (Gain.ofCharacter c.character) =
      .ok (some ([(id, 1)], Gain.ofCharacter c.character)) := rfl
  rw [clientGainItems, if_pos rfl, htake, Exec.ok_bind]
  dsimp only
  rw [giveAll, ho, Exec.ok_bind]
  cases o with
  | none => exact ⟨false, c, rfl, (by simp), fun _ => rfl⟩
  | some g =>
    have hfits : (Gain.ofCharacter c.character).Fits env [id] := fun k i hi it hit hmem =>
      hr.fits k i it ((Inventory.view_of_lt hi).trans hit) hmem
    have hheld := (giveOne_spec ho (List.mem_singleton_self id) hfits
      (hr.slotMax_nonneg id (by simp))).2
    dsimp only
    rw [giveAll]
    refine ⟨true, _, if_neg (giveOne_mods ho), fun _ x => ?_, (by simp)⟩
    rw [if_pos rfl, character_foldl_send, character_sendMods]
    exact hheld x

/-- A call that is to give one of an item that would be looked up without a record does not return. -/
theorem clientGainItems_of_not (hrecord : ¬Recorded env c.character id) {x : Option Bool × Client} :
    clientGainItems env true c [(id, 1)] true ≠ .ok x := by
  have htake : takeAll [(id, 1)] (Gain.ofCharacter c.character) =
      .ok (some ([(id, 1)], Gain.ofCharacter c.character)) := rfl
  intro h
  rw [clientGainItems, if_pos rfl, htake, Exec.ok_bind] at h
  obtain ⟨o, ho, -⟩ := Exec.bind_eq_ok.1 h
  obtain ⟨o, ho, -⟩ := Exec.bind_eq_ok.1 ho
  exact hrecord ((giveOne_returns_iff _).1 ⟨o, ho⟩)

/-! ## The function -/

/-- The loop over the acts finds the first one with items. -/
theorem regainFrom_eq (acts : List QuestAct) : regainFrom env alloc c id acts =
    match acts.findSome? QuestAct.items? with
    | none => .ok (.ban "Client tried to regain an item from a quest that doesn't have any item acts", c)
    | some items => regainItem env alloc c id items := by
  induction acts with
  | nil => rfl
  | cons act acts ih => cases act <;> first | rfl | exact ih

/-- If the item is not the first of the list, there is a ban. -/
theorem regainFrom_of_not (hfirst : info.handedOut.head?.map QuestItemAction.id ≠ some id) :
    (regainFrom env alloc c id info.startActs).Returns fun (result, c') => result.type = .ban ∧ c' = c := by
  rw [regainFrom_eq]
  rw [QuestInfo.handedOut] at hfirst
  cases hitems : info.startActs.findSome? QuestAct.items? with
  | none => exact ⟨rfl, rfl⟩
  | some items =>
    rw [hitems] at hfirst
    cases items with
    | nil => exact ⟨rfl, rfl⟩
    | cons item items =>
      have hne : item.id ≠ id := fun h => hfirst (congrArg some h)
      simp only [regainItem, if_neg hne]
      exact ⟨rfl, rfl⟩

/-- If the item is the first of the list, one is given. -/
theorem regainFrom_of_first (hfirst : info.handedOut.head?.map QuestItemAction.id = some id) :
    regainFrom env alloc c id info.startActs = do
      match ← clientGainItems env alloc c [(id, 1)] true with
      | (none, c) => return (.of .error, c)
      | (some true, c) => return (.of .success, c)
      | (some false, c) =>
        return (.of .success,
          c.send (.popupMessage "Please check if you have enough space in your inventory.")) := by
  rw [regainFrom_eq]
  rw [QuestInfo.handedOut] at hfirst
  cases hitems : info.startActs.findSome? QuestAct.items? with
  | none =>
    rw [hitems] at hfirst
    cases hfirst
  | some items =>
    rw [hitems] at hfirst
    cases items with
    | nil => cases hfirst
    | cons item items => exact if_pos (Option.some.inj hfirst)

/-- An item that is handed out is of a start act. -/
theorem QuestInfo.mem_startActs {item : QuestItemAction} (h : item ∈ info.handedOut) :
    ∃ items, .item items ∈ info.startActs ∧ item ∈ items := by
  rw [handedOut] at h
  cases hitems : info.startActs.findSome? QuestAct.items? with
  | none =>
    rw [hitems] at h
    cases h
  | some items =>
    rw [hitems] at h
    obtain ⟨act, hact, hsome⟩ := List.exists_of_findSome?_eq_some hitems
    cases act <;> cases hsome
    exact ⟨items, hact, h⟩

/-- `client_regain_quest_item` does what is asked of it exactly where the item is the first of its
    list. -/
theorem regains_iff (hinfo : env.questInfo qid = some info)
    (hquest : hashSetGet env.quests c.character.quests qid ≠ none)
    (hr : Requestable env c.character [(id, 1)]) :
    Regains env alloc c qid info id ↔ Regainable env alloc c.character info id := by
  have hrun : clientRegainQuestItem env alloc c qid id = (clientHasItem c.character id 1 >>= fun has =>
      if has then return (.of .success, c) else regainFrom env alloc c id info.startActs) := by
    rw [clientRegainQuestItem, hinfo]
    exact if_neg hquest
  by_cases hplace : HasPlace id
  · rw [clientHasItem_one hr hplace, Exec.ok_bind] at hrun
    constructor
    · intro h
      refine ⟨fun hmem hheld => ?_, fun hnone => ⟨?_, hplace⟩⟩
      · have hgives := h.gives hmem hheld
        rw [hrun, hheld, if_neg (by decide)] at hgives
        -- The loop over the items ends in its first round, with a ban if it is another item.
        have hfirst : info.handedOut.head?.map QuestItemAction.id = some id := by
          by_contra hfirst
          have hnot : (regainFrom env alloc c id info.startActs).Returns _ := regainFrom_of_not hfirst
          obtain ⟨_, heq, hban, -⟩ := Exec.returns_iff.1 hnot
          rw [heq] at hgives
          exact hgives.1 hban
        rw [regainFrom_of_first hfirst] at hgives
        have halloc : alloc = true := by
          by_contra halloc
          rw [Bool.not_eq_true] at halloc
          rw [halloc, clientGainItems, if_neg (by decide), pure_bind] at hgives
          -- Without memory, nothing is given or told.
          obtain ⟨-, hone | hfull⟩ := hgives
          · have := hone id
            simp at this
          · have := congrArg (fun c : Client => c.sent.length) hfull
            simp [Client.send] at this
        refine ⟨hfirst, halloc, ?_⟩
        -- Without a record that is looked up, the call does not return.
        by_contra hrecord
        obtain ⟨_, heq, -⟩ := Exec.returns_iff.1 hgives
        obtain ⟨_, hgain, -⟩ := Exec.bind_eq_ok.1 heq
        exact clientGainItems_of_not hrecord (halloc ▸ hgain)
      · -- Who holds the item is told of a success, whether the quest has the item or not.
        by_contra hheld
        have hrefuses := h.refuses hnone
        rw [hrun, if_pos (decide_eq_true hheld)] at hrefuses
        exact absurd hrefuses.1 (by decide)
    · intro h
      refine ⟨fun hmem hheld => ?_, fun hnone => ?_⟩
      · obtain ⟨hfirst, rfl, hrecord⟩ := h.first hmem hheld
        obtain ⟨success, c', hgain, hone, hfull⟩ := clientGainItems_one hr hrecord
        rw [hrun, hheld, if_neg (by decide), regainFrom_of_first hfirst, hgain, Exec.ok_bind]
        cases success with
        | true => exact ⟨by decide, .inl (hone rfl)⟩
        | false => exact ⟨by decide, .inr (by rw [hfull rfl])⟩
      · obtain ⟨hheld, -⟩ := h.held hnone
        rw [hrun, hheld, if_neg (by decide)]
        refine regainFrom_of_not fun hfirst => ?_
        obtain ⟨item, hitem, hid⟩ := Option.map_eq_some_iff.1 hfirst
        obtain ⟨items, hitems, hmem⟩ := QuestInfo.mem_startActs (List.mem_of_mem_head? hitem)
        exact hnone items hitems item hmem hid
  · -- There is no inventory, and the call does not return.
    have hreturns {P : ClientResult × Client → Prop} : ¬(clientRegainQuestItem env alloc c qid id).Returns P := by
      intro h
      obtain ⟨_, heq, -⟩ := Exec.returns_iff.1 h
      rw [hrun] at heq
      obtain ⟨_, hhas, -⟩ := Exec.bind_eq_ok.1 heq
      exact clientHasItem_of_not hplace hhas
    constructor
    · exact fun h => ⟨fun hmem hheld => (hreturns (h.gives hmem hheld)).elim,
        fun hnone => (hreturns (h.refuses hnone)).elim⟩
    · exact fun h => ⟨fun hmem hheld => (hplace (h.first hmem hheld).2.2.hasPlace).elim,
        fun hnone => (hplace (h.held hnone).2).elim⟩

/-! ### A quest that hands out two items -/

/-- Two letters are handed out. -/
def errandQuest : QuestInfo where
  id := 1000
  startRequirements := []
  endRequirements := []
  startScript := false
  endScript := false
  startActs := [.exp 10, .item [⟨4031000, 1, 0⟩, ⟨4031001, 1, 0⟩]]
  endActs := []

/-- The letters, of which a slot holds one. -/
def errandEnv : Env := .ofLists [.plain 4031000 1, .plain 4031001 1] [] [] [errandQuest]

/-- The quest has been started. -/
def errandQuests : HashSet Quest where
  capacity := 1
  capacity_pos := Nat.one_pos
  count := 1
  slots _ := .occupied ⟨1000, 0, default⟩
  iterating := false

/-- A player who has started the quest, and has nothing. -/
def errandPlayer : Client := .new { (default : Character) with quests := errandQuests }

theorem requestable_errand (id : UInt32) (hM : ∀ info, errandEnv.itemInfo id = some info → 0 ≤ info.slotMax.toInt) :
    Requestable errandEnv errandPlayer.character [(id, 1)] := by
  have hempty : ∀ k i, (errandPlayer.character.inventory k).view i = none := by decide +kernel
  refine ⟨fun k i it hit _ => ?_, fun x hx info hinfo => ?_⟩
  · cases (hempty k i).symm.trans hit
  · obtain rfl : x = id := by simpa using hx
    exact hM info hinfo

/-- The first letter is given again. -/
theorem regains_first : Regains errandEnv true errandPlayer 1000 errandQuest 4031000 := by
  refine (regains_iff rfl (by decide +kernel) (requestable_errand _ fun info hinfo => ?_)).2 ⟨fun _ _ => ?_,
    fun hnone => ?_⟩
  · cases hinfo
    decide
  · exact ⟨rfl, rfl, by
      rw [Recorded, if_neg (by decide)]
      exact ⟨2, rfl, .inl (by decide)⟩⟩
  · exact absurd rfl (hnone _ (List.mem_cons_of_mem _ List.mem_cons_self) _ List.mem_cons_self)

/-- Who asks for the second letter is banned. -/
theorem regains_fails : ¬Regains errandEnv true errandPlayer 1000 errandQuest 4031001 := by
  intro h
  have hrun := h.gives ⟨⟨4031001, 1, 0⟩, by decide, rfl⟩ (by decide +kernel)
  have hban : (clientRegainQuestItem errandEnv true errandPlayer 1000 4031001).Returns
      fun x => x.1.type = .ban := by decide +kernel
  obtain ⟨x, hx, hban⟩ := Exec.returns_iff.1 hban
  rw [hx] at hrun
  exact hrun.1 hban

end Syrup
