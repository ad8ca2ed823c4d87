import Syrup.Client.Action
import Syrup.Client.Save

/-!
# Pick-ups while a character is saved

Between the request for the ids and the assignment of what the database replies with, packets of the
client are not read. But the timers of the room run: what is dropped next to a character is picked up
by `do_client_auto_pickup`, which calls `client_gain_inventory_item` and `client_gain_equipment`.

No item is lost or moved by this (`StillHeld`). But the request and the reply are only matched by the
order of the slots: the ids are given to the items they have been requested for if and only if the
slots that have no id are then the same as before (`allocatedRightly_run`). A pick-up that has an id,
and is not put on a stack that has none, leaves them the same (`SameUnnumbered.of_run`).
-/

namespace Syrup

open Numbering Sweep

/-! ## The items that are held -/

/-- What `do_client_auto_pickup` calls. -/
def Action.AutoPickup : Action → Prop
  | gainInventoryItem _ _ _ => True
  | gainEquipment _ _ now => now = false
  | _ => False

/-- A stack that is not taken out of its slot. -/
def CellHeld (c c' : Cell InventoryItem) : Prop :=
  c.isEmpty = false → c'.isEmpty = false ∧ c'.val.item.itemId = c.val.item.itemId

theorem CellHeld.trans {c c' c'' : Cell InventoryItem} (h : CellHeld c c') (h' : CellHeld c' c'') :
    CellHeld c c'' := by
  intro he
  obtain ⟨he', hid⟩ := h he
  obtain ⟨he'', hid'⟩ := h' he'
  exact ⟨he'', hid'.trans hid⟩

/-- Nothing has been taken out of a slot. -/
structure StillHeld (chr chr' : Character) : Prop where
  items : ∀ p, CellHeld (chr.itemAt p) (chr'.itemAt p)
  places : chr'.itemPlaces = chr.itemPlaces
  worn : chr'.equippedEquipment = chr.equippedEquipment
  carried : ∀ i, (chr.equipmentInventory.items i).isEmpty = false →
    chr'.equipmentInventory.items i = chr.equipmentInventory.items i
  slots : chr'.equipmentInventory.slots = chr.equipmentInventory.slots

theorem StillHeld.refl (chr : Character) : StillHeld chr chr :=
  ⟨fun _ h => ⟨h, rfl⟩, rfl, rfl, fun _ _ => rfl, rfl⟩

theorem StillHeld.trans {chr chr' chr'' : Character} (h : StillHeld chr chr')
    (h' : StillHeld chr' chr'') : StillHeld chr chr'' := by
  refine ⟨fun p => (h.items p).trans (h'.items p), h'.places.trans h.places, h'.worn.trans h.worn,
    fun i hi => ?_, h'.slots.trans h.slots⟩
  have hsame := h.carried i hi
  exact (h'.carried i (by rw [hsame, hi])).trans hsame

/-- An inventory of stacks rewritten, with the slots in use. -/
theorem itemPlaces_setInventory {chr : Character} {k : Fin inventoryCount}
    {inv : Inventory InventoryItem} (hslots : inv.slots = (chr.inventory k).slots) :
    (chr.setInventory k inv).itemPlaces = chr.itemPlaces := by
  refine List.flatMap_congr fun k' _ => ?_
  rcases eq_or_ne k' k with rfl | hk
  · rw [Character.inventory_setInventory_self, hslots]
  · rw [Character.inventory_setInventory_of_ne hk]

theorem itemAt_setInventory {chr : Character} {k : Fin inventoryCount}
    {inv : Inventory InventoryItem} (p : Fin inventoryCount × Fin maxItemCount) :
    (chr.setInventory k inv).itemAt p = if p.1 = k then inv.items p.2 else chr.itemAt p := by
  rw [Character.itemAt]
  split
  · rename_i hk
    rw [hk, Character.inventory_setInventory_self]
  · rename_i hk
    rw [Character.inventory_setInventory_of_ne hk]
    rfl

/-- A relation between the slots that holds of an inventory rewritten. -/
theorem forall_itemAt_setInventory {chr : Character} {k : Fin inventoryCount}
    {inv : Inventory InventoryItem} {R : Cell InventoryItem → Cell InventoryItem → Prop}
    (hrefl : ∀ c, R c c) (h : ∀ i, R ((chr.inventory k).items i) (inv.items i))
    (p : Fin inventoryCount × Fin maxItemCount) :
    R (chr.itemAt p) ((chr.setInventory k inv).itemAt p) := by
  rw [itemAt_setInventory]
  obtain ⟨k', i⟩ := p
  split
  · rename_i hk
    cases hk
    exact h i
  · exact hrefl _

variable {env : Env} {alloc : Bool} {room : ℕ} {c c' : Client} {item : InventoryItem}

/-- What a pick-up does to an inventory is a relation of its slots before and after, if it holds of
    a stack that is filled up and of an empty slot that is filled. -/
theorem clientGainInventoryItem_slots {r : Option InventoryGainResult}
    {R : Cell InventoryItem → Cell InventoryItem → Prop} (hrefl : ∀ c, R c c)
    (htrans : ∀ {c c' c''}, R c c' → R c' c'' → R c c'')
    (hfill : ∀ quantity c, c.isEmpty = false → c.val.item.itemId = item.item.itemId →
      R c (c.write (c.val.setQuantity quantity)) ∧ R c (c.write (stackOnto item quantity c.val)))
    (hfull : ∀ quantity c, c.isEmpty = true → R c (.full (item.setQuantity quantity)))
    (h : clientGainInventoryItem env alloc room c item = .ok (r, c')) :
    c'.character.itemPlaces = c.character.itemPlaces ∧
      c'.character.equippedEquipment = c.character.equippedEquipment ∧
      c'.character.equipmentInventory = c.character.equipmentInventory ∧
      ∀ p, R (c.character.itemAt p) (c'.character.itemAt p) := by
  have hput {inv : Inventory InventoryItem} {j : Fin maxItemCount} (hj : firstEmpty inv = some j)
      (quantity : Int16) (i : Fin maxItemCount) :
      R (inv.items i) ((inv.set j (.full (item.setQuantity quantity))).items i) := by
    rcases eq_or_ne i j with rfl | hne
    · rw [Inventory.items_set_self]
      exact hfull _ _ (firstFrom_eq_some.1 hj).1.2.2
    · rw [Inventory.items_set_of_ne hne]
      exact hrefl _
  obtain ⟨set, hc⟩ | ⟨_, _, k, j, _, hj, hc⟩ | ⟨_, info, k, items, s, set, _, _, hsweep, _, hend⟩ :=
    clientGainInventoryItem_cases h
  · rw [hc]
    exact ⟨rfl, rfl, rfl, fun _ => hrefl _⟩
  · rw [hc]
    exact ⟨itemPlaces_setInventory rfl, rfl, rfl,
      forall_itemAt_setInventory hrefl (hput hj item.quantity)⟩
  · have hfilled : ∀ i, R ((c.character.inventory k).items i) (items i) := by
      refine sweep_inv (P := fun t _ => ∀ i, R ((c.character.inventory k).items i) (t i)) hsweep
        (fun j _ t s out ht hout i => ?_) fun _ => hrefl _
      rcases eq_or_ne i j with rfl | hne
      · rw [Function.update_self]
        refine htrans (ht i) ?_
        rw [pickUpBody] at hout
        split at hout
        · rename_i hm
          obtain ⟨he, hid⟩ : (t i).isEmpty = false ∧ (t i).val.item.itemId = item.item.itemId := by
            simpa using hm
          obtain ⟨set, _, hout⟩ := Exec.bind_eq_ok.1 hout
          split at hout
          rename_i heq
          cases hout
          split at heq <;> cases heq
          · exact (hfill _ _ he hid).1
          · exact (hfill _ _ he hid).2
        · cases hout
          exact hrefl _
      · rw [Function.update_of_ne hne]
        exact ht i
    obtain ⟨_, hc⟩ | ⟨_, j, hj, hc⟩ := hend
    · rw [hc]
      exact ⟨itemPlaces_setInventory rfl, rfl, rfl, forall_itemAt_setInventory hrefl hfilled⟩
    · rw [hc]
      exact ⟨itemPlaces_setInventory rfl, rfl, rfl, forall_itemAt_setInventory hrefl fun i =>
        htrans (hfilled i) (hput hj s.quantity i)⟩

/-- Nothing is taken out of its slot by a pick-up. -/
theorem StillHeld.step {a : Action} (ha : a.AutoPickup) (h : a.step env c = .ok c') :
    StillHeld c.character c'.character := by
  cases a with
  | gainInventoryItem alloc room item =>
    obtain ⟨⟨r, c₁⟩, hcall, h⟩ := Exec.bind_eq_ok.1 h
    cases h
    obtain ⟨hplaces, hworn, hequip, hitems⟩ := clientGainInventoryItem_slots
      (R := CellHeld) (fun _ he => ⟨he, rfl⟩) CellHeld.trans
      (fun quantity c he hid => ⟨fun _ => ⟨he, rfl⟩, fun _ => ⟨he, by
        rw [Cell.val_write, stackOnto]
        split <;> rfl⟩⟩)
      (fun quantity c he hne => by
        rw [he] at hne
        cases hne) hcall
    exact ⟨hitems, hplaces, hworn, fun i _ => by rw [hequip], by rw [hequip]⟩
  | gainEquipment alloc item now =>
    obtain ⟨⟨r, c₁⟩, hcall, h⟩ := Exec.bind_eq_ok.1 h
    cases h
    obtain rfl | ⟨j, set, hj, rfl⟩ := clientGainEquipment_result hcall
    · exact .refl _
    · refine ⟨fun p he => ⟨he, rfl⟩, rfl, rfl, fun i hi => Inventory.items_set_of_ne ?_ _, rfl⟩
      rintro rfl
      have hfree := (firstFrom_eq_some.1 hj).1.2.2
      rw [hi] at hfree
      cases hfree
  | _ => exact ha.elim

/-! ## The slots that have no id -/

/-- The same slots have no id. -/
structure SameUnnumbered (chr chr' : Character) : Prop where
  items : chr'.unnumberedItems = chr.unnumberedItems
  worn : chr'.unnumberedWorn = chr.unnumberedWorn
  carried : chr'.unnumberedCarried = chr.unnumberedCarried

/-! ## What the ids are given to -/

/-- The character after the ids that have been requested for `chr` have been assigned. -/
def assigned (chr : Character) (res : AllocatedIds) (chr' : Character) : Character :=
  assignIds (onIdAllocateDatabaseUnlocked chr) res chr'

/-- Each of the slots for which an id has been requested receives it, the others receive none, and
    no more ids are read than have been requested. -/
structure AllocatedRightly (chr chr' : Character) : Prop where
  items : ∀ res k p, chr.unnumberedItems[k]? = some p →
    (assigned chr res chr').itemAt p = giveItemId res.items k (chr'.itemAt p)
  otherItems : ∀ res p, p ∉ chr.unnumberedItems → (assigned chr res chr').itemAt p = chr'.itemAt p
  readItems : chr'.unnumberedItems.length ≤ chr.unnumberedItems.length
  worn : ∀ res k i, chr.unnumberedWorn[k]? = some i →
    (assigned chr res chr').equippedEquipment i =
      giveEquipId (onIdAllocateDatabaseUnlocked chr).equippedEquipment res.equippedEquipment k
        (chr'.equippedEquipment i)
  otherWorn : ∀ res i, i ∉ chr.unnumberedWorn →
    (assigned chr res chr').equippedEquipment i = chr'.equippedEquipment i
  readWorn : chr'.unnumberedWorn.length ≤ chr.unnumberedWorn.length
  carried : ∀ res k i, chr.unnumberedCarried[k]? = some i →
    (assigned chr res chr').equipmentInventory.items i =
      giveEquipId (onIdAllocateDatabaseUnlocked chr).equipmentInventory res.equipmentInventory k
        (chr'.equipmentInventory.items i)
  otherCarried : ∀ res i, i ∉ chr.unnumberedCarried →
    (assigned chr res chr').equipmentInventory.items i = chr'.equipmentInventory.items i
  readCarried : chr'.unnumberedCarried.length ≤ chr.unnumberedCarried.length

theorem nodup_itemPlaces (chr : Character) : chr.itemPlaces.Nodup := by
  rw [Character.itemPlaces, List.nodup_flatMap]
  refine ⟨fun k _ => Inventory.nodup_slots.map fun i j h => (Prod.mk.inj h).2, ?_⟩
  refine (List.nodup_finRange inventoryCount).imp fun hne p hp hp' => ?_
  obtain ⟨i, _, rfl⟩ := List.mem_map.1 hp
  obtain ⟨j, _, hj⟩ := List.mem_map.1 hp'
  exact hne (Prod.mk.inj hj).1.symm

/-- There is another id. -/
theorem exists_ne_id (n : UInt64) : ∃ n' : UInt64, n' ≠ n := by
  rcases eq_or_ne n 0 with rfl | h
  · exact ⟨1, by decide⟩
  · exact ⟨0, h.symm⟩

theorem allocatedRightly_iff {chr chr' : Character} :
    AllocatedRightly chr chr' ↔ SameUnnumbered chr chr' := by
  have hitems := @rightly_iff _ _ _ lacksItemId _ giveItemId chr'.itemPlaces chr'.itemAt
    (nodup_itemPlaces chr') chr.unnumberedItems (fun c => c.val.item.id) (fun _ _ _ => rfl)
    exists_ne_id
  have hworn := @rightly_iff _ _ _ lacksEquipId _
    (giveEquipId (onIdAllocateDatabaseUnlocked chr).equippedEquipment) (List.finRange equipSlotCount)
    chr'.equippedEquipment (List.nodup_finRange _) chr.unnumberedWorn (fun c => c.val.id)
    (fun _ _ _ => rfl) exists_ne_id
  have hcarried := @rightly_iff _ _ _ lacksEquipId _
    (giveEquipId (onIdAllocateDatabaseUnlocked chr).equipmentInventory)
    chr'.equipmentInventory.slots chr'.equipmentInventory.items Inventory.nodup_slots
    chr.unnumberedCarried (fun c => c.val.id) (fun _ _ _ => rfl) exists_ne_id
  constructor
  · intro h
    exact ⟨hitems.1 fun res => ⟨h.items ⟨res, 0, 0⟩, h.otherItems ⟨res, 0, 0⟩, h.readItems⟩,
      hworn.1 fun res => ⟨h.worn ⟨0, res, 0⟩, h.otherWorn ⟨0, res, 0⟩, h.readWorn⟩,
      hcarried.1 fun res => ⟨h.carried ⟨0, 0, res⟩, h.otherCarried ⟨0, 0, res⟩, h.readCarried⟩⟩
  · intro h
    have hi := hitems.2 h.items
    have hw := hworn.2 h.worn
    have hc := hcarried.2 h.carried
    exact ⟨fun res => (hi res.items).received, fun res => (hi res.items).others, (hi 0).read,
      fun res => (hw res.equippedEquipment).received, fun res => (hw res.equippedEquipment).others,
      (hw 0).read, fun res => (hc res.equipmentInventory).received,
      fun res => (hc res.equipmentInventory).others, (hc 0).read⟩

/-- In every run of pick-ups between the request and the reply, all that an id has been requested for
    is still held; and the ids are given to it, and to nothing else, if and only if the slots that
    have no id are the same after the run as they have been before. -/
theorem allocatedRightly_run (hrun : Machine.Run (Action.step env) (fun a _ => a.AutoPickup) c c') :
    StillHeld c.character c'.character ∧
      (AllocatedRightly c.character c'.character ↔ SameUnnumbered c.character c'.character) :=
  ⟨hrun.invariant (I := fun c' => StillHeld c.character c'.character) (.refl _)
    fun _ _ _ h ha hstep => h.trans (.step ha hstep), allocatedRightly_iff⟩

/-! ### Runs with swords -/

/-- There are swords. -/
def pickupEnv : Env := Env.ofLists [ItemInfo.plain 1302000 1] [] [] []

/-- A character with a sword that has no id, in the second slot. -/
def armed : Client := .new ((default : Character).setEquip 1 (.full (.plain 1302000)))

/-- A sword that has no id is picked up into the first slot, and receives the id of the other one. -/
theorem allocated_not_rightly : ∃ c' : Client,
    Machine.Run (Action.step pickupEnv) (fun a _ => a.AutoPickup) armed c' ∧
      ¬ AllocatedRightly armed.character c'.character := by
  have hret : (Action.step pickupEnv (.gainEquipment true (.plain 1302000) false) armed).Returns
      fun c' => c'.character.unnumberedCarried ≠ armed.character.unnumberedCarried := by
    decide +kernel
  obtain ⟨c', h, hne⟩ := Exec.returns_iff.1 hret
  exact ⟨c', .step (.gainEquipment true (.plain 1302000) false) .start rfl h, fun hright =>
    hne (allocatedRightly_iff.1 hright).carried⟩

/-- A sword that has an id is picked up. -/
theorem allocatedRightly_run_numbered : ∃ c' : Client,
    StillHeld armed.character c'.character ∧
      (AllocatedRightly armed.character c'.character ↔
        SameUnnumbered armed.character c'.character) ∧
      c'.character.equipmentInventory.view 0 = some { Equipment.plain 1302000 with id := 7 } := by
  have hret : (Action.step pickupEnv (.gainEquipment true { Equipment.plain 1302000 with id := 7 } false)
      armed).Returns fun c' =>
        c'.character.equipmentInventory.view 0 = some { Equipment.plain 1302000 with id := 7 } := by
    decide +kernel
  obtain ⟨c', h, hview⟩ := Exec.returns_iff.1 hret
  obtain ⟨hheld, hiff⟩ := allocatedRightly_run
    (.step (.gainEquipment true { Equipment.plain 1302000 with id := 7 } false) .start rfl h)
  exact ⟨c', hheld, hiff, hview⟩

end Syrup
