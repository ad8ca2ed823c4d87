import Syrup.Client.Stats
import Syrup.Projectile

/-!
# Equipment: `client_equip`, `client_unequip`, `client_remove_equip`, `client_gain_equipment`

Equipment is put on from a slot of the equipment inventory and taken off into one.
Where both slots hold something, the two are exchanged. The sums of the bonuses
of what is worn are kept up to date with every piece put on or taken off.

A slot of the worn equipment that has been emptied keeps its payload, which
`client_unequip` reads without looking at the flag.
-/

namespace Syrup

/-! ## Bonuses -/

namespace Character

/-- `chr->estr += equip.str;`, and so on for the six bonuses. -/
def addBonuses (chr : Character) (e : Equipment) : Character :=
  { chr with
    estr := chr.estr + e.str.toInt32, edex := chr.edex + e.dex.toInt32,
    eint := chr.eint + e.int_.toInt32, eluk := chr.eluk + e.luk.toInt32,
    eMaxHp := chr.eMaxHp + e.hp.toInt32, eMaxMp := chr.eMaxMp + e.mp.toInt32 }

/-- `chr->estr -= equip.str;`, and so on for the six bonuses. -/
def subBonuses (chr : Character) (e : Equipment) : Character :=
  { chr with
    estr := chr.estr - e.str.toInt32, edex := chr.edex - e.dex.toInt32,
    eint := chr.eint - e.int_.toInt32, eluk := chr.eluk - e.luk.toInt32,
    eMaxHp := chr.eMaxHp - e.hp.toInt32, eMaxMp := chr.eMaxMp - e.mp.toInt32 }

end Character

/-- The number by which a packet names a slot of the worn equipment, `-slot`. -/
def equipSlotNumber (slot : UInt32) : Int16 := -slot.toUInt16.toInt16

/-! ## Putting on -/

/-- Puts on what is in a slot of the equipment inventory. -/
def putOn (chr : Character) (src : Fin maxItemCount) (dst : Fin equipSlotCount) : Character :=
  let carried := chr.equipmentInventory.items src
  let worn := chr.equippedEquipment dst
  if worn.isEmpty then
    ((chr.setWorn dst (.full carried.val)).addBonuses carried.val).setEquip src carried.emptied
  else
    (((chr.subBonuses worn.val).addBonuses carried.val).setEquip src (carried.write worn.val)).setWorn
      dst (worn.write carried.val)

/-- `client_equip`. -/
def clientEquip (c : Client) (src : UInt8) (slot : UInt32) : Exec (Bool × Client) :=
  let chr := c.character
  if !isValidEquipSlot slot then .ok (false, c)
  else
    match chr.equipmentInventory.index? (src - 1).toNat with
    | none => .ok (false, c)
    | some src =>
      if (chr.equipmentInventory.items src).isEmpty then .ok (true, c)
      else do
        let dst ← equipIndex slot
        let chr := putOn chr src dst
        let wid := (chr.equippedEquipment dst).val.item.itemId
        let chr := chr.setActiveProjectile (rescan chr wid 0)
        let mod := .move 1 (slotNumber src) (equipSlotNumber slot)
        return (true, ((c.setCharacter chr).send (.modifyItems [mod])).send .updateCharLook)

/-! ## Taking off -/

/-- Takes off what is worn into a slot of the equipment inventory. -/
def takeOff (chr : Character) (src : Fin equipSlotCount) (dst : Fin maxItemCount) : Character :=
  let worn := chr.equippedEquipment src
  let carried := chr.equipmentInventory.items dst
  if carried.isEmpty then
    ((chr.subBonuses worn.val).setEquip dst (.full worn.val)).setWorn src worn.emptied
  else
    (((chr.subBonuses worn.val).addBonuses carried.val).setWorn src (worn.write carried.val)).setEquip
      dst (carried.write worn.val)

/-- Lowers the hit points and the mana to what the character can have, and sends what
    has been lowered. -/
def clampHpMp (c : Client) : Client :=
  let chr := c.character
  let hp := characterGetEffectiveHp chr
  let mp := characterGetEffectiveMp chr
  let lowHp : Bool := hp < chr.hp
  let lowMp : Bool := mp < chr.mp
  let c := c.setCharacter { chr with hp := if lowHp then hp else chr.hp,
                                     mp := if lowMp then mp else chr.mp }
  if lowHp || lowMp then
    c.send (.statChange ((if lowHp then statHp else 0) ||| if lowMp then statMp else 0)
      ((if lowHp then [hp.toInt] else []) ++ if lowMp then [mp.toInt] else []))
  else c

/-- What `client_unequip` starts with: without a weapon there is no projectile. -/
def dropProjectile (chr : Character) (slot : UInt32) : Character :=
  if slot = equipSlotWeapon then chr.setActiveProjectile noProjectile else chr

/-- `client_unequip`. -/
def clientUnequip (c : Client) (slot : UInt32) (dst : UInt8) : Exec (Bool × Client) :=
  let chr := c.character
  if !isValidEquipSlot slot then .ok (false, c)
  else
    match chr.equipmentInventory.index? (dst - 1).toNat with
    | none => .ok (false, c)
    | some dst => do
      let src ← equipIndex slot
      let c := clampHpMp (c.setCharacter (takeOff (dropProjectile chr slot) src dst))
      let mod := .move 1 (equipSlotNumber slot) (slotNumber dst)
      return (true, (c.send (.modifyItems [mod])).send .updateCharLook)

/-! ## Removing and gaining -/

/-- `client_remove_equip`: it returns `false` (`none`), or `true` with `*success`. What has
    been removed (`*equip`) is given too. -/
def clientRemoveEquip (c : Client) (equipped : Bool) (src : UInt8) :
    Option (Bool × Option Equipment) × Client :=
  let chr := c.character
  if equipped then
    let compact := equipSlotToCompact src.toUInt32
    if h : compact.toNat < equipSlotCount then
      let cell := chr.equippedEquipment ⟨compact.toNat, h⟩
      if cell.isEmpty then (some (false, none), c)
      else
        let mod := .remove 1 (equipSlotNumber (equipSlotFromCompact compact))
        (some (true, some cell.val),
          (c.setCharacter (chr.setWorn ⟨compact.toNat, h⟩ cell.emptied)).send (.modifyItems [mod]))
    else (none, c)
  else
    match chr.equipmentInventory.index? (src - 1).toNat with
    | none => (none, c)
    | some src =>
      let cell := chr.equipmentInventory.items src
      if cell.isEmpty then (some (false, none), c)
      else
        (some (true, some cell.val),
          (c.setCharacter (chr.setEquip src cell.emptied)).send
            (.modifyItems [.remove 1 (slotNumber src)]))

/-- `enum InventoryGainResult`. -/
inductive InventoryGainResult
  | success
  | full
  | unavailable
  deriving DecidableEq

/-- Rewrites the items that are still to be found for quests. -/
def Character.setItemQuests (chr : Character) (set : HashSet UInt32) : Character :=
  { chr with itemQuests := set }

/-- `hash_set_u32_remove(chr->itemQuests, id)`, if it is done. -/
def removeItemQuest (env : Env) (alloc : Bool) (chr : Character) (id : UInt32) (removing : Bool) :
    Exec Character :=
  if removing then do
    let set ← hashSetRemove env.itemQuests alloc chr.itemQuests id
    return chr.setItemQuests set
  else .ok chr

/-- `client_gain_equipment`. -/
def clientGainEquipment (env : Env) (alloc : Bool) (c : Client) (item : Equipment)
    (equip : Bool) : Exec (InventoryGainResult × Client) := do
  let chr := c.character
  let id := item.item.itemId
  let info ← Exec.deref (env.itemInfo id)
  if info.quest && (hashSetGet env.itemQuests chr.itemQuests id).isNone then
    .ok (.unavailable, c)
  else if equip then .ok (.full, c)
  else
    match Sweep.firstFrom (fun i => (chr.equipmentInventory.items i).isEmpty) 0
        chr.equipmentInventory.slotCount with
    | none => .ok (.full, c)
    | some j => do
      let chr ← removeItemQuest env alloc chr id info.quest
      return (.success, (c.setCharacter (chr.setEquip j (.full item))).send
        (.modifyItems [.addEquip 1 (slotNumber j) item]))

/-! ## What the calls do -/

theorem inventory_putOn {chr : Character} {src : Fin maxItemCount} {dst : Fin equipSlotCount} :
    (putOn chr src dst).inventory = chr.inventory := by
  rw [putOn]
  split <;> rfl

theorem inventory_takeOff {chr : Character} {src : Fin equipSlotCount} {dst : Fin maxItemCount} :
    (takeOff chr src dst).inventory = chr.inventory := by
  rw [takeOff]
  split <;> rfl

/-- What is worn after putting on. -/
theorem equippedEquipment_putOn {chr : Character} {src : Fin maxItemCount}
    {dst : Fin equipSlotCount} : (putOn chr src dst).equippedEquipment =
      Function.update chr.equippedEquipment dst
        ⟨false, (chr.equipmentInventory.items src).val⟩ := by
  rw [putOn]
  split
  · rfl
  · rename_i h
    rw [Bool.not_eq_true] at h
    rw [← h]
    rfl

/-- What is worn after taking off: the flag is set if nothing has been carried, and is not cleared
    if something has. -/
theorem equippedEquipment_takeOff {chr : Character} {src : Fin equipSlotCount}
    {dst : Fin maxItemCount} : (takeOff chr src dst).equippedEquipment =
      Function.update chr.equippedEquipment src
        (if (chr.equipmentInventory.items dst).isEmpty then (chr.equippedEquipment src).emptied
         else (chr.equippedEquipment src).write (chr.equipmentInventory.items dst).val) := by
  rw [takeOff]
  split
  · rfl
  · rfl

theorem inventory_dropProjectile {chr : Character} {slot : UInt32} :
    (dropProjectile chr slot).inventory = chr.inventory := by
  rw [dropProjectile]
  split <;> rfl

/-- A call that returns has done nothing, or put something on. -/
theorem clientEquip_cases {c c' : Client} {src : UInt8} {slot : UInt32} {b : Bool}
    (h : clientEquip c src slot = .ok (b, c')) :
    c' = c ∨ ∃ i j, isValidEquipSlot slot = true ∧
      c.character.equipmentInventory.index? (src - 1).toNat = some i ∧
      (c.character.equipmentInventory.items i).isEmpty = false ∧ equipIndex slot = .ok j ∧
      c'.character = (putOn c.character i j).setActiveProjectile
        (rescan (putOn c.character i j)
          ((putOn c.character i j).equippedEquipment j).val.item.itemId 0) := by
  rw [clientEquip] at h
  simp only at h
  split at h
  · cases h
    exact .inl rfl
  · rename_i hv
    split at h
    · cases h
      exact .inl rfl
    · rename_i i hi
      split at h
      · cases h
        exact .inl rfl
      · rename_i he
        obtain ⟨j, hj, h⟩ := Exec.bind_eq_ok.1 h
        cases h
        exact .inr ⟨i, j, by simpa using hv, hi, by simpa using he, hj, rfl⟩

/-- Lowering the hit points and the mana changes nothing else. -/
theorem character_clampHpMp (c : Client) :
    ∃ hp mp, (clampHpMp c).character = { c.character with hp := hp, mp := mp } := by
  rw [clampHpMp]
  simp only
  split <;> exact ⟨_, _, rfl⟩

/-- A call that returns has done nothing, or taken something off and lowered what is too high. -/
theorem clientUnequip_takes {c c' : Client} {slot : UInt32} {dst : UInt8} {b : Bool}
    (h : clientUnequip c slot dst = .ok (b, c')) :
    c' = c ∨ ∃ i j, isValidEquipSlot slot = true ∧
      c.character.equipmentInventory.index? (dst - 1).toNat = some i ∧ equipIndex slot = .ok j ∧
      c'.character =
        (clampHpMp (c.setCharacter (takeOff (dropProjectile c.character slot) j i))).character := by
  rw [clientUnequip] at h
  simp only at h
  split at h
  · cases h
    exact .inl rfl
  · rename_i hv
    split at h
    · cases h
      exact .inl rfl
    · rename_i i hi
      obtain ⟨j, hj, h⟩ := Exec.bind_eq_ok.1 h
      cases h
      exact .inr ⟨i, j, by simpa using hv, hi, hj, rfl⟩

/-- A call that returns has done nothing, or taken something off. -/
theorem clientUnequip_cases {c c' : Client} {slot : UInt32} {dst : UInt8} {b : Bool}
    (h : clientUnequip c slot dst = .ok (b, c')) :
    c' = c ∨ ∃ i j hp mp, isValidEquipSlot slot = true ∧
      c.character.equipmentInventory.index? (dst - 1).toNat = some i ∧ equipIndex slot = .ok j ∧
      c'.character =
        { takeOff (dropProjectile c.character slot) j i with hp := hp, mp := mp } := by
  obtain hc | ⟨i, j, hv, hi, hj, hc⟩ := clientUnequip_takes h
  · exact .inl hc
  · obtain ⟨hp, mp, hclamp⟩ := character_clampHpMp (c.setCharacter
      (takeOff (dropProjectile c.character slot) j i))
    exact .inr ⟨i, j, hp, mp, hv, hi, hj, hc.trans hclamp⟩

/-- A call does nothing, or empties a slot, of what is worn or of what is carried. -/
theorem clientRemoveEquip_cases (c : Client) (equipped : Bool) (src : UInt8) :
    (clientRemoveEquip c equipped src).2 = c ∨
      (equipped = true ∧ ∃ j, equipIndex src.toUInt32 = .ok j ∧
        (c.character.equippedEquipment j).isEmpty = false ∧
        (clientRemoveEquip c equipped src).2.character =
          c.character.setWorn j (c.character.equippedEquipment j).emptied) ∨
      (equipped = false ∧ ∃ i, c.character.equipmentInventory.index? (src - 1).toNat = some i ∧
        (clientRemoveEquip c equipped src).2.character =
          c.character.setEquip i (c.character.equipmentInventory.items i).emptied) := by
  rw [clientRemoveEquip]
  simp only
  split
  · rename_i heq
    split
    · rename_i h
      split
      · exact .inl rfl
      · rename_i he
        exact .inr (.inl ⟨heq, ⟨_, h⟩, by rw [equipIndex, dif_pos h], by simpa using he, rfl⟩)
    · exact .inl rfl
  · rename_i heq
    rw [Bool.not_eq_true] at heq
    split
    · exact .inl rfl
    · rename_i i hi
      split
      · exact .inl rfl
      · exact .inr (.inr ⟨heq, i, hi, rfl⟩)

/-- A call that is to take from the carried equipment does nothing, and reports no success, or takes a
    piece, and reports it. -/
theorem clientRemoveEquip_result {c c' : Client} {src : UInt8}
    {r : Option (Bool × Option Equipment)} (h : clientRemoveEquip c false src = (r, c')) :
    ((∀ e, r ≠ some (true, e)) ∧ c' = c) ∨
      ∃ i, c.character.equipmentInventory.index? (src - 1).toNat = some i ∧
        (c.character.equipmentInventory.items i).isEmpty = false ∧
        r = some (true, some (c.character.equipmentInventory.items i).val) ∧
        c'.character = c.character.setEquip i (c.character.equipmentInventory.items i).emptied := by
  rw [clientRemoveEquip, if_neg Bool.false_ne_true] at h
  split at h
  · cases h
    exact .inl ⟨nofun, rfl⟩
  · rename_i i hi
    simp only at h
    split at h
    · cases h
      exact .inl ⟨nofun, rfl⟩
    · rename_i he
      cases h
      exact .inr ⟨i, hi, by simpa using he, rfl, rfl⟩

theorem removeItemQuest_cases {env : Env} {alloc removing : Bool} {chr chr' : Character}
    {id : UInt32} (h : removeItemQuest env alloc chr id removing = .ok chr') :
    ∃ set, chr' = chr.setItemQuests set := by
  rw [removeItemQuest] at h
  split at h
  · obtain ⟨set, _, h⟩ := Exec.bind_eq_ok.1 h
    cases h
    exact ⟨set, rfl⟩
  · cases h
    exact ⟨chr.itemQuests, rfl⟩

/-- A call that returns has done nothing, or filled the first empty slot and told the client so. -/
theorem clientGainEquipment_result {env : Env} {alloc equip : Bool} {c c' : Client}
    {item : Equipment} {r : InventoryGainResult}
    (h : clientGainEquipment env alloc c item equip = .ok (r, c')) :
    c' = c ∨ ∃ j set,
      Sweep.firstFrom (fun i => (c.character.equipmentInventory.items i).isEmpty) 0
        c.character.equipmentInventory.slotCount = some j ∧
      c' = (c.setCharacter ((c.character.setItemQuests set).setEquip j (.full item))).send
        (.modifyItems [.addEquip 1 (slotNumber j) item]) := by
  obtain ⟨info, _, h⟩ := Exec.bind_eq_ok.1 h
  split at h
  · cases h
    exact .inl rfl
  · split at h
    · cases h
      exact .inl rfl
    · split at h
      · cases h
        exact .inl rfl
      · rename_i j hj
        obtain ⟨chr, hchr, h⟩ := Exec.bind_eq_ok.1 h
        obtain ⟨set, rfl⟩ := removeItemQuest_cases hchr
        cases h
        exact .inr ⟨j, set, hj, rfl⟩

/-- A call that returns has done nothing, or filled an empty slot. -/
theorem clientGainEquipment_cases {env : Env} {alloc equip : Bool} {c c' : Client}
    {item : Equipment} {r : InventoryGainResult}
    (h : clientGainEquipment env alloc c item equip = .ok (r, c')) :
    c' = c ∨ ∃ j set, c'.character = (c.character.setItemQuests set).setEquip j (.full item) := by
  obtain rfl | ⟨j, set, _, rfl⟩ := clientGainEquipment_result h
  · exact .inl rfl
  · exact .inr ⟨j, set, rfl⟩

end Syrup
