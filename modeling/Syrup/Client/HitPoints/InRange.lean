import Syrup.Client.HitPoints
import Syrup.Lib.Machine

/-!
# Hit points and mana in range

Hit points and mana should be between `0` and the most that the character can have, in every
state of a run, and nothing that is stored in 16 bits on the way should overflow
(`HpMpInRange`, `HpMpAction.sums`). So it is in a run whose steps are safe (`hpMp_run`).

What is not safe:
* to use a consumable that takes more than there is, or heals more than 16 bits hold;
* to put on equipment with a negative bonus, or to take off equipment with a positive one in exchange for
  a lower one, where the maximum falls below what there is, or below `0`: only `client_unequip`
  looks at the new maximum, and not whether it is negative;
* to gain a level with so much intelligence that the mana overflows.
-/

namespace Syrup

open Machine

/-- Whether a number can be stored in 16 bits. -/
def Fits16 (n : ℤ) : Prop := -32768 ≤ n ∧ n ≤ 32767

/-! ## Gauges -/

/-- Hit points or mana: what there is, the maximum without the bonuses, and the bonuses. -/
structure Gauge where
  now : Int16
  max : Int16
  extra : Int32

namespace Gauge

variable (g : Gauge)

/-- The most that there can be. -/
def effective : Int16 := Syrup.effective g.max g.extra 30000

/-- What there is, set to a value, or the nearest one in range. -/
def set (n : Int16) : Gauge :=
  { g with now := if n < 0 then 0 else if g.effective < n then g.effective else n }

/-- What there is, lowered to the maximum. -/
def lower : Gauge :=
  { g with now := if decide (g.effective < g.now) then g.effective else g.now }

/-- Between `0` and the maximum, which is what it would be without overflow. -/
structure InRange : Prop where
  nonneg : 0 ≤ g.now
  le : g.now ≤ g.effective
  exact : g.effective.toInt = min 30000 (g.max.toInt + g.extra.toInt)

variable {g}

theorem effective_of_lt (h : 30000 - g.extra.toInt < g.max.toInt) : g.effective.toInt = 30000 := by
  rw [effective, Syrup.effective, if_pos h]
  rfl

theorem effective_of_le (h : g.max.toInt ≤ 30000 - g.extra.toInt)
    (h' : -32768 ≤ g.max.toInt + g.extra.toInt) :
    g.effective.toInt = g.max.toInt + g.extra.toInt := by
  rw [effective, Syrup.effective, if_neg (by omega)]
  exact ofInt16 h' (by omega)

/-- A maximum that is not negative does not overflow. -/
theorem effective_exact (h : 0 ≤ g.max.toInt + g.extra.toInt) :
    g.effective.toInt = min 30000 (g.max.toInt + g.extra.toInt) := by
  rcases lt_or_ge (30000 - g.extra.toInt) g.max.toInt with hlt | hle
  · rw [effective_of_lt hlt]
    omega
  · rw [effective_of_le hle (by omega)]
    omega

theorem inRange_iff : g.InRange ↔ 0 ≤ g.now.toInt ∧ g.now.toInt ≤ 30000 ∧
    g.now.toInt ≤ g.max.toInt + g.extra.toInt := by
  constructor
  · rintro ⟨hnonneg, hle, hexact⟩
    rw [le16, zero16] at hnonneg
    rw [le16, hexact] at hle
    omega
  · rintro ⟨hnonneg, hle, hle'⟩
    have hexact := @effective_exact g (by omega)
    refine ⟨?_, ?_, hexact⟩
    · rwa [le16, zero16]
    · rw [le16, hexact]
      omega

/-- What is set is in range if the maximum is not negative. -/
theorem inRange_set (h : 0 ≤ g.max.toInt + g.extra.toInt) (n : Int16) : (g.set n).InRange := by
  have hexact := effective_exact h
  rw [inRange_iff, set]
  simp only
  split
  · rw [zero16]
    omega
  · rename_i hn
    rw [lt16, zero16] at hn
    split
    · omega
    · rename_i hle
      rw [lt16] at hle
      omega

/-- What a consumable adds, by `base` and a percentage of the maximum. -/
def healAmount (g : Gauge) (base : Int16) (rate : UInt8) : ℤ :=
  base.toInt + (g.effective.toInt * rate.toNat).tdiv 100

/-- The numbers that are stored in 16 bits when a consumable is used: what it adds, what is left of
    that, and the sum. -/
def healSums (g : Gauge) (base : Int16) (rate : UInt8) : List ℤ :=
  let amount := (Int16.ofInt (g.healAmount base rate)).toInt
  let rest :=
    if g.now.toInt > g.effective.toInt - amount then g.effective.toInt - g.now.toInt else amount
  [g.healAmount base rate, rest, g.now.toInt + rest]

/-- What is healed is in range if no more is taken than there is, and no more is added than 16 bits
    hold. -/
theorem inRange_heal (h : g.InRange) {base : Int16} {rate : UInt8}
    (hlow : -g.now.toInt ≤ g.healAmount base rate) (hhigh : g.healAmount base rate ≤ 32767) :
    ({ g with now := heal g.now g.effective base rate } : Gauge).InRange ∧
      ∀ n ∈ g.healSums base rate, Fits16 n := by
  have hnow := bounds16 g.now
  obtain ⟨h0, h1, h2⟩ := inRange_iff.1 h
  have hle : g.now.toInt ≤ g.effective.toInt := le16.1 h.le
  have hmax : g.effective.toInt ≤ 30000 := by
    rw [h.exact]
    exact min_le_left ..
  have hmax' : g.effective.toInt ≤ g.max.toInt + g.extra.toInt := by
    rw [h.exact]
    exact min_le_right ..
  have hamount : (Int16.ofInt (g.healAmount base rate)).toInt = g.healAmount base rate :=
    ofInt16 (by omega) hhigh
  constructor
  · rw [inRange_iff, heal]
    simp only
    rw [← healAmount, hamount]
    split
    · have hrest : (g.effective - g.now).toInt = g.effective.toInt - g.now.toInt :=
        sub16 (by omega) (by omega)
      rw [add16 (by omega) (by omega), hrest]
      omega
    · rw [add16 (by omega) (by omega), hamount]
      omega
  · intro n hn
    simp only [healSums, hamount, List.mem_cons, List.not_mem_nil, or_false] at hn
    rw [Fits16]
    obtain rfl | rfl | rfl := hn
    · omega
    · split <;> omega
    · split <;> omega

end Gauge

/-! ## Maxima -/

/-- A maximum between `0` and `30000`. -/
def clampMax (n : ℤ) : ℤ := max 0 (min 30000 n)

/-- What `character_set_max_hp` and `character_set_max_mp` make of a maximum. -/
def setMax (m : Int16) : Int16 := if 30000 < m then 30000 else if m < 0 then 0 else m

/-- Raising a maximum with the given bonuses by some amounts, one after the other, never overflows,
    and ends with one that is not negative. -/
def RaisesTo (extra : ℤ) : ℤ → List ℤ → Prop
  | m, [] => 0 ≤ m + extra
  | m, n :: l => -32768 ≤ m + n ∧ m + n ≤ 32767 ∧ RaisesTo extra (clampMax (m + n)) l

/-- What a maximum is raised to by some amounts, one after the other. -/
def raiseAll (m : Int16) (l : List ℤ) : Int16 :=
  l.foldl (fun m n => setMax (Int16.ofInt (m.toInt + n))) m

/-- The sums that are stored in 16 bits on the way. -/
def raiseSums : Int16 → List ℤ → List ℤ
  | _, [] => []
  | m, n :: l => (m.toInt + n) :: raiseSums (raiseAll m [n]) l

theorem toInt_setMax {n : ℤ} (h : Fits16 n) : (setMax (Int16.ofInt n)).toInt = clampMax n := by
  have hn := ofInt16 h.1 h.2
  have hmax : (30000 : Int16).toInt = 30000 := rfl
  rw [setMax, clampMax]
  split
  · rename_i hlt
    rw [lt16, hn, hmax] at hlt
    omega
  · rename_i hle
    rw [lt16, hn, hmax] at hle
    split
    · rename_i hneg
      rw [lt16, hn, zero16] at hneg
      rw [zero16]
      omega
    · rename_i hpos
      rw [lt16, hn, zero16] at hpos
      rw [hn]
      omega

theorem raiseAll_spec {extra : ℤ} {m : Int16} {l : List ℤ} (h : RaisesTo extra m.toInt l) :
    0 ≤ (raiseAll m l).toInt + extra ∧ ∀ n ∈ raiseSums m l, Fits16 n := by
  induction l generalizing m with
  | nil => exact ⟨h, fun _ hn => absurd hn List.not_mem_nil⟩
  | cons n l ih =>
    obtain ⟨hlow, hhigh, h⟩ := h
    rw [← toInt_setMax ⟨hlow, hhigh⟩] at h
    obtain ⟨hend, hsums⟩ := ih h
    refine ⟨hend, fun k hk => ?_⟩
    rcases List.mem_cons.1 hk with rfl | hk
    · exact ⟨hlow, hhigh⟩
    · exact hsums k hk

/-! ## Characters -/

namespace Character

variable (chr : Character)

/-- The hit points of a character. -/
def hpGauge : Gauge := ⟨chr.hp, chr.maxHp, chr.eMaxHp⟩

/-- The mana of a character. -/
def mpGauge : Gauge := ⟨chr.mp, chr.maxMp, chr.eMaxMp⟩

end Character

/-- Hit points and mana are in range. -/
structure HpMpInRange (chr : Character) : Prop where
  hp : chr.hpGauge.InRange
  mp : chr.mpGauge.InRange

section Consume

variable {env : Env} {c : Client} {chr : Character} {info : ConsumableInfo}

/-- A consumable takes no more than there is, and adds no more than 16 bits hold. -/
def HealSafe (chr : Character) (info : ConsumableInfo) : Prop :=
  (info.hp ≠ 0 ∨ info.hpR ≠ 0 → -chr.hp.toInt ≤ chr.hpGauge.healAmount info.hp info.hpR ∧
    chr.hpGauge.healAmount info.hp info.hpR ≤ 32767) ∧
  (info.mp ≠ 0 ∨ info.mpR ≠ 0 → -chr.mp.toInt ≤ chr.mpGauge.healAmount info.mp info.mpR ∧
    chr.mpGauge.healAmount info.mp info.mpR ≤ 32767)

/-- The numbers that are stored in 16 bits when a consumable is used. -/
def consumeSums (chr : Character) (info : ConsumableInfo) : List ℤ :=
  (if info.hp ≠ 0 ∨ info.hpR ≠ 0 then chr.hpGauge.healSums info.hp info.hpR else []) ++
    if info.mp ≠ 0 ∨ info.mpR ≠ 0 then chr.mpGauge.healSums info.mp info.mpR else []

/-- One of the two gauges of a character that has used a consumable. -/
theorem inRange_consume {g : Gauge} (h : g.InRange) {base : Int16} {rate : UInt8}
    (hsafe : base ≠ 0 ∨ rate ≠ 0 → -g.now.toInt ≤ g.healAmount base rate ∧
      g.healAmount base rate ≤ 32767) :
    ({ g with now := if base != 0 || rate != 0 then heal g.now g.effective base rate else g.now } :
        Gauge).InRange ∧
      ∀ n ∈ if base ≠ 0 ∨ rate ≠ 0 then g.healSums base rate else [], Fits16 n := by
  by_cases huse : base ≠ 0 ∨ rate ≠ 0
  · have hbool : (base != 0 || rate != 0) = true := by simpa using huse
    obtain ⟨hlow, hhigh⟩ := hsafe huse
    rw [if_pos hbool, if_pos huse]
    exact Gauge.inRange_heal h hlow hhigh
  · have hbool : ¬ (base != 0 || rate != 0) = true := by simpa using huse
    rw [if_neg hbool, if_neg huse]
    exact ⟨h, fun _ hn => absurd hn List.not_mem_nil⟩

theorem HpMpInRange.consume (h : HpMpInRange c.character) (hsafe : HealSafe c.character info) :
    HpMpInRange (consume c info).character ∧ ∀ n ∈ consumeSums c.character info, Fits16 n := by
  obtain ⟨hhp, hhpSums⟩ := inRange_consume h.hp hsafe.1
  obtain ⟨hmp, hmpSums⟩ := inRange_consume h.mp hsafe.2
  refine ⟨⟨hhp, hmp⟩, fun n hn => ?_⟩
  rcases List.mem_append.1 hn with hn | hn
  · exact hhpSums n hn
  · exact hmpSums n hn

/-- The consumable that `client_use_item` uses, if it uses one. -/
def usedItem (env : Env) (c : Client) (slot : UInt8) (id : UInt32) : Option ConsumableInfo :=
  let inv := c.character.inventory useInventory
  match inv.index? (slot - 1).toNat with
  | none => none
  | some i =>
    if (inv.items i).isEmpty || (inv.items i).val.item.itemId != id then none
    else env.consumableInfo id

theorem HpMpInRange.useItem {slot : UInt8} {id : UInt32} (h : HpMpInRange c.character)
    (hsafe : ∀ info, usedItem env c slot id = some info → HealSafe c.character info) :
    HpMpInRange (clientUseItem env c slot id).2.character := by
  obtain hc | ⟨i, info, hi, hinfo, he, hid, hc⟩ := clientUseItem_consumes env c slot id
  · rwa [hc]
  · have hused : usedItem env c slot id = some info := by
      simp only [usedItem, hi, he, hid, hinfo, Bool.false_or, bne_self_eq_false, Bool.false_eq_true,
        if_false]
    obtain ⟨hhp, hmp⟩ := (h.consume (hsafe info hused)).1
    rw [hc]
    exact ⟨hhp, hmp⟩

theorem addCard_gauges {alloc : Bool} {id : UInt32} {c' : Client}
    (h : addCard env alloc c id = .ok c') :
    c'.character.hpGauge = c.character.hpGauge ∧ c'.character.mpGauge = c.character.mpGauge := by
  rw [addCard] at h
  split at h
  · obtain ⟨book, _, h⟩ := Exec.bind_eq_ok.1 h
    obtain ⟨entry, _, h⟩ := Exec.bind_eq_ok.1 h
    cases h
    exact ⟨rfl, rfl⟩
  · cases h
    exact ⟨rfl, rfl⟩

theorem HpMpInRange.useItemImmediate {alloc b : Bool} {id : UInt32} {c' : Client}
    (h : HpMpInRange c.character)
    (hsafe : ∀ info, env.consumableInfo id = some info → HealSafe c.character info)
    (hcall : clientUseItemImmediate env alloc c id = .ok (b, c')) : HpMpInRange c'.character := by
  rw [clientUseItemImmediate] at hcall
  split at hcall
  · cases hcall
    exact h
  · rename_i info hinfo
    obtain ⟨hhp, hmp⟩ := (h.consume (hsafe info hinfo)).1
    obtain ⟨item, _, hcall⟩ := Exec.bind_eq_ok.1 hcall
    split at hcall
    · obtain ⟨c₁, hcard, hcall⟩ := Exec.bind_eq_ok.1 hcall
      cases hcall
      obtain ⟨hhp', hmp'⟩ := addCard_gauges hcard
      exact ⟨hhp'.symm ▸ hhp, hmp'.symm ▸ hmp⟩
    · cases hcall
      exact ⟨hhp, hmp⟩

end Consume

/-! ## Equipment -/

section Equip

variable {c c' : Client} {chr : Character}

/-- A sum of bonuses after putting on. -/
def extraAfterEquip (extra : Int32) (worn carried : Cell Equipment) (bonus : Equipment → Int16) :
    Int32 :=
  if worn.isEmpty then extra + (bonus carried.val).toInt32
  else extra - (bonus worn.val).toInt32 + (bonus carried.val).toInt32

/-- A sum of bonuses after taking off. -/
def extraAfterUnequip (extra : Int32) (worn carried : Cell Equipment) (bonus : Equipment → Int16) :
    Int32 :=
  if carried.isEmpty then extra - (bonus worn.val).toInt32
  else extra - (bonus worn.val).toInt32 + (bonus carried.val).toInt32

/-- What is put on leaves the maxima as high as what there is. -/
def PutOnSafe (chr : Character) (src : UInt8) (slot : UInt32) : Prop :=
  ∀ i j, isValidEquipSlot slot = true →
    chr.equipmentInventory.index? (src - 1).toNat = some i →
    (chr.equipmentInventory.items i).isEmpty = false → equipIndex slot = .ok j →
    chr.hp.toInt ≤ chr.maxHp.toInt + (extraAfterEquip chr.eMaxHp (chr.equippedEquipment j)
      (chr.equipmentInventory.items i) Equipment.hp).toInt ∧
    chr.mp.toInt ≤ chr.maxMp.toInt + (extraAfterEquip chr.eMaxMp (chr.equippedEquipment j)
      (chr.equipmentInventory.items i) Equipment.mp).toInt

/-- What is taken off leaves the maxima not negative. -/
def TakeOffSafe (chr : Character) (slot : UInt32) (dst : UInt8) : Prop :=
  ∀ i j, isValidEquipSlot slot = true →
    chr.equipmentInventory.index? (dst - 1).toNat = some i → equipIndex slot = .ok j →
    0 ≤ chr.maxHp.toInt + (extraAfterUnequip chr.eMaxHp (chr.equippedEquipment j)
      (chr.equipmentInventory.items i) Equipment.hp).toInt ∧
    0 ≤ chr.maxMp.toInt + (extraAfterUnequip chr.eMaxMp (chr.equippedEquipment j)
      (chr.equipmentInventory.items i) Equipment.mp).toInt

theorem gauges_putOn {i : Fin maxItemCount} {j : Fin equipSlotCount} :
    (putOn chr i j).hpGauge = { chr.hpGauge with
      extra := extraAfterEquip chr.eMaxHp (chr.equippedEquipment j)
        (chr.equipmentInventory.items i) Equipment.hp } ∧
    (putOn chr i j).mpGauge = { chr.mpGauge with
      extra := extraAfterEquip chr.eMaxMp (chr.equippedEquipment j)
        (chr.equipmentInventory.items i) Equipment.mp } := by
  rw [putOn, extraAfterEquip, extraAfterEquip]
  split
  · exact ⟨rfl, rfl⟩
  · exact ⟨rfl, rfl⟩

theorem gauges_takeOff {i : Fin maxItemCount} {j : Fin equipSlotCount} :
    (takeOff chr j i).hpGauge = { chr.hpGauge with
      extra := extraAfterUnequip chr.eMaxHp (chr.equippedEquipment j)
        (chr.equipmentInventory.items i) Equipment.hp } ∧
    (takeOff chr j i).mpGauge = { chr.mpGauge with
      extra := extraAfterUnequip chr.eMaxMp (chr.equippedEquipment j)
        (chr.equipmentInventory.items i) Equipment.mp } := by
  rw [takeOff, extraAfterUnequip, extraAfterUnequip]
  split
  · exact ⟨rfl, rfl⟩
  · exact ⟨rfl, rfl⟩

theorem HpMpInRange.equip {src : UInt8} {slot : UInt32} {b : Bool} (h : HpMpInRange c.character)
    (hsafe : PutOnSafe c.character src slot) (hcall : clientEquip c src slot = .ok (b, c')) :
    HpMpInRange c'.character := by
  obtain rfl | ⟨i, j, hv, hi, he, hj, hc⟩ := clientEquip_cases hcall
  · exact h
  · obtain ⟨hhp, hmp⟩ := hsafe i j hv hi he hj
    obtain ⟨hhp', hmp'⟩ := @gauges_putOn c.character i j
    obtain ⟨h0, h1, _⟩ := Gauge.inRange_iff.1 h.hp
    obtain ⟨h0', h1', _⟩ := Gauge.inRange_iff.1 h.mp
    rw [hc]
    refine ⟨?_, ?_⟩
    · change (putOn c.character i j).hpGauge.InRange
      rw [hhp', Gauge.inRange_iff]
      exact ⟨h0, h1, hhp⟩
    · change (putOn c.character i j).mpGauge.InRange
      rw [hmp', Gauge.inRange_iff]
      exact ⟨h0', h1', hmp⟩

/-- What there is, lowered to the maximum, is in range if the maximum is not negative. -/
theorem inRange_lower {g : Gauge} (h : 0 ≤ g.now.toInt ∧ g.now.toInt ≤ 30000)
    (hmax : 0 ≤ g.max.toInt + g.extra.toInt) : g.lower.InRange := by
  have hexact := Gauge.effective_exact hmax
  rw [Gauge.inRange_iff, Gauge.lower]
  simp only [decide_eq_true_eq]
  split
  · omega
  · rename_i hle
    rw [lt16] at hle
    omega

theorem gauges_clampHpMp (c : Client) :
    (clampHpMp c).character.hpGauge = c.character.hpGauge.lower ∧
      (clampHpMp c).character.mpGauge = c.character.mpGauge.lower := by
  rw [clampHpMp]
  split <;> exact ⟨rfl, rfl⟩

/-- Without a weapon there is no projectile; that makes no difference here. -/
theorem dropProjectile_eq (chr : Character) (slot : UInt32) :
    ∃ a, dropProjectile chr slot = chr.setActiveProjectile a := by
  rw [dropProjectile]
  split
  · exact ⟨noProjectile, rfl⟩
  · exact ⟨chr.activeProjectile, rfl⟩

theorem HpMpInRange.unequip {slot : UInt32} {dst : UInt8} {b : Bool} (h : HpMpInRange c.character)
    (hsafe : TakeOffSafe c.character slot dst) (hcall : clientUnequip c slot dst = .ok (b, c')) :
    HpMpInRange c'.character := by
  obtain rfl | ⟨i, j, hv, hi, hj, hc⟩ := clientUnequip_takes hcall
  · exact h
  · obtain ⟨hhp, hmp⟩ := hsafe i j hv hi hj
    obtain ⟨h0, h1, _⟩ := Gauge.inRange_iff.1 h.hp
    obtain ⟨h0', h1', _⟩ := Gauge.inRange_iff.1 h.mp
    obtain ⟨a, hdrop⟩ := dropProjectile_eq c.character slot
    rw [hc, hdrop]
    refine ⟨?_, ?_⟩
    · rw [(gauges_clampHpMp _).1, Client.character_setCharacter, gauges_takeOff.1]
      exact inRange_lower ⟨h0, h1⟩ hhp
    · rw [(gauges_clampHpMp _).2, Client.character_setCharacter, gauges_takeOff.2]
      exact inRange_lower ⟨h0', h1'⟩ hmp

end Equip

/-! ## Levels -/

section Levels

variable {env : Env}

/-- What is added to the maximum of hit points with a level. -/
def levelHp (chr : Character) (r : ℕ × ℕ) : List ℤ :=
  ((levelHpMp chr.job r).map fun p => (p.1 : ℤ)).toList

/-- What is added to the maximum of mana with a level: at random, by the skill of a mage, and
    for intelligence. -/
def levelMp (env : Env) (chr : Character) (r : ℕ × ℕ) : List ℤ :=
  ((levelHpMp chr.job r).map fun p => (p.2 : ℤ)).toList ++
    ((mageSkill env chr).map fun skill => skill.level.toInt * 2).toList ++
    [(characterGetEffectiveInt chr).toInt.tdiv (if isMage chr.job then 20 else 10)]

/-- A level does not overflow a maximum, and leaves none negative. -/
def LevelSafe (env : Env) (r : ℕ × ℕ) (chr : Character) : Prop :=
  -32768 ≤ chr.int_.toInt + chr.eint.toInt ∧
    RaisesTo chr.eMaxHp.toInt chr.maxHp.toInt (levelHp chr r) ∧
    RaisesTo chr.eMaxMp.toInt chr.maxMp.toInt (levelMp env chr r)

/-- The sum of a maximum and its bonuses, before it is stored in 16 bits. -/
def effectiveSum (base : Int16) (extra : Int32) (max : ℤ) : ℤ :=
  if base.toInt > max - extra.toInt then max else base.toInt + extra.toInt

/-- The numbers that are stored in 16 bits with a level. -/
def levelSums (env : Env) (r : ℕ × ℕ) (chr : Character) : List ℤ :=
  effectiveSum chr.int_ chr.eint 32767 :: raiseSums chr.maxHp (levelHp chr r) ++
    raiseSums chr.maxMp (levelMp env chr r) ++
    [effectiveSum (raiseAll chr.maxHp (levelHp chr r)) chr.eMaxHp 30000,
      effectiveSum (raiseAll chr.maxMp (levelMp env chr r)) chr.eMaxMp 30000]

/-- A character whose maxima have been raised, and nothing else. -/
structure Raised (chr chr' : Character) (l l' : List ℤ) : Prop where
  eq : chr' = { chr with maxHp := raiseAll chr.maxHp l, maxMp := raiseAll chr.maxMp l' }

section Raised

variable {chr chr' : Character} {l l' : List ℤ}

theorem raiseAll_append {m : Int16} : raiseAll m (l ++ l') = raiseAll (raiseAll m l) l' :=
  List.foldl_append

theorem Raised.refl : Raised chr chr [] [] := ⟨rfl⟩

theorem Raised.hp (h : Raised chr chr' l l') (n : ℤ) :
    Raised chr (characterSetMaxHp chr' (Int16.ofInt (chr'.maxHp.toInt + n))) (l ++ [n]) l' := by
  obtain ⟨rfl⟩ := h
  exact ⟨by rw [raiseAll_append]; rfl⟩

theorem Raised.mp (h : Raised chr chr' l l') (n : ℤ) :
    Raised chr (characterSetMaxMp chr' (Int16.ofInt (chr'.maxMp.toInt + n))) l (l' ++ [n]) := by
  obtain ⟨rfl⟩ := h
  exact ⟨by rw [raiseAll_append]; rfl⟩

theorem Raised.frame (h : Raised chr chr' l l') : chr'.job = chr.job ∧
    characterGetEffectiveInt chr' = characterGetEffectiveInt chr := by
  obtain ⟨rfl⟩ := h
  exact ⟨rfl, rfl⟩

theorem Raised.mageSkill_eq (h : Raised chr chr' l l') : mageSkill env chr' = mageSkill env chr := by
  obtain ⟨rfl⟩ := h
  rfl

theorem Raised.fillHp (h : Raised chr chr' l l') (n m : Int16) :
    (characterSetMp (characterSetHp chr' n) m).hpGauge =
      ({ chr.hpGauge with max := raiseAll chr.maxHp l } : Gauge).set n := by
  obtain ⟨rfl⟩ := h
  rfl

theorem Raised.fillMp (h : Raised chr chr' l l') (n m : Int16) :
    (characterSetMp (characterSetHp chr' n) m).mpGauge =
      ({ chr.mpGauge with max := raiseAll chr.maxMp l' } : Gauge).set m := by
  obtain ⟨rfl⟩ := h
  rfl

end Raised

theorem raised_raiseByLevel (r : ℕ × ℕ) (chr : Character) :
    Raised chr (raiseByLevel r chr) (levelHp chr r)
      ((levelHpMp chr.job r).map fun p => (p.2 : ℤ)).toList := by
  rw [raiseByLevel, levelHp]
  rcases levelHpMp chr.job r with _ | ⟨hp, mp⟩
  · exact .refl
  · exact (Raised.refl.hp hp).mp mp

theorem Raised.raiseBySkill {chr chr' : Character} {l l' : List ℤ} (h : Raised chr chr' l l') :
    Raised chr (raiseBySkill env chr') l
      (l' ++ ((mageSkill env chr).map fun skill => skill.level.toInt * 2).toList) := by
  rw [Syrup.raiseBySkill, h.mageSkill_eq]
  rcases mageSkill env chr with _ | skill
  · rw [Option.map_none, Option.toList_none, List.append_nil]
    exact h
  · exact h.mp _

theorem Raised.raiseByInt {chr chr' : Character} {l l' : List ℤ} (h : Raised chr chr' l l') :
    Raised chr (raiseByInt chr') l
      (l' ++ [(characterGetEffectiveInt chr).toInt.tdiv (if isMage chr.job then 20 else 10)]) := by
  obtain ⟨hjob, hint⟩ := h.frame
  rw [← hjob, ← hint]
  exact h.mp _

/-- The character before both gauges are filled. -/
theorem raised_levelMp (r : ℕ × ℕ) (chr : Character) :
    Raised chr (raiseByInt (raiseBySkill env (raiseByLevel r chr))) (levelHp chr r)
      (levelMp env chr r) := by
  have hskill := @Raised.raiseBySkill env _ _ _ _ (raised_raiseByLevel r chr)
  exact hskill.raiseByInt

/-- A maximum that has been raised, and what there is set to it. -/
theorem inRange_raise {g : Gauge} {l : List ℤ} (h : RaisesTo g.extra.toInt g.max.toInt l)
    (n : Int16) : (({ g with max := raiseAll g.max l } : Gauge).set n).InRange := by
  obtain ⟨hmax, _⟩ := raiseAll_spec h
  exact @Gauge.inRange_set { g with max := raiseAll g.max l } hmax n

theorem inRange_gainHpMp {r : ℕ × ℕ} {chr : Character} (h : LevelSafe env r chr) :
    HpMpInRange (gainHpMp env r chr) := by
  have hraised := @raised_levelMp env r chr
  refine ⟨?_, ?_⟩
  · rw [gainHpMp, hraised.fillHp]
    exact inRange_raise h.2.1 _
  · rw [gainHpMp, hraised.fillMp]
    exact inRange_raise h.2.2 _

theorem fits_effectiveSum {base : Int16} {extra : Int32} {max : ℤ} (hmax : Fits16 max)
    (h : -32768 ≤ base.toInt + extra.toInt) : Fits16 (effectiveSum base extra max) := by
  rw [effectiveSum]
  rw [Fits16] at hmax ⊢
  split <;> omega

theorem fits_levelSums {r : ℕ × ℕ} {chr : Character} (h : LevelSafe env r chr) :
    ∀ n ∈ levelSums env r chr, Fits16 n := by
  obtain ⟨hint, hhp, hmp⟩ := h
  obtain ⟨hhp, hhpSums⟩ := raiseAll_spec hhp
  obtain ⟨hmp, hmpSums⟩ := raiseAll_spec hmp
  intro n hn
  simp only [levelSums, List.cons_append, List.append_assoc, List.mem_cons, List.mem_append,
    List.not_mem_nil, or_false] at hn
  obtain rfl | hn | hn | rfl | rfl := hn
  · exact fits_effectiveSum ⟨by decide, by decide⟩ hint
  · exact hhpSums n hn
  · exact hmpSums n hn
  · exact fits_effectiveSum ⟨by decide, by decide⟩ (by omega)
  · exact fits_effectiveSum ⟨by decide, by decide⟩ (by omega)

/-- The levels that experience makes are all safe. -/
def LevelsSafe (env : Env) (rand : ℕ → ℕ × ℕ) : ℕ → Client → Int32 → Prop
  | 0, _, _ => True
  | n + 1, c, exp => ∀ exp' chr, characterGainExp c.character exp = .ok (exp', chr) → 0 ≤ exp' →
    LevelSafe env (rand n) (gainPoints (c.setCharacter chr)).character ∧
      LevelsSafe env rand n (gainLevel env (rand n) (c.setCharacter chr)) exp'

/-- The numbers that are stored in 16 bits with the levels that experience makes. -/
def levelsSums (env : Env) (rand : ℕ → ℕ × ℕ) : ℕ → Client → Int32 → List ℤ
  | 0, _, _ => []
  | n + 1, c, exp =>
    match characterGainExp c.character exp with
    | .error _ => []
    | .ok (exp, chr) =>
      if exp < 0 then []
      else levelSums env (rand n) (gainPoints (c.setCharacter chr)).character ++
        levelsSums env rand n (gainLevel env (rand n) (c.setCharacter chr)) exp

theorem gauges_characterGainExp {chr chr' : Character} {exp exp' : Int32}
    (h : characterGainExp chr exp = .ok (exp', chr')) :
    chr'.hpGauge = chr.hpGauge ∧ chr'.mpGauge = chr.mpGauge := by
  obtain ⟨_, e, rfl⟩ | ⟨_, rfl⟩ := characterGainExp_cases h
  · exact ⟨rfl, rfl⟩
  · exact ⟨rfl, rfl⟩

theorem HpMpInRange.gainLevels {rand : ℕ → ℕ × ℕ} {n : ℕ} {c c' : Client} {exp : Int32}
    (h : HpMpInRange c.character) (hsafe : LevelsSafe env rand n c exp)
    (hcall : gainLevels env rand n c exp = .ok c') :
    HpMpInRange c'.character ∧ ∀ k ∈ levelsSums env rand n c exp, Fits16 k := by
  induction n generalizing c exp with
  | zero => cases hcall
  | succ n ih =>
    obtain ⟨⟨exp', chr⟩, hgain, hcall⟩ := Exec.bind_eq_ok.1 hcall
    obtain ⟨hhp, hmp⟩ := gauges_characterGainExp hgain
    rw [levelsSums, hgain]
    simp only at hcall ⊢
    split at hcall
    · rename_i hneg
      cases hcall
      rw [if_pos hneg]
      exact ⟨⟨hhp ▸ h.hp, hmp ▸ h.mp⟩, fun _ hk => absurd hk List.not_mem_nil⟩
    · rename_i hpos
      obtain ⟨hlevel, hlevels⟩ := hsafe exp' chr hgain (Int32.not_lt.1 hpos)
      obtain ⟨hrange, hsums⟩ := ih (inRange_gainHpMp hlevel) hlevels hcall
      rw [if_neg hpos]
      refine ⟨hrange, fun k hk => ?_⟩
      rcases List.mem_append.1 hk with hk | hk
      · exact fits_levelSums hlevel k hk
      · exact hsums k hk

end Levels

/-! ## Jobs -/

section Jobs

variable {c : Client}

/-- A job that raises a maximum above `30000` lowers it to `30000`: that is still what there is. -/
def JobSafe (job : UInt16) (r : ℕ × ℕ) (chr : Character) : Prop :=
  ((jobHpMp job r).1.isSome → 30000 < chr.maxHp.toInt →
    chr.hp.toInt ≤ 30000 + chr.eMaxHp.toInt) ∧
  ((jobHpMp job r).2.isSome → 30000 < chr.maxMp.toInt →
    chr.mp.toInt ≤ 30000 + chr.eMaxMp.toInt)

/-- The numbers that are stored in 16 bits with a job. -/
def jobSums (job : UInt16) (r : ℕ × ℕ) (chr : Character) : List ℤ :=
  ((jobHpMp job r).1.map (raisedMax chr.maxHp)).toList ++
    ((jobHpMp job r).2.map (raisedMax chr.maxMp)).toList

/-- What comes with a job is neither negative nor much. -/
theorem jobHpMp_bounds {job : UInt16} {r : ℕ × ℕ} {n : ℤ}
    (h : (jobHpMp job r).1 = some n ∨ (jobHpMp job r).2 = some n) : 0 ≤ n ∧ n ≤ 500 := by
  have hlow := Int.tmod_lt_of_pos (Int16.ofInt r.1).toInt (show (0 : ℤ) < 51 by decide)
  have hhigh := Int.lt_tmod_of_pos (Int16.ofInt r.1).toInt (show (0 : ℤ) < 51 by decide)
  rw [jobHpMp] at h
  split_ifs at h <;> grind

/-- A maximum that is raised with a job is raised to no more than `30000`. -/
theorem raisedMax_eq {max : Int16} {n : ℤ} (h : 0 ≤ n) (h' : n ≤ 500) :
    raisedMax max n = min 30000 (max.toInt + n) := by
  have hmax := bounds16 max
  rw [raisedMax]
  split
  · rw [ofInt16 (by omega) (by omega)]
    omega
  · omega

theorem inRange_job {g : Gauge} (h : g.InRange) {n : ℤ} (hn : 0 ≤ n) (hn' : n ≤ 500)
    (hsafe : 30000 < g.max.toInt → g.now.toInt ≤ 30000 + g.extra.toInt) :
    ({ g with max := setMax (Int16.ofInt (raisedMax g.max n)) } : Gauge).InRange ∧
      Fits16 (raisedMax g.max n) := by
  have hmax := bounds16 g.max
  have hraised := @raisedMax_eq g.max n hn hn'
  have hfits : Fits16 (raisedMax g.max n) := by
    rw [Fits16]
    omega
  obtain ⟨h0, h1, h2⟩ := Gauge.inRange_iff.1 h
  refine ⟨?_, hfits⟩
  rw [Gauge.inRange_iff]
  simp only [toInt_setMax hfits, clampMax]
  omega

/-- The maximum that a job raises, if it raises one. -/
def raiseMax (m : Int16) : Option ℤ → Int16
  | none => m
  | some n => setMax (Int16.ofInt (raisedMax m n))

/-- The gauges of a character that has changed its job. -/
theorem gauges_clientChangeJob (c : Client) (job : UInt16) (r : ℕ × ℕ) :
    (clientChangeJob c job r).character.hpGauge = { c.character.hpGauge with
      max := raiseMax c.character.maxHp (jobHpMp job r).1 } ∧
    (clientChangeJob c job r).character.mpGauge = { c.character.mpGauge with
      max := raiseMax c.character.maxMp (jobHpMp job r).2 } := by
  rw [clientChangeJob]
  rcases (jobHpMp job r).1 with _ | n <;> rcases (jobHpMp job r).2 with _ | m <;>
    exact ⟨rfl, rfl⟩

/-- One of the two gauges of a character that has changed its job. -/
theorem inRange_raiseMax {g : Gauge} (h : g.InRange) {o : Option ℤ}
    (ho : ∀ n, o = some n → 0 ≤ n ∧ n ≤ 500)
    (hsafe : o.isSome → 30000 < g.max.toInt → g.now.toInt ≤ 30000 + g.extra.toInt) :
    ({ g with max := raiseMax g.max o } : Gauge).InRange ∧
      ∀ k ∈ (o.map (raisedMax g.max)).toList, Fits16 k := by
  rcases o with _ | n
  · exact ⟨h, fun _ hk => absurd hk List.not_mem_nil⟩
  · obtain ⟨hn, hn'⟩ := ho n rfl
    obtain ⟨hrange, hfits⟩ := inRange_job h hn hn' (hsafe rfl)
    refine ⟨hrange, fun k hk => ?_⟩
    rw [Option.map_some, Option.toList_some, List.mem_singleton] at hk
    rwa [hk]

theorem HpMpInRange.changeJob {job : UInt16} {r : ℕ × ℕ} (h : HpMpInRange c.character)
    (hsafe : JobSafe job r c.character) :
    HpMpInRange (clientChangeJob c job r).character ∧
      ∀ n ∈ jobSums job r c.character, Fits16 n := by
  obtain ⟨hhp, hmp⟩ := gauges_clientChangeJob c job r
  obtain ⟨hhp', hhpSums⟩ := inRange_raiseMax h.hp (fun n hn => jobHpMp_bounds (.inl hn)) hsafe.1
  obtain ⟨hmp', hmpSums⟩ := inRange_raiseMax h.mp (fun n hn => jobHpMp_bounds (.inr hn)) hsafe.2
  refine ⟨⟨hhp ▸ hhp', hmp ▸ hmp'⟩, fun n hn => ?_⟩
  rcases List.mem_append.1 hn with hn | hn
  · exact hhpSums n hn
  · exact hmpSums n hn

end Jobs

/-! ## Runs -/

section Runs

variable {env : Env} {c c' : Client}

/-- The client when experience starts to make levels. -/
def announceExp (c : Client) (exp : Int32) (reward : Bool) : Client :=
  (c.send (if reward then .expGainInChat exp else .expGain exp)).mark statExp

/-- The steps that keep hit points and mana in range. -/
def HpMpSafe (env : Env) : HpMpAction → Client → Prop
  | .useItem slot id, c => ∀ info, usedItem env c slot id = some info → HealSafe c.character info
  | .useItemImmediate _ id, c => ∀ info, env.consumableInfo id = some info →
      HealSafe c.character info
  | .equip src slot, c => PutOnSafe c.character src slot
  | .unequip slot dst, c => TakeOffSafe c.character slot dst
  | .gainExp rand exp reward, c => LevelsSafe env rand 202 (announceExp c exp reward) exp
  | .changeJob job r, c => JobSafe job r c.character
  | _, _ => True

/-- The numbers that a call stores in 16 bits on the way to its result. -/
def HpMpAction.sums (env : Env) : HpMpAction → Client → List ℤ
  | adjustHp hp, c => [adjustedHp c.character.hp hp]
  | adjustMp mp, c => [adjustedMp c.character.mp mp]
  | useItem slot id, c => ((usedItem env c slot id).map (consumeSums c.character)).getD []
  | useItemImmediate _ id, c => ((env.consumableInfo id).map (consumeSums c.character)).getD []
  | gainExp rand exp reward, c => levelsSums env rand 202 (announceExp c exp reward) exp
  | changeJob job r, c => jobSums job r c.character
  | _, _ => []

theorem fits_adjustedHp {current : Int16} (hp : Int32) : Fits16 (adjustedHp current hp) := by
  have hb := bounds16 current
  rw [adjustedHp, Fits16]
  split
  · omega
  · split <;> omega

theorem fits_adjustedMp {current : Int16} (h : 0 ≤ current) (mp : Int16) :
    Fits16 (adjustedMp current mp) := by
  have hb := bounds16 current
  have hb' := bounds16 mp
  rw [le16, zero16] at h
  rw [adjustedMp, Fits16]
  split <;> omega

theorem HpMpInRange.setHp {chr : Character} (h : HpMpInRange chr) (n : Int16) :
    HpMpInRange (characterSetHp chr n) := by
  obtain ⟨h0, _, h2⟩ := Gauge.inRange_iff.1 h.hp
  exact ⟨Gauge.inRange_set (g := chr.hpGauge) (by omega) n, h.mp⟩

theorem HpMpInRange.setMp {chr : Character} (h : HpMpInRange chr) (n : Int16) :
    HpMpInRange (characterSetMp chr n) := by
  obtain ⟨h0, _, h2⟩ := Gauge.inRange_iff.1 h.mp
  exact ⟨h.hp, Gauge.inRange_set (g := chr.mpGauge) (by omega) n⟩

/-- A safe step keeps hit points and mana in range, and overflows nowhere. -/
theorem HpMpInRange.step {a : HpMpAction} (h : HpMpInRange c.character) (hsafe : HpMpSafe env a c)
    (hstep : a.step env c = .ok c') :
    HpMpInRange c'.character ∧ ∀ n ∈ a.sums env c, Fits16 n := by
  have hnone : ∀ n ∈ ([] : List ℤ), Fits16 n := fun _ hn => absurd hn List.not_mem_nil
  cases a with
  | adjustHp hp =>
    cases hstep
    refine ⟨?_, fun n hn => ?_⟩
    · rw [clientAdjustHp, clientSetHp]
      split
      · exact h
      · exact h.setHp _
    · rw [HpMpAction.sums, List.mem_singleton] at hn
      rw [hn]
      exact fits_adjustedHp hp
  | adjustMp mp =>
    cases hstep
    refine ⟨?_, fun n hn => ?_⟩
    · rw [clientAdjustMp, clientSetMp]
      split
      · exact h
      · exact h.setMp _
    · rw [HpMpAction.sums, List.mem_singleton] at hn
      rw [hn]
      exact fits_adjustedMp h.mp.nonneg mp
  | setHpNow hp =>
    cases hstep
    exact ⟨h.setHp hp, hnone⟩
  | useItem slot id =>
    cases hstep
    refine ⟨h.useItem hsafe, fun n hn => ?_⟩
    rw [HpMpAction.sums] at hn
    rcases hused : usedItem env c slot id with _ | info
    · rw [hused] at hn
      exact hnone n hn
    · rw [hused] at hn
      exact (h.consume (hsafe info hused)).2 n hn
  | useItemImmediate alloc id =>
    obtain ⟨⟨b, _⟩, hcall, hstep⟩ := Exec.bind_eq_ok.1 hstep
    cases hstep
    refine ⟨h.useItemImmediate hsafe hcall, fun n hn => ?_⟩
    rw [HpMpAction.sums] at hn
    rcases hinfo : env.consumableInfo id with _ | info
    · rw [hinfo] at hn
      exact hnone n hn
    · rw [hinfo] at hn
      exact (h.consume (hsafe info hinfo)).2 n hn
  | equip src slot =>
    obtain ⟨⟨b, _⟩, hcall, hstep⟩ := Exec.bind_eq_ok.1 hstep
    cases hstep
    exact ⟨h.equip hsafe hcall, hnone⟩
  | unequip slot dst =>
    obtain ⟨⟨b, _⟩, hcall, hstep⟩ := Exec.bind_eq_ok.1 hstep
    cases hstep
    exact ⟨h.unequip hsafe hcall, hnone⟩
  | gainExp rand exp reward =>
    have hstart : HpMpInRange (announceExp c exp reward).character := h
    exact hstart.gainLevels hsafe hstep
  | changeJob job r =>
    cases hstep
    exact h.changeJob hsafe

/-- In a run whose steps are safe, hit points and mana are in range in every state; and no
    further safe step overflows on its way. -/
theorem hpMp_run (h : HpMpInRange c.character)
    (hrun : Machine.Run (HpMpAction.step env) (HpMpSafe env) c c') :
    HpMpInRange c'.character ∧ ∀ a c'', a.step env c' = .ok c'' → HpMpSafe env a c' →
      ∀ n ∈ a.sums env c', Fits16 n := by
  have hrange : HpMpInRange c'.character :=
    hrun.invariant (I := fun c => HpMpInRange c.character) h
      fun _ _ _ h hsafe hstep => (h.step hsafe hstep).1
  exact ⟨hrange, fun a c'' hstep hsafe => (hrange.step hsafe hstep).2⟩

/-! ### Runs with a hat -/

/-- A run in which hit points are lost, and those of a job gained. -/
theorem hpMp_run_job : HpMpInRange (Client.new default).character ∧
    HpMpInRange (clientChangeJob (clientAdjustHp (.new default) (-10)) 100 (0, 0)).character := by
  have h : HpMpInRange (Client.new default).character := by
    refine ⟨?_, ?_⟩ <;> rw [Gauge.inRange_iff] <;> decide
  have hjob : JobSafe 100 (0, 0) (clientAdjustHp (.new default) (-10)).character := by
    refine ⟨fun _ => ?_, fun _ => ?_⟩ <;> decide
  have hrun : Machine.Run (HpMpAction.step (.ofLists [] [] [] [])) (HpMpSafe (.ofLists [] [] [] []))
      (.new default) (clientChangeJob (clientAdjustHp (.new default) (-10)) 100 (0, 0)) :=
    .step (.changeJob 100 (0, 0)) (.step (.adjustHp (-10)) .start True.intro rfl) hjob rfl
  exact ⟨h, (hpMp_run h hrun).1⟩

/-- A character that wears a hat with a bonus of 100 hit points, and carries another one with none. -/
def hatCharacter : Character :=
  { (default : Character) with
    hp := 150, eMaxHp := 100
    equippedEquipment := fun i =>
      if i = 0 then .full { (Equipment.plain 1002000) with hp := 100 } else ⟨true, default⟩
    equipmentInventory := (Inventory.empty).set 0 (.full (.plain 1002001)) }

/-- The hats are exchanged: the character has more hit points than it can have. -/
theorem hpMp_not_inRange : ¬ ∀ env c c', HpMpInRange c.character →
    Machine.Run (HpMpAction.step env) (fun _ _ => True) c c' → HpMpInRange c'.character := by
  intro hall
  have h : HpMpInRange (Client.new hatCharacter).character := by
    refine ⟨?_, ?_⟩ <;> rw [Gauge.inRange_iff] <;> decide
  have hcall : ((HpMpAction.equip 1 1).step (.ofLists [] [] [] []) (.new hatCharacter)).Returns
      fun c => c.character.hpGauge.effective < c.character.hpGauge.now := by
    decide +kernel
  obtain ⟨c', hstep, hlt⟩ := Exec.returns_iff.1 hcall
  have hrange : HpMpInRange c'.character := hall (.ofLists [] [] [] []) (.new hatCharacter) c' h
    (.step (.equip 1 1) .start True.intro hstep)
  exact absurd hrange.hp.le (Int16.not_le.2 hlt)

end Runs

end Syrup
