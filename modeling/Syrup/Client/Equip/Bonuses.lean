import Syrup.Client.Action
import Syrup.Client.Login
import Syrup.Lib.Machine

/-!
# The bonuses of what is worn

The six sums of bonuses should agree with what is worn (`BonusesAgree`). They do in every state of a
run from the login whose steps are all safe (`bonuses_agree`): nothing with a bonus is removed while
it is worn, and nothing is taken off where nothing is worn, as far as the bonuses of the
stale payload make a difference; and no two pieces that have been saved as worn share a
slot, as far as the first has a bonus.
-/

namespace Syrup

open Slots Machine

/-! ## Bonuses -/

/-- The six bonuses. -/
inductive Bonus
  | str
  | dex
  | int
  | luk
  | hp
  | mp

/-- The sum of a bonus that a character keeps. -/
def Character.bonus (chr : Character) : Bonus → Int32
  | .str => chr.estr
  | .dex => chr.edex
  | .int => chr.eint
  | .luk => chr.eluk
  | .hp => chr.eMaxHp
  | .mp => chr.eMaxMp

/-- A bonus of a piece of equipment. -/
def Equipment.bonus (e : Equipment) : Bonus → Int16
  | .str => e.str
  | .dex => e.dex
  | .int => e.int_
  | .luk => e.luk
  | .hp => e.hp
  | .mp => e.mp

/-- A bonus as a weight. -/
def bonusWeight (b : Bonus) (e : Equipment) : ℤ := (e.bonus b).toInt

/-- Every sum is the sum of the bonus over what is worn. -/
def BonusesAgree (chr : Character) : Prop :=
  ∀ b, (chr.bonus b).toInt = weigh (bonusWeight b) chr.worn

@[simp] theorem bonus_addBonuses (chr : Character) (e : Equipment) (b : Bonus) :
    (chr.addBonuses e).bonus b = chr.bonus b + (e.bonus b).toInt32 := by
  cases b <;> rfl

@[simp] theorem bonus_subBonuses (chr : Character) (e : Equipment) (b : Bonus) :
    (chr.subBonuses e).bonus b = chr.bonus b - (e.bonus b).toInt32 := by
  cases b <;> rfl

theorem one_bonusWeight_bounds (b : Bonus) (o : Option Equipment) :
    -32768 ≤ one (bonusWeight b) o ∧ one (bonusWeight b) o ≤ 32767 := by
  cases o with
  | none => simp
  | some e => exact bounds16 (e.bonus b)

/-- The sum over the 64 slots does not overflow. -/
theorem weigh_bonus_bounds (b : Bonus) (v : Fin equipSlotCount → Option Equipment) :
    -2 ^ 31 ≤ weigh (bonusWeight b) v ∧ weigh (bonusWeight b) v < 2 ^ 31 := by
  have hle := Finset.sum_le_card_nsmul Finset.univ (fun i => one (bonusWeight b) (v i)) 32767
    fun i _ => (one_bonusWeight_bounds b (v i)).2
  have hge := Finset.card_nsmul_le_sum Finset.univ (fun i => one (bonusWeight b) (v i)) (-32768)
    fun i _ => (one_bonusWeight_bounds b (v i)).1
  rw [Finset.card_univ, Fintype.card_fin] at hle hge
  rw [weigh]
  exact ⟨le_trans (by norm_num [equipSlotCount]) hge, lt_of_le_of_lt hle (by norm_num [equipSlotCount])⟩

/-- The sums agree if they do up to overflows. -/
theorem bonusesAgree_iff {chr : Character} :
    BonusesAgree chr ↔ ∀ b, chr.bonus b = Int32.ofInt (weigh (bonusWeight b) chr.worn) := by
  refine forall_congr' fun b => ?_
  obtain ⟨hge, hlt⟩ := weigh_bonus_bounds b chr.worn
  rw [← Int32.toInt_inj, Int32.toInt_ofInt_of_le hge hlt]

theorem toInt32_bonus (e : Equipment) (b : Bonus) :
    (e.bonus b).toInt32 = Int32.ofInt (bonusWeight b e) := by
  rw [bonusWeight, ← Int16.toInt_toInt32, Int32.ofInt_toInt]

/-! ## Rewriting a slot -/

section Rewrite

variable {chr chr' : Character} {j : Fin equipSlotCount} {o : Option Equipment}

/-- Sums that agree still do after a slot has been rewritten, if the difference has been
    added. -/
theorem BonusesAgree.rewrite (h : BonusesAgree chr) (hworn : chr'.worn = Function.update chr.worn j o)
    (hb : ∀ b, chr'.bonus b = chr.bonus b +
      Int32.ofInt (one (bonusWeight b) o - one (bonusWeight b) (chr.worn j))) :
    BonusesAgree chr' := by
  rw [bonusesAgree_iff] at h ⊢
  intro b
  rw [hb, h b, hworn, weigh_update_eq, ← Int32.ofInt_add]
  congr 1
  ring

/-- Sums that agree still do if neither they nor what is worn has changed. -/
theorem BonusesAgree.congr (h : BonusesAgree chr)
    (hworn : chr'.equippedEquipment = chr.equippedEquipment)
    (hb : ∀ b, chr'.bonus b = chr.bonus b) : BonusesAgree chr' := by
  intro b
  rw [hb, h b]
  rw [Character.worn_congr hworn]

end Rewrite

/-! ## Steps -/

section Steps

variable {chr : Character} {i : Fin maxItemCount} {j : Fin equipSlotCount}

/-- Putting on keeps the sums. -/
theorem BonusesAgree.putOn (h : BonusesAgree chr) : BonusesAgree (putOn chr i j) := by
  rw [Syrup.putOn]
  split
  · rename_i hj
    refine h.rewrite (Character.worn_of_update rfl) fun b => ?_
    rw [Character.worn, Cell.get?_full, Cell.get?_of_isEmpty hj, one_some, one_none, sub_zero,
      ← toInt32_bonus, ← bonus_addBonuses]
    cases b <;> rfl
  · rename_i hj
    rw [Bool.not_eq_true] at hj
    refine h.rewrite (Character.worn_of_update rfl) fun b => ?_
    rw [Character.worn, Cell.get?_write hj, Cell.get?_of_not_isEmpty hj, one_some, one_some,
      Int32.ofInt_sub, ← toInt32_bonus, ← toInt32_bonus]
    have hb : ((chr.subBonuses (chr.equippedEquipment j).val).addBonuses
        (chr.equipmentInventory.items i).val).bonus b = chr.bonus b +
          (((chr.equipmentInventory.items i).val.bonus b).toInt32 -
            ((chr.equippedEquipment j).val.bonus b).toInt32) := by
      rw [bonus_addBonuses, bonus_subBonuses]
      grind
    rw [← hb]
    cases b <;> rfl

/-- Taking off is even if something is worn, or the stale payload has the bonuses of what is put in
    its place. -/
def TakesOffEvenly (chr : Character) (j : Fin equipSlotCount) (i : Fin maxItemCount) : Prop :=
  (chr.equippedEquipment j).isEmpty = false ∨
    ∀ b, (chr.equippedEquipment j).val.bonus b =
      if (chr.equipmentInventory.items i).isEmpty then 0
      else (chr.equipmentInventory.items i).val.bonus b

theorem bonus_takeOff (b : Bonus) : (takeOff chr j i).bonus b =
    chr.bonus b - ((chr.equippedEquipment j).val.bonus b).toInt32 +
      (if (chr.equipmentInventory.items i).isEmpty then 0
      else (chr.equipmentInventory.items i).val.bonus b).toInt32 := by
  rw [takeOff]
  split
  · rw [toInt32_zero, Int32.add_zero, ← bonus_subBonuses]
    cases b <;> rfl
  · rw [← bonus_subBonuses, ← bonus_addBonuses]
    cases b <;> rfl

/-- Taking off evenly keeps the sums. -/
theorem BonusesAgree.takeOff (h : BonusesAgree chr) (heven : TakesOffEvenly chr j i) :
    BonusesAgree (takeOff chr j i) := by
  refine h.rewrite (Character.worn_of_update equippedEquipment_takeOff) fun b => ?_
  rw [bonus_takeOff, Character.worn]
  cases hj : (chr.equippedEquipment j).isEmpty with
  | false =>
    rw [Cell.get?_of_not_isEmpty hj, one_some, Int32.ofInt_sub, ← toInt32_bonus]
    split
    · rw [Cell.get?_emptied, one_none, toInt32_zero]
      grind
    · rw [Cell.get?_write hj, one_some, ← toInt32_bonus]
      grind
  | true =>
    -- Nothing is worn, and nothing will be.
    have hzero := heven.resolve_left (by rw [hj]; decide) b
    have hnone : (if (chr.equipmentInventory.items i).isEmpty then (chr.equippedEquipment j).emptied
        else (chr.equippedEquipment j).write (chr.equipmentInventory.items i).val).get? = none := by
      split
      · rfl
      · rw [Cell.get?_of_isEmpty]
        rwa [Cell.isEmpty_write]
    rw [hnone, Cell.get?_of_isEmpty hj, ← hzero, sub_self, ofInt_zero]
    grind

/-- Emptying a slot keeps the sums, if what was worn there has no bonus. -/
theorem BonusesAgree.setWorn_emptied (h : BonusesAgree chr)
    (hzero : ∀ e, chr.worn j = some e → ∀ b, e.bonus b = 0) :
    BonusesAgree (chr.setWorn j (chr.equippedEquipment j).emptied) := by
  refine h.rewrite (Character.worn_of_update rfl) fun b => ?_
  have hone : one (bonusWeight b) (chr.worn j) = 0 := by
    cases hj : chr.worn j with
    | none => rfl
    | some e => rw [one_some, bonusWeight, hzero e hj b, zero16]
  rw [Cell.get?_emptied, one_none, hone, sub_self, ofInt_zero, Int32.add_zero]
  cases b <;> rfl

end Steps

/-! ## The login -/

/-- A bonus that is saved. -/
def SavedEquipment.bonus (e : SavedEquipment) (b : Bonus) : Int16 := (e.load false default).bonus b

theorem bonus_load (e : SavedEquipment) (cash : Bool) (old : Equipment) (b : Bonus) :
    (e.load cash old).bonus b = e.bonus b := by
  cases b <;> rfl

/-- The slot in which something that has been saved as worn is worn. -/
def SavedEquipment.index (e : SavedEquipment) : Exec (Fin equipSlotCount) :=
  equipIndex (equipSlotFromId e.itemId)

/-- Of what has been saved as worn, nothing with a bonus is followed by something that is worn in
    the same slot. -/
def WornApart (l : List SavedEquipment) : Prop :=
  l.Pairwise fun e e' => e.index = e'.index → ∀ b, e.bonus b = 0

section Login

variable {env : Env} {chr chr' : Character}

/-- Loading what is worn keeps the sums, if what is replaced has no bonus. -/
theorem BonusesAgree.loadAllWorn {l : List SavedEquipment} (h : l.foldlM (loadWorn env) chr = .ok chr')
    (hl : WornApart l)
    (hfree : ∀ e ∈ l, ∀ j, e.index = .ok j → ∀ x, chr.worn j = some x → ∀ b, x.bonus b = 0)
    (hagree : BonusesAgree chr) : BonusesAgree chr' := by
  induction l generalizing chr with
  | nil =>
    cases h
    exact hagree
  | cons e l ih =>
    obtain ⟨he, hl⟩ := List.pairwise_cons.1 hl
    rw [List.foldlM_cons] at h
    obtain ⟨chr₁, h₁, h⟩ := Exec.bind_eq_ok.1 h
    obtain ⟨j, hj, h₁⟩ := Exec.bind_eq_ok.1 h₁
    obtain ⟨info, _, h₁⟩ := Exec.bind_eq_ok.1 h₁
    obtain ⟨equip, hequip⟩ : ∃ equip, equip = e.load info.cash (chr.equippedEquipment j).val := ⟨_, rfl⟩
    have hbonus (b : Bonus) : equip.bonus b = e.bonus b := hequip ▸ bonus_load ..
    rw [Exec.pure_eq_ok] at h₁
    simp only [← hequip] at h₁
    have hworn : chr₁.worn = Function.update chr.worn j (some equip) := by
      rw [← h₁]
      exact Character.worn_of_update (c := .full equip) rfl
    refine ih h hl (fun e' he' j' hj' x hx b => ?_) (hagree.rewrite hworn fun b => ?_)
    · rw [hworn] at hx
      by_cases hjj : j' = j
      · subst hjj
        rw [Function.update_self, Option.some.injEq] at hx
        rw [← hx, hbonus]
        exact he e' he' (hj.trans hj'.symm) b
      · rw [Function.update_of_ne hjj] at hx
        exact hfree e' (List.mem_cons_of_mem _ he') j' hj' x hx b
    · have hone : one (bonusWeight b) (chr.worn j) = 0 := by
        cases hx : chr.worn j with
        | none => rfl
        | some x =>
          rw [one_some, bonusWeight, hfree e List.mem_cons_self j hj x hx b, zero16]
      rw [hone, sub_zero, one_some, ← toInt32_bonus, ← h₁, bonus_addBonuses]
      cases b <;> rfl

/-- The sums agree after the login. -/
theorem BonusesAgree.loadHoldings {s : SavedCharacter} (h : loadHoldings env s chr = .ok chr')
    (hs : WornApart s.equippedEquipment) : BonusesAgree chr' := by
  obtain ⟨equipInv, _, h⟩ := Exec.bind_eq_ok.1 h
  obtain ⟨use, _, h⟩ := Exec.bind_eq_ok.1 h
  obtain ⟨setup, _, h⟩ := Exec.bind_eq_ok.1 h
  obtain ⟨etc, _, h⟩ := Exec.bind_eq_ok.1 h
  obtain ⟨cash, _, h⟩ := Exec.bind_eq_ok.1 h
  obtain ⟨chr₁, h₁, h⟩ := Exec.bind_eq_ok.1 h
  obtain ⟨chr₂, h₂, h⟩ := Exec.bind_eq_ok.1 h
  obtain ⟨chr₃, h₃, h⟩ := Exec.bind_eq_ok.1 h
  have hagree₁ : BonusesAgree chr₁ := by
    refine BonusesAgree.loadAllWorn h₁ hs (fun e _ j _ x hx => by cases hx) fun b => ?_
    have hworn (i : Fin equipSlotCount) : one (bonusWeight b) ((loadStats s chr).worn i) = 0 := rfl
    refine Eq.trans ?_ (Finset.sum_eq_zero fun i _ => hworn i).symm
    cases b <;> rfl
  have hagree₂ : BonusesAgree chr₂ := by
    refine Exec.foldlM_invariant h₂ (fun e _ chr chr' hagree he => ?_) hagree₁
    obtain ⟨i, _, he⟩ := Exec.bind_eq_ok.1 he
    obtain ⟨info, _, he⟩ := Exec.bind_eq_ok.1 he
    cases he
    exact hagree.congr rfl fun b => by cases b <;> rfl
  have hagree₃ : BonusesAgree chr₃ := by
    refine Exec.foldlM_invariant h₃ (fun e _ chr chr' hagree he => ?_) hagree₂
    obtain ⟨k, _, he⟩ := Exec.bind_eq_ok.1 he
    obtain ⟨i, _, he⟩ := Exec.bind_eq_ok.1 he
    cases he
    exact hagree.congr rfl fun b => by cases b <;> rfl
  rw [Exec.pure_eq_ok, loadProjectile] at h
  split at h
  · rw [← h]
    exact hagree₃.congr rfl fun b => by cases b <;> rfl
  · rw [← h]
    exact hagree₃.congr rfl fun b => by cases b <;> rfl

end Login

/-! ## Runs -/

/-- The steps that keep the sums: nothing that is worn is removed, but for what has no bonus, and
    what is taken off is taken off evenly. -/
def BonusSafe : Action → Client → Prop
  | .unequip slot dst, c => isValidEquipSlot slot = true → ∀ i j,
      c.character.equipmentInventory.index? (dst - 1).toNat = some i → equipIndex slot = .ok j →
        TakesOffEvenly c.character j i
  | .removeEquip true src, c => ∀ j, equipIndex src.toUInt32 = .ok j →
      ∀ e, c.character.worn j = some e → ∀ b, e.bonus b = 0
  | _, _ => True

section Runs

variable {env : Env} {c c' : Client}

/-! What neither is worn nor counts for the sums can be rewritten. -/

namespace BonusesAgree

variable {chr : Character}

theorem setActiveProjectile (h : BonusesAgree chr) (n : UInt8) :
    BonusesAgree (chr.setActiveProjectile n) :=
  h.congr rfl fun b => by cases b <;> rfl

theorem setInventory (h : BonusesAgree chr) (k : Fin inventoryCount)
    (inv : Inventory InventoryItem) : BonusesAgree (chr.setInventory k inv) :=
  h.congr rfl fun b => by cases b <;> rfl

theorem setEquipmentInventory (h : BonusesAgree chr) (inv : Inventory Equipment) :
    BonusesAgree (chr.setEquipmentInventory inv) :=
  h.congr rfl fun b => by cases b <;> rfl

theorem setItemQuests (h : BonusesAgree chr) (set : HashSet UInt32) :
    BonusesAgree (chr.setItemQuests set) :=
  h.congr rfl fun b => by cases b <;> rfl

theorem setHpMp (h : BonusesAgree chr) (hp mp : Int16) :
    BonusesAgree { chr with hp := hp, mp := mp } :=
  h.congr rfl fun b => by cases b <;> rfl

theorem setMesos (h : BonusesAgree chr) (m : Int32) : BonusesAgree { chr with mesos := m } :=
  h.congr rfl fun b => by cases b <;> rfl

theorem writeBack (h : BonusesAgree chr) (g : Gain) : BonusesAgree (g.writeBack chr) :=
  h.congr rfl fun b => by cases b <;> rfl

end BonusesAgree

/-- A safe step keeps the sums. -/
theorem BonusesAgree.step {a : Action} (h : BonusesAgree c.character) (hsafe : BonusSafe a c)
    (hstep : a.step env c = .ok c') : BonusesAgree c'.character := by
  cases a with
  | gainItems alloc items reward =>
    obtain ⟨⟨r, _⟩, hcall, hstep⟩ := Exec.bind_eq_ok.1 hstep
    cases hstep
    obtain ⟨_, rfl⟩ | ⟨_, rest, g, g', _, _, hc⟩ := clientGainItems_cases hcall
    · exact h
    · rw [hc]
      exact h.writeBack g'
  | gainInventoryItem alloc room item =>
    obtain ⟨⟨r, _⟩, hcall, hstep⟩ := Exec.bind_eq_ok.1 hstep
    cases hstep
    obtain ⟨set, hc⟩ | ⟨_, _, k, j, _, _, hc⟩ |
      ⟨_, info, k, items, s, set, _, _, _, _, ⟨_, hc⟩ | ⟨_, j, _, hc⟩⟩ :=
      clientGainInventoryItem_cases hcall
    · rw [hc]
      exact h.setItemQuests set
    · rw [hc]
      exact (h.setInventory k _).setActiveProjectile _
    · rw [hc]
      exact (h.setItemQuests set).setInventory k _
    · rw [hc]
      exact ((h.setItemQuests set).setInventory k _).setActiveProjectile _
  | gainEquipment alloc item now =>
    obtain ⟨⟨r, _⟩, hcall, hstep⟩ := Exec.bind_eq_ok.1 hstep
    cases hstep
    obtain rfl | ⟨j, set, hc⟩ := clientGainEquipment_cases hcall
    · exact h
    · rw [hc]
      exact (h.setItemQuests set).setEquipmentInventory _
  | removeItem alloc inventory src amount =>
    obtain ⟨⟨r, _⟩, hcall, hstep⟩ := Exec.bind_eq_ok.1 hstep
    cases hstep
    obtain rfl | ⟨k, i, set, _, _, _, hc⟩ := clientRemoveItem_cases hcall
    · exact h
    · rw [hc, removeStack]
      split
      · exact ((h.setItemQuests set).setInventory k _).setActiveProjectile _
      · exact (h.setItemQuests set).setInventory k _
  | useProjectile amount =>
    obtain ⟨⟨r, _⟩, hcall, hstep⟩ := Exec.bind_eq_ok.1 hstep
    cases hstep
    obtain rfl | ⟨_, active, _, ⟨_, _, rfl⟩ | ⟨slot, _, rfl⟩⟩ := clientUseProjectile_cases hcall
    · exact h
    · rw [finishShot]
      split
      · exact h.setActiveProjectile _
      · exact h
    · have hshot := h.setInventory useInventory ((c.character.inventory useInventory).set slot
        (shootFrom ((c.character.inventory useInventory).items slot) amount))
      rw [finishShot]
      split
      · exact hshot.setActiveProjectile _
      · exact hshot
  | removeEquip equipped src =>
    cases hstep
    obtain hc | ⟨rfl, j, hj, _, hc⟩ | ⟨rfl, i, _, hc⟩ := clientRemoveEquip_cases c equipped src
    · rwa [hc]
    · rw [hc]
      exact h.setWorn_emptied (hsafe j hj)
    · rw [hc]
      exact h.setEquipmentInventory _
  | moveItem inventory src dst =>
    obtain ⟨⟨r, _⟩, hcall, hstep⟩ := Exec.bind_eq_ok.1 hstep
    cases hstep
    obtain rfl | ⟨_, i, j, _, _, _, hc⟩ | ⟨k, i, j, mods, _, _, _, _, hmove⟩ :=
      clientMoveItem_cases hcall
    · exact h
    · rw [hc, moveEquip]
      split
      · exact h.setEquipmentInventory _
      · exact h.setInventory 1 _
    · have honly : OnlyStacks k c.character c'.character := by
        obtain ⟨_, hc⟩ | ⟨_, ⟨_, _, info, _, hc⟩ | ⟨_, hc⟩⟩ := moveStack_cases hmove
        · rw [hc]
          exact onlyStacks_moveToEmpty
        · rw [hc]
          exact onlyStacks_moveOnto
        · rw [hc]
          exact onlyStacks_moveSwap
      rw [honly]
      exact (h.setInventory k _).setActiveProjectile _
  | equip src slot =>
    obtain ⟨⟨r, _⟩, hcall, hstep⟩ := Exec.bind_eq_ok.1 hstep
    cases hstep
    obtain rfl | ⟨i, j, _, _, _, _, hc⟩ := clientEquip_cases hcall
    · exact h
    · rw [hc]
      exact (BonusesAgree.putOn h).setActiveProjectile _
  | unequip slot dst =>
    obtain ⟨⟨r, _⟩, hcall, hstep⟩ := Exec.bind_eq_ok.1 hstep
    cases hstep
    obtain rfl | ⟨i, j, hp, mp, hv, hi, hj, hc⟩ := clientUnequip_cases hcall
    · exact h
    · have heven := hsafe hv i j hi hj
      rw [hc]
      refine BonusesAgree.setHpMp ?_ hp mp
      rw [dropProjectile]
      split
      · exact BonusesAgree.takeOff (h.setActiveProjectile _) heven
      · exact BonusesAgree.takeOff h heven
  | useItem slot id =>
    cases hstep
    obtain hc | ⟨i, info, hp, mp, _, _, _, _, hc⟩ := clientUseItem_cases env c slot id
    · rwa [hc]
    · rw [hc]
      exact (h.setHpMp hp mp).setInventory useInventory _
  | recharge slot =>
    obtain ⟨⟨r, _⟩, hcall, hstep⟩ := Exec.bind_eq_ok.1 hstep
    cases hstep
    obtain hc | ⟨i, info, m, _, _, _, _, _, hc⟩ := clientRecharge_cases hcall
    · rwa [hc]
    · rw [hc]
      exact ((h.setInventory useInventory _).setActiveProjectile _).setMesos m

/-- From the login on, the sums agree in every state of a run whose steps are safe. -/
theorem bonuses_agree {chr : Character} {s : SavedCharacter}
    (hlogin : loadHoldings env s chr = .ok c.character) (hsaved : WornApart s.equippedEquipment)
    (hrun : Machine.Run (Action.step env) BonusSafe c c') : BonusesAgree c'.character :=
  hrun.invariant (I := fun c => BonusesAgree c.character) (BonusesAgree.loadHoldings hlogin hsaved)
    fun _ _ _ h hsafe hstep => h.step hsafe hstep

end Runs

/-! ### Runs with a sword -/

/-- A sword. -/
def swordEnv : Env := .ofLists [] [.plain 1302000] [] []

/-- A character that has been saved wearing a sword with a bonus. -/
def swordSaved : SavedCharacter :=
  { (default : SavedCharacter) with
    equipSlots := 24, equippedEquipment := [{ (default : SavedEquipment) with itemId := 1302000, str := 3 }] }

/-- The sword is taken off. -/
theorem bonuses_agree_sword : ∃ chr c', loadHoldings swordEnv swordSaved default = .ok chr ∧
    (Action.unequip 11 1).step swordEnv (.new chr) = .ok c' ∧ BonusesAgree c'.character := by
  have hrun : (do
      let chr ← loadHoldings swordEnv swordSaved default
      let c' ← (Action.unequip 11 1).step swordEnv (.new chr)
      return (chr, c') : Exec (Character × Client)).Returns fun r =>
        (r.1.equippedEquipment weaponIndex).isEmpty = false := by
    decide +kernel
  obtain ⟨⟨chr, c'⟩, h, hworn⟩ := Exec.returns_iff.1 hrun
  obtain ⟨_, hlogin, h⟩ := Exec.bind_eq_ok.1 h
  obtain ⟨_, hstep, h⟩ := Exec.bind_eq_ok.1 h
  cases h
  have hsafe : BonusSafe (.unequip 11 1) (.new chr) := fun _ i j _ hj => by
    cases hj
    exact .inl hworn
  exact ⟨chr, c', hlogin, hstep, bonuses_agree (c := .new chr) hlogin (List.pairwise_singleton ..)
    (.step _ .start hsafe hstep)⟩

/-- The sword is dropped while it is worn: the bonus stays. -/
theorem bonuses_not_agree : (do
    let chr ← loadHoldings swordEnv swordSaved default
    (Action.removeEquip true 11).step swordEnv (.new chr) : Exec Client).Returns fun c =>
      c.character.estr = 3 ∧ ∀ i, c.character.worn i = none := by
  decide +kernel

end Syrup
