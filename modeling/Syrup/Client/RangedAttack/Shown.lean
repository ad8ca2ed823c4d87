import Syrup.Client.RangedAttack

/-!
# What a ranged attack shows

An attack should show what it shoots, and shoot only if it can (`ShootsWhatItShows`): the slot that is shown
is in the inventory, and not empty before the attack; it is the slot from which projectiles have been taken, if
any are needed; and without them no monster is damaged.

The slot that is shown is what `activeProjectile` is after the shot. It is the slot that has been shot from if
this is the active one, and is not used up; or if it is the one to which the search for the next projectile goes
(`ShowsSource`). Where nothing is taken, the attack goes on all the same (`shootsWhatItShows_iff`).
-/

namespace Syrup

open Sweep

variable {env : Env} {skillLevels : UInt32 → Option (List SkillLevelInfo)} {monsters : MonsterHp} {c : Client}
  {attack : RangedAttack} {t : AttackTarget} {chr : Character} {amount : Int16} {slot : Fin maxItemCount}

/-! ## What is needed -/

/-- How many projectiles an attack needs, if it is one that the client can make. -/
def demand (env : Env) (skillLevels : UInt32 → Option (List SkillLevelInfo)) (chr : Character)
    (skillId : UInt32) : Option Int16 :=
  if skillId = 0 then some 1
  else do
    let skill ← hashSetGet env.skills chr.skills skillId
    let levels ← skillLevels skillId
    let info ← (skillLevelInfo levels skill.level).toOption
    return info.bulletCount

/-- The level of a learnt skill is one of its levels. -/
def LevelKnown (env : Env) (skillLevels : UInt32 → Option (List SkillLevelInfo)) (chr : Character)
    (skillId : UInt32) : Prop :=
  ∀ skill levels, skillId ≠ 0 → hashSetGet env.skills chr.skills skillId = some skill →
    skillLevels skillId = some levels → 1 ≤ skill.level.toInt ∧ skill.level.toInt ≤ levels.length

/-- A slot is in the inventory, and not empty. -/
def HoldsItem (chr : Character) (i : Fin maxItemCount) : Prop :=
  i.val < (chr.inventory useInventory).slotCount ∧ ((chr.inventory useInventory).items i).isEmpty = false

/-- What is shown is there, and is what is shot, and without it nobody is damaged. -/
def ShootsWhatItShows (env : Env) (skillLevels : UInt32 → Option (List SkillLevelInfo)) (monsters : MonsterHp)
    (c : Client) (attack : RangedAttack) : Prop :=
  LevelKnown env skillLevels c.character attack.skill ∧
    ∃ r, rangedAttack env skillLevels monsters c attack = .ok r ∧ ∀ shown, r = some shown →
      HoldsItem c.character shown.slot ∧
      ∀ amount, demand env skillLevels c.character attack.skill = some amount → 0 < amount →
        match projectileSource c.character amount with
        | none => shown.damaged = []
        | some slot => shown.slot = slot

/-! ## Who is damaged -/

/-- The hits on a monster change nothing. -/
def HitsNothing (monsters : MonsterHp) (t : AttackTarget) : Prop :=
  ∀ hp, monsters t.oid = some hp → 0 < hp → Map.hit hp t.damage = hp

theorem damageMonster_nothing (h : HitsNothing monsters t) : damageMonster monsters t = (false, monsters) := by
  rw [damageMonster]
  split
  · rfl
  · rename_i hp hhp
    split
    · rename_i hpos
      have hkeep : Function.update monsters t.oid (some hp) = monsters := by rw [← hhp, Function.update_eq_self]
      simp [h hp hhp hpos, hkeep]
    · rfl

theorem damageMonster_hurts (h : ¬HitsNothing monsters t) : (damageMonster monsters t).1 = true := by
  simp only [HitsNothing, not_forall] at h
  obtain ⟨hp, hhp, hpos, hne⟩ := h
  rw [damageMonster, hhp]
  simp only [if_pos hpos]
  exact decide_eq_true hne

/-- Nobody is damaged if and only if none of the hits does anything. -/
theorem damageTargets_eq_nil_iff {ts : List AttackTarget} :
    damageTargets monsters ts = [] ↔ ∀ t ∈ ts, HitsNothing monsters t := by
  induction ts with
  | nil => exact iff_of_true rfl nofun
  | cons t ts ih =>
    rw [damageTargets, List.forall_mem_cons]
    by_cases ht : HitsNothing monsters t
    · rw [damageMonster_nothing ht]
      exact ih.trans (and_iff_right ht).symm
    · refine iff_of_false ?_ fun h => ht h.1
      simp only [damageMonster_hurts ht, if_pos]
      exact List.cons_ne_nil _ _

/-! ## What is shot -/

/-- The shot of an attack that needs some projectiles, or none. -/
def shoot (c : Client) (amount : Int16) : Exec (Bool × Client) :=
  if 0 < amount then clientUseProjectile c amount else .ok (true, c)

/-- An attack that the client can make shoots, whatever comes of it, and does not change `activeProjectile`
    otherwise. -/
theorem payAttack_eq (hdemand : demand env skillLevels c.character attack.skill = some amount) :
    ∃ f : Bool × Client → UInt8 × Client,
      payAttack env skillLevels c attack.skill = (fun x => (some (f x).1, (f x).2)) <$> shoot c amount ∧
        ∀ x, (f x).2.character.activeProjectile = x.2.character.activeProjectile := by
  rw [payAttack]
  rw [demand] at hdemand
  split at hdemand
  · rename_i hzero
    -- Without a skill, one projectile is needed.
    cases hdemand
    refine ⟨fun x => (0, x.2), ?_, fun x => rfl⟩
    rw [if_pos hzero, shoot, if_pos (by decide)]
    cases clientUseProjectile c 1 <;> rfl
  · rename_i hskill
    -- With a skill, as many as its level says.
    obtain ⟨skill, hget, hdemand⟩ := Option.bind_eq_some_iff.1 hdemand
    obtain ⟨levels, hlevels, hdemand⟩ := Option.bind_eq_some_iff.1 hdemand
    obtain ⟨info, hinfo, hdemand⟩ := Option.bind_eq_some_iff.1 hdemand
    cases hdemand
    have hinfo : skillLevelInfo levels skill.level = .ok info := by
      cases h : skillLevelInfo levels skill.level with
      | error e => rw [h] at hinfo; cases hinfo
      | ok info' => rw [h] at hinfo; cases hinfo; rfl
    refine ⟨fun x => if x.1 then (skill.level.toUInt8, clientAdjustMpNow x.2 (-info.mpCon.toInt32)) else (0, x.2),
      ?_, fun x => by dsimp only; split <;> rfl⟩
    rw [if_neg hskill, clientApplySkill, hget, hlevels]
    simp only [hinfo, Exec.ok_bind, shoot]
    split
    · rename_i hpos
      split
      · rename_i hnone
        rw [clientUseProjectile]
        simp only [if_pos hnone]
        rfl
      · cases clientUseProjectile c info.bulletCount with
        | error e => rfl
        | ok x =>
          obtain ⟨success, c'⟩ := x
          cases success <;> rfl
    · rfl

theorem itemIndex_eq_ok {a : UInt8} {i : Fin maxItemCount} : itemIndex a = .ok i ↔ i.val = a.toNat := by
  rw [itemIndex]
  split
  · rw [Except.ok.injEq, Fin.ext_iff, eq_comm]
  · rename_i h
    exact iff_of_false (by simp) fun e => h (e ▸ i.isLt)

/-- What can be said of what an attack shows, and of whom it damages, can be said of `activeProjectile` after the
    shot. -/
theorem rangedAttack_shows_iff {P : Fin maxItemCount → List UInt32 → Prop}
    (hdemand : demand env skillLevels c.character attack.skill = some amount) :
    (∃ r, rangedAttack env skillLevels monsters c attack = .ok r ∧
        ∀ shown, r = some shown → P shown.slot shown.damaged) ↔
      ∃ x, shoot c amount = .ok x ∧ ∃ slot, slot.val = x.2.character.activeProjectile.toNat ∧
        P slot (damageTargets monsters attack.targets) := by
  obtain ⟨f, hf, hactive⟩ := payAttack_eq hdemand
  cases hshoot : shoot c amount with
  | error e =>
    rw [rangedAttack, hf, hshoot]
    exact iff_of_false (fun ⟨r, hr, _⟩ => by cases hr) fun ⟨x, hx, _⟩ => by cases hx
  | ok x =>
    have hpay : payAttack env skillLevels c attack.skill = .ok (some (f x).1, (f x).2) := by rw [hf, hshoot]; rfl
    rw [rangedAttack, hpay, Exec.ok_bind]
    dsimp only
    constructor
    · rintro ⟨r, hr, hshown⟩
      obtain ⟨slot, hslot, hr⟩ := Exec.bind_eq_ok.1 hr
      cases hr
      rw [itemIndex_eq_ok, hactive] at hslot
      exact ⟨x, rfl, slot, hslot, hshown _ rfl⟩
    · rintro ⟨x', hx', slot, hslot, hP⟩
      cases hx'
      rw [← hactive, ← itemIndex_eq_ok] at hslot
      refine ⟨_, Exec.bind_eq_ok.2 ⟨slot, hslot, rfl⟩, fun shown hshown => ?_⟩
      cases hshown
      exact hP

/-! ## The slot that is shown -/

/-- The active slot is one, and is not empty. -/
def ShowsActive (chr : Character) : Prop := ∃ i, i.val = chr.activeProjectile.toNat ∧ HoldsItem chr i

/-- What is left in a slot after a shot can be shot next: the weapon shoots it, and no slot between the active
    one and it has anything that it shoots. -/
def NextAfterShot (chr : Character) (amount : Int16) (slot : Fin maxItemCount) : Prop :=
  let items := (chr.inventory useInventory).items
  (shootFrom (items slot) amount).isEmpty = false ∧
    isProjectile chr.weaponId (shootFrom (items slot) amount).val = true ∧
    ∀ i : Fin maxItemCount, chr.activeProjectile.toNat < i.val → i.val < slot.val →
      (items i).isEmpty = true ∨ isProjectile chr.weaponId (items i).val = false

/-- The slot that has been shot from is the active one after the shot: it was before, and is not used up, or the
    weapon is none that looks for another; or the active one was used up, and it is the next. -/
def ShowsSource (chr : Character) (amount : Int16) (slot : Fin maxItemCount) : Prop :=
  let items := (chr.inventory useInventory).items
  (slot.val = chr.activeProjectile.toNat ∧
      (usedUp (shootFrom (items slot) amount) = false ∨ isProjectileWeapon chr.weaponId = false)) ∨
    (chr.activeProjectile.toNat < slot.val ∧
      (∀ i : Fin maxItemCount, i.val = chr.activeProjectile.toNat → usedUp (items i) = true) ∧
      isProjectileWeapon chr.weaponId = true ∧ NextAfterShot chr amount slot)

/-- Without a slot to shoot from, what is active stays active. -/
theorem shoot_active_of_none {x : Bool × Client}
    (hnone : 0 < amount → projectileSource c.character amount = none)
    (hx : shoot c amount = .ok x) : x.2.character.activeProjectile = c.character.activeProjectile := by
  rw [shoot] at hx
  split at hx
  · rename_i hpos
    obtain ⟨b, c'⟩ := x
    obtain rfl | ⟨_, active, hactive, ⟨_, hlt, rfl⟩ | ⟨slot, hslot, _⟩⟩ := clientUseProjectile_cases hx
    · rfl
    · rw [finishShot]
      split
      · -- The search starts beyond the end, and is given up.
        change activeAfterShot c.character = _
        rw [activeAfterShot, if_pos (by omega)]
      · rfl
    · rw [hnone hpos] at hslot
      cases hslot
  · cases hx
    rfl

/-- Without a slot to shoot from, an active slot in the inventory lets the call return. -/
theorem shoot_of_none (hnone : 0 < amount → projectileSource c.character amount = none)
    (hactive : ShowsActive c.character) : ∃ x, shoot c amount = .ok x := by
  rw [shoot]
  split
  · rename_i hpos
    obtain ⟨i, hi, hlt, _⟩ := hactive
    rw [clientUseProjectile]
    have hle : c.character.activeProjectile.toNat ≤ (c.character.inventory useInventory).slotCount := by omega
    simp only [hnone hpos, if_pos hle]
    split <;> exact ⟨_, rfl⟩
  · exact ⟨_, rfl⟩

/-- An attack that shoots nothing shows the active slot. -/
theorem shows_of_none {Q : Prop} (hnone : 0 < amount → projectileSource c.character amount = none) :
    (∃ x, shoot c amount = .ok x ∧
      ∃ slot : Fin maxItemCount, slot.val = x.2.character.activeProjectile.toNat ∧ HoldsItem c.character slot ∧ Q) ↔
        ShowsActive c.character ∧ Q := by
  constructor
  · rintro ⟨x, hx, slot, hslot, hholds, hQ⟩
    rw [shoot_active_of_none hnone hx] at hslot
    exact ⟨⟨slot, hslot, hholds⟩, hQ⟩
  · rintro ⟨hactive, hQ⟩
    obtain ⟨x, hx⟩ := shoot_of_none hnone hactive
    obtain ⟨slot, hslot, hholds⟩ := hactive
    rw [← shoot_active_of_none hnone hx] at hslot
    exact ⟨x, hx, slot, hslot, hholds, hQ⟩

/-- With a slot to shoot from, the call returns. -/
theorem shoot_of_some (hpos : 0 < amount) (hslot : projectileSource c.character amount = some slot) :
    ∃ active : Fin maxItemCount, active.val = c.character.activeProjectile.toNat ∧ active.val ≤ slot.val ∧
      slot.val < (c.character.inventory useInventory).slotCount ∧
      shoot c amount = .ok (true, finishShot c (c.character.setItem useInventory slot
        (shootFrom ((c.character.inventory useInventory).items slot) amount)) active slot) := by
  obtain ⟨⟨hle, hlt, -⟩, -⟩ := firstFrom_eq_some.1 hslot
  have hactive : c.character.activeProjectile.toNat < maxItemCount := hle.trans_lt slot.isLt
  have hne : c.character.activeProjectile ≠ noProjectile := by
    rintro h
    rw [h] at hactive
    exact absurd hactive (by decide)
  refine ⟨⟨_, hactive⟩, rfl, hle, hlt, ?_⟩
  rw [shoot, if_pos hpos, clientUseProjectile]
  simp only [if_neg hne, hslot, itemIndex_eq_ok.2 (show (⟨_, hactive⟩ : Fin maxItemCount).val = _ from rfl),
    Exec.ok_bind]
  rfl

/-- The next projectile is looked for where the active one is used up. -/
theorem activeProjectile_finishShot {active : Fin maxItemCount} (hactive : active.val = chr.activeProjectile.toNat)
    (hlt : active.val < (chr.inventory useInventory).slotCount) :
    (finishShot c chr active slot).character.activeProjectile =
      if usedUp ((chr.inventory useInventory).items active) then research chr chr.weaponId (active.val + 1)
      else chr.activeProjectile := by
  rw [finishShot]
  split
  · rw [hactive, ← activeAfterShot_eq (hactive ▸ hlt)]
    rfl
  · rfl

/-- The search finds a slot if the weapon looks for it, and it is the first from which it shoots. -/
theorem research_eq_slot (hactive : chr.activeProjectile.toNat ≠ slot.val) {a : ℕ} :
    (research chr chr.weaponId a).toNat = slot.val ↔
      isProjectileWeapon chr.weaponId = true ∧
        findProjectile (chr.inventory useInventory) chr.weaponId a = some slot := by
  rw [research]
  split
  · rename_i hweapon
    rw [and_iff_right hweapon]
    cases findProjectile (chr.inventory useInventory) chr.weaponId a with
    | none =>
      refine iff_of_false (fun h => ?_) nofun
      have hslot : slot.val < 252 := slot.isLt
      change 255 = slot.val at h
      omega
    | some i => rw [Option.map_some, Option.getD_some, toNat_projectileSlot, Option.some.injEq, Fin.ext_iff]
  · rename_i hweapon
    exact iff_of_false hactive fun h => hweapon h.1

/-- The slot that has been shot from is found next if it can be shot after the shot, and nothing before it can. -/
theorem findProjectile_after_iff (hlt : chr.activeProjectile.toNat < slot.val)
    (hslot : slot.val < (chr.inventory useInventory).slotCount) :
    findProjectile ((chr.inventory useInventory).set slot
        (shootFrom ((chr.inventory useInventory).items slot) amount)) chr.weaponId
        (chr.activeProjectile.toNat + 1) = some slot ↔ NextAfterShot chr amount slot := by
  have hbefore (i : Fin maxItemCount) (hi : i.val < slot.val) (left : Cell InventoryItem) :
      ((chr.inventory useInventory).set slot left).items i = (chr.inventory useInventory).items i :=
    Inventory.items_set_of_ne (Fin.ne_of_lt hi) left
  rw [findProjectile, firstFrom_eq_some, Inventory.items_set_self, NextAfterShot]
  simp only [Bool.and_eq_true, Bool.not_eq_true', Bool.and_eq_false_iff, Bool.not_eq_false',
    Inventory.slotCount_set]
  constructor
  · rintro ⟨⟨_, _, hempty, hshoots⟩, hfirst⟩
    exact ⟨hempty, hshoots, fun i hi hlt => by simpa [hbefore i hlt] using hfirst i hi hlt⟩
  · rintro ⟨hempty, hshoots, hfirst⟩
    exact ⟨⟨hlt, hslot, hempty, hshoots⟩, fun i hi hlt => by simpa [hbefore i hlt] using hfirst i hi hlt⟩

/-- A weapon that looks for the next slot looks beyond the active one. -/
theorem lt_research (hweapon : isProjectileWeapon chr.weaponId = true) (i : Fin maxItemCount) :
    i.val < (research chr chr.weaponId (i.val + 1)).toNat := by
  rw [research, if_pos hweapon]
  cases hfind : findProjectile (chr.inventory useInventory) chr.weaponId (i.val + 1) with
  | none =>
    have hi : i.val < 252 := i.isLt
    change i.val < 255
    omega
  | some j =>
    obtain ⟨⟨hle, -⟩, -⟩ := firstFrom_eq_some.1 hfind
    rw [Option.map_some, Option.getD_some, toNat_projectileSlot]
    exact hle

/-- After the shot, the slot that has been shot from is the active one just if it is shown. -/
theorem active_after_shot_iff {active : Fin maxItemCount}
    (hactive : active.val = c.character.activeProjectile.toNat)
    (hle : active.val ≤ slot.val) (hlt : slot.val < (c.character.inventory useInventory).slotCount) :
    slot.val = (finishShot c (c.character.setItem useInventory slot
        (shootFrom ((c.character.inventory useInventory).items slot) amount)) active
        slot).character.activeProjectile.toNat ↔ ShowsSource c.character amount slot := by
  set left := shootFrom ((c.character.inventory useInventory).items slot) amount with hleft
  set chr := c.character.setItem useInventory slot left with hchr
  have hweapon : chr.weaponId = c.character.weaponId := rfl
  have hsame : chr.activeProjectile = c.character.activeProjectile := rfl
  have hinv : chr.inventory useInventory = (c.character.inventory useInventory).set slot left :=
    Character.inventory_setItem_self ..
  have hactive' : active.val = chr.activeProjectile.toNat := hactive
  have hin : active.val < (chr.inventory useInventory).slotCount := by rw [hinv]; exact hle.trans_lt hlt
  rw [activeProjectile_finishShot hactive' hin, hinv, ShowsSource]
  simp only [← hleft]
  rcases Nat.eq_or_lt_of_le hle with heq | hless
  · -- The active slot has been shot from.
    obtain rfl : active = slot := Fin.ext heq
    rw [Inventory.items_set_self, or_iff_left fun h => absurd h.1 (hactive ▸ lt_irrefl _), and_iff_right hactive]
    by_cases hused : usedUp left = true
    · rw [if_pos hused, or_iff_right (by rw [hused]; nofun), ← hweapon]
      by_cases hlooks : isProjectileWeapon chr.weaponId = true
      · exact iff_of_false (lt_research hlooks active).ne (by rw [hlooks]; nofun)
      · rw [research, if_neg hlooks, hsame]
        exact iff_of_true hactive (by simpa using hlooks)
    · rw [if_neg hused, hsame]
      exact iff_of_true hactive (.inl (by simpa using hused))
  · -- The active slot had too few.
    have hne : chr.activeProjectile.toNat ≠ slot.val := by rw [hsame]; omega
    rw [Inventory.items_set_of_ne (Fin.ne_of_lt hless), or_iff_right fun h => hne h.1.symm]
    split
    · rename_i hused
      have hall (i : Fin maxItemCount) (hi : i.val = c.character.activeProjectile.toNat) :
          usedUp ((c.character.inventory useInventory).items i) = true := by
        rw [show i = active from Fin.ext (hi.trans hactive.symm), hused]
      have hafter : c.character.activeProjectile.toNat < slot.val := hactive ▸ hless
      rw [eq_comm, research_eq_slot hne, hweapon, hinv, hactive, hleft, findProjectile_after_iff hafter hlt,
        and_iff_right hafter, and_iff_right hall]
    · rename_i hused
      exact iff_of_false (fun h => hne h.symm) fun h => hused (h.2.1 active hactive)

/-- An attack that shoots from a slot shows it just if it is the active one after the shot. -/
theorem shows_of_some (hpos : 0 < amount) (hsource : projectileSource c.character amount = some slot) :
    (∃ x, shoot c amount = .ok x ∧
      ∃ shown : Fin maxItemCount, shown.val = x.2.character.activeProjectile.toNat ∧
        HoldsItem c.character shown ∧ shown = slot) ↔
          HoldsItem c.character slot ∧ ShowsSource c.character amount slot := by
  obtain ⟨active, hactive, hle, hlt, hshoot⟩ := shoot_of_some hpos hsource
  rw [← active_after_shot_iff hactive hle hlt]
  constructor
  · rintro ⟨x, hx, shown, hshown, hholds, rfl⟩
    rw [hshoot] at hx
    cases hx
    exact ⟨hholds, hshown⟩
  · rintro ⟨hholds, hshown⟩
    exact ⟨_, hshoot, slot, hshown, hholds, rfl⟩

/-! ## Which attacks are right -/

/-- The condition under which an attack shoots what it shows: the skill has its level; an attack that needs
    projectiles either finds enough of them in a slot that is not empty, and which it shows, or shows the active
    one and damages nobody; and one that needs none shows the active one. -/
def RangedRight (env : Env) (skillLevels : UInt32 → Option (List SkillLevelInfo)) (monsters : MonsterHp)
    (chr : Character) (attack : RangedAttack) : Prop :=
  LevelKnown env skillLevels chr attack.skill ∧
    ∀ amount, demand env skillLevels chr attack.skill = some amount →
      if 0 < amount then
        match projectileSource chr amount with
        | none => ShowsActive chr ∧ ∀ t ∈ attack.targets, HitsNothing monsters t
        | some slot => HoldsItem chr slot ∧ ShowsSource chr amount slot
      else ShowsActive chr

/-- A level among those that there are has an entry. -/
theorem exists_skillLevelInfo {levels : List SkillLevelInfo} {level : Int8} (hpos : 1 ≤ level.toInt)
    (hle : level.toInt ≤ levels.length) : ∃ info, skillLevelInfo levels level = .ok info := by
  have hlt : level.toInt.toNat - 1 < levels.length := by omega
  exact ⟨levels[level.toInt.toNat - 1], by rw [skillLevelInfo, if_neg (by omega), List.getElem?_eq_getElem hlt]⟩

/-- A client that cannot make the attack is kicked. -/
theorem rangedAttack_kicks (hlevel : LevelKnown env skillLevels c.character attack.skill)
    (hdemand : demand env skillLevels c.character attack.skill = none) :
    rangedAttack env skillLevels monsters c attack = .ok none := by
  have hskill : attack.skill ≠ 0 := fun h => by
    rw [demand, if_pos h] at hdemand
    cases hdemand
  rw [demand, if_neg hskill] at hdemand
  have hpay : payAttack env skillLevels c attack.skill = .ok (none, c) := by
    rw [payAttack, if_neg hskill, clientApplySkill]
    cases hget : hashSetGet env.skills c.character.skills attack.skill with
    | none => rfl
    | some skill =>
      cases hlevels : skillLevels attack.skill with
      | none => rfl
      | some levels =>
        obtain ⟨hpos, hle⟩ := hlevel skill levels hskill hget hlevels
        obtain ⟨info, hinfo⟩ := exists_skillLevelInfo hpos hle
        rw [hget, hlevels] at hdemand
        simp only [Option.bind_eq_bind, Option.bind_some, hinfo, Except.toOption] at hdemand
        cases hdemand
  rw [rangedAttack, hpay]
  rfl

/-- A ranged attack shoots what it shows, and only if it can, just if it is right. -/
theorem shootsWhatItShows_iff : ShootsWhatItShows env skillLevels monsters c attack ↔
    RangedRight env skillLevels monsters c.character attack := by
  refine and_congr_right fun hlevel => ?_
  cases hdemand : demand env skillLevels c.character attack.skill with
  | none =>
    -- The skill is not learnt, or not known.
    have hkicks : rangedAttack env skillLevels monsters c attack = .ok none := rangedAttack_kicks hlevel hdemand
    exact iff_of_true ⟨none, hkicks, fun shot h => by cases h⟩ fun amount h => by cases h
  | some amount =>
    simp only [Option.some.injEq, forall_eq']
    by_cases hpos : 0 < amount
    · simp only [hpos, true_implies, if_true]
      cases hsource : projectileSource c.character amount with
      | none =>
        rw [rangedAttack_shows_iff (P := fun slot damaged => HoldsItem c.character slot ∧ damaged = []) hdemand,
          shows_of_none fun _ => hsource, damageTargets_eq_nil_iff]
      | some slot =>
        rw [rangedAttack_shows_iff (P := fun shown _ => HoldsItem c.character shown ∧ shown = slot) hdemand,
          shows_of_some hpos hsource]
    · -- No projectiles are needed.
      simp only [hpos, false_implies, and_true, if_false]
      rw [rangedAttack_shows_iff (P := fun slot _ => HoldsItem c.character slot) hdemand]
      have hshows := @shows_of_none c amount True fun h => absurd h hpos
      simpa only [and_true] using hshows

/-! ## Nothing to shoot -/

/-- A character that has nothing shoots all the same: what is shown is read at index `255`. -/
theorem shootsWhatItShows_empty : ¬∀ (env : Env) (skillLevels : UInt32 → Option (List SkillLevelInfo))
    (monsters : MonsterHp) (c : Client) (attack : RangedAttack),
    ShootsWhatItShows env skillLevels monsters c attack := by
  intro h
  obtain ⟨-, r, hr, -⟩ :=
    h (Env.ofLists [] [] [] []) (fun _ => none) (fun _ => none) (Client.new default) ⟨0, []⟩
  have hfault : rangedAttack (Env.ofLists [] [] [] []) (fun _ => none) (fun _ => none) (Client.new default)
      ⟨0, []⟩ = .error .outOfBounds := by rfl
  rw [hfault] at hr
  cases hr

end Syrup
