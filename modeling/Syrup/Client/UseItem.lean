import Syrup.Client.Stats
import Syrup.Projectile

/-!
# `client_use_item`, `client_recharge`

Using an item of the use inventory heals, and takes one from the stack. Recharging fills up
a rechargeable stack, for mesos.
-/

namespace Syrup

/-- The hit points, or the mana, after a consumable has been used: `base` and a percentage
    `rate` of the most that the character can have (`max`) are added, up to that. -/
def heal (current max base : Int16) (rate : UInt8) : Int16 :=
  let amount := Int16.ofInt (base.toInt + (max.toInt * rate.toNat).tdiv 100)
  if current.toInt > max.toInt - amount.toInt then current + (max - current) else current + amount

/-- Uses a consumable. -/
def consume (c : Client) (info : ConsumableInfo) : Client :=
  let chr := c.character
  let usesHp := info.hp != 0 || info.hpR != 0
  let usesMp := info.mp != 0 || info.mpR != 0
  let hp := if usesHp then heal chr.hp (characterGetEffectiveHp chr) info.hp info.hpR else chr.hp
  let mp := if usesMp then heal chr.mp (characterGetEffectiveMp chr) info.mp info.mpR else chr.mp
  (c.setCharacter { chr with hp := hp, mp := mp }).send
    (.statChange ((if usesHp then statHp else 0) ||| if usesMp then statMp else 0)
      ((if usesHp then [hp.toInt] else []) ++ if usesMp then [mp.toInt] else []))

/-- What is left in a slot of which one has been used. -/
def useFrom (c : Cell InventoryItem) : Cell InventoryItem :=
  let c := c.write (c.val.setQuantity (c.val.quantity - 1))
  if c.val.quantity = 0 then c.emptied else c

/-- `client_use_item`. -/
def clientUseItem (env : Env) (c : Client) (slot : UInt8) (id : UInt32) : Bool × Client :=
  let inv := c.character.inventory useInventory
  match inv.index? (slot - 1).toNat with
  | none => (false, c)
  | some slot =>
    match env.consumableInfo id with
    | none => (false, c)
    | some info =>
      let cell := inv.items slot
      if cell.isEmpty || cell.val.item.itemId != id then (true, c)
      else
        let c := consume c info
        let cell := useFrom cell
        let mod : InventoryModify :=
          if cell.isEmpty then .remove 2 (slotNumber slot)
          else .modify 2 (slotNumber slot) cell.val.quantity
        (true, (c.setCharacter (c.character.setItem useInventory slot cell)).send
          (.modifyItems [mod]))

/-- `enum ClientResultType`, as far as it is used. -/
inductive ClientResultType
  | success
  | ban
  | error
  deriving DecidableEq

/-- `activeProjectile` after a stack has been recharged: of stars for a claw, or of bullets for
    a gun. -/
def activeAfterRecharge (chr : Character) (slot : Fin maxItemCount) : UInt8 :=
  if slot.val < chr.activeProjectile.toNat ∧
      isProjectileId chr.weaponId ((chr.inventory useInventory).items slot).val.item.itemId then
    projectileSlot slot
  else chr.activeProjectile

/-- Fills up a stack. -/
def rechargeStack (chr : Character) (info : ItemInfo) (slot : Fin maxItemCount) : Character :=
  let cell := (chr.inventory useInventory).items slot
  let chr := chr.setItem useInventory slot (cell.write (cell.val.setQuantity info.slotMax))
  chr.setActiveProjectile (activeAfterRecharge chr slot)

/-- Recharges a stack that holds less than `info->slotMax`. -/
def recharge (env : Env) (c : Client) (info : ItemInfo) (slot : Fin maxItemCount) : Client :=
  let chr := c.character
  let cell := (chr.inventory useInventory).items slot
  let price := env.unitPriceTimes info (info.slotMax.toInt - cell.val.quantity.toInt)
  if chr.mesos < price then c.send (.shopActionResponse 2)
  else
    let c := (c.setCharacter (rechargeStack chr info slot)).send
      (.modifyItems [.modify 2 (slotNumber slot) info.slotMax])
    (clientCommitStats (clientGainMeso c (-price) false false)).send (.shopActionResponse 8)

/-- `client_recharge`. -/
def clientRecharge (env : Env) (c : Client) (slot : UInt16) : Exec (ClientResultType × Client) :=
  let inv := c.character.inventory useInventory
  match inv.index? (slot - 1).toNat with
  | none => .ok (.ban, c)
  | some slot =>
    let cell := inv.items slot
    if cell.isEmpty || !itemIsRechargeable cell.val.item.itemId then .ok (.ban, c)
    else do
      let info ← Exec.deref (env.itemInfo cell.val.item.itemId)
      if info.slotMax ≤ cell.val.quantity then return (.ban, c)
      else return (.success, recharge env c info slot)

/-! ## What the calls do -/

theorem character_clientGainMeso (c : Client) (mesos : Int32) (pickup reward : Bool) :
    ∃ m, (clientGainMeso c mesos pickup reward).character = { c.character with mesos := m } := by
  rw [clientGainMeso]
  simp only
  split
  · exact ⟨_, rfl⟩
  · split <;> exact ⟨_, rfl⟩

/-- A call does nothing, or heals and takes one from a stack. -/
theorem clientUseItem_consumes (env : Env) (c : Client) (slot : UInt8) (id : UInt32) :
    (clientUseItem env c slot id).2 = c ∨
      ∃ i info, (c.character.inventory useInventory).index? (slot - 1).toNat = some i ∧
        env.consumableInfo id = some info ∧
        ((c.character.inventory useInventory).items i).isEmpty = false ∧
        ((c.character.inventory useInventory).items i).val.item.itemId = id ∧
        (clientUseItem env c slot id).2.character =
          (consume c info).character.setItem useInventory i
            (useFrom ((c.character.inventory useInventory).items i)) := by
  rw [clientUseItem]
  simp only
  split
  · exact .inl rfl
  · rename_i i hi
    split
    · exact .inl rfl
    · rename_i info hinfo
      split
      · exact .inl rfl
      · rename_i he
        simp only [Bool.or_eq_true, bne_iff_ne, ne_eq, not_or, not_not, Bool.not_eq_true] at he
        exact .inr ⟨i, info, hi, hinfo, he.1, he.2, rfl⟩

/-- A call does nothing, or takes one from a stack. -/
theorem clientUseItem_cases (env : Env) (c : Client) (slot : UInt8) (id : UInt32) :
    (clientUseItem env c slot id).2 = c ∨
      ∃ i info hp mp, (c.character.inventory useInventory).index? (slot - 1).toNat = some i ∧
        env.consumableInfo id = some info ∧
        ((c.character.inventory useInventory).items i).isEmpty = false ∧
        ((c.character.inventory useInventory).items i).val.item.itemId = id ∧
        (clientUseItem env c slot id).2.character =
          ({ c.character with hp := hp, mp := mp }).setItem useInventory i
            (useFrom ((c.character.inventory useInventory).items i)) := by
  obtain hc | ⟨i, info, hi, hinfo, he, hid, hc⟩ := clientUseItem_consumes env c slot id
  · exact .inl hc
  · exact .inr ⟨i, info, _, _, hi, hinfo, he, hid, hc⟩

/-- A call that returns does nothing to the character, or fills up a stack that is not full. -/
theorem clientRecharge_cases {env : Env} {c c' : Client} {slot : UInt16} {r : ClientResultType}
    (h : clientRecharge env c slot = .ok (r, c')) :
    c'.character = c.character ∨
      ∃ i info m, (c.character.inventory useInventory).index? (slot - 1).toNat = some i ∧
        ((c.character.inventory useInventory).items i).isEmpty = false ∧
        itemIsRechargeable ((c.character.inventory useInventory).items i).val.item.itemId = true ∧
        env.itemInfo ((c.character.inventory useInventory).items i).val.item.itemId = some info ∧
        ((c.character.inventory useInventory).items i).val.quantity < info.slotMax ∧
        c'.character = { rechargeStack c.character info i with mesos := m } := by
  rw [clientRecharge] at h
  simp only at h
  split at h
  · cases h
    exact .inl rfl
  · rename_i i hi
    split at h
    · cases h
      exact .inl rfl
    · rename_i he
      simp only [Bool.or_eq_true, Bool.not_eq_true', not_or, Bool.not_eq_true,
        Bool.not_eq_false] at he
      obtain ⟨info, hinfo, h⟩ := Exec.bind_eq_ok.1 h
      split at h
      · cases h
        exact .inl rfl
      · rename_i hq
        cases h
        rw [recharge]
        simp only
        split
        · exact .inl rfl
        · rw [Client.character_send, character_clientCommitStats]
          obtain ⟨m, hm⟩ := character_clientGainMeso ((c.setCharacter (rechargeStack c.character
            info i)).send (.modifyItems [.modify 2 (slotNumber i) info.slotMax]))
            (-env.unitPriceTimes info (info.slotMax.toInt -
              ((c.character.inventory useInventory).items i).val.quantity.toInt)) false false
          exact .inr ⟨i, info, m, hi, he.1, he.2, Exec.deref_eq_ok.1 hinfo, Int16.not_le.1 hq, hm⟩

end Syrup
