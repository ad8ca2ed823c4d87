import Syrup.Client.Equip
import Syrup.Client.RemoveItem
import Syrup.Client.UseItem
import Syrup.Lib.Machine

/-!
# `client_buy`, `client_sell`

The packets of a shop name a position in the shop or in an inventory, an item, a quantity and a
price, all of which the client has made up. (`client_recharge` is with the use inventory.)
-/

namespace Syrup

/-- `struct ClientResult`: a ban may come with a reason. -/
structure ClientResult where
  type : ClientResultType
  reason : Option String
  deriving DecidableEq

/-- A result without a reason. -/
def ClientResult.of (type : ClientResultType) : ClientResult := ⟨type, none⟩

/-- A ban with a reason. -/
def ClientResult.ban (reason : String) : ClientResult := ⟨.ban, some reason⟩

/-- Tells a client in a shop how it went. -/
def respond (c : Client) (code : UInt8) : ClientResult × Client :=
  (.of .success, c.send (.shopActionResponse code))

/-- The mesos are paid whether or not the items have been given. -/
def buyItems (env : Env) (alloc : Bool) (c : Client) (id : UInt32) (quantity : Int16)
    (price : Int32) : Exec (ClientResult × Client) := do
  match ← clientGainItems env alloc c [(id, quantity)] false with
  | (none, c) => return (.of .error, c)
  | (some success, c) =>
    let c := clientCommitStats (clientGainMeso c (-price) false false)
    if !success then return (.ban "Client tried to buy an item while not having a slot for it", c)
    else return respond c 0

/-- `client_buy`. -/
def clientBuy (env : Env) (alloc : Bool) (c : Client) (pos : UInt16) (id : UInt32)
    (quantity : Int16) (price : Int32) : Exec (ClientResult × Client) :=
  if c.shop = noShop then
    .ok (.ban "Client tried to buy from a shop that isn't open", c)
  else do
    let shop ← Exec.deref (env.shopInfo c.shop)
    match shop[pos.toNat]? with
    | none => return (.ban "Client tried to buy an illegal shop position", c)
    | some item =>
      if item.id ≠ id then
        return (.ban "Client tried to buy an item with an incorrect ID", c)
      else if quantity ≤ 0 then
        return (.ban "Client tried to buy a non-positive quantity of an item", c)
      else if item.id / 1000000 = 1 ∧ 1 < quantity then
        return (.ban "Client tried to buy multiple of an equipment", c)
      else if item.price ≠ price then
        return (.ban "Client tried to buy an item with an incorrect price", c)
      else if c.character.mesos < price then return respond c 2
      else buyItems env alloc c id quantity price

/-- Pays for what has been sold. -/
def paySale (c : Client) (info : ItemInfo) (quantity : Int16) : ClientResult × Client :=
  respond (clientCommitStats (clientGainMeso c (info.price * quantity.toInt32) false false)) 8

/-- `client_sell`. -/
def clientSell (env : Env) (alloc : Bool) (c : Client) (pos : UInt16) (id : UInt32)
    (quantity : Int16) : Exec (ClientResult × Client) :=
  if quantity ≤ 0 then .ok (.of .ban, c)
  else
    match env.itemInfo id with
    | none => .ok (.of .ban, c)
    | some info =>
      if isEquipId id then
        if 1 < quantity then .ok (.of .ban, c)
        else
          match clientRemoveEquip c false pos.toUInt8 with
          | (none, c) => .ok (.of .error, c)
          | (some (success, equip), c) =>
            if !success || equip.map (·.item.itemId) != some id then .ok (.of .ban, c)
            else .ok (paySale c info quantity)
      else do
        match ← clientRemoveItem env alloc c (id / 1000000).toUInt8 pos.toUInt8 quantity with
        | (none, c) => return (.of .error, c)
        | (some (success, item), c) =>
          if !success || item.map (·.item.itemId) != some id then return (.of .ban, c)
          else return paySale c info quantity

/-! ## What the calls do -/

open Machine

/-- Mesos are gained up to the most there can be, as long as none are owed. -/
theorem mesos_clientGainMeso {c : Client} {mesos : Int32} {pickup reward : Bool}
    (h : 0 ≤ c.character.mesos.toInt + mesos.toInt) :
    (clientGainMeso c mesos pickup reward).character.mesos.toInt =
      min (c.character.mesos.toInt + mesos.toInt) 2147483647 := by
  have hm := bounds32 mesos
  have hc := bounds32 c.character.mesos
  have hmax : Int32.maxValue.toInt = 2147483647 := rfl
  have hset {chr : Character} {meso : Int32} (h : 0 ≤ meso.toInt) :
      (characterSetMeso chr meso).mesos = meso := by
    rw [characterSetMeso]
    exact if_neg fun hlt => by rw [lt32, zero32] at hlt; omega
  have hchr (m : Int32) (c : Client) : (if pickup then c.send (.mesoGain m)
      else if reward then c.send (.mesoGainInChat m) else c).character = c.character := by
    split
    · rfl
    · split <;> rfl
  rw [clientGainMeso, hchr, Client.character_mark, Client.character_setCharacter]
  by_cases hpos : 0 < mesos
  · rw [if_pos hpos]
    rw [lt32, zero32] at hpos
    have hfree := sub32 (a := Int32.maxValue) (b := mesos) (by omega) (by omega)
    split
    · rename_i hgt
      rw [gt_iff_lt, lt32, hfree] at hgt
      have hleft := sub32 (a := Int32.maxValue) (b := c.character.mesos) (by omega) (by omega)
      have hadd := add32 (a := c.character.mesos) (b := Int32.maxValue - c.character.mesos)
        (by omega) (by omega)
      rw [hset (by omega), hadd]
      omega
    · rename_i hgt
      rw [gt_iff_lt, lt32, hfree] at hgt
      have hadd := add32 (a := c.character.mesos) (b := mesos) (by omega) (by omega)
      rw [hset (by omega), hadd]
      omega
  · rw [if_neg hpos]
    rw [lt32, zero32] at hpos
    have hadd := add32 (a := c.character.mesos) (b := mesos) (by omega) (by omega)
    rw [if_neg fun hlt => by rw [lt32, hadd, zero32] at hlt; omega, hset (by omega), hadd]
    omega

end Syrup
