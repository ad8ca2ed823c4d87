import Syrup.Client.Equip
import Syrup.Client.UseItem
import Syrup.Lib.Run

/-!
# Hit points and mana: `client_adjust_hp`, `client_use_item_immediate`, `client_change_job`

Besides the calls that only set hit points or mana, a consumable that is used when it is picked
up heals, and may be a card for the monster book; and a job comes with hit points and
mana that are partly random.

All calls that change hit points, mana, or what a character can have of them are the steps of one
system (`HpMpAction`).
-/

namespace Syrup

/-! ## Setting -/

/-- `client_set_hp`. -/
def clientSetHp (c : Client) (hp : Int16) : Client :=
  let chr := c.character
  if hp = chr.hp then c else (c.setCharacter (characterSetHp chr hp)).mark statHp

/-- `client_set_hp_now`. -/
def clientSetHpNow (c : Client) (hp : Int16) : Client :=
  let chr := characterSetHp c.character hp
  (c.setCharacter chr).send (.statChange statHp [chr.hp.toInt])

/-- The hit points that `client_adjust_hp` sets, before they are stored in 16 bits: what is
    added is bounded so that they can be. -/
def adjustedHp (current : Int16) (hp : Int32) : ℤ :=
  let current := current.toInt
  let hp := hp.toInt
  let hp :=
    if 0 < hp ∧ 32767 - hp < current then 32767 - current
    else if current < -32768 - hp then -32768 - current
    else hp
  current + hp

/-- `client_adjust_hp`. -/
def clientAdjustHp (c : Client) (hp : Int32) : Client :=
  clientSetHp c (Int16.ofInt (adjustedHp c.character.hp hp))

/-- `client_adjust_hp_now`. -/
def clientAdjustHpNow (c : Client) (hp : Int32) : Client :=
  clientSetHpNow c (Int16.ofInt (adjustedHp c.character.hp hp))

/-- `client_set_mp`. -/
def clientSetMp (c : Client) (mp : Int16) : Client :=
  let chr := c.character
  if mp = chr.mp then c else (c.setCharacter (characterSetMp chr mp)).mark statMp

/-- `client_set_mp_now`. -/
def clientSetMpNow (c : Client) (mp : Int16) : Client :=
  let chr := characterSetMp c.character mp
  (c.setCharacter chr).send (.statChange statMp [chr.mp.toInt])

/-- The mana that `client_adjust_mp` sets, before it is stored in 16 bits. -/
def adjustedMp (current mp : Int16) : ℤ :=
  let current := current.toInt
  let mp := mp.toInt
  current + if 0 < mp ∧ 32767 - mp < current then 32767 - current else mp

/-- `client_adjust_mp`. -/
def clientAdjustMp (c : Client) (mp : Int16) : Client :=
  clientSetMp c (Int16.ofInt (adjustedMp c.character.mp mp))

/-- `client_adjust_mp_now`, which bounds what is added as `client_adjust_hp_now` does. -/
def clientAdjustMpNow (c : Client) (mp : Int32) : Client :=
  clientSetMpNow c (Int16.ofInt (adjustedHp c.character.mp mp))

/-- `client_adjust_sp`. -/
def clientAdjustSp (c : Client) (sp : Int16) : Client :=
  let chr := c.character
  let sp := if 0 < sp ∧ chr.sp.toInt > 32767 - sp.toInt then 32767 - chr.sp else sp
  (c.setCharacter { chr with sp := chr.sp + sp }).mark statSp

/-! ## Consumables -/

/-- What is sent of a character that has been healed. -/
def healPacket (chr : Character) (info : ConsumableInfo) : Packet :=
  let usesHp := info.hp != 0 || info.hpR != 0
  let usesMp := info.mp != 0 || info.mpR != 0
  .statChange ((if usesHp then statHp else 0) ||| if usesMp then statMp else 0)
    ((if usesHp then [chr.hp.toInt] else []) ++ if usesMp then [chr.mp.toInt] else [])

/-- The monster book with an entry for a card. -/
def openEntry (env : Env) (alloc : Bool) (book : HashSet MonsterBookEntry) (id : UInt32) :
    Exec (HashSet MonsterBookEntry) :=
  match hashSetGet env.monsterBook book id with
  | some _ => .ok book
  | none => Prod.snd <$> hashSetInsert env.monsterBook alloc book ⟨id, 0⟩

/-- A card that is picked up is counted in the monster book, up to five times. -/
def addCard (env : Env) (alloc : Bool) (c : Client) (id : UInt32) : Exec Client :=
  let chr := c.character
  if (hashSetGet env.monsterBook chr.monsterBook id).all fun entry => entry.count < 5 then do
    let book ← openEntry env alloc chr.monsterBook id
    let entry ← Exec.deref (hashSetGet env.monsterBook book id)
    let count := entry.count + 1
    let chr := { chr with monsterBook := hashSetWrite env.monsterBook book id ⟨id, count⟩ }
    return (((c.setCharacter chr).send (.addCard false id count)).send (.showEffect 0x0D)).send
      (.showForeignEffect 0x0D)
  else .ok ((c.send (.addCard true id 5)).send (.showForeignEffect 0x0D))

/-- `client_use_item_immediate`. -/
def clientUseItemImmediate (env : Env) (alloc : Bool) (c : Client) (id : UInt32) :
    Exec (Bool × Client) :=
  match env.consumableInfo id with
  | none => .ok (false, c)
  | some info => do
    let chr := (consume c info).character
    let c := c.setCharacter chr
    let item ← Exec.deref (env.itemInfo id)
    let c ← (if item.monsterBook then addCard env alloc c id else .ok c)
    return (true, c.send (healPacket chr info))

/-! ## Jobs -/

/-- How many hit points and how much mana come with a job, given two random numbers. The first one is
    stored in 16 bits before its remainder is taken. -/
def jobHpMp (job : UInt16) (r : ℕ × ℕ) : Option ℤ × Option ℤ :=
  let rand1 := (Int16.ofInt r.1).toInt
  if job % 1000 = 100 then (some (rand1.tmod 51 + 200), none)
  else if job % 1000 = 200 then (none, some (rand1.tmod 51 + 100))
  else if job % 100 = 0 then (some (rand1.tmod 51 + 100), some (r.2 % 26 + 25))
  else if 0 < job % 1000 ∧ job % 1000 < 200 then (some (rand1.tmod 51 + 300), none)
  else if job % 1000 < 300 then (none, some (rand1.tmod 51 + 450))
  else if 300 < job % 1000 then (some (rand1.tmod 51 + 300), some (r.2 % 51 + 150))
  else (none, none)

/-- What `client_change_job` raises a maximum to, before it is stored in 16 bits. -/
def raisedMax (max : Int16) (n : ℤ) : ℤ :=
  max.toInt + if max.toInt > 30000 - n then (Int16.ofInt (30000 - max.toInt)).toInt else n

/-- `client_change_job`. -/
def clientChangeJob (c : Client) (job : UInt16) (r : ℕ × ℕ) : Client :=
  let c := (c.setCharacter { c.character with job := job }).mark statJob
  let c := clientAdjustSp c (if job % 10 = 2 then 3 else 1)
  let chr := c.character
  let chr := match (jobHpMp job r).1 with
    | none => chr
    | some n => characterSetMaxHp chr (Int16.ofInt (raisedMax chr.maxHp n))
  let chr := match (jobHpMp job r).2 with
    | none => chr
    | some n => characterSetMaxMp chr (Int16.ofInt (raisedMax chr.maxMp n))
  (clientCommitStats ((c.setCharacter chr).mark (statMaxHp ||| statMaxMp))).send
    (.showForeignEffect 8)

/-! ## The calls as a system -/

/-- A call that changes hit points, mana, or what a character can have of them. -/
inductive HpMpAction
  | adjustHp (hp : Int32)
  | adjustMp (mp : Int16)
  | setHpNow (hp : Int16)
  | useItem (slot : UInt8) (id : UInt32)
  | useItemImmediate (alloc : Bool) (id : UInt32)
  | equip (src : UInt8) (slot : UInt32)
  | unequip (slot : UInt32) (dst : UInt8)
  | gainExp (rand : ℕ → ℕ × ℕ) (exp : Int32) (reward : Bool)
  | changeJob (job : UInt16) (r : ℕ × ℕ)

/-- The client after a call that returns. -/
def HpMpAction.step (env : Env) : HpMpAction → Client → Exec Client
  | adjustHp hp, c => return clientAdjustHp c hp
  | adjustMp mp, c => return clientAdjustMp c mp
  | setHpNow hp, c => return clientSetHpNow c hp
  | useItem slot id, c => return (clientUseItem env c slot id).2
  | useItemImmediate alloc id, c => do
    let (_, c) ← clientUseItemImmediate env alloc c id
    return c
  | equip src slot, c => do
    let (_, c) ← clientEquip c src slot
    return c
  | unequip slot dst, c => do
    let (_, c) ← clientUnequip c slot dst
    return c
  | gainExp rand exp reward, c => clientGainExp env rand c exp reward
  | changeJob job r, c => return clientChangeJob c job r

end Syrup
