import Syrup.Client.HitPoints
import Syrup.Client.RemoveItem
import Syrup.Map.Damage

/-!
# Ranged attacks: `RECEIVE_OPCODE_RANGED_ATTACK`

A client shoots, or uses a skill, whose level may need projectiles too. Everybody in the room is shown the
item in the slot `activeProjectile`, and the monsters that the client names are damaged.

That there are no projectiles is not an error: `client_use_projectile` says so in a flag, which the attack
without a skill does not look at, and which `client_apply_skill` makes a success of.
-/

namespace Syrup

/-- `struct SkillLevelInfo`, as far as it is used here. -/
structure SkillLevelInfo where
  mpCon : Int16
  bulletCount : Int16
  deriving DecidableEq

/-- One of the monsters that a packet names, with its hits. -/
structure AttackTarget where
  oid : UInt32
  damage : List Int32
  deriving DecidableEq

/-- What is read of the packet. -/
structure RangedAttack where
  skill : UInt32
  targets : List AttackTarget
  deriving DecidableEq

/-- The entry of a level, `levels[level - 1]`. -/
def skillLevelInfo (levels : List SkillLevelInfo) (level : Int8) : Exec SkillLevelInfo :=
  if level.toInt ≤ 0 then .error .outOfBounds
  else
    match levels[level.toInt.toNat - 1]? with
    | none => .error .outOfBounds
    | some info => .ok info

/-- `client_apply_skill`, with the levels of `wz_get_skill_info`: it returns `false` (`none`), or `true` with
    `*level`, which is `0` where it is not written. -/
def clientApplySkill (env : Env) (skillLevels : UInt32 → Option (List SkillLevelInfo)) (c : Client)
    (skillId : UInt32) : Exec (Option UInt8 × Client) :=
  match hashSetGet env.skills c.character.skills skillId with
  | none => .ok (none, c)
  | some skill =>
    match skillLevels skillId with
    | none => .ok (none, c)
    | some levels => do
      let info ← skillLevelInfo levels skill.level
      if 0 < info.bulletCount then
        if c.character.activeProjectile = noProjectile then return (some 0, c)
        let (success, c) ← clientUseProjectile c info.bulletCount
        if !success then return (some 0, c)
        return (some skill.level.toUInt8, clientAdjustMpNow c (-info.mpCon.toInt32))
      else return (some skill.level.toUInt8, clientAdjustMpNow c (-info.mpCon.toInt32))

/-- The monsters of a room, by their oids, with their hit points. -/
abbrev MonsterHp := UInt32 → Option Int32

/-- `map_damage_monster_by`, as far as hit points go: whether it changes those of the monster. One that has
    none left is not hit again. -/
def damageMonster (monsters : MonsterHp) (t : AttackTarget) : Bool × MonsterHp :=
  match monsters t.oid with
  | none => (false, monsters)
  | some hp =>
    if 0 < hp then
      (Map.hit hp t.damage ≠ hp, Function.update monsters t.oid (some (Map.hit hp t.damage)))
    else (false, monsters)

/-- The loop over the monsters: those whose hit points have been changed. -/
def damageTargets : MonsterHp → List AttackTarget → List UInt32
  | _, [] => []
  | monsters, t :: ts =>
    let (damaged, monsters) := damageMonster monsters t
    if damaged then t.oid :: damageTargets monsters ts else damageTargets monsters ts

/-- What comes of an attack: the slot and the item that are shown, the level of the skill, and the monsters
    that have been damaged. -/
structure RangedShow where
  slot : Fin maxItemCount
  projectile : UInt32
  level : UInt8
  damaged : List UInt32
  client : Client

/-- The projectiles of an attack without a skill, or `client_apply_skill`. -/
def payAttack (env : Env) (skillLevels : UInt32 → Option (List SkillLevelInfo)) (c : Client) (skillId : UInt32) :
    Exec (Option UInt8 × Client) :=
  if skillId = 0 then do
    let (_, c) ← clientUseProjectile c 1
    return (some 0, c)
  else clientApplySkill env skillLevels c skillId

/-- `RECEIVE_OPCODE_RANGED_ATTACK`, after the packet has been read: `none` if the session is kicked. -/
def rangedAttack (env : Env) (skillLevels : UInt32 → Option (List SkillLevelInfo)) (monsters : MonsterHp)
    (c : Client) (attack : RangedAttack) : Exec (Option RangedShow) := do
  let (level, c) ← payAttack env skillLevels c attack.skill
  match level with
  | none => return none
  | some level => do
    let slot ← itemIndex c.character.activeProjectile
    let shown := (c.character.inventory useInventory).items slot
    return some ⟨slot, shown.val.item.itemId, level, damageTargets monsters attack.targets, c⟩

end Syrup
