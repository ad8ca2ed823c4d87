import Syrup.Client.Login
import Syrup.Client.Save
import Syrup.HashMap.Copy

/-!
# Loading

The rest of the login (`client_resume`): the quests with their progress, what the character has been
told about quests, the completed quests, the skills, the monster book and the keys are made of what
has been saved. The monsters that are still to be killed and the items that are still to be found
are not saved, but gathered from the quests.

What an insertion into a set returns is not looked at.
-/

namespace Syrup

/-- The quests that are being loaded, with what is gathered from them. -/
structure QuestSets where
  quests : HashSet Quest
  monsterQuests : HashSet MonsterRefCount
  itemQuests : HashSet UInt32

/-- No quests. -/
def QuestSets.empty : QuestSets := ⟨hashSetInit, hashSetInit, hashSetInit⟩

/-- The total quantity of an item, as the login sums it up. -/
def itemTotal (chr : Character) (id : UInt32) : Exec Int32 :=
  if (id / 1000000).toUInt8 = 1 then
    .ok <| chr.equipmentInventory.slots.foldl (fun total i =>
      let c := chr.equipmentInventory.items i
      if !c.isEmpty && c.val.item.itemId == id then total + 1 else total) 0
  else do
    let k ← inventoryOfId id
    return (chr.inventory k).slots.foldl (fun total i =>
      let c := (chr.inventory k).items i
      if !c.isEmpty && c.val.item.itemId == id then total + c.val.quantity.toInt32 else total) 0

/-- Whether an item of a requirement is still to be found. -/
def loadItemQuest (env : Env) (alloc : Bool) (chr : Character) (set : HashSet UInt32) :
    QuestRequirement → Exec (HashSet UInt32)
  | .item id count => do
    let info ← Exec.deref (env.itemInfo id)
    if info.quest then
      let total ← itemTotal chr id
      if total < count then insertRecord env.itemQuests alloc set id else return set
    else return set
  | _ => .ok set

/-- One round of the loop loading quests. -/
def loadQuest (env : Env) (alloc : Bool) (chr : Character) (s : QuestSets) (id : UInt16) :
    Exec QuestSets := do
  let quests ← insertRecord env.quests alloc s.quests ⟨id, 0, .replicate 5 0⟩
  let info ← Exec.deref (env.questInfo id)
  let itemQuests ← info.endRequirements.foldlM (loadItemQuest env alloc chr) s.itemQuests
  return { s with quests := quests, itemQuests := itemQuests }

/-- The monster of a progress, in the requirement it is looked for in, with its index. -/
def findMob (mobs : List QuestMob) (id : UInt32) : Exec (ℕ × QuestMob) :=
  match mobs.findIdx? (·.id == id) with
  | some j =>
    match mobs[j]? with
    | some mob => .ok (j, mob)
    | none => .error .outOfBounds
  | none => .error .outOfBounds

/-- One more goal that is to be reached with a monster. -/
def countMonster (env : Env) (alloc : Bool) (set : HashSet MonsterRefCount) (id : UInt32) :
    Exec (HashSet MonsterRefCount) :=
  match hashSetGet env.monsterQuests set id with
  | some m => .ok (hashSetWrite env.monsterQuests set id { m with refCount := m.refCount + 1 })
  | none => insertRecord env.monsterQuests alloc set ⟨id, 1⟩

/-- The monster of a progress is counted, if there are more of it to be killed. -/
def countGoal (env : Env) (alloc : Bool) (set : HashSet MonsterRefCount) (p : SavedProgress)
    (mob : QuestMob) : Exec (HashSet MonsterRefCount) :=
  if p.progress < mob.count then countMonster env alloc set p.progressId else .ok set

/-- A progress written to a quest. -/
def Quest.write (quest : Quest) (j : ℕ) (progress : Int32) : Exec Quest :=
  if h : j < 5 then
    .ok { quest with progress := quest.progress.set j progress, progressCount := quest.progressCount + 1 }
  else .error .outOfBounds

/-- One round of the loop loading progresses. -/
def loadProgress (env : Env) (alloc : Bool) (s : QuestSets) (p : SavedProgress) : Exec QuestSets := do
  let quest ← Exec.deref (hashSetGet env.quests s.quests p.questId)
  let info ← Exec.deref (env.questInfo quest.id)
  let (j, mob) ← findMob ((mobRequirement info).getD []) p.progressId
  let monsterQuests ← countGoal env alloc s.monsterQuests p mob
  let quest ← quest.write (UInt8.ofNat j).toNat p.progress.toInt32
  return { s with
    quests := hashSetWrite env.quests s.quests p.questId quest
    monsterQuests := monsterQuests }

/-- The time of a completed quest. -/
def loadTime (time : SavedTime) : Int64 :=
  Int64.ofInt (Calendar.timegm
    { year := time.year - 1900, mon := time.month - 1, mday := time.day, hour := time.hour,
      min := time.minute, sec := time.second })

/-- One round of the loop loading completed quests. -/
def loadCompletedQuest (env : Env) (alloc : Bool) (set : HashSet CompletedQuest)
    (quest : SavedCompletedQuest) : Exec (HashSet CompletedQuest) :=
  insertRecord env.completedQuests alloc set ⟨quest.id, loadTime quest.time⟩

/-- One round of the loop loading keys. -/
def loadKey (keyMap : Fin keyMapMaxKeys → KeyMapEntry) (key : SavedKey) :
    Exec (Fin keyMapMaxKeys → KeyMapEntry) :=
  if h : key.key.toNat < keyMapMaxKeys then
    .ok (Function.update keyMap ⟨key.key.toNat, h⟩ ⟨key.type, key.action⟩)
  else .error .outOfBounds

/-- The quests of a character that has been loaded so far. -/
def loadQuests (env : Env) (alloc : Bool) (s : SavedCharacter) (chr : Character) : Exec QuestSets := do
  let sets ← s.quests.foldlM (loadQuest env alloc chr) .empty
  s.progresses.foldlM (loadProgress env alloc) sets

/-- The part of the login that makes a character of what the database has returned. -/
def clientResumeLoad (env : Env) (alloc : Bool) (s : SavedCharacter) (chr : Character) :
    Exec Character := do
  let chr ← loadHoldings env s chr
  let sets ← loadQuests env alloc s chr
  let questInfos ← s.questInfos.foldlM (insertRecord env.questInfos alloc) hashSetInit
  let completedQuests ← s.completedQuests.foldlM (loadCompletedQuest env alloc) hashSetInit
  let skills ← s.skills.foldlM (insertRecord env.skills alloc) hashSetInit
  let monsterBook ← s.monsterBook.foldlM (insertRecord env.monsterBook alloc) hashSetInit
  let keyMap ← s.keyMap.foldlM loadKey fun _ => ⟨0, 0⟩
  return { chr with
    quests := sets.quests
    monsterQuests := sets.monsterQuests
    itemQuests := sets.itemQuests
    questInfos := questInfos
    completedQuests := completedQuests
    skills := skills
    monsterBook := monsterBook
    keyMap := keyMap }

end Syrup
