import Syrup.Lib.HashOrder
import Syrup.Wz.Tags

/-!
# Reactors of the game data

A document about a reactor has a section for each of its states, with the events that change it. A reactor may be
*linked* to another one: its section `info` names the other one, whose states and events it has.

`REACTOR_INFOS` is filled in two passes over the directory. The first one (`onReactorStart`) takes the documents
that are not linked: at a link it gives up what has been read, and stops the parser. The records are put in the
order of a perfect hash then, and the second pass (`onReactorSecondPassStart`) takes the others, for which it copies
what they are linked to. It writes to the record after the last one in any case, and keeps it if there was a link.

The passes use one context. A parser that is stopped at the start of an element that is written as one tag
(`<string/>`) still tells of its end.
-/

namespace Syrup

open Sax

/-! ## Records -/

/-- An array of `capacity` records, by those that have been completed, and the one after them. It stays the same
    array when it is reallocated. -/
structure Growing (R : Type) where
  id : ℕ
  capacity : ℕ
  done : List R
  cur : R

namespace Growing

variable {R : Type} (b : Growing R)

/-- The record after the last one is written to. -/
def write (f : R → Exec R) : Exec (Growing R) :=
  if b.done.length < b.capacity then do
    let r ← f b.cur
    return { b with cur := r }
  else .error .outOfBounds

/-- A full array is doubled. -/
def grow : Growing R := if b.done.length = b.capacity then { b with capacity := b.capacity * 2 } else b

/-- A record has been completed. In the next one is what is in memory. -/
def next (memory : R) : Growing R := { b with done := b.done ++ [b.cur], cur := memory }

end Growing

/-- `struct ReactorEventInfo`. The members of the union are fields, and `skills` is `none` where it is not set. -/
structure ReactorEventInfo where
  type : Int32
  next : UInt8
  item : UInt32
  count : Int16
  skills : Option (Growing UInt32)

/-- `REACTOR_EVENT_TYPE_SKILL`. -/
def reactorEventTypeSkill : Int32 := 5

/-- `struct ReactorStateInfo`. -/
structure ReactorStateInfo where
  events : Option (Growing ReactorEventInfo)

/-- `struct ReactorInfo`. -/
structure ReactorInfo where
  id : UInt32
  states : Growing ReactorStateInfo
  action : String

/-- `SCRIPT_NAME_MAX_LENGTH`. -/
def scriptNameMaxLength : ℕ := 32

/-- What is in memory that has not been written to: an event of an array, and a record of `REACTOR_INFOS`. -/
structure ReactorMemory where
  event : ℕ → ℕ → ReactorEventInfo
  info : ℕ → ReactorInfo

/-- An event in memory, whose pointer points nowhere. -/
def ReactorMemory.freshEvent (mem : ReactorMemory) (id i : ℕ) : ReactorEventInfo :=
  { mem.event id i with skills := none }

namespace ReactorStateInfo

/-- A state without events. -/
def empty : ReactorStateInfo := ⟨none⟩

/-- The events of a state, `eventCount` of them. -/
def eventList (st : ReactorStateInfo) : List ReactorEventInfo := st.events.elim [] Growing.done

end ReactorStateInfo

/-- `enum ReactorItemType`. -/
inductive ReactorItemType
  | topLevel
  | info
  | state
  | events
  | event
  | skills
  deriving DecidableEq

/-- Whether the parser goes on; or it has been stopped at the start of an element whose end it will still tell of;
    or it has been stopped. -/
inductive Parsing
  | running
  | stopping
  | stopped
  deriving DecidableEq

/-- `struct ReactorParserContext`, with the parser, `REACTOR_INFOS`, and the number of the next array. The
    capacities are those of the arrays. -/
structure ReactorParserContext where
  head : List ReactorItemType
  skip : ℕ
  isLink : Bool
  parsing : Parsing
  infos : Growing ReactorInfo
  fresh : ℕ

/-- A document of the directory, and whether its link is written as one tag. -/
structure ReactorFile where
  document : Xml
  linkEmpty : Bool

namespace ReactorParserContext

variable (s : ReactorParserContext)

/-- One level deeper in what is skipped. -/
def deeper : ReactorParserContext := { s with skip := s.skip + 1 }

/-- A new node of the stack. -/
def push (type : ReactorItemType) : ReactorParserContext := { s with head := type :: s.head }

/-- `REACTOR_INFOS[REACTOR_INFO_COUNT]` is written to. -/
def writeInfo (f : ReactorInfo → Exec ReactorInfo) : Exec ReactorParserContext := do
  let infos ← s.infos.write f
  return { s with infos }

/-- Its state after the last one is. -/
def writeState (f : ReactorStateInfo → Exec ReactorStateInfo) : Exec ReactorParserContext :=
  s.writeInfo fun r => do
    let states ← r.states.write f
    return { r with states }

/-- The events of this state are. -/
def writeEvents (f : Growing ReactorEventInfo → Exec (Growing ReactorEventInfo)) : Exec ReactorParserContext :=
  s.writeState fun st => do
    let events ← f (← Exec.deref st.events)
    return ⟨some events⟩

/-- The event after the last one is. -/
def writeEvent (f : ReactorEventInfo → Exec ReactorEventInfo) : Exec ReactorParserContext :=
  s.writeEvents fun events => events.write f

/-- The parser is stopped at the start of an element. -/
def stopParser (empty : Bool) : ReactorParserContext :=
  { s with parsing := if empty then .stopping else .stopped }

/-- The records have been put in another order. -/
def ordered (done : List ReactorInfo) : ReactorParserContext := { s with infos := { s.infos with done } }

/-- `XML_ParserReset`. -/
def reset : ReactorParserContext := { s with parsing := .running }

end ReactorParserContext

/-! ## The first pass -/

/-- The asserts on the attributes of a script, and its name. -/
def Tag.action (t : Tag) : Exec String :=
  match t.attrs with
  | (name, action) :: (value, script) :: _ =>
    if name = "name" ∧ action = "action" ∧ value = "value" then .ok script else .error .assertion
  | _ => .error .assertion

/-- `strcpy(REACTOR_INFOS[REACTOR_INFO_COUNT].action, attrs[3])`. -/
def ReactorInfo.setAction (action : String) (r : ReactorInfo) : Exec ReactorInfo :=
  if action.utf8ByteSize < scriptNameMaxLength then .ok { r with action } else .error .outOfBounds

/-- An `int` of an event. -/
def ReactorEventInfo.setInt (key : String) (value : ℤ) (ev : ReactorEventInfo) : ReactorEventInfo :=
  if key = "type" then { ev with type := Int32.ofInt value }
  else if key = "state" then { ev with next := UInt8.ofInt value }
  else if key = "0" then { ev with item := UInt32.ofInt value }
  else if key = "1" then { ev with count := Int16.ofInt value }
  else ev

/-- The loops that free what has been read: the skills of an event of their type have to be there. -/
def ReactorInfo.free (r : ReactorInfo) : Exec Unit :=
  if r.states.done.all fun st =>
      st.eventList.all fun ev => ev.type != reactorEventTypeSkill || ev.skills.isSome then .ok ()
  else .error .nullPointer

/-- `on_reactor_start`. -/
def onReactorStart (mem : ReactorMemory) (linkEmpty : Bool) (t : Tag) (s : ReactorParserContext) :
    Exec ReactorParserContext :=
  if 0 < s.skip then .ok s.deeper
  else
    match s.head with
    | [] =>
      if t.name = "imgdir" then do
        let id ← t.first
        let s' ← s.writeInfo fun r =>
          .ok { r with id := UInt32.ofInt (strtol id), states := ⟨s.fresh, 1, [], .empty⟩ }
        return { s' with head := [.topLevel], fresh := s.fresh + 1 }
      else .error .assertion
    | .topLevel :: _ =>
      if t.name = "string" then do
        let action ← t.action
        s.deeper.writeInfo (ReactorInfo.setAction action)
      else if t.name = "imgdir" then do
        let name ← t.first
        if name = "info" then return s.push .info
        else
          (s.push .state).writeInfo fun r => do
            let states ← r.states.grow.write fun _ => .ok .empty
            return { r with states }
      else .ok s.deeper
    | .info :: _ =>
      if t.name = "string" then
        match t.attr "name" with
        | none => .error .assertion
        | some key =>
          if key = "link" then do
            s.infos.cur.free
            return { s.deeper.stopParser linkEmpty with head := [] }
          else return s.deeper
      else .ok s.deeper
    | .state :: _ =>
      if t.name = "imgdir" then
        match t.attr "name" with
        | none => .error .assertion
        | some key =>
          if key = "event" then do
            let s' ← (s.push .events).writeState fun st =>
              -- The number of events stays.
              .ok ⟨some ⟨s.fresh, 1, (List.range st.eventList.length).map (mem.freshEvent s.fresh),
                mem.freshEvent s.fresh st.eventList.length⟩⟩
            return { s' with fresh := s.fresh + 1 }
          else return s.deeper
      else .ok s.deeper
    | .events :: _ =>
      if t.name = "imgdir" then (s.push .event).writeEvents fun events => .ok events.grow else .ok s.deeper
    | .event :: _ =>
      if t.name = "int" then do
        let (key, value) ← t.keyValue
        s.deeper.writeEvent fun ev => .ok (ev.setInt key (strtol value))
      else if t.name = "imgdir" then
        match t.attr "name" with
        | none => .error .assertion
        | some key =>
          if key = "activeSkillID" then do
            let s' ← (s.push .skills).writeEvent fun ev => .ok { ev with skills := some ⟨s.fresh, 1, [], 0⟩ }
            return { s' with fresh := s.fresh + 1 }
          else return s.deeper
      else .ok s.deeper
    | .skills :: _ =>
      if t.name = "int" then do
        let (_, value) ← t.keyValue
        s.deeper.writeEvent fun ev => do
          let skills ← Exec.deref ev.skills
          let skills ← skills.grow.write fun _ => .ok (UInt32.ofInt (strtol value))
          return { ev with skills := some (skills.next 0) }
      else .error .assertion

/-- `on_reactor_end`. -/
def onReactorEnd (mem : ReactorMemory) (s : ReactorParserContext) : Exec ReactorParserContext :=
  if 0 < s.skip then .ok { s with skip := s.skip - 1 }
  else
    match s.head with
    | [] => .error .nullPointer
    | .event :: head =>
      { s with head }.writeEvents fun events =>
        .ok (events.next (mem.freshEvent events.id (events.done.length + 1)))
    | .state :: head => { s with head }.writeInfo fun r => .ok { r with states := r.states.next .empty }
    | .topLevel :: head => .ok { s with head, infos := s.infos.next (mem.info (s.infos.done.length + 1)) }
    | _ :: head => .ok { s with head }

/-- What is told of tags: nothing any more once the parser has been stopped, but the end of the element at whose
    start it was. -/
def toldTags (start : Tag → ReactorParserContext → Exec ReactorParserContext)
    (stop : ReactorParserContext → Exec ReactorParserContext) : Parser Tag ReactorParserContext Fault where
  start t s := if s.parsing = .stopping then .ok { s with parsing := .stopped } else start t s
  stop s := (stop s).map fun s' => if s.parsing = .stopping then { s' with parsing := .stopped } else s'
  stopped s := s.parsing = .stopped

/-- The parser of the first pass. -/
def reactorParser (mem : ReactorMemory) (linkEmpty : Bool) : Parser Tag ReactorParserContext Fault :=
  toldTags (onReactorStart mem linkEmpty) (onReactorEnd mem)

/-! ## The second pass -/

/-- The copy of an event, which has its own skills if it is of their type. -/
def copyEvent (fresh : ℕ) (ev : ReactorEventInfo) : Exec (ReactorEventInfo × ℕ) :=
  if ev.type = reactorEventTypeSkill then do
    let skills ← Exec.deref ev.skills
    return ({ ev with skills := some ⟨fresh, skills.done.length, skills.done, 0⟩ }, fresh + 1)
  else .ok (ev, fresh)

/-- The loop over the events. -/
def copyEvents : ℕ → List ReactorEventInfo → Exec (List ReactorEventInfo × ℕ)
  | fresh, [] => .ok ([], fresh)
  | fresh, ev :: evs => do
    let (ev, fresh) ← copyEvent fresh ev
    let (evs, fresh) ← copyEvents fresh evs
    return (ev :: evs, fresh)

/-- The copy of a state. -/
def copyState (mem : ReactorMemory) (fresh : ℕ) (st : ReactorStateInfo) : Exec (ReactorStateInfo × ℕ) := do
  let (evs, fresh') ← copyEvents (fresh + 1) st.eventList
  return (⟨some ⟨fresh, evs.length, evs, mem.freshEvent fresh evs.length⟩⟩, fresh')

/-- The loop over the states. -/
def copyStates (mem : ReactorMemory) : ℕ → List ReactorStateInfo → Exec (List ReactorStateInfo × ℕ)
  | fresh, [] => .ok ([], fresh)
  | fresh, st :: sts => do
    let (st, fresh) ← copyState mem fresh st
    let (sts, fresh) ← copyStates mem fresh sts
    return (st :: sts, fresh)

/-- `on_reactor_second_pass_start`. -/
def onReactorSecondPassStart (mem : ReactorMemory) (cmphSearch : UInt32 → ℕ) (t : Tag) (s : ReactorParserContext) :
    Exec ReactorParserContext :=
  if 0 < s.skip then .ok s.deeper
  else
    match s.head with
    | [] =>
      if t.name = "imgdir" then do
        let id ← t.first
        let s' ← s.writeInfo fun r => .ok { r with id := UInt32.ofInt (strtol id) }
        return { s' with head := [.topLevel], isLink := false }
      else .error .assertion
    | .topLevel :: _ =>
      if t.name = "string" then do
        let action ← t.action
        s.deeper.writeInfo (ReactorInfo.setAction action)
      else if t.name = "imgdir" then do
        let name ← t.first
        if name = "info" then return s.push .info else return s.deeper
      else .ok s.deeper
    | .info :: _ =>
      if t.name = "string" then do
        let (key, value) ← t.keyValue
        if key = "link" then
          match s.infos.done[cmphSearch (UInt32.ofInt (strtol value))]? with
          | none => .error .outOfBounds
          | some other => do
            let (sts, fresh) ← copyStates mem (s.fresh + 1) other.states.done
            let s' ← s.deeper.writeInfo fun r => .ok { r with states := ⟨s.fresh, sts.length, sts, .empty⟩ }
            return { s' with isLink := true, fresh }
        else return s.deeper
      else .ok s.deeper
    | _ :: _ => .ok s.deeper

/-- `on_reactor_second_pass_end`. -/
def onReactorSecondPassEnd (mem : ReactorMemory) (s : ReactorParserContext) : Exec ReactorParserContext :=
  if 0 < s.skip then .ok { s with skip := s.skip - 1 }
  else
    match s.head with
    | [] => .error .nullPointer
    | .info :: head =>
      -- Without a link, the parser is stopped.
      if s.isLink then .ok { s with head } else .ok { s with head := [], parsing := .stopped }
    | .topLevel :: head =>
      if s.isLink then .ok { s with head, infos := s.infos.next (mem.info (s.infos.done.length + 1)) }
      else .ok { s with head }
    | _ :: head => .ok { s with head }

/-- The parser of the second pass. -/
def reactorSecondPassParser (mem : ReactorMemory) (cmphSearch : UInt32 → ℕ) :
    Parser Tag ReactorParserContext Fault :=
  toldTags (onReactorSecondPassStart mem cmphSearch) (onReactorSecondPassEnd mem)

/-! ## The directory -/

/-- The loop of the first pass. -/
def firstPass (mem : ReactorMemory) : List ReactorFile → ReactorParserContext → Exec ReactorParserContext
  | [], s => .ok s
  | file :: files, s => do
    let s ← (reactorParser mem file.linkEmpty).run file.document.events s
    firstPass mem files s.reset

/-- The loop of the second pass, which is left when there are as many records as files. -/
def secondPass (mem : ReactorMemory) (cmphSearch : UInt32 → ℕ) (count : ℕ) :
    List ReactorFile → ReactorParserContext → Exec ReactorParserContext
  | [], s => .ok s
  | file :: files, s => do
    let s ← (reactorSecondPassParser mem cmphSearch).run file.document.events s
    if s.infos.done.length = count then return s.reset else secondPass mem cmphSearch count files s.reset

/-- `cmph_new` with the ids of the records, and the loop that puts them in order. -/
def orderReactors (mph : List UInt32 → UInt32 → ℕ) (rs : List ReactorInfo) : Exec (List ReactorInfo) :=
  hashOrder (fun r => mph (rs.map ReactorInfo.id) r.id) (2 * rs.length + 1) 0 rs

/-- The context before the first document, with room for as many records as documents. -/
def ReactorParserContext.initial (mem : ReactorMemory) (count : ℕ) : ReactorParserContext :=
  { head := []
    skip := 0
    isLink := false
    parsing := .running
    infos := ⟨0, count, [], mem.info 0⟩
    fresh := 1 }

/-- The part of `wz_init` about reactors, for the files of the directory in their order: `REACTOR_INFOS`. -/
def wzInitReactors (mem : ReactorMemory) (mph : List UInt32 → UInt32 → ℕ) (files : List ReactorFile) :
    Exec (List ReactorInfo) := do
  let s ← firstPass mem files (.initial mem files.length)
  let done ← orderReactors mph s.infos.done
  let search := mph (s.infos.done.map ReactorInfo.id)
  let s ← secondPass mem search files.length files (s.ordered done)
  orderReactors mph s.infos.done

end Syrup
