import Syrup.Wz.Maps.Sections
import Syrup.Wz.Reactors

/-!
# The first pass over a document

What a document says of a reactor (`ReactorInfo.Of`) is what the first pass makes of it, if it has no link
(`run_unlinked`). If it has, all is given up at the link, and the context is ready for the next document
(`run_linked`), or skips it.

The arrays of a record are numbered in the order in which they are allocated (`Numbered`).
-/

namespace Syrup

open Sax

/-! ## What a document says -/

/-- The skills of an event. -/
def Xml.IsSkills (c : Xml) : Prop := c.tag.name = "imgdir" ∧ Xml.name c = "activeSkillID"

/-- The events of a state. -/
def Xml.IsEvents (c : Xml) : Prop := c.tag.name = "imgdir" ∧ Xml.name c = "event"

/-- The section `info`. -/
def Xml.IsInfoSection (c : Xml) : Prop := c.tag.name = "imgdir" ∧ c.tag.id = "info"

/-- A state. -/
def Xml.IsStateSection (c : Xml) : Prop := c.tag.name = "imgdir" ∧ c.tag.id ≠ "info"

/-- A link. -/
def Xml.IsLink (c : Xml) : Prop := c.tag.name = "string" ∧ Xml.name c = "link"

instance : DecidablePred Xml.IsSkills := fun _ => inferInstanceAs (Decidable (_ ∧ _))
instance : DecidablePred Xml.IsEvents := fun _ => inferInstanceAs (Decidable (_ ∧ _))
instance : DecidablePred Xml.IsInfoSection := fun _ => inferInstanceAs (Decidable (_ ∧ _))
instance : DecidablePred Xml.IsStateSection := fun _ => inferInstanceAs (Decidable (_ ∧ _))
instance : DecidablePred Xml.IsLink := fun _ => inferInstanceAs (Decidable (_ ∧ _))

/-- The number of a skill. -/
def skillOf (c : Xml) : UInt32 := UInt32.ofInt (strtol (Xml.value c))

/-- The skills given for an event. -/
def skillsOf (cs : List Xml) : Option (List UInt32) :=
  cs.reverse.findSome? fun c => if Xml.IsSkills c then some (c.children.map skillOf) else none

/-- The events given for a state. -/
def eventsOf (cs : List Xml) : List Xml :=
  (cs.filter Xml.IsEvents).flatMap fun c => c.children.filter (·.tag.name = "imgdir")

/-- The states given for a reactor. -/
def statesOf (cs : List Xml) : List Xml := cs.filter Xml.IsStateSection

/-- The script given for a reactor. -/
def actionOf (cs : List Xml) : Option String :=
  cs.reverse.findSome? fun c => if c.tag.name = "string" then some (Xml.value c) else none

/-- The id of a reactor. -/
def reactorId (d : Xml) : UInt32 := UInt32.ofInt (strtol d.tag.id)

/-- The section `info` links to a reactor. -/
def Xml.LinksTo (d : Xml) (id : UInt32) : Prop :=
  ∃ c ∈ d.children, Xml.IsInfoSection c ∧ ∃ x ∈ c.children, Xml.IsLink x ∧ UInt32.ofInt (strtol (Xml.value x)) = id

/-- There is no link. -/
def Xml.Unlinked (d : Xml) : Prop := ∀ c ∈ d.children, Xml.IsInfoSection c → ∀ x ∈ c.children, ¬Xml.IsLink x

instance : DecidablePred Xml.Unlinked := fun d =>
  inferInstanceAs (Decidable (∀ c ∈ d.children, Xml.IsInfoSection c → ∀ x ∈ c.children, ¬Xml.IsLink x))

/-- An event is what is given for it. -/
structure ReactorEventInfo.Of (cs : List Xml) (ev : ReactorEventInfo) : Prop where
  type : ∀ v ∈ lastInt cs "type", ev.type = Int32.ofInt v
  next : ∀ v ∈ lastInt cs "state", ev.next = UInt8.ofInt v
  item : ∀ v ∈ lastInt cs "0", ev.item = UInt32.ofInt v
  count : ∀ v ∈ lastInt cs "1", ev.count = Int16.ofInt v
  skills : ev.skills.map Growing.done = skillsOf cs

/-- A state has the events that are given for it, in order. -/
def ReactorStateInfo.Of (cs : List Xml) (st : ReactorStateInfo) : Prop :=
  List.Forall₂ (fun e ev => ReactorEventInfo.Of e.children ev) (eventsOf cs) st.eventList

/-- A reactor has the states that are given for it, in order. -/
structure ReactorInfo.Of (cs : List Xml) (r : ReactorInfo) : Prop where
  states : List.Forall₂ (fun e st => ReactorStateInfo.Of e.children st) (statesOf cs) r.states.done
  action : ∀ v ∈ actionOf cs, r.action = v

/-! ## Documents -/

/-- An element that describes an event: it has a type, and skills just if it is of their type, and an item
    otherwise. -/
structure Xml.IsReactorEvent (e : Xml) : Prop where
  values : ∀ c ∈ e.children, c.tag.name = "int" → Xml.IsValue c
  named : ∀ c ∈ e.children, c.tag.name = "imgdir" → ∃ key, c.tag.attr "name" = some key
  skills : ∀ c ∈ e.children, Xml.IsSkills c → ∀ x ∈ c.children, x.tag.name = "int" ∧ Xml.IsValue x
  once : e.children.Pairwise fun c c' => Xml.name c ≠ Xml.name c'
  typed : ∃ v, lastInt e.children "type" = some v ∧
    (Int32.ofInt v = reactorEventTypeSkill ↔ (skillsOf e.children).isSome = true)
  either : (skillsOf e.children).isSome = true → lastInt e.children "0" = none ∧ lastInt e.children "1" = none

/-- An element that describes a state. -/
structure Xml.IsReactorState (e : Xml) : Prop where
  named : ∀ c ∈ e.children, c.tag.name = "imgdir" → ∃ key, c.tag.attr "name" = some key
  events : ∀ c ∈ e.children, Xml.IsEvents c → ∀ y ∈ c.children, y.tag.name = "imgdir" → Xml.IsReactorEvent y
  once : e.children.Pairwise fun c c' => Xml.name c ≠ Xml.name c'

/-- A document about a reactor. -/
structure Xml.IsReactor (d : Xml) : Prop where
  imgdir : d.tag.name = "imgdir"
  named : d.tag.attrs ≠ []
  sections : ∀ c ∈ d.children, c.tag.name = "imgdir" → c.tag.attrs ≠ [] ∧ Xml.name c = c.tag.id
  action : ∀ c ∈ d.children, c.tag.name = "string" → (Xml.value c).utf8ByteSize < scriptNameMaxLength ∧
    ∃ l, c.tag.attrs = ("name", "action") :: ("value", Xml.value c) :: l
  once : d.children.Pairwise fun c c' => Xml.name c ≠ Xml.name c'
  info : ∀ c ∈ d.children, Xml.IsInfoSection c → (∀ x ∈ c.children, x.tag.name = "string" → Xml.IsValue x) ∧
    c.children.Pairwise fun x x' => Xml.name x ≠ Xml.name x'
  states : ∀ c ∈ d.children, Xml.IsStateSection c → Xml.IsReactorState c

/-- There is no other section `info`. -/
theorem Xml.IsReactor.info_unique {d c : Xml} {l l' : List Xml} (hd : Xml.IsReactor d)
    (hl : d.children = l ++ c :: l') (hinfo : Xml.IsInfoSection c) :
    (∀ c' ∈ l, ¬Xml.IsInfoSection c') ∧ ∀ c' ∈ l', ¬Xml.IsInfoSection c' := by
  have honce := hd.once
  rw [hl, List.pairwise_append, List.pairwise_cons] at honce
  have hname {c' : Xml} (hc' : c' ∈ d.children) (hinfo' : Xml.IsInfoSection c') : Xml.name c' = "info" := by
    rw [(hd.sections c' hc' hinfo'.1).2, hinfo'.2]
  have hc := hname (hl ▸ List.mem_append_right _ List.mem_cons_self) hinfo
  refine ⟨fun c' hc' hinfo' => ?_, fun c' hc' hinfo' => ?_⟩
  · exact honce.2.2 c' hc' c List.mem_cons_self ((hname (hl ▸ List.mem_append_left _ hc') hinfo').trans hc.symm)
  · have hc'' : c' ∈ d.children := hl ▸ List.mem_append_right _ (List.mem_cons_of_mem _ hc')
    exact honce.2.1.1 c' hc' (hc.trans (hname hc'' hinfo').symm)

/-- The script of a reactor is read, and fits. -/
theorem Xml.IsReactor.setAction {d c : Xml} (hd : Xml.IsReactor d) (hc : c ∈ d.children)
    (hstring : c.tag.name = "string") : c.tag.action = .ok (Xml.value c) ∧
      ∀ r : ReactorInfo, r.setAction (Xml.value c) = .ok { r with action := Xml.value c } := by
  obtain ⟨hsize, attrs, hattrs⟩ := hd.action c hc hstring
  refine ⟨?_, fun r => if_pos hsize⟩
  rw [Tag.action, hattrs]
  exact if_pos ⟨rfl, rfl, rfl⟩

/-- The tags of elements, around one of them. -/
theorem forest_around (l : List Xml) (c : Xml) (l' : List Xml) : Element.forest (l ++ c :: l') =
    Element.forest l ++ (.start c.tag :: (Element.forest c.children ++ (.stop :: Element.forest l'))) := by
  obtain ⟨t, cs⟩ := c
  rw [Element.forest_append, Element.forest, Element.events]
  simp only [List.append_assoc, List.cons_append, List.nil_append, Element.tag, Element.children]

/-! ## Arrays -/

/-- Numbers from `a` on, below `b`, none of them twice. -/
structure Numbered (a b : ℕ) (l : List ℕ) : Prop where
  le : a ≤ b
  nodup : l.Nodup
  mem : ∀ x ∈ l, a ≤ x ∧ x < b

theorem Numbered.nil {a b : ℕ} (h : a ≤ b) : Numbered a b [] := ⟨h, .nil, nofun⟩

theorem Numbered.append {a b c : ℕ} {l l' : List ℕ} (h : Numbered a b l) (h' : Numbered b c l') :
    Numbered a c (l ++ l') := by
  refine ⟨h.le.trans h'.le, List.nodup_append.2 ⟨h.nodup, h'.nodup, fun x hx y hy heq => ?_⟩, fun x hx => ?_⟩
  · have := (h.mem x hx).2
    have := (h'.mem y hy).1
    omega
  · rcases List.mem_append.1 hx with hx | hx
    · exact ⟨(h.mem x hx).1, (h.mem x hx).2.trans_le h'.le⟩
    · exact ⟨h.le.trans (h'.mem x hx).1, (h'.mem x hx).2⟩

theorem Numbered.widen {a b c : ℕ} {l : List ℕ} (h : Numbered b c l) (hle : a ≤ b) : Numbered a c l :=
  (Numbered.nil hle).append h

theorem Numbered.single (a : ℕ) : Numbered a (a + 1) [a] :=
  ⟨a.le_succ, List.nodup_singleton a, fun x hx => by rw [List.mem_singleton.1 hx]; omega⟩

theorem Numbered.cons {a b : ℕ} {l : List ℕ} (h : Numbered (a + 1) b l) : Numbered a b (a :: l) :=
  (Numbered.single a).append h

/-- The arrays of an event. -/
def ReactorEventInfo.blocks (ev : ReactorEventInfo) : List ℕ := ev.skills.elim [] fun b => [b.id]

/-- The arrays of a state. -/
def ReactorStateInfo.blocks (st : ReactorStateInfo) : List ℕ :=
  st.events.elim [] fun b => b.id :: b.done.flatMap ReactorEventInfo.blocks

/-- The arrays of a reactor. -/
def ReactorInfo.blocks (r : ReactorInfo) : List ℕ := r.states.id :: r.states.done.flatMap ReactorStateInfo.blocks

namespace Growing

variable {R : Type} {b : Growing R}

/-- There is room for the records. -/
structure Open (b : Growing R) : Prop where
  le : b.done.length ≤ b.capacity
  pos : 0 < b.capacity

theorem write_ok {f : R → Exec R} {r : R} (h : b.done.length < b.capacity) (hf : f b.cur = .ok r) :
    b.write f = .ok { b with cur := r } := by
  rw [write, if_pos h, hf]
  rfl

/-- After growing there is room for another record, and nothing else has changed. -/
theorem Open.grow (h : b.Open) :
    b.grow.done.length < b.grow.capacity ∧ b.grow = { b with capacity := b.grow.capacity } := by
  have hle := h.le
  have hpos := h.pos
  rw [Growing.grow]
  split
  · exact ⟨by dsimp only; omega, rfl⟩
  · exact ⟨by omega, rfl⟩

theorem open_next {r : R} (h : b.done.length < b.capacity) : (b.next r).Open :=
  ⟨by rw [next, List.length_append]; exact h, (Nat.zero_le _).trans_lt h⟩

end Growing

/-! ## Tags -/

namespace ReactorParserContext

variable {s s' : ReactorParserContext}

/-- Ready to go on: nothing is skipped, and there is a record to write to. -/
structure Ready (s : ReactorParserContext) : Prop where
  skip : s.skip = 0
  parsing : s.parsing = .running
  room : s.infos.done.length < s.infos.capacity

theorem Ready.not_skip (h : s.Ready) : (0 < s.skip) = False := eq_false (by rw [h.skip]; exact lt_irrefl 0)

/-- With another stack, record, and number of arrays. -/
def put (s : ReactorParserContext) (head : List ReactorItemType) (r : ReactorInfo) (fresh : ℕ) :
    ReactorParserContext :=
  { s with head, infos := { s.infos with cur := r }, fresh }

/-- In a state of the record. -/
def putState (s : ReactorParserContext) (head : List ReactorItemType) (r : ReactorInfo) (st : ReactorStateInfo)
    (fresh : ℕ) : ReactorParserContext :=
  s.put head { r with states := { r.states with cur := st } } fresh

/-- In an event of the state. -/
def putEvent (s : ReactorParserContext) (head : List ReactorItemType) (r : ReactorInfo)
    (evs : Growing ReactorEventInfo) (ev : ReactorEventInfo) (fresh : ℕ) : ReactorParserContext :=
  s.putState head r ⟨some { evs with cur := ev }⟩ fresh

theorem writeInfo_ok {f : ReactorInfo → Exec ReactorInfo} {r : ReactorInfo}
    (hroom : s.infos.done.length < s.infos.capacity) (hf : f s.infos.cur = .ok r) :
    s.writeInfo f = .ok { s with infos := { s.infos with cur := r } } := by
  rw [writeInfo, Growing.write_ok hroom hf]
  rfl

theorem writeState_ok {f : ReactorStateInfo → Exec ReactorStateInfo} {st : ReactorStateInfo}
    (hroom : s.infos.done.length < s.infos.capacity)
    (hstates : s.infos.cur.states.done.length < s.infos.cur.states.capacity)
    (hf : f s.infos.cur.states.cur = .ok st) :
    s.writeState f = .ok { s with infos := { s.infos with
      cur := { s.infos.cur with states := { s.infos.cur.states with cur := st } } } } :=
  writeInfo_ok hroom (by rw [Growing.write_ok hstates hf]; rfl)

theorem writeEvents_ok {f : Growing ReactorEventInfo → Exec (Growing ReactorEventInfo)}
    {evs evs' : Growing ReactorEventInfo}
    (hroom : s.infos.done.length < s.infos.capacity)
    (hstates : s.infos.cur.states.done.length < s.infos.cur.states.capacity)
    (hevs : s.infos.cur.states.cur.events = some evs) (hf : f evs = .ok evs') :
    s.writeEvents f = .ok { s with infos := { s.infos with
      cur := { s.infos.cur with states := { s.infos.cur.states with cur := ⟨some evs'⟩ } } } } :=
  writeState_ok hroom hstates (by rw [hevs]; simp only [Exec.deref, Exec.ok_bind, hf]; rfl)

theorem writeEvent_ok {f : ReactorEventInfo → Exec ReactorEventInfo} {evs : Growing ReactorEventInfo}
    {ev : ReactorEventInfo} (hroom : s.infos.done.length < s.infos.capacity)
    (hstates : s.infos.cur.states.done.length < s.infos.cur.states.capacity)
    (hevs : s.infos.cur.states.cur.events = some evs) (hevsRoom : evs.done.length < evs.capacity)
    (hf : f evs.cur = .ok ev) :
    s.writeEvent f = .ok { s with infos := { s.infos with
      cur := { s.infos.cur with states := { s.infos.cur.states with cur := ⟨some { evs with cur := ev }⟩ } } } } :=
  writeEvents_ok hroom hstates hevs (Growing.write_ok hevsRoom hf)

end ReactorParserContext

open ReactorParserContext

section Tags

variable {start : Tag → ReactorParserContext → Exec ReactorParserContext}
  {stop : ReactorParserContext → Exec ReactorParserContext} {s s' : ReactorParserContext}

theorem toldTags_start (h : s.parsing = .running) (t : Tag) : (toldTags start stop).start t s = start t s := by
  rw [toldTags]
  dsimp only
  rw [if_neg (by rw [h]; decide)]

theorem toldTags_stop (h : s.parsing = .running) : (toldTags start stop).stop s = stop s := by
  rw [toldTags]
  simp only [h, reduceCtorEq, if_false]
  cases stop s <;> rfl

theorem toldTags_running (h : s.parsing = .running) : (toldTags start stop).stopped s = false := by
  rw [toldTags]
  dsimp only
  rw [h]
  rfl

theorem toldTags_run_start {s₁ : ReactorParserContext} {t : Tag} (hs : s.parsing = .running)
    (hstart : start t s = .ok s₁) (l : List (Event Tag)) :
    (toldTags start stop).run (.start t :: l) s = (toldTags start stop).run l s₁ :=
  Parser.run_cons (toldTags_running hs) ((toldTags_start hs t).trans hstart)

/-- A parser that counts what it skips. -/
structure CountsSkipped (start : Tag → ReactorParserContext → Exec ReactorParserContext)
    (stop : ReactorParserContext → Exec ReactorParserContext) : Prop where
  start : ∀ t s, 0 < s.skip → start t s = .ok s.deeper
  stop : ∀ s, stop (deeper s) = .ok s

theorem CountsSkipped.skips (h : CountsSkipped start stop) :
    (toldTags start stop).Skips (fun s => 0 < s.skip ∧ s.parsing = .running) deeper where
  running s hs := toldTags_running hs.2
  kept s hs := ⟨Nat.succ_pos _, hs.2⟩
  start t s hs := by rw [toldTags_start hs.2, h.start t s hs.1]
  stop s hs := by rw [toldTags_stop (show s.deeper.parsing = .running from hs.2), h.stop]

/-- An element of which nothing more is read than its start tag. -/
theorem CountsSkipped.run_leaf (h : CountsSkipped start stop) {e : Xml} (hs : s.parsing = .running)
    (hs' : s'.parsing = .running) (hstart : start e.tag s = .ok s'.deeper) :
    (toldTags start stop).run e.events s = .ok s' := by
  have hdeeper : s'.deeper.parsing = .running := hs'
  rw [Parser.run_element (toldTags_running hs) ((toldTags_start hs _).trans hstart)
    (h.skips.run_skipped_forest _ ⟨Nat.succ_pos _, hdeeper⟩) (toldTags_running hdeeper), toldTags_stop hdeeper,
    h.stop]

/-- An element that is read by its start tag, what is in it, and its end tag. -/
theorem run_branch {e : Xml} {s₁ s₂ s₃ : ReactorParserContext} (hs : s.parsing = .running)
    (hstart : start e.tag s = .ok s₁) (hrun : (toldTags start stop).run (Element.forest e.children) s₁ = .ok s₂)
    (hs₂ : s₂.parsing = .running) (hstop : stop s₂ = .ok s₃) : (toldTags start stop).run e.events s = .ok s₃ := by
  rw [Parser.run_element (toldTags_running hs) ((toldTags_start hs _).trans hstart) hrun (toldTags_running hs₂),
    toldTags_stop hs₂, hstop]

end Tags

theorem onReactor_skips {mem : ReactorMemory} {linkEmpty : Bool} :
    CountsSkipped (onReactorStart mem linkEmpty) (onReactorEnd mem) where
  start t s hs := by rw [onReactorStart, if_pos hs]
  stop s := by rw [onReactorEnd, if_pos (show 0 < s.deeper.skip from Nat.succ_pos _)]; rfl

/-! ## What is written last -/

theorem lastInt_concat (l : List Xml) (c : Xml) (key : String) :
    lastInt (l ++ [c]) key = (intOf key c).or (lastInt l key) := by
  rw [lastInt, List.reverse_concat, List.findSome?_cons]
  cases intOf key c <;> rfl

theorem skillsOf_concat (l : List Xml) (c : Xml) :
    skillsOf (l ++ [c]) = if Xml.IsSkills c then some (c.children.map skillOf) else skillsOf l := by
  rw [skillsOf, List.reverse_concat, List.findSome?_cons]
  split <;> rename_i h
  · split at h
    · rename_i hskills
      cases h
      rw [if_pos hskills]
    · cases h
  · split at h
    · cases h
    · rename_i hskills
      rw [if_neg hskills]
      rfl

/-- What is no number is no number of a key. -/
theorem intOf_eq_none {c : Xml} {key : String} (h : c.tag.name ≠ "int") : intOf key c = none :=
  if_neg fun h' => h h'.1

/-- A number is written to an event. -/
theorem ReactorEventInfo.Of.setInt {l : List Xml} {ev : ReactorEventInfo} (h : Of l ev) {c : Xml}
    (hint : c.tag.name = "int") : Of (l ++ [c]) (ev.setInt (Xml.name c) (strtol (Xml.value c))) := by
  have hof (key : String) : intOf key c = if Xml.name c = key then some (strtol (Xml.value c)) else none := by
    rw [intOf]
    simp only [hint, true_and]
    rfl
  have hskills : skillsOf (l ++ [c]) = skillsOf l := by
    rw [skillsOf_concat, if_neg]
    rintro ⟨himgdir, -⟩
    rw [hint] at himgdir
    exact absurd himgdir (by decide)
  obtain ⟨htype, hnext, hitem, hcount, hskills'⟩ := h
  constructor
  all_goals simp only [lastInt_concat, hof, hskills, ReactorEventInfo.setInt]
  all_goals split_ifs <;> simp_all

/-- What is no number, and no skills, writes nothing to it. -/
theorem ReactorEventInfo.Of.skip {l : List Xml} {ev : ReactorEventInfo} (h : Of l ev) {c : Xml}
    (hint : c.tag.name ≠ "int") (hskills : ¬Xml.IsSkills c) : Of (l ++ [c]) ev := by
  constructor
  all_goals simp only [lastInt_concat, intOf_eq_none hint, Option.none_or, skillsOf_concat, if_neg hskills]
  exacts [h.type, h.next, h.item, h.count, h.skills]

/-- The skills are read. -/
theorem ReactorEventInfo.Of.withSkills {l : List Xml} {ev : ReactorEventInfo} (h : Of l ev) {c : Xml}
    (hskills : Xml.IsSkills c) {b : Growing UInt32} (hb : b.done = c.children.map skillOf) :
    Of (l ++ [c]) { ev with skills := some b } := by
  have hint : c.tag.name ≠ "int" := by
    rw [hskills.1]
    decide
  constructor
  all_goals simp only [lastInt_concat, intOf_eq_none hint, Option.none_or, skillsOf_concat, if_pos hskills]
  exacts [h.type, h.next, h.item, h.count, congrArg some hb]

/-- With different names, there have been no skills before. -/
theorem skillsOf_eq_none {l : List Xml} {c : Xml} (hskills : Xml.IsSkills c)
    (honce : ∀ x ∈ l, Xml.name x ≠ Xml.name c) : skillsOf l = none := by
  rw [skillsOf, List.findSome?_eq_none_iff]
  intro x hx
  rw [if_neg]
  rintro ⟨-, hname⟩
  exact honce x (List.mem_reverse.1 hx) (hname.trans hskills.2.symm)

/-! ## Events -/

section Event

variable (mem : ReactorMemory) (linkEmpty : Bool) {s : ReactorParserContext} {head : List ReactorItemType}
  {r : ReactorInfo} {evs : Growing ReactorEventInfo} {ev : ReactorEventInfo} {fresh : ℕ}

/-- The skills of an event. -/
theorem run_skills (head : List ReactorItemType) (ev : ReactorEventInfo) (fresh : ℕ) (hs : s.Ready)
    (hstates : r.states.done.length < r.states.capacity)
    (hevs : evs.done.length < evs.capacity) {cs : List Xml} (hcs : ∀ x ∈ cs, x.tag.name = "int" ∧ Xml.IsValue x)
    {b : Growing UInt32} (hb : b.Open) (hnone : b.done = []) :
    ∃ b' : Growing UInt32, b'.id = b.id ∧ b'.done = cs.map skillOf ∧
      (reactorParser mem linkEmpty).run (Element.forest cs)
        (s.putEvent (.skills :: head) r evs { ev with skills := some b } fresh) =
          .ok (s.putEvent (.skills :: head) r evs { ev with skills := some b' } fresh) := by
  obtain ⟨s', hrun, b', rfl, -, hid, hdone⟩ := Parser.run_forest_collect
    (p := reactorParser mem linkEmpty) (g := fun x => [skillOf x])
    (I := fun l s' => ∃ b' : Growing UInt32,
      s' = s.putEvent (.skills :: head) r evs { ev with skills := some b' } fresh ∧ b'.Open ∧ b'.id = b.id ∧
      b'.done = l)
    (fun x (hx : x ∈ cs) l s' hI => by
      obtain ⟨b', rfl, hopen, hid, hdone⟩ := hI
      obtain ⟨hint, hvalue⟩ := hcs x hx
      obtain ⟨hroom, hgrow⟩ := hopen.grow
      refine ⟨s.putEvent (.skills :: head) r evs
        { ev with skills := some (({ b'.grow with cur := skillOf x }).next 0) } fresh,
        onReactor_skips.run_leaf hs.parsing hs.parsing ?_, _, rfl,
        @Growing.open_next _ { b'.grow with cur := skillOf x } 0 hroom, ?_, ?_⟩
      · have hwrite : (b'.grow.write fun _ => .ok (UInt32.ofInt (strtol (Xml.value x)))) =
            .ok { b'.grow with cur := skillOf x } := Growing.write_ok hroom rfl
        simp only [onReactorStart, putEvent, putState, put, hs.not_skip, if_false, hint, if_true, hvalue.nameValue,
          Exec.ok_bind]
        exact @writeEvent_ok (deeper _) _ { evs with cur := { ev with skills := some b' } } _ hs.room hstates rfl
          hevs
          (by simp only [Exec.deref, Exec.ok_bind, hwrite]; rfl)
      · rw [hgrow]
        exact hid
      · rw [hgrow, Growing.next, hdone])
    (s := s.putEvent (.skills :: head) r evs { ev with skills := some b } fresh) ⟨b, rfl, hb, rfl, hnone⟩
  refine ⟨b', hid, ?_, hrun⟩
  rw [hdone, List.nil_append, List.map_eq_flatMap]

/-- An element of an event. -/
theorem run_eventChild (hs : s.Ready) (hstates : r.states.done.length < r.states.capacity)
    (hevs : evs.done.length < evs.capacity) {l : List Xml} {c : Xml} (hof : ev.Of l)
    (hvalue : c.tag.name = "int" → Xml.IsValue c)
    (hnamed : c.tag.name = "imgdir" → ∃ key, c.tag.attr "name" = some key)
    (hskills : Xml.IsSkills c → ∀ x ∈ c.children, x.tag.name = "int" ∧ Xml.IsValue x)
    (honce : ∀ x ∈ l, Xml.name x ≠ Xml.name c) {a : ℕ} (hrange : Numbered a fresh ev.blocks) :
    ∃ ev' fresh', (reactorParser mem linkEmpty).run c.events (s.putEvent (.event :: head) r evs ev fresh) =
        .ok (s.putEvent (.event :: head) r evs ev' fresh') ∧
      ev'.Of (l ++ [c]) ∧ Numbered a fresh' ev'.blocks := by
  by_cases hint : c.tag.name = "int"
  · -- A number of the event.
    refine ⟨ev.setInt (Xml.name c) (strtol (Xml.value c)), fresh,
      onReactor_skips.run_leaf hs.parsing hs.parsing ?_, hof.setInt hint, ?_⟩
    · simp only [onReactorStart, putEvent, putState, put, hs.not_skip, if_false, hint, if_true,
        (hvalue hint).nameValue, Exec.ok_bind]
      exact @writeEvent_ok (deeper _) _ { evs with cur := ev } _ hs.room hstates rfl hevs rfl
    · have hsame : (ev.setInt (Xml.name c) (strtol (Xml.value c))).skills = ev.skills := by
        rw [ReactorEventInfo.setInt]
        split_ifs <;> rfl
      rwa [ReactorEventInfo.blocks, hsame]
  · by_cases hdir : Xml.IsSkills c
    · -- Its skills, which are read for the first time.
      have hnone : ev.skills = none := Option.map_eq_none_iff.1 (hof.skills.trans (skillsOf_eq_none hdir honce))
      obtain ⟨b', hid, hdone, hrun⟩ := run_skills mem linkEmpty (.event :: head) ev (fresh + 1) hs hstates hevs
        (hskills hdir) (b := ⟨fresh, 1, [], 0⟩) ⟨Nat.zero_le _, Nat.one_pos⟩ rfl
      refine ⟨{ ev with skills := some b' }, fresh + 1, run_branch hs.parsing ?_ hrun hs.parsing ?_,
        hof.withSkills hdir hdone, ?_⟩
      · obtain ⟨key, hkey⟩ := hnamed hdir.1
        have hname : key = "activeSkillID" := by
          have hname := hdir.2
          rwa [Xml.name, hkey] at hname
        simp only [onReactorStart, putEvent, putState, put, hs.not_skip, if_false, hdir.1, if_true, hkey, hname]
        exact Exec.bind_eq_ok.2
          ⟨_, @writeEvent_ok (push _ .skills) _ { evs with cur := ev } _ hs.room hstates rfl hevs rfl, rfl⟩
      · simp only [onReactorEnd, putEvent, putState, put, hs.not_skip, if_false]
      · rw [ReactorEventInfo.blocks, hnone] at hrange
        rw [ReactorEventInfo.blocks, Option.elim_some, hid]
        exact hrange.append (.single fresh)
    · -- Anything else is skipped.
      refine ⟨ev, fresh, onReactor_skips.run_leaf hs.parsing hs.parsing ?_, hof.skip hint hdir, hrange⟩
      have hno : (c.tag.name = "int") = False := eq_false hint
      simp only [onReactorStart, putEvent, putState, put, hs.not_skip, if_false, hno]
      split
      · rename_i himgdir
        obtain ⟨key, hkey⟩ := hnamed himgdir
        have hname : (key = "activeSkillID") = False := eq_false fun h =>
          hdir ⟨himgdir, by rw [Xml.name, hkey, h]; rfl⟩
        simp only [hkey, hname, if_false]
        rfl
      · rfl

theorem ReactorEventInfo.of_nil (h : ev.skills = none) : ev.Of [] :=
  ⟨nofun, nofun, nofun, nofun, by rw [h]; rfl⟩

/-- An event. -/
theorem run_event (head : List ReactorItemType) (fresh : ℕ) (hs : s.Ready)
    (hstates : r.states.done.length < r.states.capacity) (hopen : evs.Open) {y : Xml}
    (hy : y.tag.name = "imgdir") (he : Xml.IsReactorEvent y) (hcur : evs.cur.skills = none) :
    ∃ evs' fresh', (reactorParser mem linkEmpty).run y.events (s.putState (.events :: head) r ⟨some evs⟩ fresh) =
        .ok (s.putState (.events :: head) r ⟨some evs'⟩ fresh') ∧ evs'.Open ∧ evs'.id = evs.id ∧
      evs'.cur.skills = none ∧
      ∃ ev, evs'.done = evs.done ++ [ev] ∧ ev.Of y.children ∧ Numbered fresh fresh' ev.blocks := by
  obtain ⟨hroom, hgrow⟩ := hopen.grow
  have hcur' : evs.grow.cur = evs.cur := by rw [hgrow]
  -- What has been read of the elements of the event is what they say.
  obtain ⟨s', hrun, ev, fresh', rfl, hof, hrange⟩ := Parser.run_forest_prefix (p := reactorParser mem linkEmpty)
    (I := fun l s' => ∃ ev fresh', s' = s.putEvent (.event :: .events :: head) r evs.grow ev fresh' ∧
      ev.Of l ∧ Numbered fresh fresh' ev.blocks) (b := [])
    (fun l c l' (hl : [] ++ y.children = l ++ c :: l') s' hI => by
      obtain ⟨ev, fresh', rfl, hof, hrange⟩ := hI
      rw [List.nil_append] at hl
      have hc : c ∈ y.children := hl ▸ List.mem_append_right _ List.mem_cons_self
      have honce := he.once
      rw [hl, List.pairwise_append] at honce
      obtain ⟨ev', fresh'', hrun, hof', hrange'⟩ := run_eventChild mem linkEmpty hs hstates hroom
        hof (he.values c hc) (he.named c hc) (he.skills c hc)
        (fun x hx => honce.2.2 x hx c List.mem_cons_self) hrange
      exact ⟨_, hrun, ev', fresh'', rfl, hof', hrange'⟩)
    (s := s.putEvent (.event :: .events :: head) r evs.grow evs.grow.cur fresh)
    ⟨_, _, rfl, ReactorEventInfo.of_nil (hcur' ▸ hcur),
    by rw [hcur', ReactorEventInfo.blocks, hcur]; exact .nil le_rfl⟩
  rw [List.nil_append] at hof
  refine ⟨({ evs.grow with cur := ev }).next (mem.freshEvent evs.grow.id (evs.grow.done.length + 1)), fresh',
    run_branch hs.parsing ?_ hrun hs.parsing ?_, @Growing.open_next _ { evs.grow with cur := ev } _ hroom, ?_, rfl,
    ev, ?_,
    hof, hrange⟩
  · simp only [onReactorStart, putState, put, hs.not_skip, if_false, hy, if_true]
    exact @writeEvents_ok (push _ .event) _ evs _ hs.room hstates rfl rfl
  · simp only [onReactorEnd, putEvent, putState, put, hs.not_skip, if_false]
    exact @writeEvents_ok _ _ { evs.grow with cur := ev } _ hs.room hstates rfl rfl
  · rw [hgrow]
    rfl
  · rw [Growing.next, hgrow]

/-- The section with the events of a state. -/
theorem run_events (head : List ReactorItemType) (fresh : ℕ) (hs : s.Ready)
    (hstates : r.states.done.length < r.states.capacity) {st : ReactorStateInfo}
    (hst : st.eventList = []) {c : Xml} (hc : Xml.IsEvents c) (hkey : ∃ key, c.tag.attr "name" = some key)
    (hevents : ∀ y ∈ c.children, y.tag.name = "imgdir" → Xml.IsReactorEvent y) :
    ∃ st' fresh', (reactorParser mem linkEmpty).run c.events (s.putState (.state :: head) r st fresh) =
        .ok (s.putState (.state :: head) r st' fresh') ∧
      List.Forall₂ (fun e ev => ReactorEventInfo.Of e.children ev) (c.children.filter (·.tag.name = "imgdir"))
        st'.eventList ∧ Numbered fresh fresh' st'.blocks := by
  obtain ⟨s', hrun, evs', fresh', rfl, -, hid, -, hof, hrange⟩ := Parser.run_forest_prefix
    (p := reactorParser mem linkEmpty)
    (I := fun l s' => ∃ evs' fresh', s' = s.putState (.events :: .state :: head) r ⟨some evs'⟩ fresh' ∧ evs'.Open ∧
      evs'.id = fresh ∧ evs'.cur.skills = none ∧
      List.Forall₂ (fun e ev => ReactorEventInfo.Of e.children ev) (l.filter (·.tag.name = "imgdir")) evs'.done ∧
      Numbered (fresh + 1) fresh' (evs'.done.flatMap ReactorEventInfo.blocks)) (b := [])
    (fun l y l' (hl : [] ++ c.children = l ++ y :: l') s' hI => by
      obtain ⟨evs', fresh', rfl, hopen, hid, hcur, hof, hrange⟩ := hI
      rw [List.nil_append] at hl
      have hy : y ∈ c.children := hl ▸ List.mem_append_right _ List.mem_cons_self
      -- Each directory is an event.
      by_cases himgdir : y.tag.name = "imgdir"
      · obtain ⟨evs'', fresh'', hrun, hopen', hid', hcur', ev, hdone, hev, hrange'⟩ :=
          run_event mem linkEmpty (.state :: head) fresh' hs hstates hopen
            himgdir (hevents y hy himgdir) hcur
        refine ⟨_, hrun, evs'', fresh'', rfl, hopen', hid'.trans hid, hcur', ?_, ?_⟩
        · rw [List.filter_append, hdone, List.filter_singleton, decide_eq_true himgdir]
          exact List.rel_append hof (.cons hev .nil)
        · rw [hdone, List.flatMap_append, List.flatMap_singleton]
          exact hrange.append hrange'
      · refine ⟨s.putState (.events :: .state :: head) r ⟨some evs'⟩ fresh',
          onReactor_skips.run_leaf hs.parsing hs.parsing ?_, evs', fresh', rfl, hopen, hid, hcur, ?_, hrange⟩
        · simp only [onReactorStart, putState, put, hs.not_skip, if_false, himgdir]
        · rw [List.filter_append, List.filter_singleton, decide_eq_false himgdir]
          rwa [cond_false, List.append_nil])
    (s := s.putState (.events :: .state :: head) r ⟨some ⟨fresh, 1, [], mem.freshEvent fresh 0⟩⟩ (fresh + 1))
    ⟨_, _, rfl, ⟨Nat.zero_le _, Nat.one_pos⟩, rfl, rfl, .nil, .nil le_rfl⟩
  rw [List.nil_append] at hof
  refine ⟨⟨some evs'⟩, fresh', run_branch hs.parsing ?_ hrun hs.parsing ?_, hof, ?_⟩
  · obtain ⟨key, hkey⟩ := hkey
    have hname : key = "event" := by
      have hname := hc.2
      rwa [Xml.name, hkey] at hname
    simp only [onReactorStart, putState, put, hs.not_skip, if_false, hc.1, if_true, hkey, hname]
    exact Exec.bind_eq_ok.2 ⟨_, @writeState_ok (push _ .events) _ ⟨some ⟨fresh, 1, [], mem.freshEvent fresh 0⟩⟩
      hs.room hstates (by dsimp only [push]; rw [hst]; rfl), rfl⟩
  · simp only [onReactorEnd, putState, put, hs.not_skip, if_false]
  · rw [ReactorStateInfo.blocks, Option.elim_some, hid]
    exact hrange.cons

theorem eventsOf_concat (l : List Xml) (c : Xml) :
    eventsOf (l ++ [c]) =
      eventsOf l ++ if Xml.IsEvents c then c.children.filter (·.tag.name = "imgdir") else [] := by
  rw [eventsOf, List.filter_append, List.flatMap_append, List.filter_singleton]
  split
  · rename_i h
    rw [decide_eq_true h, cond_true, List.flatMap_singleton]
    rfl
  · rename_i h
    rw [decide_eq_false h, cond_false, List.flatMap_nil]
    rfl

/-- With different names, there have been no events before. -/
theorem eventsOf_eq_nil {l : List Xml} {c : Xml} (hc : Xml.IsEvents c) (honce : ∀ x ∈ l, Xml.name x ≠ Xml.name c) :
    eventsOf l = [] := by
  rw [eventsOf, List.filter_eq_nil_iff.2, List.flatMap_nil]
  intro x hx h
  exact honce x hx ((of_decide_eq_true h).2.trans hc.2.symm)

/-- An element of a state. -/
theorem run_stateChild (hs : s.Ready) (hstates : r.states.done.length < r.states.capacity) {st : ReactorStateInfo}
    {l : List Xml} {c : Xml} (hof : st.Of l) (hnamed : c.tag.name = "imgdir" → ∃ key, c.tag.attr "name" = some key)
    (hevents : Xml.IsEvents c → ∀ y ∈ c.children, y.tag.name = "imgdir" → Xml.IsReactorEvent y)
    (honce : ∀ x ∈ l, Xml.name x ≠ Xml.name c) {a : ℕ} (hrange : Numbered a fresh st.blocks) :
    ∃ st' fresh', (reactorParser mem linkEmpty).run c.events (s.putState (.state :: head) r st fresh) =
        .ok (s.putState (.state :: head) r st' fresh') ∧ st'.Of (l ++ [c]) ∧ Numbered a fresh' st'.blocks := by
  by_cases hc : Xml.IsEvents c
  · -- The events: there have been none before.
    have hnil := eventsOf_eq_nil hc honce
    have hst : st.eventList = [] := by
      rw [ReactorStateInfo.Of, hnil] at hof
      exact List.forall₂_nil_left_iff.1 hof
    obtain ⟨st', fresh', hrun, hof', hrange'⟩ := run_events mem linkEmpty head fresh hs hstates hst hc
      (hnamed hc.1) (hevents hc)
    refine ⟨st', fresh', hrun, ?_, hrange'.widen hrange.le⟩
    rw [ReactorStateInfo.Of, eventsOf_concat, hnil, if_pos hc]
    exact hof'
  · refine ⟨st, fresh, onReactor_skips.run_leaf hs.parsing hs.parsing ?_, ?_, hrange⟩
    · simp only [onReactorStart, putState, put, hs.not_skip, if_false]
      split
      · rename_i himgdir
        obtain ⟨key, hkey⟩ := hnamed himgdir
        have hname : (key = "event") = False := eq_false fun h => hc ⟨himgdir, by rw [Xml.name, hkey, h]; rfl⟩
        simp only [hkey, hname, if_false]
        rfl
      · rfl
    · rw [ReactorStateInfo.Of, eventsOf_concat, if_neg hc, List.append_nil]
      exact hof

/-- A state. -/
theorem run_state (fresh : ℕ) (hs : s.Ready) (hopen : r.states.Open) {c : Xml} (hc : Xml.IsStateSection c)
    (hattrs : c.tag.attrs ≠ []) (hstate : Xml.IsReactorState c) :
    ∃ states fresh', (reactorParser mem linkEmpty).run c.events (s.put [.topLevel] r fresh) =
        .ok (s.put [.topLevel] { r with states } fresh') ∧ states.Open ∧ states.id = r.states.id ∧
      ∃ st, states.done = r.states.done ++ [st] ∧ st.Of c.children ∧ Numbered fresh fresh' st.blocks := by
  obtain ⟨hroom, hgrow⟩ := hopen.grow
  obtain ⟨s', hrun, st, fresh', rfl, hof, hrange⟩ := Parser.run_forest_prefix (p := reactorParser mem linkEmpty)
    (I := fun l s' => ∃ st fresh', s' = s.putState [.state, .topLevel] { r with states := r.states.grow }
      st fresh' ∧
      st.Of l ∧ Numbered fresh fresh' st.blocks) (b := [])
    (fun l x l' (hl : [] ++ c.children = l ++ x :: l') s' hI => by
      obtain ⟨st, fresh', rfl, hof, hrange⟩ := hI
      rw [List.nil_append] at hl
      have hx : x ∈ c.children := hl ▸ List.mem_append_right _ List.mem_cons_self
      have honce := hstate.once
      rw [hl, List.pairwise_append] at honce
      obtain ⟨st', fresh'', hrun, hof', hrange'⟩ := run_stateChild mem linkEmpty
        (r := { r with states := r.states.grow }) hs hroom hof (hstate.named x hx) (hstate.events x hx)
        (fun y hy => honce.2.2 y hy x List.mem_cons_self) hrange
      exact ⟨_, hrun, st', fresh'', rfl, hof', hrange'⟩)
    (s := s.putState [.state, .topLevel] { r with states := r.states.grow } .empty fresh)
    ⟨_, _, rfl, .nil, .nil le_rfl⟩
  rw [List.nil_append] at hof
  refine ⟨({ r.states.grow with cur := st }).next .empty, fresh', run_branch hs.parsing ?_ hrun hs.parsing ?_,
    @Growing.open_next _ { r.states.grow with cur := st } _ hroom, ?_, st, ?_, hof, hrange⟩
  · have hwrite : (r.states.grow.write fun _ => .ok .empty) = .ok { r.states.grow with cur := .empty } :=
      Growing.write_ok hroom rfl
    have himgdir : ("imgdir" = "string") = False := eq_false (by decide)
    have hinfo : (c.tag.id = "info") = False := eq_false hc.2
    simp only [onReactorStart, put, hs.not_skip, if_false, hc.1, if_true, himgdir, Tag.first_eq hattrs,
      Exec.ok_bind, hinfo]
    exact @writeInfo_ok (push _ .state) _ _ hs.room (by dsimp only [push]; rw [hwrite]; rfl)
  · simp only [onReactorEnd, putState, put, hs.not_skip, if_false]
    exact writeInfo_ok hs.room rfl
  · rw [hgrow]
    rfl
  · rw [Growing.next, hgrow]

theorem actionOf_concat (l : List Xml) (c : Xml) :
    actionOf (l ++ [c]) = if c.tag.name = "string" then some (Xml.value c) else actionOf l := by
  rw [actionOf, List.reverse_concat, List.findSome?_cons]
  split_ifs <;> rfl

theorem statesOf_concat (l : List Xml) (c : Xml) :
    statesOf (l ++ [c]) = statesOf l ++ if Xml.IsStateSection c then [c] else [] := by
  rw [statesOf, List.filter_append, List.filter_singleton]
  split_ifs with h
  · rw [decide_eq_true h]
    rfl
  · rw [decide_eq_false h]
    rfl

/-- Without a link, nothing is read of the section `info`. -/
theorem run_infoSection (fresh : ℕ) (hs : s.Ready) {c : Xml} (hc : Xml.IsInfoSection c) (hattrs : c.tag.attrs ≠ [])
    {l : List Xml} (hvalues : ∀ x ∈ l, x.tag.name = "string" → Xml.IsValue x) (hnone : ∀ x ∈ l, ¬Xml.IsLink x) :
    onReactorStart mem linkEmpty c.tag (s.put [.topLevel] r fresh) = .ok (s.put [.info, .topLevel] r fresh) ∧
      (reactorParser mem linkEmpty).run (Element.forest l) (s.put [.info, .topLevel] r fresh) =
        .ok (s.put [.info, .topLevel] r fresh) := by
  constructor
  · have himgdir : ("imgdir" = "string") = False := eq_false (by decide)
    simp only [onReactorStart, put, hs.not_skip, if_false, hc.1, if_true, himgdir, Tag.first_eq hattrs,
      Exec.ok_bind, hc.2]
    rfl
  · refine Parser.run_forest_kept fun x hx => onReactor_skips.run_leaf hs.parsing hs.parsing ?_
    simp only [onReactorStart, put, hs.not_skip, if_false]
    split
    · rename_i hstring
      obtain ⟨key, value, hkey, -, -⟩ := (hvalues x hx hstring).keyValue
      have hname : (key = "link") = False :=
        eq_false fun h => hnone x hx ⟨hstring, by rw [Xml.name, hkey, h]; rfl⟩
      simp only [hkey, hname, if_false]
      rfl
    · rfl

/-- An element of a reactor, that is not a section `info` with a link. -/
theorem run_reactorChild (hs : s.Ready) {d : Xml} (hd : Xml.IsReactor d) {l l' : List Xml} {c : Xml}
    (hl : d.children = l ++ c :: l') (hnone : Xml.IsInfoSection c → ∀ x ∈ c.children, ¬Xml.IsLink x) (hof : r.Of l)
    (hopen : r.states.Open) {a : ℕ} (hrange : Numbered a fresh r.blocks) :
    ∃ r' fresh', (reactorParser mem linkEmpty).run c.events (s.put [.topLevel] r fresh) =
        .ok (s.put [.topLevel] r' fresh') ∧ r'.Of (l ++ [c]) ∧ r'.id = r.id ∧ r'.states.Open ∧
      Numbered a fresh' r'.blocks := by
  have hc : c ∈ d.children := hl ▸ List.mem_append_right _ List.mem_cons_self
  by_cases hstring : c.tag.name = "string"
  · -- The script.
    obtain ⟨haction, hset⟩ := hd.setAction hc hstring
    have hstate : ¬Xml.IsStateSection c := fun h => by
      rw [h.1] at hstring
      exact absurd hstring (by decide)
    refine ⟨{ r with action := Xml.value c }, fresh, onReactor_skips.run_leaf hs.parsing hs.parsing ?_, ⟨?_, ?_⟩,
      rfl, hopen, hrange⟩
    · simp only [onReactorStart, put, hs.not_skip, if_false, hstring, if_true, haction, Exec.ok_bind]
      exact @writeInfo_ok (deeper _) _ _ hs.room (hset r)
    · rw [statesOf_concat, if_neg hstate, List.append_nil]
      exact hof.states
    · rw [actionOf_concat, if_pos hstring]
      exact fun v hv => Option.some.inj hv
  · have haction : actionOf (l ++ [c]) = actionOf l := by rw [actionOf_concat, if_neg hstring]
    by_cases hstate : Xml.IsStateSection c
    · -- A state.
      obtain ⟨states, fresh', hrun, hopen', hid, st, hdone, hst, hrange'⟩ :=
        run_state mem linkEmpty fresh (r := r) hs hopen hstate (hd.sections c hc hstate.1).1
        (hd.states c hc hstate)
      refine ⟨{ r with states }, fresh', hrun, ⟨?_, ?_⟩, rfl, hopen', ?_⟩
      · rw [statesOf_concat, if_pos hstate, hdone]
        exact List.rel_append hof.states (.cons hst .nil)
      · rw [haction]
        exact hof.action
      · rw [ReactorInfo.blocks, hid, hdone, List.flatMap_append, List.flatMap_singleton]
        exact hrange.append hrange'
    · have hstates : statesOf (l ++ [c]) = statesOf l := by rw [statesOf_concat, if_neg hstate, List.append_nil]
      refine ⟨r, fresh, ?_, ⟨hstates ▸ hof.states, haction ▸ hof.action⟩, rfl, hopen, hrange⟩
      -- The section `info`, or something that is skipped.
      by_cases hinfo : Xml.IsInfoSection c
      · obtain ⟨hstart, hrun⟩ := run_infoSection mem linkEmpty fresh (r := r) hs hinfo
          (hd.sections c hc hinfo.1).1 (hd.info c hc hinfo).1 (hnone hinfo)
        refine run_branch hs.parsing hstart hrun hs.parsing ?_
        simp only [onReactorEnd, put, hs.not_skip, if_false]
      · have himgdir : c.tag.name ≠ "imgdir" := fun h => by
          by_cases hid : c.tag.id = "info"
          · exact hinfo ⟨h, hid⟩
          · exact hstate ⟨h, hid⟩
        refine onReactor_skips.run_leaf hs.parsing hs.parsing ?_
        simp only [onReactorStart, put, hs.not_skip, if_false, hstring, himgdir]

/-- Elements of a reactor, none of which is a section `info` with a link. -/
theorem run_reactorChildren (fresh : ℕ) (id : UInt32) (action : String) (hs : s.Ready) {d : Xml}
    (hd : Xml.IsReactor d) {l l' : List Xml} (hl : d.children = l ++ l')
    (hnone : ∀ c ∈ l, Xml.IsInfoSection c → ∀ x ∈ c.children, ¬Xml.IsLink x) :
    ∃ r fresh', (reactorParser mem linkEmpty).run (Element.forest l)
        (s.put [.topLevel] ⟨id, ⟨fresh, 1, [], .empty⟩, action⟩ (fresh + 1)) = .ok (s.put [.topLevel] r fresh') ∧
      r.Of l ∧ r.id = id ∧ Numbered fresh fresh' r.blocks := by
  obtain ⟨s', hrun, r, fresh', rfl, hof, hid, -, hrange⟩ :=
    Parser.run_forest_prefix (p := reactorParser mem linkEmpty)
    (I := fun l s' => ∃ r fresh', s' = s.put [.topLevel] r fresh' ∧ r.Of l ∧ r.id = id ∧ r.states.Open ∧
      Numbered fresh fresh' r.blocks) (b := [])
    (fun l₁ c l₂ (hl₁ : [] ++ l = l₁ ++ c :: l₂) s' hI => by
      obtain ⟨r, fresh', rfl, hof, hid, hopen, hrange⟩ := hI
      rw [List.nil_append] at hl₁
      obtain ⟨r', fresh'', hrun, hof', hid', hopen', hrange'⟩ := run_reactorChild mem linkEmpty
        hs hd (hl.trans (by rw [hl₁, List.append_assoc, List.cons_append]))
        (hnone c (hl₁ ▸ List.mem_append_right _ List.mem_cons_self)) hof hopen hrange
      exact ⟨_, hrun, r', fresh'', rfl, hof', hid'.trans hid, hopen', hrange'⟩)
    (s := s.put [.topLevel] ⟨id, ⟨fresh, 1, [], .empty⟩, action⟩ (fresh + 1))
    ⟨_, _, rfl, ⟨.nil, nofun⟩, rfl, ⟨Nat.zero_le _, Nat.one_pos⟩, .single fresh⟩
  exact ⟨r, fresh', hrun, hof, hid, hrange⟩

end Event

/-! ## Documents -/

/-- Where the link of a document is: in the section `info`, and no link is before it. -/
structure Xml.LinkedAt (d c x : Xml) (l l' k k' : List Xml) : Prop where
  children : d.children = l ++ c :: l'
  info : Xml.IsInfoSection c
  before : ∀ c' ∈ l, ¬Xml.IsInfoSection c'
  section_ : c.children = k ++ x :: k'
  link : Xml.IsLink x
  first : ∀ y ∈ k, ¬Xml.IsLink y

/-- A document that is not unlinked has a link, and says where it leads. -/
theorem Xml.IsReactor.exists_linkedAt {d : Xml} (hd : Xml.IsReactor d) (h : ¬Xml.Unlinked d) :
    ∃ c x l l' k k', Xml.LinkedAt d c x l l' k k' := by
  simp only [Xml.Unlinked, not_forall, not_not] at h
  obtain ⟨c, hc, hinfo, x, hx, hlink⟩ := h
  obtain ⟨l, l', hl⟩ := List.append_of_mem hc
  obtain ⟨k, k', hk⟩ := List.append_of_mem hx
  have honceInfo := (hd.info c hc hinfo).2
  rw [hk, List.pairwise_append] at honceInfo
  refine ⟨c, x, l, l', k, k', hl, hinfo, (hd.info_unique hl hinfo).1, hk, hlink, fun y hy hlink' => ?_⟩
  exact honceInfo.2.2 y hy x List.mem_cons_self (hlink'.2.trans hlink.2.symm)

/-- There is no other section `info`, and no other link. -/
theorem Xml.LinkedAt.unique {d c x : Xml} {l l' k k' : List Xml} (hd : Xml.IsReactor d)
    (h : Xml.LinkedAt d c x l l' k k') : (∀ c' ∈ l', ¬Xml.IsInfoSection c') ∧ ∀ y ∈ k', ¬Xml.IsLink y := by
  have hc : c ∈ d.children := h.children ▸ List.mem_append_right _ List.mem_cons_self
  have honceInfo := (hd.info c hc h.info).2
  rw [h.section_, List.pairwise_append, List.pairwise_cons] at honceInfo
  refine ⟨(hd.info_unique h.children h.info).2, fun y hy hlink' => ?_⟩
  exact honceInfo.2.1.1 y hy (h.link.2.trans hlink'.2.symm)

/-- The tags of a document up to its link. -/
theorem Xml.LinkedAt.events {d c x : Xml} {l l' k k' : List Xml} (h : Xml.LinkedAt d c x l l' k k') :
    ∃ rest, d.events = .start d.tag :: (Element.forest l ++ (.start c.tag :: (Element.forest k ++
      (.start x.tag :: (Element.forest x.children ++ (.stop :: rest)))))) := by
  obtain ⟨t, cs⟩ := d
  have hchildren : cs = l ++ c :: l' := h.children
  rw [Element.events, hchildren, forest_around, h.section_, forest_around]
  exact ⟨Element.forest k' ++ .stop :: (Element.forest l' ++ [.stop]),
    by simp only [List.append_assoc, List.cons_append, Element.tag]⟩

section Document

variable (mem : ReactorMemory) (linkEmpty : Bool) {s : ReactorParserContext} {d : Xml}

/-- A document begins. -/
theorem onReactorStart_document (hs : s.Ready) (hhead : s.head = []) (hd : Xml.IsReactor d) :
    onReactorStart mem linkEmpty d.tag s =
      .ok (s.put [.topLevel] ⟨reactorId d, ⟨s.fresh, 1, [], .empty⟩, s.infos.cur.action⟩ (s.fresh + 1)) := by
  simp only [onReactorStart, hs.not_skip, if_false, hhead, hd.imgdir, if_true, Tag.first_eq hd.named, Exec.ok_bind]
  exact Exec.bind_eq_ok.2 ⟨_, writeInfo_ok hs.room rfl, rfl⟩

/-- A document without a link becomes a record. -/
theorem run_unlinked (hs : s.Ready) (hhead : s.head = []) (hd : Xml.IsReactor d) (hlink : Xml.Unlinked d) :
    ∃ r fresh', (reactorParser mem linkEmpty).run d.events s =
        .ok { s with
          infos := ({ s.infos with cur := r }).next (mem.info (s.infos.done.length + 1))
          fresh := fresh' } ∧
      r.Of d.children ∧ r.id = reactorId d ∧ Numbered s.fresh fresh' r.blocks := by
  obtain ⟨r, fresh', hrun, hof, hid, hrange⟩ := run_reactorChildren mem linkEmpty s.fresh
    (reactorId d) s.infos.cur.action hs hd (List.append_nil _).symm hlink
  refine ⟨r, fresh', run_branch hs.parsing (onReactorStart_document mem linkEmpty hs hhead hd) hrun hs.parsing ?_,
    hof, hid, hrange⟩
  simp only [onReactorEnd, put, hs.not_skip, if_false, hhead]

/-- What stands on the right is related to something on the left. -/
theorem exists_left_of_forall₂ {α β : Type} {R : α → β → Prop} {l : List α} {l' : List β} (h : List.Forall₂ R l l')
    {b : β} (hb : b ∈ l') : ∃ a ∈ l, R a b := by
  induction h with
  | nil => exact absurd hb List.not_mem_nil
  | cons hab _ ih =>
    rcases List.mem_cons.1 hb with rfl | hb
    · exact ⟨_, List.mem_cons_self, hab⟩
    · obtain ⟨a, ha, hab⟩ := ih hb
      exact ⟨a, List.mem_cons_of_mem _ ha, hab⟩

/-- An event that is given for a reactor has skills just if it is of their type. -/
theorem ReactorInfo.Of.typed {r : ReactorInfo} {l : List Xml} (hof : r.Of l)
    (hl : ∀ c ∈ l, Xml.IsStateSection c → Xml.IsReactorState c) {st : ReactorStateInfo} (hst : st ∈ r.states.done)
    {ev : ReactorEventInfo} (hev : ev ∈ st.eventList) :
    ev.type = reactorEventTypeSkill ↔ ev.skills.isSome = true := by
  obtain ⟨e, he, hsts⟩ := exists_left_of_forall₂ hof.states hst
  obtain ⟨he, hsection⟩ := List.mem_filter.1 he
  obtain ⟨y, hy, hof⟩ := exists_left_of_forall₂ hsts hev
  obtain ⟨c, hc, hy⟩ := List.mem_flatMap.1 hy
  obtain ⟨hc, hevents⟩ := List.mem_filter.1 hc
  obtain ⟨hy, himgdir⟩ := List.mem_filter.1 hy
  obtain ⟨v, htype, htyped⟩ := ((hl e he (of_decide_eq_true hsection)).events c hc (of_decide_eq_true hevents) y hy
    (of_decide_eq_true himgdir)).typed
  rw [hof.type v htype, htyped, ← hof.skills, Option.isSome_map]

/-- What has been read of well-formed events can be freed. -/
theorem ReactorInfo.Of.free {r : ReactorInfo} {l : List Xml} (hof : r.Of l)
    (hl : ∀ c ∈ l, Xml.IsStateSection c → Xml.IsReactorState c) : r.free = .ok () := by
  refine if_pos (List.all_eq_true.2 fun st hst => List.all_eq_true.2 fun ev hev => ?_)
  rw [Bool.or_eq_true, bne_iff_ne, ← hof.typed hl hst hev]
  exact (em _).symm

/-- A document with a link leaves no record. The next one is skipped if the link is not written as one tag. -/
theorem run_linked (hs : s.Ready) (hhead : s.head = []) (hd : Xml.IsReactor d) {c x : Xml} {l l' k k' : List Xml}
    (hlink : Xml.LinkedAt d c x l l' k k') (hleaf : linkEmpty = true → x.children = []) :
    ∃ r fresh', (reactorParser mem linkEmpty).run d.events s =
        .ok { s with
          skip := if linkEmpty then 0 else 1
          parsing := .stopped
          infos := { s.infos with cur := r }
          fresh := fresh' } ∧ s.fresh ≤ fresh' := by
  obtain ⟨rest, hevents⟩ := hlink.events
  obtain ⟨r, fresh', hrun, hof, -, hrange⟩ := run_reactorChildren mem linkEmpty s.fresh
    (reactorId d) s.infos.cur.action hs hd hlink.children
    fun c' hc' hinfo => absurd hinfo (hlink.before c' hc')
  have hc : c ∈ d.children := hlink.children ▸ List.mem_append_right _ List.mem_cons_self
  have hx : x ∈ c.children := hlink.section_ ▸ List.mem_append_right _ List.mem_cons_self
  obtain ⟨hstart, hbefore⟩ := run_infoSection mem linkEmpty fresh' (r := r) hs hlink.info
    (hd.sections c hc hlink.info.1).1
    (fun y hy => (hd.info c hc hlink.info).1 y (hlink.section_ ▸ List.mem_append_left _ hy)) hlink.first
  -- What has been read of the states can be freed.
  have hfree := hof.free fun c' hc' => hd.states c' (hlink.children ▸ List.mem_append_left _ hc')
  have hstop : onReactorStart mem linkEmpty x.tag (s.put [.info, .topLevel] r fresh') =
      .ok { (s.put [] r fresh').deeper.stopParser linkEmpty with head := [] } := by
    obtain ⟨key, value, hkey, -, -⟩ := ((hd.info c hc hlink.info).1 x hx hlink.link.1).keyValue
    have hname : key = "link" := by
      have hname := hlink.link.2
      rwa [Xml.name, hkey] at hname
    simp only [onReactorStart, put, hs.not_skip, if_false, hlink.link.1, if_true, hkey, hname, hfree, Exec.ok_bind]
    rfl
  refine ⟨r, fresh', ?_, hrange.le⟩
  -- The tags up to the link, one part after the other.
  rw [hevents]
  refine (toldTags_run_start hs.parsing (onReactorStart_document mem linkEmpty hs hhead hd) _).trans ?_
  refine (Parser.run_append hrun).trans
    ((toldTags_run_start (s := s.put [.topLevel] r fresh') hs.parsing hstart _).trans ?_)
  refine (Parser.run_append hbefore).trans
    ((toldTags_run_start (s := s.put [.info, .topLevel] r fresh') hs.parsing hstop _).trans ?_)
  cases linkEmpty with
  | false =>
    rw [Parser.run_stopped rfl]
    simp only [put, deeper, stopParser, hhead, hs.skip]
    rfl
  | true =>
    -- The end of the link is still told.
    rw [hleaf rfl, Element.forest, List.nil_append]
    refine (Parser.run_cons (e := .stop) rfl rfl).trans ((Parser.run_stopped rfl _).trans ?_)
    simp only [put, deeper, stopParser, hhead, hs.skip]
    rfl

end Document

end Syrup
