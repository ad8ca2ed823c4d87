import Syrup.Wz.Reactors.Parsed

/-!
# The second pass over a document

A document with a link becomes a record with copies of the states and events of its target (`run_second_linked`). Of
one without, only the id, and perhaps the script, is left in the record after the last one (`run_second_unlinked`).

The arrays of a copy are its own if the events of the target have skills just if they are of their type
(`copyStates_ok`).
-/

namespace Syrup

open Sax ReactorParserContext

/-! ## Copies -/

/-- An event is the copy of another. -/
structure SameEvent (ev ev' : ReactorEventInfo) : Prop where
  type : ev'.type = ev.type
  next : ev'.next = ev.next
  item : ev'.item = ev.item
  count : ev'.count = ev.count
  skills : ev'.skills.map Growing.done = ev.skills.map Growing.done

/-- A state is. -/
def SameState (st st' : ReactorStateInfo) : Prop := List.Forall₂ SameEvent st.eventList st'.eventList

/-- The events of a reactor have skills just if they are of their type. -/
def Typed (sts : List ReactorStateInfo) : Prop :=
  ∀ st ∈ sts, ∀ ev ∈ st.eventList, ev.type = reactorEventTypeSkill ↔ ev.skills.isSome = true

variable {mem : ReactorMemory}

theorem copyEvent_ok {ev : ReactorEventInfo} (h : ev.type = reactorEventTypeSkill ↔ ev.skills.isSome = true)
    (fresh : ℕ) : ∃ ev' fresh', copyEvent fresh ev = .ok (ev', fresh') ∧ SameEvent ev ev' ∧
      Numbered fresh fresh' ev'.blocks := by
  rw [copyEvent]
  split
  · rename_i htype
    obtain ⟨b, hb⟩ := Option.isSome_iff_exists.1 (h.1 htype)
    refine ⟨{ ev with skills := some ⟨fresh, b.done.length, b.done, 0⟩ }, fresh + 1, ?_, ⟨rfl, rfl, rfl, rfl, ?_⟩,
      .single fresh⟩
    · rw [hb]
      rfl
    · rw [hb]
      rfl
  · rename_i htype
    -- Without skills there is nothing that the two events could share.
    have hnone : ev.skills = none := by
      rw [← Option.not_isSome_iff_eq_none, ← h]
      exact htype
    exact ⟨ev, fresh, rfl, ⟨rfl, rfl, rfl, rfl, rfl⟩, by rw [ReactorEventInfo.blocks, hnone]; exact .nil le_rfl⟩

theorem copyEvents_ok {evs : List ReactorEventInfo}
    (h : ∀ ev ∈ evs, ev.type = reactorEventTypeSkill ↔ ev.skills.isSome = true) (fresh : ℕ) :
    ∃ evs' fresh', copyEvents fresh evs = .ok (evs', fresh') ∧ List.Forall₂ SameEvent evs evs' ∧
      Numbered fresh fresh' (evs'.flatMap ReactorEventInfo.blocks) := by
  induction evs generalizing fresh with
  | nil => exact ⟨[], fresh, rfl, .nil, .nil le_rfl⟩
  | cons ev evs ih =>
    obtain ⟨ev', fresh', hev, hsame, hrange⟩ := copyEvent_ok (h ev List.mem_cons_self) fresh
    obtain ⟨evs', fresh'', hevs, hsames, hranges⟩ := ih (fun ev hev => h ev (List.mem_cons_of_mem _ hev)) fresh'
    refine ⟨ev' :: evs', fresh'', ?_, .cons hsame hsames, hrange.append hranges⟩
    rw [copyEvents, hev, Exec.ok_bind]
    simp only [hevs, Exec.ok_bind]
    rfl

theorem copyStates_ok (mem : ReactorMemory) {sts : List ReactorStateInfo} (h : Typed sts) (fresh : ℕ) :
    ∃ sts' fresh', copyStates mem fresh sts = .ok (sts', fresh') ∧ List.Forall₂ SameState sts sts' ∧
      Numbered fresh fresh' (sts'.flatMap ReactorStateInfo.blocks) := by
  induction sts generalizing fresh with
  | nil => exact ⟨[], fresh, rfl, .nil, .nil le_rfl⟩
  | cons st sts ih =>
    obtain ⟨evs, fresh', hevs, hsame, hrange⟩ := copyEvents_ok (h st List.mem_cons_self) (fresh + 1)
    obtain ⟨sts', fresh'', hsts, hsames, hranges⟩ := ih (fun st hst => h st (List.mem_cons_of_mem _ hst)) fresh'
    refine ⟨⟨some ⟨fresh, evs.length, evs, mem.freshEvent fresh evs.length⟩⟩ :: sts', fresh'', ?_,
      .cons hsame hsames, hrange.cons.append hranges⟩
    rw [copyStates, copyState, hevs]
    simp only [Exec.ok_bind]
    rw [show (pure _ : Exec (ReactorStateInfo × ℕ)) = .ok _ from rfl]
    simp only [Exec.ok_bind, hsts]
    rfl

/-! ## Tags -/

section Second

variable {search : UInt32 → ℕ} {s : ReactorParserContext} {r : ReactorInfo} {fresh : ℕ} {d : Xml}

theorem onReactorSecondPass_skips :
    CountsSkipped (onReactorSecondPassStart mem search) (onReactorSecondPassEnd mem) where
  start t s hs := by rw [onReactorSecondPassStart, if_pos hs]
  stop s := by rw [onReactorSecondPassEnd, if_pos (show 0 < s.deeper.skip from Nat.succ_pos _)]; rfl

variable (mem search)

/-- A document begins. -/
theorem onReactorSecondPassStart_document (hs : s.Ready) (hhead : s.head = []) (hd : Xml.IsReactor d) :
    onReactorSecondPassStart mem search d.tag s = .ok (({ s with isLink := false } : ReactorParserContext).put
      [.topLevel] { s.infos.cur with id := reactorId d } s.fresh) := by
  simp only [onReactorSecondPassStart, hs.not_skip, if_false, hhead, hd.imgdir, if_true, Tag.first_eq hd.named,
    Exec.ok_bind]
  exact Exec.bind_eq_ok.2 ⟨_, writeInfo_ok hs.room rfl, rfl⟩

variable (fresh)

/-- An element of a reactor other than the section `info`: only the script is read. -/
theorem run_second_child (hs : s.Ready) (hd : Xml.IsReactor d) {l : List Xml} {c : Xml} (hc : c ∈ d.children)
    (hinfo : ¬Xml.IsInfoSection c) (hr : ∀ v ∈ actionOf l, r.action = v) :
    ∃ action, (reactorSecondPassParser mem search).run c.events (s.put [.topLevel] r fresh) =
        .ok (s.put [.topLevel] { r with action } fresh) ∧ ∀ v ∈ actionOf (l ++ [c]), action = v := by
  by_cases hstring : c.tag.name = "string"
  · obtain ⟨haction, hset⟩ := hd.setAction hc hstring
    refine ⟨Xml.value c, onReactorSecondPass_skips.run_leaf hs.parsing hs.parsing ?_, ?_⟩
    · simp only [onReactorSecondPassStart, put, hs.not_skip, if_false, hstring, if_true, haction, Exec.ok_bind]
      exact @writeInfo_ok (deeper _) _ _ hs.room (hset r)
    · rw [actionOf_concat, if_pos hstring]
      exact fun v hv => Option.some.inj hv
  · refine ⟨r.action, onReactorSecondPass_skips.run_leaf hs.parsing hs.parsing ?_, ?_⟩
    · simp only [onReactorSecondPassStart, put, hs.not_skip, if_false, hstring]
      split
      · rename_i himgdir
        have hname : (c.tag.id = "info") = False := eq_false fun h => hinfo ⟨himgdir, h⟩
        simp only [Tag.first_eq (hd.sections c hc himgdir).1, Exec.ok_bind, hname, if_false]
        rfl
      · rfl
    · rw [actionOf_concat, if_neg hstring]
      exact hr

/-- Several of them. -/
theorem run_second_children (hs : s.Ready) (hd : Xml.IsReactor d) {l k : List Xml} (hk : ∀ c ∈ k, c ∈ d.children)
    (hinfo : ∀ c ∈ k, ¬Xml.IsInfoSection c) (hr : ∀ v ∈ actionOf l, r.action = v) :
    ∃ action, (reactorSecondPassParser mem search).run (Element.forest k) (s.put [.topLevel] r fresh) =
        .ok (s.put [.topLevel] { r with action } fresh) ∧ ∀ v ∈ actionOf (l ++ k), action = v := by
  obtain ⟨s', hrun, action, rfl, haction⟩ := Parser.run_forest_collect (p := reactorSecondPassParser mem search)
    (I := fun l s' => ∃ action, s' = s.put [.topLevel] { r with action } fresh ∧ ∀ v ∈ actionOf l, action = v)
    (g := fun c => [c]) (l := l)
    (fun c (hc : c ∈ k) l' s' hI => by
      obtain ⟨action, rfl, haction⟩ := hI
      obtain ⟨action', hrun, haction'⟩ := run_second_child mem search fresh
        (r := { r with action }) hs hd (hk c hc) (hinfo c hc) haction
      exact ⟨_, hrun, action', rfl, haction'⟩)
    (s := s.put [.topLevel] r fresh) ⟨r.action, rfl, hr⟩
  rw [List.flatMap_singleton'] at haction
  exact ⟨action, hrun, haction⟩

/-- Elements of the section `info`, none of which is a link, are skipped. -/
theorem run_second_info (hs : s.Ready) {l : List Xml} (hvalues : ∀ x ∈ l, x.tag.name = "string" → Xml.IsValue x)
    (hnone : ∀ x ∈ l, ¬Xml.IsLink x) :
    (reactorSecondPassParser mem search).run (Element.forest l) (s.put [.info, .topLevel] r fresh) =
      .ok (s.put [.info, .topLevel] r fresh) := by
  refine Parser.run_forest_kept fun x hx => onReactorSecondPass_skips.run_leaf hs.parsing hs.parsing ?_
  simp only [onReactorSecondPassStart, put, hs.not_skip, if_false]
  split
  · rename_i hstring
    have hname : (Xml.name x = "link") = False := eq_false fun h => hnone x hx ⟨hstring, h⟩
    simp only [(hvalues x hx hstring).nameValue, Exec.ok_bind, hname, if_false]
    rfl
  · rfl

/-- The section `info` begins. -/
theorem onReactorSecondPassStart_info (hs : s.Ready) (hd : Xml.IsReactor d) {c : Xml} (hc : c ∈ d.children)
    (hinfo : Xml.IsInfoSection c) :
    onReactorSecondPassStart mem search c.tag (s.put [.topLevel] r fresh) =
      .ok (s.put [.info, .topLevel] r fresh) := by
  have himgdir : ("imgdir" = "string") = False := eq_false (by decide)
  simp only [onReactorSecondPassStart, put, hs.not_skip, if_false, hinfo.1, if_true, himgdir,
    Tag.first_eq (hd.sections c hc hinfo.1).1, Exec.ok_bind, hinfo.2]
  rfl

/-- A link: the record gets copies of the states of its target. -/
theorem run_second_link (hs : s.Ready) {x : Xml} (hlink : Xml.IsLink x) (hvalue : Xml.IsValue x) {t : ReactorInfo}
    (ht : s.infos.done[search (UInt32.ofInt (strtol (Xml.value x)))]? = some t) (htyped : Typed t.states.done) :
    ∃ states fresh', (reactorSecondPassParser mem search).run x.events (s.put [.info, .topLevel] r fresh) =
        .ok (({ s with isLink := true } : ReactorParserContext).put [.info, .topLevel] { r with states } fresh') ∧
      List.Forall₂ SameState t.states.done states.done ∧
      Numbered fresh fresh' (states.id :: states.done.flatMap ReactorStateInfo.blocks) := by
  obtain ⟨sts, fresh', hsts, hsame, hrange⟩ := copyStates_ok mem htyped (fresh + 1)
  refine ⟨⟨fresh, sts.length, sts, .empty⟩, fresh', onReactorSecondPass_skips.run_leaf hs.parsing hs.parsing ?_,
    hsame, hrange.cons⟩
  simp only [onReactorSecondPassStart, put, hs.not_skip, if_false, hlink.1, if_true, hvalue.nameValue, Exec.ok_bind,
    hlink.2, ht, hsts]
  exact Exec.bind_eq_ok.2 ⟨_, @writeInfo_ok (deeper _) _ _ hs.room rfl, rfl⟩

/-- The section `info` with a link. -/
theorem run_second_section (hs : s.Ready) (hd : Xml.IsReactor d) {c x : Xml} {l l' k k' : List Xml}
    (hlink : Xml.LinkedAt d c x l l' k k') {t : ReactorInfo}
    (ht : s.infos.done[search (UInt32.ofInt (strtol (Xml.value x)))]? = some t) (htyped : Typed t.states.done) :
    ∃ states fresh', (reactorSecondPassParser mem search).run c.events (s.put [.topLevel] r fresh) =
        .ok (({ s with isLink := true } : ReactorParserContext).put [.topLevel] { r with states } fresh') ∧
      List.Forall₂ SameState t.states.done states.done ∧
      Numbered fresh fresh' (states.id :: states.done.flatMap ReactorStateInfo.blocks) := by
  have hc : c ∈ d.children := hlink.children ▸ List.mem_append_right _ List.mem_cons_self
  have hx : x ∈ c.children := hlink.section_ ▸ List.mem_append_right _ List.mem_cons_self
  have hs₁ : ({ s with isLink := true } : ReactorParserContext).Ready := ⟨hs.skip, hs.parsing, hs.room⟩
  have hvalues := (hd.info c hc hlink.info).1
  have hk := run_second_info mem search fresh (r := r) hs
    (fun y hy => hvalues y (hlink.section_ ▸ List.mem_append_left _ hy)) hlink.first
  obtain ⟨states, fresh', hrun, hsame, hrange⟩ := run_second_link mem search fresh
    (r := r) hs hlink.link (hvalues x hx hlink.link.1) ht htyped
  have hk' := run_second_info mem search fresh' (r := { r with states }) hs₁
    (fun y hy => hvalues y (hlink.section_ ▸ List.mem_append_right _ (List.mem_cons_of_mem _ hy)))
    (hlink.unique hd).2
  have hchildren : (reactorSecondPassParser mem search).run (Element.forest c.children)
      (s.put [.info, .topLevel] r fresh) =
        .ok (({ s with isLink := true } : ReactorParserContext).put [.info, .topLevel] { r with states } fresh') := by
    rw [hlink.section_, Element.forest_append]
    refine (Parser.run_append hk).trans ?_
    rw [Element.forest]
    exact (Parser.run_append hrun).trans hk'
  refine ⟨states, fresh', run_branch (s := s.put [.topLevel] r fresh) hs.parsing
    (onReactorSecondPassStart_info mem search fresh hs hd hc hlink.info) hchildren hs.parsing ?_, hsame, hrange⟩
  simp only [onReactorSecondPassEnd, put, hs.not_skip, if_false, if_true]

/-- A document with a link becomes a record, with the states of its target. -/
theorem run_second_linked (hs : s.Ready) (hhead : s.head = []) (hd : Xml.IsReactor d) {c x : Xml}
    {l l' k k' : List Xml} (hlink : Xml.LinkedAt d c x l l' k k') {t : ReactorInfo}
    (ht : s.infos.done[search (UInt32.ofInt (strtol (Xml.value x)))]? = some t) (htyped : Typed t.states.done) :
    ∃ r fresh', (reactorSecondPassParser mem search).run d.events s =
        .ok { s with
          isLink := true
          infos := ({ s.infos with cur := r }).next (mem.info (s.infos.done.length + 1))
          fresh := fresh' } ∧
      r.id = reactorId d ∧ (∀ v ∈ actionOf d.children, r.action = v) ∧
      List.Forall₂ SameState t.states.done r.states.done ∧ Numbered s.fresh fresh' r.blocks := by
  have hs₀ : ({ s with isLink := false } : ReactorParserContext).Ready := ⟨hs.skip, hs.parsing, hs.room⟩
  have hs₁ : ({ s with isLink := true } : ReactorParserContext).Ready := ⟨hs.skip, hs.parsing, hs.room⟩
  -- Before the section `info`, in it, and after it.
  obtain ⟨action, hl, haction⟩ := run_second_children mem search s.fresh (l := [])
    (r := { s.infos.cur with id := reactorId d }) hs₀ hd
    (fun c' hc' => hlink.children ▸ List.mem_append_left _ hc') hlink.before nofun
  obtain ⟨states, fresh', hsection, hsame, hrange⟩ := run_second_section mem search s.fresh
    (r := { s.infos.cur with id := reactorId d, action }) hs₀ hd hlink ht htyped
  have hinfo : actionOf (l ++ [c]) = actionOf l := by
    rw [actionOf_concat, if_neg]
    rw [hlink.info.1]
    decide
  obtain ⟨action', hl', haction'⟩ := run_second_children mem search fresh' (l := l ++ [c])
    (r := { s.infos.cur with id := reactorId d, action, states }) hs₁ hd
    (fun c' hc' => hlink.children ▸ List.mem_append_right _ (List.mem_cons_of_mem _ hc')) (hlink.unique hd).1
    (by rw [hinfo]; exact haction)
  have hchildren : (reactorSecondPassParser mem search).run (Element.forest d.children)
      (({ s with isLink := false } : ReactorParserContext).put [.topLevel]
        { s.infos.cur with id := reactorId d } s.fresh) =
        .ok (({ s with isLink := true } : ReactorParserContext).put [.topLevel]
          { s.infos.cur with id := reactorId d, action := action', states } fresh') := by
    rw [hlink.children, Element.forest_append]
    refine (Parser.run_append hl).trans ?_
    rw [Element.forest]
    exact (Parser.run_append hsection).trans hl'
  refine ⟨{ s.infos.cur with id := reactorId d, action := action', states }, fresh',
    run_branch hs.parsing (onReactorSecondPassStart_document mem search hs hhead hd) hchildren hs.parsing ?_, rfl,
    ?_, hsame, hrange⟩
  · simp only [onReactorSecondPassEnd, put, hs.not_skip, if_false, if_true, hhead]
  · rw [hlink.children, List.append_cons]
    exact haction'

/-- The section `info` of a document that has one. -/
theorem events_section {c : Xml} {l l' : List Xml} (h : d.children = l ++ c :: l') :
    ∃ rest, d.events = .start d.tag ::
      (Element.forest l ++ (.start c.tag :: (Element.forest c.children ++ (.stop :: rest)))) := by
  obtain ⟨t, cs⟩ := d
  have hchildren : cs = l ++ c :: l' := h
  rw [Element.events, hchildren, forest_around]
  exact ⟨Element.forest l' ++ [.stop], by simp only [List.append_assoc, List.cons_append, Element.tag]⟩

/-- A document without a link leaves no record. -/
theorem run_second_unlinked (hs : s.Ready) (hhead : s.head = []) (hd : Xml.IsReactor d) (hlink : Xml.Unlinked d) :
    ∃ s' r, (reactorSecondPassParser mem search).run d.events s = .ok s' ∧
      s'.reset = { s with isLink := false, infos := { s.infos with cur := r } } := by
  have hs₀ : ({ s with isLink := false } : ReactorParserContext).Ready := ⟨hs.skip, hs.parsing, hs.room⟩
  -- The parser is stopped at the end of the section `info`, if there is one.
  by_cases hinfo : ∃ c ∈ d.children, Xml.IsInfoSection c
  · obtain ⟨c, hc, hinfo⟩ := hinfo
    obtain ⟨l, l', hl⟩ := List.append_of_mem hc
    obtain ⟨action, hrun, -⟩ := run_second_children mem search s.fresh (l := [])
      (r := { s.infos.cur with id := reactorId d }) hs₀ hd
      (fun c' hc' => hl ▸ List.mem_append_left _ hc') (hd.info_unique hl hinfo).1 nofun
    have hsection := run_second_info mem search s.fresh
      (r := { s.infos.cur with id := reactorId d, action }) hs₀ (hd.info c hc hinfo).1 (hlink c hc hinfo)
    have hstart := onReactorSecondPassStart_info mem search s.fresh
      (r := { s.infos.cur with id := reactorId d, action }) hs₀ hd hc hinfo
    have hrunning (head : List ReactorItemType) : (({ s with isLink := false } : ReactorParserContext).put head
      { s.infos.cur with id := reactorId d, action } s.fresh).parsing = .running := hs.parsing
    -- Without a link, the parser is stopped.
    have hstop : onReactorSecondPassEnd mem
        (({ s with isLink := false } : ReactorParserContext).put [.info, .topLevel]
        { s.infos.cur with id := reactorId d, action } s.fresh) =
        .ok { ({ s with isLink := false } : ReactorParserContext).put []
          { s.infos.cur with id := reactorId d, action } s.fresh with parsing := .stopped } := by
      simp only [onReactorSecondPassEnd, put, hs.not_skip, if_false, Bool.false_eq_true]
    obtain ⟨rest, hevents⟩ := events_section hl
    refine ⟨{ ({ s with isLink := false } : ReactorParserContext).put []
      { s.infos.cur with id := reactorId d, action } s.fresh with parsing := .stopped },
      { s.infos.cur with id := reactorId d, action }, ?_, ?_⟩
    · rw [hevents]
      refine (toldTags_run_start hs.parsing (onReactorSecondPassStart_document mem search hs hhead hd) _).trans ?_
      refine (Parser.run_append hrun).trans ((toldTags_run_start (hrunning _) hstart _).trans ?_)
      refine (Parser.run_append hsection).trans ?_
      refine (Parser.run_cons (e := .stop) (toldTags_running (hrunning _))
        ((toldTags_stop (hrunning _)).trans hstop)).trans ?_
      exact Parser.run_stopped rfl _
    · simp only [reset, put, hhead, hs.parsing]
  · obtain ⟨action, hrun, -⟩ := run_second_children mem search s.fresh (l := [])
      (r := { s.infos.cur with id := reactorId d }) hs₀ hd (fun c hc => hc)
      (fun c hc hc' => hinfo ⟨c, hc, hc'⟩) nofun
    refine ⟨{ s with
        isLink := false
        infos := { s.infos with cur := { s.infos.cur with id := reactorId d, action } } },
      { s.infos.cur with id := reactorId d, action },
      run_branch hs.parsing (onReactorSecondPassStart_document mem search hs hhead hd) hrun hs.parsing ?_, ?_⟩
    · simp only [onReactorSecondPassEnd, put, hs.not_skip, if_false, hhead, Bool.false_eq_true]
    · simp only [reset, hs.parsing]

end Second

end Syrup
