import Syrup.Wz.Reactors.Copied

/-!
# Linked reactors

Every document of the directory should become one record, with its own id, script and arrays, and with the states of
the reactor that it is linked to, or of its own (`ReactorsRight`). This is so if the directory is empty, or there is
a link in some document, and each link is written as one tag (`wzInitReactors_iff`).

Without links, the records are as many as the documents after the first pass, and the second pass writes beyond
them. A link that is written with an end tag is not told of its end, so that all documents after it are skipped.
-/

namespace Syrup

open Sax ReactorParserContext

/-- A file with a document about a reactor. An element that is written as one tag is empty. -/
structure ReactorFile.Good (file : ReactorFile) : Prop where
  reactor : Xml.IsReactor file.document
  leaf : file.linkEmpty = true → ∀ c ∈ file.document.children, Xml.IsInfoSection c →
    ∀ x ∈ c.children, Xml.IsLink x → x.children = []

/-- A directory of them: their ids differ, and links lead to reactors without links. -/
structure IsReactorDirectory (files : List ReactorFile) : Prop where
  good : ∀ file ∈ files, file.Good
  ids : (files.map fun file => reactorId file.document).Nodup
  target : ∀ file ∈ files, ∀ id, Xml.LinksTo file.document id →
    ∃ t ∈ files, Xml.Unlinked t.document ∧ reactorId t.document = id

/-- A document has become a record, among others. -/
structure IsRecordOf (rs : List ReactorInfo) (d : Xml) (r : ReactorInfo) : Prop where
  id : r.id = reactorId d
  action : ∀ v ∈ actionOf d.children, r.action = v
  own : Xml.Unlinked d → r.Of d.children
  copied : ∀ id, Xml.LinksTo d id → ∃ t ∈ rs, t.id = id ∧ List.Forall₂ SameState t.states.done r.states.done

/-- There is exactly one record for each document, and no array belongs to two of them. -/
structure ReactorsRight (files : List ReactorFile) (rs : List ReactorInfo) : Prop where
  records : ∃ l : List ReactorInfo, l.Perm rs ∧ List.Forall₂ (fun file r => IsRecordOf rs file.document r) files l
  arrays : (rs.flatMap ReactorInfo.blocks).Nodup

/-! ## Passes over the directory -/

variable {mem : ReactorMemory} {search : UInt32 → ℕ} {s s' : ReactorParserContext} {files : List ReactorFile}

/-- Between two documents. -/
structure Waiting (s : ReactorParserContext) : Prop where
  skip : s.skip = 0
  head : s.head = []
  parsing : s.parsing = .running

theorem Waiting.ready (h : Waiting s) (hroom : s.infos.done.length < s.infos.capacity) : s.Ready :=
  ⟨h.skip, h.parsing, hroom⟩

@[simp] theorem reset_infos : s.reset.infos = s.infos := rfl

theorem reset_of_running (h : s.parsing = .running) : s.reset = s := by
  rw [reset, ← h]

/-- What is skipped stays skipped. -/
theorem firstPass_skips (hskip : 0 < s.skip) (hrunning : s.parsing = .running) : firstPass mem files s = .ok s := by
  induction files with
  | nil => rfl
  | cons file files ih =>
    have hrun : (reactorParser mem file.linkEmpty).run file.document.events s = .ok s :=
      onReactor_skips.skips.run_skipped _ ⟨hskip, hrunning⟩
    rw [firstPass, hrun, Exec.ok_bind, reset_of_running hrunning, ih]

theorem secondPass_skips (hskip : 0 < s.skip) (hrunning : s.parsing = .running) {count : ℕ} :
    secondPass mem search count files s = .ok s := by
  induction files with
  | nil => rfl
  | cons file files ih =>
    have hrun : (reactorSecondPassParser mem search).run file.document.events s = .ok s :=
      onReactorSecondPass_skips.skips.run_skipped _ ⟨hskip, hrunning⟩
    rw [secondPass, hrun, Exec.ok_bind, reset_of_running hrunning, ih]
    exact ite_self _

/-- A link is an empty element if it is written as one tag. -/
theorem ReactorFile.Good.leafAt {file : ReactorFile} (h : file.Good) {c x : Xml} {l l' k k' : List Xml}
    (hlink : Xml.LinkedAt file.document c x l l' k k') (hempty : file.linkEmpty = true) : x.children = [] :=
  h.leaf hempty c (hlink.children ▸ List.mem_append_right _ List.mem_cons_self) hlink.info x
    (hlink.section_ ▸ List.mem_append_right _ List.mem_cons_self) hlink.link

/-- The files without links, and those with them. -/
def unlinkedFiles (files : List ReactorFile) : List ReactorFile :=
  files.filter fun file => Xml.Unlinked file.document

def linkedFiles (files : List ReactorFile) : List ReactorFile :=
  files.filter fun file => ¬Xml.Unlinked file.document

theorem unlinkedFiles_cons (file : ReactorFile) (files : List ReactorFile) : unlinkedFiles (file :: files) =
    if Xml.Unlinked file.document then file :: unlinkedFiles files else unlinkedFiles files := by
  rw [unlinkedFiles, List.filter_cons]
  simp only [decide_eq_true_eq]
  rfl

theorem linkedFiles_cons (file : ReactorFile) (files : List ReactorFile) : linkedFiles (file :: files) =
    if Xml.Unlinked file.document then linkedFiles files else file :: linkedFiles files := by
  rw [linkedFiles, List.filter_cons]
  simp only [decide_eq_true_eq, ite_not]
  rfl

/-- A record after the first pass. -/
structure IsOwnRecordOf (d : Xml) (r : ReactorInfo) : Prop where
  of : r.Of d.children
  id : r.id = reactorId d

/-- A document in the first pass: one without a link adds a record. -/
theorem firstPass_unlinked (mem : ReactorMemory) (hs : Waiting s) (hroom : s.infos.done.length < s.infos.capacity)
    {file : ReactorFile}
    (hgood : file.Good) (hlink : Xml.Unlinked file.document) :
    ∃ s' r, (reactorParser mem file.linkEmpty).run file.document.events s = .ok s' ∧ Waiting s'.reset ∧
      s'.infos.capacity = s.infos.capacity ∧ s'.infos.done = s.infos.done ++ [r] ∧ IsOwnRecordOf file.document r ∧
      Numbered s.fresh s'.fresh r.blocks := by
  obtain ⟨r, fresh', hrun, hof, hid, hrange⟩ := run_unlinked mem file.linkEmpty
    (hs.ready hroom) hs.head hgood.reactor hlink
  exact ⟨_, r, hrun, ⟨hs.skip, hs.head, rfl⟩, rfl, rfl, ⟨hof, hid⟩, hrange⟩

/-- One with a link adds none, and leaves the context waiting if the link is written as one tag. -/
theorem firstPass_linked (mem : ReactorMemory) (hs : Waiting s) (hroom : s.infos.done.length < s.infos.capacity)
    {file : ReactorFile}
    (hgood : file.Good) (hlink : ¬Xml.Unlinked file.document) :
    ∃ s', (reactorParser mem file.linkEmpty).run file.document.events s = .ok s' ∧ s'.reset.head = [] ∧
      s'.skip = (if file.linkEmpty then 0 else 1) ∧ s'.infos.capacity = s.infos.capacity ∧
      s'.infos.done = s.infos.done ∧ s.fresh ≤ s'.fresh := by
  obtain ⟨c, x, l, l', k, k', hat⟩ := hgood.reactor.exists_linkedAt hlink
  obtain ⟨r, fresh', hrun, hle⟩ := run_linked mem file.linkEmpty (hs.ready hroom) hs.head
    hgood.reactor hat (hgood.leafAt hat)
  exact ⟨_, hrun, hs.head, rfl, rfl, rfl, hle⟩

/-- If all links are written as one tag, the first pass makes a record of each document without a link. -/
theorem firstPass_ok (mem : ReactorMemory) (hs : Waiting s)
    (hroom : s.infos.done.length + files.length ≤ s.infos.capacity)
    (hgood : ∀ file ∈ files, file.Good)
    (hempty : ∀ file ∈ files, ¬Xml.Unlinked file.document → file.linkEmpty = true) :
    ∃ s' rs, firstPass mem files s = .ok s' ∧ Waiting s' ∧ s'.infos.capacity = s.infos.capacity ∧
      s'.infos.done = s.infos.done ++ rs ∧
      List.Forall₂ (fun file r => IsOwnRecordOf file.document r) (unlinkedFiles files) rs ∧
      Numbered s.fresh s'.fresh (rs.flatMap ReactorInfo.blocks) := by
  induction files generalizing s with
  | nil => exact ⟨s, [], rfl, hs, rfl, (List.append_nil _).symm, .nil, .nil le_rfl⟩
  | cons file files ih =>
    rw [List.length_cons] at hroom
    have hgood' := hgood file List.mem_cons_self
    rw [firstPass, unlinkedFiles_cons]
    -- The induction is on the files; each leaves the context waiting for the next one.
    by_cases hlink : Xml.Unlinked file.document
    · obtain ⟨s', r, hrun, hs', hcapacity, hdone, hrecord, hrange⟩ :=
        firstPass_unlinked mem hs (by omega) hgood' hlink
      have hroom' : s'.infos.done.length + files.length ≤ s'.infos.capacity := by
        rw [hdone, hcapacity, List.length_append, List.length_singleton]
        omega
      obtain ⟨s'', rs, hpass, hs'', hcapacity', hdone', hrecords, hranges⟩ := ih (s := s'.reset) hs' hroom'
        (fun f hf => hgood f (List.mem_cons_of_mem _ hf)) fun f hf => hempty f (List.mem_cons_of_mem _ hf)
      refine ⟨s'', r :: rs, by rw [hrun, Exec.ok_bind, hpass], hs'', hcapacity'.trans hcapacity, ?_, ?_,
        hrange.append hranges⟩
      · rw [hdone', reset_infos, hdone, List.append_assoc, List.singleton_append]
      · rw [if_pos hlink]
        exact .cons hrecord hrecords
    · obtain ⟨s', hrun, hhead, hskip, hcapacity, hdone, hle⟩ := firstPass_linked mem hs (by omega) hgood' hlink
      rw [hempty file List.mem_cons_self hlink, if_pos rfl] at hskip
      have hroom' : s'.infos.done.length + files.length ≤ s'.infos.capacity := by
        rw [hdone, hcapacity]
        omega
      obtain ⟨s'', rs, hpass, hs'', hcapacity', hdone', hrecords, hranges⟩ := ih (s := s'.reset) ⟨hskip, hhead, rfl⟩
        hroom' (fun f hf => hgood f (List.mem_cons_of_mem _ hf)) fun f hf => hempty f (List.mem_cons_of_mem _ hf)
      refine ⟨s'', rs, by rw [hrun, Exec.ok_bind, hpass], hs'', hcapacity'.trans hcapacity, ?_, ?_,
        hranges.widen hle⟩
      · rw [hdone', reset_infos, hdone]
      · rw [if_neg hlink]
        exact hrecords

/-- After a link that is not, the documents that are left are skipped: there are fewer records than documents. -/
theorem firstPass_broken (mem : ReactorMemory) (hs : Waiting s)
    (hroom : s.infos.done.length + files.length ≤ s.infos.capacity)
    (hgood : ∀ file ∈ files, file.Good)
    (hbroken : ∃ file ∈ files, ¬Xml.Unlinked file.document ∧ file.linkEmpty = false) :
    ∃ s', firstPass mem files s = .ok s' ∧ 0 < s'.skip ∧ s'.parsing = .running ∧
      s'.infos.done.length < s.infos.done.length + files.length := by
  induction files generalizing s with
  | nil =>
    obtain ⟨file, hfile, -⟩ := hbroken
    exact absurd hfile List.not_mem_nil
  | cons file files ih =>
    rw [List.length_cons] at hroom ⊢
    have hgood' := hgood file List.mem_cons_self
    have hrest (hfirst : Xml.Unlinked file.document ∨ file.linkEmpty = true) :
        ∃ file ∈ files, ¬Xml.Unlinked file.document ∧ file.linkEmpty = false := by
      obtain ⟨f, hf, hlink, hempty⟩ := hbroken
      rcases List.mem_cons.1 hf with rfl | hf
      · rcases hfirst with h | h
        · exact absurd h hlink
        · rw [hempty] at h
          cases h
      · exact ⟨f, hf, hlink, hempty⟩
    rw [firstPass]
    by_cases hlink : Xml.Unlinked file.document
    · obtain ⟨s', r, hrun, hs', hcapacity, hdone, -⟩ := firstPass_unlinked mem hs (by omega) hgood' hlink
      have hlength : s'.reset.infos.done.length = s.infos.done.length + 1 := by
        rw [reset_infos, hdone, List.length_append, List.length_singleton]
      have hcapacity' : s'.reset.infos.capacity = s.infos.capacity := hcapacity
      obtain ⟨s'', hpass, hskip, hrunning, hlt⟩ := ih hs' (by omega)
        (fun f hf => hgood f (List.mem_cons_of_mem _ hf)) (hrest (.inl hlink))
      exact ⟨s'', by rw [hrun, Exec.ok_bind, hpass], hskip, hrunning, by omega⟩
    · obtain ⟨s', hrun, hhead, hskip, hcapacity, hdone, -⟩ := firstPass_linked mem hs (by omega) hgood' hlink
      have hlength : s'.reset.infos.done.length = s.infos.done.length := congrArg List.length hdone
      have hcapacity' : s'.reset.infos.capacity = s.infos.capacity := hcapacity
      cases hempty : file.linkEmpty with
      | true =>
        rw [hempty, if_pos rfl] at hskip
        obtain ⟨s'', hpass, hskip', hrunning, hlt⟩ := ih (s := s'.reset) ⟨hskip, hhead, rfl⟩ (by omega)
          (fun f hf => hgood f (List.mem_cons_of_mem _ hf)) (hrest (.inr hempty))
        rw [hempty] at hrun
        exact ⟨s'', by rw [hrun, Exec.ok_bind, hpass], hskip', hrunning, by omega⟩
      | false =>
        have hpos : 0 < s'.reset.skip := by
          change 0 < s'.skip
          rw [hskip, hempty]
          decide
        rw [hempty] at hrun
        exact ⟨s'.reset, by rw [hrun, Exec.ok_bind, firstPass_skips hpos rfl], hpos, rfl, by omega⟩

/-- The link of a document leads to one reactor. -/
theorem Xml.LinkedAt.eq_of_linksTo {d c x : Xml} {l l' k k' : List Xml} (hd : Xml.IsReactor d)
    (h : Xml.LinkedAt d c x l l' k k') {id : UInt32} (hlink : Xml.LinksTo d id) :
    UInt32.ofInt (strtol (Xml.value x)) = id := by
  obtain ⟨hafter, hlater⟩ := h.unique hd
  obtain ⟨c', hc', hinfo, x', hx', hlink, rfl⟩ := hlink
  have hc : c' = c := by
    rw [h.children, List.mem_append, List.mem_cons] at hc'
    rcases hc' with hc' | rfl | hc'
    exacts [absurd hinfo (h.before c' hc'), rfl, absurd hinfo (hafter c' hc')]
  subst hc
  rw [h.section_, List.mem_append, List.mem_cons] at hx'
  rcases hx' with hx' | rfl | hx'
  exacts [absurd hlink (h.first x' hx'), rfl, absurd hlink (hlater x' hx')]

theorem Xml.LinkedAt.linksTo {d c x : Xml} {l l' k k' : List Xml} (h : Xml.LinkedAt d c x l l' k k') :
    Xml.LinksTo d (UInt32.ofInt (strtol (Xml.value x))) :=
  ⟨c, h.children ▸ List.mem_append_right _ List.mem_cons_self, h.info, x,
    h.section_ ▸ List.mem_append_right _ List.mem_cons_self, h.link, rfl⟩

/-- A record with copies of what is in others. -/
structure IsCopyOf (rs : List ReactorInfo) (d : Xml) (r : ReactorInfo) : Prop where
  id : r.id = reactorId d
  action : ∀ v ∈ actionOf d.children, r.action = v
  copied : ∀ id, Xml.LinksTo d id → ∃ t ∈ rs, t.id = id ∧ List.Forall₂ SameState t.states.done r.states.done

/-- Links lead to records that can be copied. -/
def LeadsTo (search : UInt32 → ℕ) (rs : List ReactorInfo) (d : Xml) : Prop :=
  ∀ id, Xml.LinksTo d id → ∃ t, rs[search id]? = some t ∧ t.id = id ∧ Typed t.states.done

/-- A document in the second pass: one with a link adds a record. -/
theorem secondPass_linked (mem : ReactorMemory) (search : UInt32 → ℕ) (hs : Waiting s)
    (hroom : s.infos.done.length < s.infos.capacity) {file : ReactorFile}
    (hgood : file.Good) (hlink : ¬Xml.Unlinked file.document) {rs l : List ReactorInfo}
    (hl : s.infos.done = rs ++ l) (hleads : LeadsTo search rs file.document) :
    ∃ s' r, (reactorSecondPassParser mem search).run file.document.events s = .ok s' ∧ Waiting s'.reset ∧
      s'.infos.capacity = s.infos.capacity ∧ s'.infos.done = s.infos.done ++ [r] ∧ IsCopyOf rs file.document r ∧
      Numbered s.fresh s'.fresh r.blocks := by
  obtain ⟨c, x, k, k', m, m', hat⟩ := hgood.reactor.exists_linkedAt hlink
  obtain ⟨t, ht, hid, htyped⟩ := hleads _ hat.linksTo
  have ht' : s.infos.done[search (UInt32.ofInt (strtol (Xml.value x)))]? = some t := by
    rw [hl, List.getElem?_append_left (List.getElem?_eq_some_iff.1 ht).1, ht]
  obtain ⟨r, fresh', hrun, hrid, haction, hsame, hrange⟩ := run_second_linked mem search
    (hs.ready hroom) hs.head hgood.reactor hat ht' htyped
  refine ⟨_, r, hrun, ⟨hs.skip, hs.head, rfl⟩, rfl, rfl, ⟨hrid, haction, fun id hlinks => ?_⟩, hrange⟩
  exact ⟨t, List.mem_of_getElem? ht, hid.trans (hat.eq_of_linksTo hgood.reactor hlinks), hsame⟩

/-- The second pass makes a record of each document with a link, if there is one. -/
theorem secondPass_ok (mem : ReactorMemory) (search : UInt32 → ℕ) {count : ℕ} (rs : List ReactorInfo)
    {l : List ReactorInfo} (hs : Waiting s) (hcapacity : s.infos.capacity = count)
    (hl : s.infos.done = rs ++ l) (hcount : s.infos.done.length + (linkedFiles files).length = count)
    (hlinked : linkedFiles files ≠ []) (hgood : ∀ file ∈ files, file.Good)
    (hleads : ∀ file ∈ files, LeadsTo search rs file.document) :
    ∃ s' rs', secondPass mem search count files s = .ok s' ∧ s'.infos.done = s.infos.done ++ rs' ∧
      List.Forall₂ (fun file r => IsCopyOf rs file.document r) (linkedFiles files) rs' ∧
      Numbered s.fresh s'.fresh (rs'.flatMap ReactorInfo.blocks) := by
  induction files generalizing s l with
  | nil => exact absurd rfl hlinked
  | cons file files ih =>
    have hpos := List.length_pos_iff.2 hlinked
    have hgood' := hgood file List.mem_cons_self
    have hgoods (f : ReactorFile) (hf : f ∈ files) : f.Good := hgood f (List.mem_cons_of_mem _ hf)
    have hleads' (f : ReactorFile) (hf : f ∈ files) : LeadsTo search rs f.document :=
      hleads f (List.mem_cons_of_mem _ hf)
    rw [secondPass]
    rw [linkedFiles_cons] at hcount hlinked hpos ⊢
    by_cases hlink : Xml.Unlinked file.document
    · rw [if_pos hlink] at hcount hlinked hpos ⊢
      obtain ⟨s', r, hrun, hreset⟩ := run_second_unlinked mem search
        (hs.ready (by omega)) hs.head hgood'.reactor hlink
      have hdone : s'.infos.done = s.infos.done := congrArg (fun s => s.infos.done) hreset
      have hfresh : s'.reset.fresh = s.fresh := by rw [hreset]
      have hs' : Waiting s'.reset := by
        rw [hreset]
        exact ⟨hs.skip, hs.head, hs.parsing⟩
      have hcapacity' : s'.reset.infos.capacity = count := by
        rw [hreset]
        exact hcapacity
      obtain ⟨s'', rs', hpass, hdone', hcopies, hrange⟩ :=
        ih (s := s'.reset) (l := l) hs' hcapacity' (hdone.trans hl)
        (by rw [reset_infos, hdone, hcount]) hlinked hgoods hleads'
      refine ⟨s'', rs', ?_, ?_, hcopies, hfresh ▸ hrange⟩
      · rw [hrun, Exec.ok_bind, if_neg (by rw [hdone]; omega), hpass]
      · rw [hdone', reset_infos, hdone]
    · rw [if_neg hlink, List.length_cons] at hcount
      rw [if_neg hlink]
      obtain ⟨s', r, hrun, hs', hcapacity', hdone, hcopy, hrange⟩ := secondPass_linked mem search hs
        (by omega) hgood' hlink hl (hleads file List.mem_cons_self)
      have hlength : s'.infos.done.length = s.infos.done.length + 1 := by
        rw [hdone, List.length_append, List.length_singleton]
      -- The loop is left after the last document with a link.
      by_cases hlast : linkedFiles files = []
      · rw [hlast, List.length_nil] at hcount
        refine ⟨s'.reset, [r], ?_, hdone, ?_, ?_⟩
        · rw [hrun, Exec.ok_bind, if_pos (by omega)]
          rfl
        · rw [hlast]
          exact .cons hcopy .nil
        · rw [List.flatMap_singleton]
          exact hrange
      · have hrest := List.length_pos_iff.2 hlast
        obtain ⟨s'', rs', hpass, hdone', hcopies, hranges⟩ := ih (s := s'.reset) (l := l ++ [r]) hs'
          (hcapacity'.trans hcapacity)
          (by rw [reset_infos, hdone, hl, List.append_assoc])
          (by rw [reset_infos]; omega) hlast hgoods hleads'
        refine ⟨s'', r :: rs', ?_, ?_, .cons hcopy hcopies, hrange.append hranges⟩
        · rw [hrun, Exec.ok_bind, if_neg (by omega), hpass]
        · rw [hdone', reset_infos, hdone, List.append_assoc, List.singleton_append]

/-- Without a free record, the second pass goes beyond the last one. -/
theorem secondPass_full (mem : ReactorMemory) (search : UInt32 → ℕ) (count : ℕ) (files : List ReactorFile)
    (hs : Waiting s) (hfull : s.infos.done.length = s.infos.capacity)
    {file : ReactorFile} (hgood : file.Good) : ∃ e, secondPass mem search count (file :: files) s = .error e := by
  have hstart : onReactorSecondPassStart mem search file.document.tag s = .error .outOfBounds := by
    have hskip : (0 < s.skip) = False := eq_false (by rw [hs.skip]; exact lt_irrefl 0)
    simp only [onReactorSecondPassStart, hskip, if_false, hs.head, hgood.reactor.imgdir, if_true,
      Tag.first_eq hgood.reactor.named, Exec.ok_bind, writeInfo, Growing.write, hfull, lt_irrefl]
    rfl
  have hrun : (reactorSecondPassParser mem search).run file.document.events s = .error .outOfBounds := by
    cases hdocument : file.document with
    | node t cs =>
      rw [hdocument] at hstart
      rw [Element.events, Parser.run, List.foldlM_cons, reactorSecondPassParser, toldTags_running hs.parsing,
        if_neg Bool.false_ne_true, Parser.handle, toldTags_start hs.parsing]
      rw [show onReactorSecondPassStart mem search t s = _ from hstart]
      rfl
  exact ⟨.outOfBounds, by rw [secondPass, hrun]; rfl⟩

/-! ## The records -/

/-- What is related to the members of a list with a property, and to those without it, is related to those of the
    list. -/
theorem exists_merge {α β : Type} {p : α → Bool} {P Q : α → β → Prop} {l : List α} {as bs : List β}
    (ha : List.Forall₂ P (l.filter p) as) (hb : List.Forall₂ Q (l.filter fun x => !p x) bs) :
    ∃ cs : List β, cs.Perm (as ++ bs) ∧ List.Forall₂ (fun x y => if p x then P x y else Q x y) l cs := by
  induction l generalizing as bs with
  | nil =>
    cases ha
    cases hb
    exact ⟨[], .nil, .nil⟩
  | cons x l ih =>
    rw [List.filter_cons] at ha hb
    cases hp : p x with
    | true =>
      rw [hp, if_pos rfl] at ha
      rw [hp, Bool.not_true, if_neg Bool.false_ne_true] at hb
      obtain ⟨y, as, hy, has, rfl⟩ := List.forall₂_cons_left_iff.1 ha
      obtain ⟨cs, hperm, hcs⟩ := ih has hb
      exact ⟨y :: cs, hperm.cons y, .cons (by rwa [hp, if_pos rfl]) hcs⟩
    | false =>
      rw [hp, if_neg Bool.false_ne_true] at ha
      rw [hp, Bool.not_false, if_pos rfl] at hb
      obtain ⟨y, bs, hy, hbs, rfl⟩ := List.forall₂_cons_left_iff.1 hb
      obtain ⟨cs, hperm, hcs⟩ := ih ha hbs
      exact ⟨y :: cs, (hperm.cons y).trans List.perm_middle.symm,
        .cons (by rwa [hp, if_neg Bool.false_ne_true]) hcs⟩

/-- A perfect hash: `cmph_new` with different ids gives each a place of its own. -/
def IsPerfect (mph : List UInt32 → UInt32 → ℕ) : Prop :=
  ∀ ids : List UInt32, ids.Nodup → (ids.map (mph ids)).Nodup ∧ ∀ id ∈ ids, mph ids id < ids.length

variable {mph : List UInt32 → UInt32 → ℕ}

/-- Records with different ids are put in order. -/
theorem orderReactors_ok (hmph : IsPerfect mph) {rs : List ReactorInfo} (hids : (rs.map ReactorInfo.id).Nodup) :
    ∃ rs', orderReactors mph rs = .ok rs' ∧ rs'.Perm rs ∧
      ∀ r ∈ rs', rs'[mph (rs.map ReactorInfo.id) r.id]? = some r := by
  obtain ⟨hnodup, hlt⟩ := hmph _ hids
  have hplaces : HasPlaces (fun r : ReactorInfo => mph (rs.map ReactorInfo.id) r.id) rs := by
    refine ⟨by rwa [List.map_map] at hnodup, fun r hr => ?_⟩
    have := hlt r.id (List.mem_map_of_mem hr)
    rwa [List.length_map] at this
  obtain ⟨rs', hok, hperm, hplace⟩ := hashOrder_spec hplaces
  refine ⟨rs', hok, hperm, fun r hr => ?_⟩
  obtain ⟨k, hk⟩ := List.mem_iff_getElem?.1 hr
  rw [hplace k r hk, hk]

theorem unlinkedFiles_perm (files : List ReactorFile) : (unlinkedFiles files ++ linkedFiles files).Perm files := by
  have hneg : linkedFiles files = files.filter fun file => !decide (Xml.Unlinked file.document) := by
    rw [linkedFiles]
    simp only [decide_not]
  rw [hneg]
  exact List.filter_append_perm _ files

/-- After the first pass, links lead to the records of their targets. -/
theorem IsReactorDirectory.leadsTo (hdir : IsReactorDirectory files) {rs rs' : List ReactorInfo}
    (hown : List.Forall₂ (fun file r => IsOwnRecordOf file.document r) (unlinkedFiles files) rs)
    (hperm : rs'.Perm rs)
    (hfind : ∀ r ∈ rs', rs'[search r.id]? = some r) {file : ReactorFile} (hfile : file ∈ files) :
    LeadsTo search rs' file.document := by
  intro id hlinks
  obtain ⟨t, ht, hunlinked, rfl⟩ := hdir.target file hfile id hlinks
  obtain ⟨r, hr, hrecord⟩ := exists_left_of_forall₂ hown.flip
    (List.mem_filter.2 ⟨ht, decide_eq_true hunlinked⟩)
  have hr' := hperm.mem_iff.2 hr
  refine ⟨r, ?_, hrecord.id, fun st hst ev hev => hrecord.of.typed (hdir.good t ht).reactor.states hst hev⟩
  rw [← hrecord.id]
  exact hfind r hr'

theorem initial_done (count : ℕ) : (initial mem count).infos.done = [] := rfl

theorem initial_waiting (count : ℕ) : Waiting (.initial mem count) :=
  ⟨rfl, rfl, rfl⟩

/-- There is room for a record of each document. -/
theorem initial_room (files : List ReactorFile) : (initial mem files.length).infos.done.length + files.length ≤
    (initial mem files.length).infos.capacity :=
  (Nat.zero_add _).le

/-- The ids of the records are those of the documents. -/
theorem ids_of_records {P : Xml → ReactorInfo → Prop} (hP : ∀ d r, P d r → r.id = reactorId d)
    {rs : List ReactorInfo}
    (h : List.Forall₂ (fun file r => P file.document r) files rs) :
    rs.map ReactorInfo.id = files.map fun file => reactorId file.document := by
  induction h with
  | nil => rfl
  | cons hr _ ih => rw [List.map_cons, List.map_cons, hP _ _ hr, ih]

/-- The documents have different ids, those without links and those with them. -/
theorem IsReactorDirectory.ids_append (hdir : IsReactorDirectory files) :
    (((unlinkedFiles files).map fun file => reactorId file.document) ++
      (linkedFiles files).map fun file => reactorId file.document).Nodup := by
  rw [← List.map_append]
  exact ((unlinkedFiles_perm files).map _).nodup_iff.2 hdir.ids

/-- A document without a link has no reactor it is linked to. -/
theorem Xml.Unlinked.not_linksTo {d : Xml} (h : Xml.Unlinked d) {id : UInt32} : ¬Xml.LinksTo d id := by
  rintro ⟨c, hc, hinfo, x, hx, hlink, -⟩
  exact h c hc hinfo x hx hlink

/-- The records of the documents without links, and the copies, are those of all documents. -/
theorem records_of_passes {rs rs₁ rs₂ rs' : List ReactorInfo}
    (hown : List.Forall₂ (fun file r => IsOwnRecordOf file.document r) (unlinkedFiles files) rs₁)
    (hcopies : List.Forall₂ (fun file r => IsCopyOf rs file.document r) (linkedFiles files) rs₂)
    (hperm : rs.Perm rs₁) (hfinal : (rs₁ ++ rs₂).Perm rs') :
    ∃ l : List ReactorInfo, l.Perm rs' ∧ List.Forall₂ (fun file r => IsRecordOf rs' file.document r) files l := by
  have hneg : linkedFiles files = files.filter fun file => !decide (Xml.Unlinked file.document) := by
    rw [linkedFiles]
    simp only [decide_not]
  rw [hneg] at hcopies
  obtain ⟨l, hl, hrecords⟩ :=
    exists_merge (p := fun file : ReactorFile => decide (Xml.Unlinked file.document)) hown hcopies
  refine ⟨l, hl.trans hfinal, hrecords.imp fun file r h => ?_⟩
  by_cases hlink : Xml.Unlinked file.document
  · rw [if_pos (decide_eq_true hlink)] at h
    exact ⟨h.id, h.of.action, fun _ => h.of, fun id hlinks => absurd hlinks hlink.not_linksTo⟩
  · rw [if_neg (by rwa [decide_eq_true_eq])] at h
    refine ⟨h.id, h.action, fun hunlinked => absurd hunlinked hlink, fun id hlinks => ?_⟩
    obtain ⟨t, ht, hid, hsame⟩ := h.copied id hlinks
    exact ⟨t, hfinal.mem_iff.1 (List.mem_append_left _ (hperm.mem_iff.1 ht)), hid, hsame⟩

/-- What is returned, by what the passes do. -/
theorem wzInitReactors_eq_ok {s₁ : ReactorParserContext}
    (hpass : firstPass mem files (initial mem files.length) = .ok s₁) {rs : List ReactorInfo} :
    wzInitReactors mem mph files = .ok rs ↔
      ∃ done, orderReactors mph s₁.infos.done = .ok done ∧
        ∃ s₂, secondPass mem (mph (s₁.infos.done.map ReactorInfo.id)) files.length files
          (s₁.ordered done) = .ok s₂ ∧
          orderReactors mph s₂.infos.done = .ok rs := by
  rw [wzInitReactors, hpass, Exec.ok_bind, Exec.bind_eq_ok]
  simp only [Exec.bind_eq_ok]

/-- The records are right if there is a link, and each is written as one tag. -/
theorem wzInitReactors_right (hmph : IsPerfect mph) (hdir : IsReactorDirectory files)
    (hlinked : ∃ file ∈ files, ¬Xml.Unlinked file.document)
    (hempty : ∀ file ∈ files, ¬Xml.Unlinked file.document → file.linkEmpty = true) :
    ∃ rs, wzInitReactors mem mph files = .ok rs ∧ ReactorsRight files rs := by
  -- The first pass
  obtain ⟨s₁, rs₁, hpass₁, hs₁, hcapacity₁, hdone₁, hown, hrange₁⟩ :=
    firstPass_ok mem (initial_waiting files.length) (initial_room files) hdir.good hempty
  rw [initial_done, List.nil_append] at hdone₁
  have hids₁ := ids_of_records (fun _ _ h => h.id) hown
  -- The order
  obtain ⟨rs, hrs, hperm, hfind⟩ := orderReactors_ok hmph (hids₁ ▸ (List.nodup_append.1 hdir.ids_append).1)
  have hlinkedFiles : linkedFiles files ≠ [] := by
    obtain ⟨file, hfile, hlink⟩ := hlinked
    exact List.ne_nil_of_mem (List.mem_filter.2 ⟨hfile, decide_eq_true hlink⟩)
  have hcount := (unlinkedFiles_perm files).length_eq
  rw [List.length_append, hown.length_eq, ← hperm.length_eq] at hcount
  -- The second pass
  obtain ⟨s₂, rs₂, hpass₂, hdone₂, hcopies, hrange₂⟩ :=
    secondPass_ok mem (mph (rs₁.map ReactorInfo.id)) rs (l := [])
    (s := s₁.ordered rs) ⟨hs₁.skip, hs₁.head, hs₁.parsing⟩ hcapacity₁
    (List.append_nil rs).symm hcount hlinkedFiles hdir.good
    fun file hfile => hdir.leadsTo hown hperm hfind hfile
  have hids₂ := ids_of_records (fun _ _ h => h.id) hcopies
  have hall : s₂.infos.done.Perm (rs₁ ++ rs₂) := by
    rw [hdone₂]
    exact hperm.append_right rs₂
  have hids : (s₂.infos.done.map ReactorInfo.id).Nodup := by
    rw [(hall.map _).nodup_iff, List.map_append, hids₁, hids₂]
    exact hdir.ids_append
  obtain ⟨rs', hrs', hperm', -⟩ := orderReactors_ok hmph hids
  have hfinal : (rs₁ ++ rs₂).Perm rs' := (hperm'.trans hall).symm
  refine ⟨rs', ?_, records_of_passes hown hcopies hperm hfinal, ?_⟩
  · rw [wzInitReactors_eq_ok hpass₁, hdone₁]
    exact ⟨rs, hrs, s₂, hpass₂, hrs'⟩
  · have harrays := (hrange₁.append hrange₂).nodup
    rw [← List.flatMap_append] at harrays
    exact (hfinal.flatMap_right _).nodup_iff.1 harrays

theorem ReactorsRight.length_eq {rs : List ReactorInfo} (h : ReactorsRight files rs) :
    rs.length = files.length := by
  obtain ⟨l, hperm, hrecords⟩ := h.records
  rw [← hperm.length_eq, hrecords.length_eq]

/-- Without a link, the second pass writes beyond the records. -/
theorem wzInitReactors_unlinked (hdir : IsReactorDirectory files) (hne : files ≠ [])
    (hlinks : ∀ file ∈ files, Xml.Unlinked file.document) {rs : List ReactorInfo} :
    wzInitReactors mem mph files ≠ .ok rs := by
  intro hok
  obtain ⟨s₁, rs₁, hpass, hs₁, hcapacity, hdone, hown, -⟩ := firstPass_ok mem
    (initial_waiting files.length) (initial_room files) hdir.good fun file hfile h => absurd (hlinks file hfile) h
  obtain ⟨done, hordered, s₂, hpass₂, -⟩ := (wzInitReactors_eq_ok hpass).1 hok
  have hall : unlinkedFiles files = files := List.filter_eq_self.2 fun file hfile =>
    decide_eq_true (hlinks file hfile)
  rw [initial_done, List.nil_append] at hdone
  have hlength := hown.length_eq
  rw [hall] at hlength
  -- As many records as documents, so that there is no place for another one.
  have hfull : (s₁.ordered done).infos.done.length = (s₁.ordered done).infos.capacity := by
    change done.length = s₁.infos.capacity
    rw [(hashOrder_perm hordered).length_eq, hcapacity, hdone, ← hlength]
    rfl
  obtain ⟨file, rest, rfl⟩ := List.exists_cons_of_ne_nil hne
  obtain ⟨e, he⟩ := secondPass_full mem (mph (s₁.infos.done.map ReactorInfo.id)) (file :: rest).length rest
    (s := s₁.ordered done) ⟨hs₁.skip, hs₁.head, hs₁.parsing⟩ hfull
    (hdir.good file List.mem_cons_self)
  rw [he] at hpass₂
  cases hpass₂

/-- After a link with an end tag, there are fewer records than documents. -/
theorem wzInitReactors_broken (hdir : IsReactorDirectory files)
    (hbroken : ∃ file ∈ files, ¬Xml.Unlinked file.document ∧ file.linkEmpty = false) {rs : List ReactorInfo}
    (hok : wzInitReactors mem mph files = .ok rs) : rs.length < files.length := by
  obtain ⟨s₁, hpass, hskip, hrunning, hlt⟩ := firstPass_broken mem (initial_waiting files.length)
    (initial_room files) hdir.good hbroken
  obtain ⟨done, hordered, s₂, hpass₂, hordered₂⟩ := (wzInitReactors_eq_ok hpass).1 hok
  -- The second pass skips all documents.
  have hs₂ : s₁.ordered done = s₂ := by
    rw [secondPass_skips (s := s₁.ordered done) hskip hrunning] at hpass₂
    exact Except.ok.inj hpass₂
  subst hs₂
  calc rs.length = done.length := (hashOrder_perm hordered₂).length_eq
    _ = s₁.infos.done.length := (hashOrder_perm hordered).length_eq
    _ < (initial mem files.length).infos.done.length + files.length := hlt
    _ = files.length := Nat.zero_add _

/-- Without documents there are no records. -/
theorem wzInitReactors_nil : wzInitReactors mem mph [] = .ok [] :=
  rfl

/-- The records are right if and only if there are no documents, or one of them has a link, and each link is written
    as one tag. -/
theorem wzInitReactors_iff (hmph : IsPerfect mph) (hdir : IsReactorDirectory files) :
    (∃ rs, wzInitReactors mem mph files = .ok rs ∧ ReactorsRight files rs) ↔
      files = [] ∨ (∃ file ∈ files, ¬Xml.Unlinked file.document) ∧
        ∀ file ∈ files, ¬Xml.Unlinked file.document → file.linkEmpty = true := by
  constructor
  · rintro ⟨rs, hok, hright⟩
    rw [or_iff_not_imp_left]
    intro hne
    constructor
    · by_contra hlinks
      push Not at hlinks
      exact wzInitReactors_unlinked hdir hne hlinks hok
    · intro file hfile hlink
      by_contra hempty
      rw [Bool.not_eq_true] at hempty
      exact (wzInitReactors_broken hdir ⟨file, hfile, hlink, hempty⟩ hok).ne hright.length_eq
  · rintro (rfl | ⟨hlinked, hempty⟩)
    · exact ⟨[], wzInitReactors_nil, ⟨[], .nil, .nil⟩, List.nodup_nil⟩
    · exact wzInitReactors_right hmph hdir hlinked hempty

/-! ## A box -/

/-- A section of a document. -/
def Xml.imgdir (name : String) (cs : List Xml) : Xml := .node ⟨"imgdir", [("name", name)]⟩ cs

/-- A value. -/
def Xml.given (type name value : String) : Xml := .node ⟨type, [("name", name), ("value", value)]⟩ []

theorem Xml.isValue_given (type name value : String) : Xml.IsValue (.given type name value) :=
  ⟨name, value, rfl, rfl⟩

/-- An event of a state. -/
def hitEvent : Xml := .imgdir "0" [.given "int" "type" "0", .given "int" "state" "1"]

/-- A box that opens when it is hit. -/
def boxReactor : Xml := .imgdir "0002000.img" [.imgdir "info" [], .imgdir "0" [.imgdir "event" [hitEvent]]]

/-- Another one, linked to it. -/
def boxLink : Xml := .imgdir "0002001.img" [.imgdir "info" [.given "string" "link" "0002000"]]

theorem isReactorEvent_hitEvent : Xml.IsReactorEvent hitEvent where
  values := by
    simp only [hitEvent, Xml.imgdir, Element.children, List.forall_mem_cons]
    exact ⟨fun _ => Xml.isValue_given .., fun _ => Xml.isValue_given .., by simp⟩
  named := by
    simp only [hitEvent, Xml.imgdir, Element.children, List.forall_mem_cons]
    exact ⟨fun h => absurd h (by decide), fun h => absurd h (by decide), by simp⟩
  skills c hc h := by
    simp only [hitEvent, Xml.imgdir, Element.children, List.mem_cons, List.not_mem_nil, or_false] at hc
    rcases hc with rfl | rfl
    · exact absurd h (by decide)
    · exact absurd h (by decide)
  once := by decide
  typed := ⟨0, by decide, by decide⟩
  either := by decide

theorem isReactor_boxReactor : Xml.IsReactor boxReactor where
  imgdir := rfl
  named := by decide
  sections := by decide
  action := by
    simp only [boxReactor, Xml.imgdir, Element.children, List.forall_mem_cons]
    exact ⟨fun h => absurd h (by decide), fun h => absurd h (by decide), by simp⟩
  once := by decide
  info c hc _ := by
    simp only [boxReactor, Xml.imgdir, Element.children, List.mem_cons, List.not_mem_nil, or_false] at hc
    rcases hc with rfl | rfl
    · exact ⟨by rintro _ ⟨⟩, .nil⟩
    · refine ⟨?_, List.pairwise_singleton ..⟩
      intro x hx
      obtain rfl := List.mem_singleton.1 hx
      exact fun h => absurd h (by decide)
  states c hc h := by
    simp only [boxReactor, Xml.imgdir, Element.children, List.mem_cons, List.not_mem_nil, or_false] at hc
    rcases hc with rfl | rfl
    · exact absurd rfl h.2
    · refine ⟨?_, ?_, List.pairwise_singleton ..⟩
      · intro x hx _
        obtain rfl := List.mem_singleton.1 hx
        exact ⟨"event", rfl⟩
      · intro x hx _ y hy _
        obtain rfl := List.mem_singleton.1 hx
        obtain rfl := List.mem_singleton.1 hy
        exact isReactorEvent_hitEvent

theorem isReactor_boxLink : Xml.IsReactor boxLink where
  imgdir := rfl
  named := by decide
  sections := by decide
  action := by
    simp only [boxLink, Xml.imgdir, Element.children, List.forall_mem_cons]
    exact ⟨fun h => absurd h (by decide), by simp⟩
  once := by decide
  info c hc _ := by
    obtain rfl := List.mem_singleton.1 hc
    refine ⟨?_, List.pairwise_singleton ..⟩
    intro x hx _
    obtain rfl := List.mem_singleton.1 hx
    exact Xml.isValue_given ..
  states c hc h := by
    obtain rfl := List.mem_singleton.1 hc
    exact absurd rfl h.2

theorem good_boxReactor : ReactorFile.Good ⟨boxReactor, true⟩ :=
  ⟨isReactor_boxReactor, fun _ => by decide⟩

/-- The directory with the box and its link. -/
def boxes : List ReactorFile := [⟨boxReactor, true⟩, ⟨boxLink, true⟩]

theorem isReactorDirectory_boxes : IsReactorDirectory boxes where
  good file hfile := by
    simp only [boxes, List.mem_cons, List.not_mem_nil, or_false] at hfile
    rcases hfile with rfl | rfl
    · exact good_boxReactor
    · exact ⟨isReactor_boxLink, fun _ => by decide⟩
  ids := by decide
  target file hfile id hlink := by
    simp only [boxes, List.mem_cons, List.not_mem_nil, or_false] at hfile
    refine ⟨⟨boxReactor, true⟩, List.mem_cons_self, by decide, ?_⟩
    rcases hfile with rfl | rfl
    · exact absurd hlink (Xml.Unlinked.not_linksTo (by decide))
    · obtain ⟨c, hc, -, x, hx, -, rfl⟩ := hlink
      obtain rfl := List.mem_singleton.1 hc
      obtain rfl := List.mem_singleton.1 hx
      decide

theorem isPerfect_idxOf : IsPerfect fun ids id => ids.idxOf id := by
  intro ids hids
  refine ⟨?_, fun id hid => List.idxOf_lt_length_of_mem hid⟩
  rw [List.nodup_map_iff_inj_on hids]
  intro x hx y hy h
  exact List.idxOf_inj hx |>.1 h

/-- What has not been written to is zero. -/
def zeroReactors : ReactorMemory := ⟨fun _ _ => ⟨0, 0, 0, 0, none⟩, fun _ => ⟨0, ⟨0, 0, [], .empty⟩, ""⟩⟩

theorem wzInitReactors_boxes :
    ∃ rs, wzInitReactors zeroReactors (fun ids id => ids.idxOf id) boxes = .ok rs ∧ ReactorsRight boxes rs :=
  (wzInitReactors_iff isPerfect_idxOf isReactorDirectory_boxes).2 (.inr (by decide))

theorem isReactorDirectory_box : IsReactorDirectory [⟨boxReactor, true⟩] where
  good file hfile := by
    obtain rfl := List.mem_singleton.1 hfile
    exact good_boxReactor
  ids := List.nodup_singleton _
  target file hfile id hlink := by
    obtain rfl := List.mem_singleton.1 hfile
    exact absurd hlink (Xml.Unlinked.not_linksTo (by decide))

/-- A box alone is not loaded: the second pass writes to a record after it. -/
theorem wzInitReactors_box : ¬∀ (mem : ReactorMemory) (mph : List UInt32 → UInt32 → ℕ) (files : List ReactorFile),
    IsPerfect mph → IsReactorDirectory files →
      ∃ rs, wzInitReactors mem mph files = .ok rs ∧ ReactorsRight files rs := by
  intro h
  obtain ⟨rs, hrs, -⟩ := h zeroReactors (fun ids id => ids.idxOf id) [⟨boxReactor, true⟩] isPerfect_idxOf
    isReactorDirectory_box
  have hbeyond : wzInitReactors zeroReactors (fun ids id => ids.idxOf id) [⟨boxReactor, true⟩] =
    .error .outOfBounds := by
    rfl
  rw [hbeyond] at hrs
  cases hrs

end Syrup
