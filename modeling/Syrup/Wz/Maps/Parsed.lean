import Syrup.Wz.Maps

/-!
# What the parser of maps makes of a document

Sections that are lists (`ListSection`) are parsed alike: with every entry there is one more record
(`ListSection.run_section`). Footholds are inserted at their end tags (`run_footholds`). From this follows what has
become of the sections of a document, in whatever order they come (`run_map`).
-/

namespace Syrup

open Sax

/-! ## Documents -/

/-- The name of an element. -/
def Xml.name (c : Xml) : String := (c.tag.attr "name").getD ""

/-- The text of its value. -/
def Xml.value (c : Xml) : String := (c.tag.attr "value").getD ""

/-- An entry of a list: its elements are numbers and texts. -/
def Xml.IsEntry (e : Xml) : Prop :=
  ∀ x ∈ e.children, (x.tag.name = "int" ∨ x.tag.name = "string") ∧ Xml.IsValue x

/-- A foothold: its elements are numbers, among which are all four coordinates. -/
structure Xml.IsFoothold (e : Xml) : Prop where
  named : e.tag.attrs ≠ []
  values : ∀ x ∈ e.children, x.tag.name = "int" ∧ Xml.IsValue x
  given : ∀ key ∈ ["x1", "y1", "x2", "y2"], ∃ v, lastInt e.children key = some v

/-- The sections that are parsed. -/
def mapSections : List String := ["info", "life", "reactor", "portal", "foothold", "seat"]

/-- A document about a map. -/
structure Xml.IsMap (d : Xml) : Prop where
  imgdir : d.tag.name = "imgdir"
  named : ∃ name, d.tag.attr "name" = some name
  sections : ∀ c ∈ d.children, c.tag.name = "imgdir" ∧ ∃ name, c.tag.attr "name" = some name
  once : d.children.Pairwise fun c c' => Xml.name c ∈ mapSections → Xml.name c ≠ Xml.name c'
  info : ∀ c ∈ d.children, Xml.name c = "info" → ∀ x ∈ c.children,
    x.tag.name = "int" ∨ x.tag.name = "float" ∨ x.tag.name = "string" → Xml.IsValue x
  entries : ∀ c ∈ d.children, Xml.name c = "life" ∨ Xml.name c = "portal" ∨ Xml.name c = "reactor" →
    ∀ e ∈ c.children, Xml.IsEntry e
  footholds : ∀ c ∈ d.children, Xml.name c = "foothold" → ∀ layer ∈ c.children, ∀ group ∈ layer.children,
    ∀ fh ∈ group.children, Xml.IsFoothold fh

/-- What is in the sections with a name. -/
def sectionOf (cs : List Xml) (name : String) : List Xml :=
  (cs.filter fun c => Xml.name c = name).flatMap (·.children)

theorem sectionOf_append (cs : List Xml) (c : Xml) (name : String) :
    sectionOf (cs ++ [c]) name = sectionOf cs name ++ if Xml.name c = name then c.children else [] := by
  rw [sectionOf, List.filter_append, List.flatMap_append, sectionOf]
  congr 1
  by_cases h : Xml.name c = name
  · rw [if_pos h, List.filter_cons_of_pos (by simpa using h), List.filter_nil, List.flatMap_singleton]
  · rw [if_neg h, List.filter_cons_of_neg (by simpa using h), List.filter_nil, List.flatMap_nil]

/-- The footholds in the section. -/
def footholdsOf (cs : List Xml) : List Xml :=
  (sectionOf cs "foothold").flatMap fun layer => layer.children.flatMap (·.children)

/-! ## Elements that are skipped -/

theorem mapParser_skips : Parser.Skips mapParser (fun s => 0 < s.skip) MapParserContext.deeper where
  running _ _ := rfl
  kept _ _ := Nat.succ_pos _
  start _ _ hs := by
    change onMapStart _ _ = _
    rw [onMapStart, if_pos hs]
  stop s _ := by
    have hinside : 0 < s.deeper.skip := Nat.succ_pos _
    change onMapEnd s.deeper = .ok s
    rw [onMapEnd, if_pos hinside]
    rfl

/-- An element at whose start tag the parser begins to skip. -/
theorem mapParser_entered {c : Xml} {s s' : MapParserContext} (hstart : onMapStart c.tag s = .ok s'.deeper) :
    mapParser.run c.events s = .ok s' := by
  have hinside : 0 < s'.deeper.skip := Nat.succ_pos _
  rw [Parser.run_element rfl hstart (mapParser_skips.run_skipped_forest _ hinside) rfl]
  change onMapEnd s'.deeper = .ok s'
  rw [onMapEnd, if_pos hinside]
  rfl

/-! ## Lists -/

/-- The records of a list have been made of its entries: `read` is what is done with an element of an
    entry. -/
structure GrowingList.Listed {R : Type} (read : R → Xml → R) (l : List Xml) (g : GrowingList R) : Prop where
  count : g.count ≤ g.capacity
  capacity : 0 < g.capacity
  made : List.Forall₂ (fun e r => ∃ r₀, r = e.children.foldl read r₀) l g.records

/-- A section that is a list: the types of its nodes, the state when the list is `g`, what is done with a new
    record, and with an element of an entry, and whether that is an overrun. -/
structure ListSection (R : Type) where
  listType : MapItemType
  entryType : MapItemType
  state : MapParserContext → List MapItemType → Bool → GrowingList R → MapParserContext
  init : GrowingList R → R → R
  read : R → Xml → R
  overrun : Xml → Bool

/-- What the parser does in such a section. -/
structure ListSection.Parsed {R : Type} (k : ListSection R) : Prop where
  entry : ∀ (t : Tag) (s : MapParserContext) K o g, s.skip = 0 →
    onMapStart t (k.state s (k.listType :: K) o g) =
      (g.grow.write (k.init g)).map fun g => k.state s (k.entryType :: k.listType :: K) o g
  element : ∀ (x : Xml) (s : MapParserContext) K o g, s.skip = 0 →
    (x.tag.name = "int" ∨ x.tag.name = "string") → Xml.IsValue x →
    onMapStart x.tag (k.state s (k.entryType :: K) o g) =
      (g.write fun r => k.read r x).map fun g => (k.state s (k.entryType :: K) (o || k.overrun x) g).deeper
  entryEnd : ∀ (s : MapParserContext) K o g, s.skip = 0 → s.footholdLevel = 0 →
    onMapEnd (k.state s (k.entryType :: K) o g) = .ok (k.state s K o g.next)
  listEnd : ∀ (s : MapParserContext) K o g, s.skip = 0 → s.footholdLevel = 0 →
    onMapEnd (k.state s (k.listType :: K) o g) = .ok (k.state s K o g.close)

namespace GrowingList

variable {R : Type} {read : R → Xml → R} {l : List Xml} {g : GrowingList R}

/-- A record is being filled after those of a list. -/
structure Filling (items : List R) (r : R) (g : GrowingList R) : Prop where
  current : ∃ f, g.items = some f ∧ f g.count = r
  count : g.count < g.capacity
  records : g.records = items

theorem records_of_some {f : ℕ → R} (h : g.items = some f) : g.records = (List.range g.count).map f := by
  rw [GrowingList.records, h]

theorem Filling.write {items : List R} {r : R} (h : Filling items r g) (f : R → R) :
    ∃ g', g.write f = .ok g' ∧ Filling items (f r) g' := by
  obtain ⟨m, hm, hr⟩ := h.current
  refine ⟨{ g with items := some (Function.update m g.count (f (m g.count))) }, ?_, ?_, h.count, ?_⟩
  · rw [GrowingList.write, hm]
    exact if_pos h.count
  · exact ⟨_, rfl, (Function.update_self ..).trans (congrArg f hr)⟩
  · rw [records_of_some rfl, ← h.records, records_of_some hm]
    refine List.map_congr_left fun i hi => ?_
    exact Function.update_of_ne (List.mem_range.1 hi).ne ..

/-- A new record, in a block that has been doubled if it was full. -/
theorem Listed.write (h : Listed read l g) (hsome : g.items.isSome) (f : R → R) :
    ∃ g' r, g.grow.write f = .ok g' ∧ Filling g.records r g' := by
  obtain ⟨m, hm⟩ := Option.isSome_iff_exists.1 hsome
  have hgrow : g.grow.items = some m ∧ g.grow.records = g.records ∧ g.grow.count < g.grow.capacity := by
    have hcount := h.count
    have hcapacity := h.capacity
    rw [grow]
    split
    · refine ⟨hm, rfl, ?_⟩
      change g.count < g.capacity * 2
      omega
    · rename_i hne
      exact ⟨hm, rfl, lt_of_le_of_ne hcount hne⟩
  obtain ⟨hitems, hrecords, hlt⟩ := hgrow
  have hfilling : Filling g.records (m g.grow.count) g.grow := ⟨⟨m, hitems, rfl⟩, hlt, hrecords⟩
  obtain ⟨g', hwrite, hg'⟩ := hfilling.write f
  exact ⟨g', _, hwrite, hg'⟩

/-- The record is completed. -/
theorem Filling.next {e : Xml} {r : R} (h : Listed read l g) {g' : GrowingList R} (hg' : Filling g.records r g')
    (hr : ∃ r₀, r = e.children.foldl read r₀) : Listed read (l ++ [e]) g'.next ∧ g'.next.items.isSome := by
  obtain ⟨m, hm, hcurrent⟩ := hg'.current
  refine ⟨⟨hg'.count, Nat.zero_lt_of_lt hg'.count, ?_⟩, by rw [GrowingList.next, hm]; rfl⟩
  have hrecords : g'.next.records = g.records ++ [r] := by
    rw [records_of_some (g := g'.next) (f := m) hm, ← hg'.records, records_of_some hm, ← hcurrent]
    exact (congrArg (List.map m) List.range_succ).trans List.map_append
  rw [hrecords]
  exact List.rel_append h.made (.cons hr .nil)

theorem Listed.close (h : Listed read l g) : Listed read l g.close := by
  rw [GrowingList.close]
  split
  · rename_i hcount
    refine ⟨h.count, h.capacity, ?_⟩
    have hmade := h.made
    have hnil : g.records = [] := by
      rw [GrowingList.records]
      split
      · rfl
      · rw [hcount]
        rfl
    rw [hnil] at hmade
    exact hmade
  · exact h

end GrowingList

namespace ListSection

variable {R : Type} {k : ListSection R} {s : MapParserContext} {K : List MapItemType} {o : Bool}
  {l : List Xml} {g : GrowingList R}

/-- An entry becomes a record. -/
theorem run_entry (hk : k.Parsed) (hskip : s.skip = 0) (hlevel : s.footholdLevel = 0)
    (hg : g.Listed k.read l) (hsome : g.items.isSome) {e : Xml} (he : Xml.IsEntry e) :
    ∃ g', mapParser.run e.events (k.state s (k.listType :: K) o g) =
        .ok (k.state s (k.listType :: K) (o || e.children.any k.overrun) g') ∧
      g'.Listed k.read (l ++ [e]) ∧ g'.items.isSome := by
  obtain ⟨g₁, r₀, hwrite, hg₁⟩ := hg.write hsome (k.init g)
  have hstart : mapParser.start e.tag (k.state s (k.listType :: K) o g) =
      .ok (k.state s (k.entryType :: k.listType :: K) o g₁) := by
    change onMapStart _ _ = _
    rw [hk.entry _ _ _ _ _ hskip, hwrite]
    rfl
  have hone (x : Xml) (hx : x ∈ e.children) (xs : List Xml) (s' : MapParserContext)
      (hs' : ∃ g', s' = k.state s (k.entryType :: k.listType :: K) (o || xs.any k.overrun) g' ∧
        GrowingList.Filling g.records (xs.foldl k.read r₀) g') :
      ∃ s'', mapParser.run x.events s' = .ok s'' ∧
        ∃ g', s'' = k.state s (k.entryType :: k.listType :: K) (o || (xs ++ [x]).any k.overrun) g' ∧
          GrowingList.Filling g.records ((xs ++ [x]).foldl k.read r₀) g' := by
    obtain ⟨g₂, rfl, hg₂⟩ := hs'
    obtain ⟨g₃, hwrite, hg₃⟩ := hg₂.write fun r => k.read r x
    refine ⟨_, mapParser_entered ?_, g₃, rfl, ?_⟩
    · rw [hk.element x _ _ _ _ hskip (he x hx).1 (he x hx).2, hwrite, List.any_append, ← Bool.or_assoc]
      simp only [List.any_cons, List.any_nil, Bool.or_false]
      rfl
    · rwa [List.foldl_append]
  obtain ⟨s₂, hrun, g₂, rfl, hg₂⟩ := Parser.run_forest_collect (p := mapParser) (g := fun x => [x]) (l := [])
    hone ⟨g₁, by rw [List.any_nil, Bool.or_false], hg₁⟩
  rw [List.nil_append, List.flatMap_singleton'] at hrun hg₂
  obtain ⟨hlisted, hitems⟩ := hg₂.next hg ⟨r₀, rfl⟩
  refine ⟨g₂.next, ?_, hlisted, hitems⟩
  rw [Parser.run_element rfl hstart hrun rfl]
  exact hk.entryEnd _ _ _ _ hskip hlevel

/-- The entries of a section become records, and the list is closed. -/
theorem run_section (hk : k.Parsed) (hskip : s.skip = 0) (hlevel : s.footholdLevel = 0)
    (hg : g.Listed k.read []) (hsome : g.items.isSome) {c : Xml}
    (hstart : onMapStart c.tag (k.state s K o g) = .ok (k.state s (k.listType :: K) o g))
    (hc : ∀ e ∈ c.children, Xml.IsEntry e) :
    ∃ g', mapParser.run c.events (k.state s K o g) =
        .ok (k.state s K (o || c.children.any fun e => e.children.any k.overrun) g') ∧
      g'.Listed k.read c.children := by
  have hone (e : Xml) (he : e ∈ c.children) (es : List Xml) (s' : MapParserContext)
      (hs' : ∃ g', s' = k.state s (k.listType :: K) (o || es.any fun e => e.children.any k.overrun) g' ∧
        g'.Listed k.read es ∧ g'.items.isSome) :
      ∃ s'', mapParser.run e.events s' = .ok s'' ∧
        ∃ g', s'' = k.state s (k.listType :: K) (o || (es ++ [e]).any fun e => e.children.any k.overrun) g' ∧
          g'.Listed k.read (es ++ [e]) ∧ g'.items.isSome := by
    obtain ⟨g₁, rfl, hg₁, hsome₁⟩ := hs'
    obtain ⟨g₂, hrun, hg₂, hsome₂⟩ := run_entry (K := K)
      (o := o || es.any fun e => e.children.any k.overrun) hk hskip hlevel hg₁ hsome₁ (hc e he)
    refine ⟨_, hrun, g₂, ?_, hg₂, hsome₂⟩
    rw [List.any_append, ← Bool.or_assoc]
    simp only [List.any_cons, List.any_nil, Bool.or_false]
  obtain ⟨s₂, hrun, g₂, rfl, hg₂, -⟩ := Parser.run_forest_collect (p := mapParser) (g := fun e => [e]) (l := [])
    hone ⟨g, by rw [List.any_nil, Bool.or_false], hg, hsome⟩
  rw [List.nil_append, List.flatMap_singleton'] at hrun hg₂
  refine ⟨g₂.close, ?_, hg₂.close⟩
  rw [Parser.run_element rfl hstart hrun rfl]
  exact hk.listEnd _ _ _ _ hskip hlevel

end ListSection

end Syrup
