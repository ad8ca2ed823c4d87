import Syrup.Wz.Items

/-!
# What the parsers of items make of documents

A state of the parsers is between records (`Between`), or a record is being filled (`Filling`). From the first
tag of a document to the last one the parser goes through such states, and the records there are become one
more with every item.
-/

namespace Syrup

open Sax

variable {D : Type}

/-! ## Documents -/

/-- The elements of a section `info`: the numbers have a name and a value. -/
def Xml.IsInfo (c : Xml) : Prop :=
  ∀ x ∈ c.children, x.tag.name = "int" ∨ x.tag.name = "double" → Xml.IsValue x

/-- The directory of an item. -/
structure Xml.IsItem (e : Xml) : Prop where
  imgdir : e.tag.name = "imgdir"
  named : e.tag.attrs ≠ []
  sections : ∀ c ∈ e.children, c.tag.name = "imgdir" → c.tag.attrs ≠ []
  info : ∀ c ∈ e.children, c.tag.name = "imgdir" → c.tag.id = "info" → Xml.IsInfo c

/-- A document with items. -/
structure Xml.HasItems (d : Xml) : Prop where
  imgdir : d.tag.name = "imgdir"
  items : ∀ e ∈ d.children, Xml.IsItem e

/-- A document about a piece of equipment. The elements up to the section `info` have names. -/
structure Xml.IsEquip (d : Xml) : Prop where
  imgdir : d.tag.name = "imgdir"
  named : d.tag.attrs ≠ []
  info : ∃ before info after, d.children = before ++ info :: after ∧
    (∀ c ∈ before, c.tag.attrs ≠ [] ∧ c.tag.id ≠ "info") ∧ info.tag.attrs ≠ [] ∧ info.tag.id = "info" ∧
    Xml.IsInfo info

/-- The elements of the section `info` of an item. -/
def Xml.itemInfo (e : Xml) : List Xml :=
  e.children.flatMap fun c => if c.tag.name = "imgdir" ∧ c.tag.id = "info" then c.children else []

/-- The elements of the section `info` of a piece of equipment. -/
def Xml.equipInfo (d : Xml) : List Xml :=
  match d.children.find? fun c => c.tag.id = "info" with
  | some c => c.children
  | none => []

/-! ## States -/

namespace ItemParserContext

/-- The parser is between records, and those in `done` are there. -/
structure Between (head : List ItemItemType) (head2 : List EquipItemItemType) (done : List (ItemRecord D))
    (s : ItemParserContext D) : Prop where
  head_eq : s.head = head
  head2_eq : s.head2 = head2
  skip : s.skip = 0
  stopped : s.stopped = false
  records : s.records = done
  count : s.count ≤ s.itemCapacity
  capacity : 0 < s.itemCapacity

/-- The record after those in `done` is being filled, and is `r` so far. -/
structure Filling (head : List ItemItemType) (head2 : List EquipItemItemType) (done : List (ItemRecord D))
    (r : ItemRecord D) (s : ItemParserContext D) : Prop where
  head_eq : s.head = head
  head2_eq : s.head2 = head2
  skip : s.skip = 0
  stopped : s.stopped = false
  records : s.records = done
  count : s.count < s.itemCapacity
  current : s.infos s.count = r

variable {head head' : List ItemItemType} {head2 head2' : List EquipItemItemType}
  {done : List (ItemRecord D)} {r : ItemRecord D} {s : ItemParserContext D}

theorem records_update (s : ItemParserContext D) (r : ItemRecord D) :
    (List.range s.count).map (Function.update s.infos s.count r) = s.records := by
  refine List.map_congr_left fun i hi => ?_
  exact Function.update_of_ne (List.mem_range.1 hi).ne ..

/-- What is written to the record. -/
theorem Filling.write (h : Filling head head2 done r s) (f : ItemRecord D → ItemRecord D) :
    ∃ s', s.write f = .ok s' ∧ s.deeper.write f = .ok s'.deeper ∧ Filling head head2 done (f r) s' := by
  refine ⟨_, if_pos h.count, if_pos h.count, h.head_eq, h.head2_eq, h.skip, h.stopped, ?_, h.count, ?_⟩
  · exact (records_update s _).trans h.records
  · exact (Function.update_self ..).trans (congrArg f h.current)

/-- A new record, in a block that has been doubled if it was full. -/
theorem Between.write (h : Between head head2 done s) (r : ItemRecord D) :
    ∃ s', s.grow.write (fun _ => r) = .ok s' ∧ Filling head head2 done r s' := by
  have hgrow : s.grow.count < s.grow.itemCapacity := by
    have hcount := h.count
    have hcapacity := h.capacity
    rw [grow]
    split
    · change s.count < s.itemCapacity * 2
      omega
    · exact lt_of_le_of_ne hcount (by assumption)
  have hsame : s.grow.head = s.head ∧ s.grow.head2 = s.head2 ∧ s.grow.skip = s.skip ∧
      s.grow.stopped = s.stopped ∧ s.grow.records = s.records := by
    rw [grow]
    split <;> exact ⟨rfl, rfl, rfl, rfl, rfl⟩
  obtain ⟨hhead, hhead2, hskip, hstopped, hrecords⟩ := hsame
  refine ⟨_, if_pos hgrow, hhead.trans h.head_eq, hhead2.trans h.head2_eq, hskip.trans h.skip,
    hstopped.trans h.stopped, ?_, hgrow, Function.update_self ..⟩
  exact (records_update s.grow _).trans (hrecords.trans h.records)

/-- The record is complete. -/
theorem Filling.count_records (h : Filling head head2 done r s) :
    (List.range (s.count + 1)).map s.infos = done ++ [r] := by
  rw [List.range_succ, List.map_append, List.map_singleton, h.current, ← h.records, ItemParserContext.records]

end ItemParserContext

open ItemParserContext

/-! ## Elements that are skipped -/

/-- A parser that counts how deep it is. -/
theorem skips_deeper {p : Parser Tag (ItemParserContext D) Fault} (hstopped : p.stopped = (·.stopped))
    (hstart : ∀ t s, 0 < s.skip → p.start t s = .ok s.deeper)
    (hstop : ∀ s, 0 < s.skip → p.stop s = .ok { s with skip := s.skip - 1 }) :
    Parser.Skips p (fun s => 0 < s.skip ∧ s.stopped = false) deeper where
  running s hs := by rw [hstopped]; exact hs.2
  kept s hs := ⟨Nat.succ_pos _, hs.2⟩
  start t s hs := hstart t s hs.1
  stop s _ := hstop s.deeper (Nat.succ_pos _)

theorem itemParser_skips (fl : Doubles D) :
    Parser.Skips (itemParser fl) (fun s => 0 < s.skip ∧ s.stopped = false) deeper :=
  skips_deeper rfl (fun _ _ h => if_pos h) fun _ h => if_pos h

theorem equipItemParser_skips (fl : Doubles D) :
    Parser.Skips (equipItemParser fl) (fun s => 0 < s.skip ∧ s.stopped = false) deeper :=
  skips_deeper rfl (fun _ _ h => if_pos h) fun _ h => if_pos h

/-- An element at whose start tag a parser begins to skip: afterwards the state is what it was made of, `s'`. -/
theorem run_entered {p : Parser Tag (ItemParserContext D) Fault}
    (hp : Parser.Skips p (fun s => 0 < s.skip ∧ s.stopped = false) deeper) (hstopped : p.stopped = (·.stopped))
    (hstop : ∀ s, 0 < s.skip → p.stop s = .ok { s with skip := s.skip - 1 }) (c : Xml)
    {s s' : ItemParserContext D} (hs : s.stopped = false) (hs' : s'.stopped = false)
    (hstart : p.start c.tag s = .ok s'.deeper) : p.run c.events s = .ok s' := by
  have hinside : (fun s : ItemParserContext D => 0 < s.skip ∧ s.stopped = false) s'.deeper :=
    ⟨Nat.succ_pos _, hs'⟩
  rw [Parser.run_element (by rw [hstopped]; exact hs) hstart (hp.run_skipped_forest _ hinside)
    (hp.running _ hinside)]
  exact hstop s'.deeper (Nat.succ_pos _)

/-! ## The section `info` -/

/-- What an element of the section says, if `set` is what is done with an `int`. -/
def ItemRecord.read (fl : Doubles D) (set : String → ℤ → ItemRecord D → ItemRecord D) (r : ItemRecord D)
    (c : Xml) : ItemRecord D :=
  let key := (c.tag.attr "name").getD ""
  let value := (c.tag.attr "value").getD ""
  if c.tag.name = "int" then set key (strtol value) r
  else if c.tag.name = "double" then r.setDouble fl key value
  else r

/-- What both parsers do at an element of the section. -/
def infoStart (fl : Doubles D) (set : String → ℤ → ItemRecord D → ItemRecord D) (t : Tag)
    (s : ItemParserContext D) : Exec (ItemParserContext D) :=
  if t.name = "int" then do
    let (key, value) ← t.keyValue
    s.deeper.write (set key (strtol value))
  else if t.name = "double" then do
    let (key, value) ← t.keyValue
    s.deeper.write (.setDouble fl key value)
  else .ok s.deeper

section Info

variable {fl : Doubles D} {set : String → ℤ → ItemRecord D → ItemRecord D} {head : List ItemItemType}
  {head2 : List EquipItemItemType} {done : List (ItemRecord D)} {r : ItemRecord D} {s : ItemParserContext D}

theorem infoStart_read (hs : Filling head head2 done r s) {c : Xml}
    (hc : c.tag.name = "int" ∨ c.tag.name = "double" → Xml.IsValue c) :
    ∃ s', infoStart fl set c.tag s = .ok s'.deeper ∧ Filling head head2 done (r.read fl set c) s' := by
  rw [infoStart, ItemRecord.read]
  by_cases hint : c.tag.name = "int"
  · obtain ⟨key, value, hkey, hvalue, hboth⟩ := (hc (.inl hint)).keyValue
    obtain ⟨s', -, hwrite, hs'⟩ := hs.write (set key (strtol value))
    refine ⟨s', ?_, ?_⟩
    · rw [if_pos hint, hboth]
      exact hwrite
    · rw [hkey, hvalue, if_pos hint]
      exact hs'
  · rw [if_neg hint, if_neg hint]
    by_cases hdouble : c.tag.name = "double"
    · obtain ⟨key, value, hkey, hvalue, hboth⟩ := (hc (.inr hdouble)).keyValue
      obtain ⟨s', -, hwrite, hs'⟩ := hs.write (.setDouble fl key value)
      refine ⟨s', ?_, ?_⟩
      · rw [if_pos hdouble, hboth]
        exact hwrite
      · rw [hkey, hvalue, if_pos hdouble]
        exact hs'
    · exact ⟨s, if_neg hdouble, by rwa [if_neg hdouble]⟩

variable (fl set) in
/-- The section is read element by element. -/
theorem run_info {p : Parser Tag (ItemParserContext D) Fault}
    (hp : Parser.Skips p (fun s => 0 < s.skip ∧ s.stopped = false) deeper) (hstopped : p.stopped = (·.stopped))
    (hstop : ∀ s, 0 < s.skip → p.stop s = .ok { s with skip := s.skip - 1 })
    (hstart : ∀ r t s, Filling head head2 done r s → p.start t s = infoStart fl set t s)
    (hs : Filling head head2 done r s) {cs : List Xml}
    (hcs : ∀ x ∈ cs, x.tag.name = "int" ∨ x.tag.name = "double" → Xml.IsValue x) :
    ∃ s', p.run (Element.forest cs) s = .ok s' ∧ Filling head head2 done (cs.foldl (·.read fl set) r) s' := by
  have hone (c : Xml) (hc : c ∈ cs) (l : List Xml) (s : ItemParserContext D)
      (hs : Filling head head2 done (l.foldl (·.read fl set) r) s) : ∃ s', p.run c.events s = .ok s' ∧
        Filling head head2 done ((l ++ [c]).foldl (·.read fl set) r) s' := by
    obtain ⟨s', hread, hs'⟩ := infoStart_read hs (hcs c hc)
    refine ⟨s', run_entered hp hstopped hstop c hs.stopped hs'.stopped ?_, ?_⟩
    · rw [hstart _ _ _ hs, hread]
    · rwa [List.foldl_append]
  obtain ⟨s', hrun, hs'⟩ := Parser.run_forest_collect (l := []) hone hs
  refine ⟨s', hrun, ?_⟩
  rwa [List.nil_append, List.flatMap_singleton'] at hs'

end Info

/-! ## Documents with items -/

section Items

variable {fl : Doubles D} {done : List (ItemRecord D)} {r : ItemRecord D} {s : ItemParserContext D}

/-- An element of the directory of an item: the section `info`, or one that is skipped. -/
theorem run_itemSection {head : List ItemItemType} (hs : Filling (.item :: head) [] done r s) {c : Xml}
    (hnamed : c.tag.name = "imgdir" → c.tag.attrs ≠ [])
    (hinfo : c.tag.name = "imgdir" → c.tag.id = "info" → Xml.IsInfo c) :
    ∃ s', (itemParser fl).run c.events s = .ok s' ∧ Filling (.item :: head) [] done
      ((if c.tag.name = "imgdir" ∧ c.tag.id = "info" then c.children else []).foldl (·.read fl .setInt) r) s' := by
  by_cases hc : c.tag.name = "imgdir" ∧ c.tag.id = "info"
  · obtain ⟨hname, hid⟩ := hc
    have hstart : onItemStart fl c.tag s = .ok { s with head := .info :: s.head } := by
      simp only [onItemStart, hs.skip, lt_irrefl, if_false, hs.head_eq, hname, if_true,
        Tag.first_eq (hnamed hname), Exec.ok_bind, hid]
    have hs₁ : Filling (.info :: .item :: head) [] done r { s with head := .info :: s.head } :=
      { hs with head_eq := by rw [hs.head_eq] }
    obtain ⟨s₂, hrun, hs₂⟩ := run_info fl .setInt (itemParser_skips fl) rfl
      (fun _ h => if_pos h)
      (fun r t s hs => by
        simp only [itemParser, onItemStart, hs.skip, lt_irrefl, if_false, hs.head_eq, infoStart])
      hs₁ (hinfo hname hid)
    refine ⟨{ s₂ with head := .item :: head }, ?_, ?_⟩
    · rw [Parser.run_element hs.stopped hstart hrun hs₂.stopped]
      simp only [itemParser, onItemEnd, hs₂.skip, lt_irrefl, if_false, hs₂.head_eq]
    · rw [if_pos ⟨hname, hid⟩]
      exact { hs₂ with head_eq := rfl }
  · rw [if_neg hc]
    refine ⟨s, run_entered (itemParser_skips fl) rfl (fun _ h => if_pos h) c hs.stopped hs.stopped ?_, hs⟩
    by_cases hname : c.tag.name = "imgdir"
    · have hid : c.tag.id ≠ "info" := fun h => hc ⟨hname, h⟩
      simp only [itemParser, onItemStart, hs.skip, lt_irrefl, if_false, hs.head_eq, hname, if_true,
        Tag.first_eq (hnamed hname), Exec.ok_bind, hid]
    · simp only [itemParser, onItemStart, hs.skip, lt_irrefl, if_false, hs.head_eq, hname]

/-- The record that is made of the directory of an item. -/
def itemRecord (fl : Doubles D) (e : Xml) : ItemRecord D :=
  (Xml.itemInfo e).foldl (·.read fl .setInt) (.initial fl e.tag.id)

/-- The directory of an item becomes a record. -/
theorem run_item {head : List ItemItemType} (hs : Between (.topLevel :: head) [] done s) {e : Xml}
    (he : Xml.IsItem e) : ∃ s', (itemParser fl).run e.events s = .ok s' ∧
      Between (.topLevel :: head) [] (done ++ [itemRecord fl e]) s' := by
  obtain ⟨s₁, hwrite, hs₁⟩ := hs.write (.initial fl e.tag.id)
  have hstart : onItemStart fl e.tag s = .ok { s₁ with head := .item :: s₁.head } := by
    simp only [onItemStart, hs.skip, lt_irrefl, if_false, hs.head_eq, he.imgdir,
      if_true, Tag.first_eq he.named, Exec.ok_bind, hwrite]
  have hs₂ : Filling (.item :: .topLevel :: head) [] done (.initial fl e.tag.id)
      { s₁ with head := .item :: s₁.head } := { hs₁ with head_eq := by rw [hs₁.head_eq] }
  have hone (c : Xml) (hc : c ∈ e.children) (l : List Xml) (s : ItemParserContext D)
      (hs : Filling (.item :: .topLevel :: head) [] done (l.foldl (·.read fl .setInt) (.initial fl e.tag.id)) s) :
      ∃ s', (itemParser fl).run c.events s = .ok s' ∧ Filling (.item :: .topLevel :: head) [] done
        ((l ++ if c.tag.name = "imgdir" ∧ c.tag.id = "info" then c.children else []).foldl
          (·.read fl .setInt) (.initial fl e.tag.id)) s' := by
    obtain ⟨s', hrun, hs'⟩ := run_itemSection hs (he.sections c hc) (he.info c hc)
    exact ⟨s', hrun, by rwa [List.foldl_append]⟩
  obtain ⟨s₃, hrun, hs₃⟩ := Parser.run_forest_collect (l := []) hone hs₂
  refine ⟨{ s₃ with head := .topLevel :: head, count := s₃.count + 1 }, ?_, ?_⟩
  · rw [Parser.run_element hs.stopped hstart hrun hs₃.stopped]
    simp only [itemParser, onItemEnd, hs₃.skip, lt_irrefl, if_false, hs₃.head_eq]
  · exact ⟨rfl, hs₃.head2_eq, hs₃.skip, hs₃.stopped, hs₃.count_records, hs₃.count,
      Nat.zero_lt_of_lt hs₃.count⟩

/-- A document with items becomes as many records. -/
theorem parseDocument_items (hs : Between [] [] done s) {d : Xml} (hd : Xml.HasItems d) :
    ∃ s', parseDocument (itemParser fl) s d = .ok s' ∧
      Between [] [] (done ++ d.children.map (itemRecord fl)) s' := by
  have hstart : onItemStart fl d.tag s = .ok { s with head := [.topLevel] } := by
    simp only [onItemStart, hs.skip, lt_irrefl, if_false, hs.head_eq, hd.imgdir, if_true]
  have hs₁ : Between [.topLevel] [] done { s with head := [.topLevel] } := { hs with head_eq := rfl }
  obtain ⟨s₂, hrun, hs₂⟩ := Parser.run_forest_collect (p := itemParser fl) (g := fun e => [itemRecord fl e])
    (I := fun l s => Between [.topLevel] [] l s) (fun e he l s hs => run_item hs (hd.items e he)) hs₁
  have hstop : (itemParser fl).stop s₂ = .ok { s₂ with head := [] } := by
    simp only [itemParser, onItemEnd, hs₂.skip, lt_irrefl, if_false, hs₂.head_eq]
  refine ⟨{ s₂ with head := [], stopped := false }, ?_, ?_⟩
  · rw [parseDocument, Parser.run_element hs.stopped hstart hrun hs₂.stopped, hstop]
    rfl
  · rw [← List.map_eq_flatMap] at hs₂
    exact { hs₂ with head_eq := rfl, stopped := rfl }

/-- Documents with items become all their records. -/
theorem parseDocuments_items (hs : Between [] [] done s) {docs : List Xml}
    (hdocs : ∀ d ∈ docs, Xml.HasItems d) : ∃ s', docs.foldlM (parseDocument (itemParser fl)) s = .ok s' ∧
      Between [] [] (done ++ docs.flatMap fun d => d.children.map (itemRecord fl)) s' := by
  induction docs generalizing done s with
  | nil => exact ⟨s, rfl, by rwa [List.flatMap_nil, List.append_nil]⟩
  | cons d docs ih =>
    obtain ⟨s₁, hrun, hs₁⟩ := parseDocument_items hs (hdocs d List.mem_cons_self)
    obtain ⟨s₂, hrun₂, hs₂⟩ := ih hs₁ fun d hd => hdocs d (List.mem_cons_of_mem _ hd)
    refine ⟨s₂, ?_, ?_⟩
    · rw [List.foldlM_cons, hrun]
      exact hrun₂
    · rwa [List.flatMap_cons, ← List.append_assoc]

end Items

/-! ## Documents about equipment -/

section Equips

variable {fl : Doubles D} {done : List (ItemRecord D)} {r : ItemRecord D} {s : ItemParserContext D}

/-- The record that is made of a document about a piece of equipment. -/
def equipRecord (fl : Doubles D) (d : Xml) : ItemRecord D :=
  (Xml.equipInfo d).foldl (·.read fl .setEquipInt) (.initial fl d.tag.id)

/-- The section `info` is read, and the parser stopped. -/
theorem run_equipInfo (hs : Filling [] [.topLevel] done r s) {c : Xml} (hnamed : c.tag.attrs ≠ [])
    (hid : c.tag.id = "info") (hinfo : Xml.IsInfo c) :
    ∃ s', (equipItemParser fl).run c.events s = .ok s' ∧ s'.stopped = true ∧
      Between [] [] (done ++ [c.children.foldl (·.read fl .setEquipInt) r]) { s' with stopped := false } := by
  have hstart : onEquipItemStart fl c.tag s = .ok { s with head2 := [.info, .topLevel] } := by
    simp only [onEquipItemStart, hs.skip, lt_irrefl, if_false, hs.head2_eq, Tag.first_eq hnamed, Exec.ok_bind,
      hid, if_true]
  have hs₁ : Filling [] [.info, .topLevel] done r { s with head2 := [.info, .topLevel] } :=
    { hs with head2_eq := rfl }
  obtain ⟨s₂, hrun, hs₂⟩ := run_info fl .setEquipInt (equipItemParser_skips fl) rfl
    (fun _ h => if_pos h)
    (fun r t s hs => by
      simp only [equipItemParser, onEquipItemStart, hs.skip, lt_irrefl, if_false, hs.head2_eq, infoStart])
    hs₁ hinfo
  refine ⟨{ s₂ with head2 := [], stopped := true, count := s₂.count + 1 }, ?_, rfl, ?_⟩
  · rw [Parser.run_element hs.stopped hstart hrun hs₂.stopped]
    simp only [equipItemParser, onEquipItemEnd, hs₂.skip, lt_irrefl, if_false, hs₂.head2_eq]
  · exact ⟨hs₂.head_eq, rfl, hs₂.skip, rfl, hs₂.count_records, hs₂.count, Nat.zero_lt_of_lt hs₂.count⟩

/-- The elements before it are skipped. -/
theorem run_equipSection (hs : Filling [] [.topLevel] done r s) {c : Xml} (hnamed : c.tag.attrs ≠ [])
    (hid : c.tag.id ≠ "info") : (equipItemParser fl).run c.events s = .ok s := by
  refine run_entered (equipItemParser_skips fl) rfl (fun _ h => if_pos h) c hs.stopped hs.stopped ?_
  simp only [equipItemParser, onEquipItemStart, hs.skip, lt_irrefl, if_false, hs.head2_eq, Tag.first_eq hnamed,
    Exec.ok_bind, hid]

/-- A document about a piece of equipment becomes a record. -/
theorem parseDocument_equip (hs : Between [] [] done s) {d : Xml} (hd : Xml.IsEquip d) :
    ∃ s', parseDocument (equipItemParser fl) s d = .ok s' ∧ Between [] [] (done ++ [equipRecord fl d]) s' := by
  obtain ⟨before, info, after, hchildren, hbefore, hnamed, hid, hinfo⟩ := hd.info
  obtain ⟨s₁, hwrite, hs₁⟩ := hs.write (.initial fl d.tag.id)
  have hstart : onEquipItemStart fl d.tag s = .ok { s₁ with head2 := [.topLevel] } := by
    simp only [onEquipItemStart, hs.skip, lt_irrefl, if_false, hs.head2_eq, Tag.first_eq hd.named, Exec.ok_bind,
      hwrite, hd.imgdir, if_true]
  have hs₂ : Filling [] [.topLevel] done (.initial fl d.tag.id) { s₁ with head2 := [.topLevel] } :=
    { hs₁ with head2_eq := rfl }
  obtain ⟨hskip, -⟩ := Parser.run_forest (p := equipItemParser fl) (f := fun s _ => s)
    (I := Filling [] [.topLevel] done (.initial fl d.tag.id))
    (fun c hc s hs => ⟨run_equipSection hs (hbefore c hc).1 (hbefore c hc).2, hs⟩) hs₂
  rw [List.foldl_fixed] at hskip
  obtain ⟨s₃, hrun, hstopped, hs₃⟩ := run_equipInfo hs₂ hnamed hid hinfo
  have hequip : equipRecord fl d = info.children.foldl (·.read fl .setEquipInt) (.initial fl d.tag.id) := by
    have hfind : d.children.find? (fun c => decide (c.tag.id = "info")) = some info := by
      rw [hchildren, List.find?_append, List.find?_eq_none.2, Option.none_or, List.find?_cons_of_pos]
      · exact decide_eq_true hid
      · exact fun c hc => by simpa using (hbefore c hc).2
    rw [equipRecord, Xml.equipInfo, hfind]
  refine ⟨{ s₃ with stopped := false }, ?_, hequip ▸ hs₃⟩
  have hevents : d.events = .start d.tag :: (Element.forest before ++ (info.events ++
      (Element.forest after ++ [.stop]))) := by
    obtain ⟨t, cs⟩ := d
    rw [Element.events, show cs = before ++ info :: after from hchildren, Element.forest_append, Element.forest,
      List.append_assoc, List.append_assoc]
    rfl
  rw [parseDocument, hevents, Parser.run_cons (p := equipItemParser fl) (e := .start d.tag) hs.stopped hstart, Parser.run_append hskip,
    Parser.run_append hrun, Parser.run_stopped hstopped]
  rfl

/-- Documents about equipment become as many records. -/
theorem parseDocuments_equips (hs : Between [] [] done s) {docs : List Xml}
    (hdocs : ∀ d ∈ docs, Xml.IsEquip d) : ∃ s', docs.foldlM (parseDocument (equipItemParser fl)) s = .ok s' ∧
      Between [] [] (done ++ docs.map (equipRecord fl)) s' := by
  induction docs generalizing done s with
  | nil => exact ⟨s, rfl, by rwa [List.map_nil, List.append_nil]⟩
  | cons d docs ih =>
    obtain ⟨s₁, hrun, hs₁⟩ := parseDocument_equip hs (hdocs d List.mem_cons_self)
    obtain ⟨s₂, hrun₂, hs₂⟩ := ih hs₁ fun d hd => hdocs d (List.mem_cons_of_mem _ hd)
    refine ⟨s₂, ?_, ?_⟩
    · rw [List.foldlM_cons, hrun]
      exact hrun₂
    · rwa [List.map_cons, List.append_cons]

end Equips

/-- All documents become records: of the items first, and then of the equipment. -/
theorem wzInitItems_records (fl : Doubles D) (memory : ℕ → ItemRecord D) (items equips : List Xml)
    (hitems : ∀ d ∈ items, Xml.HasItems d) (hequips : ∀ d ∈ equips, Xml.IsEquip d) :
    ∃ s, wzInitItems fl memory items equips = .ok s ∧ Between [] []
      ((items.flatMap fun d => d.children.map (itemRecord fl)) ++ equips.map (equipRecord fl)) s := by
  have hstart : Between [] [] []
      { head := [], head2 := [], itemCapacity := 1, skip := 0, stopped := false, infos := memory, count := 0 } :=
    ⟨rfl, rfl, rfl, rfl, rfl, Nat.zero_le _, Nat.one_pos⟩
  obtain ⟨s₁, hrun, hs₁⟩ := parseDocuments_items hstart hitems
  have hs₁' : Between [] [] (items.flatMap fun d => d.children.map (itemRecord fl))
      { s₁ with head := [], head2 := [], skip := 0 } :=
    { hs₁ with head_eq := rfl, head2_eq := rfl, skip := rfl }
  obtain ⟨s₂, hrun₂, hs₂⟩ := parseDocuments_equips hs₁' hequips
  refine ⟨s₂, ?_, hs₂⟩
  rw [wzInitItems, hrun]
  exact hrun₂

end Syrup
