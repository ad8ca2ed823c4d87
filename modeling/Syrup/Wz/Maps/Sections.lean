import Syrup.Wz.Maps.Parsed

/-!
# The sections of a map

The sections `life`, `portal` and `reactor` are lists (`lifeSection`, `portalSection`, `reactorSection`). The
section `foothold` has layers of groups of footholds (`run_footholds`). What becomes of all of them, in whatever
order they come, is `run_map`.
-/

namespace Syrup

open Sax

/-! ## Lists -/

/-- What is done with an element of an entry. -/
def readEntry {R : Type} (setInt : String → ℤ → R → R) (setString : String → String → R → R) (r : R) (x : Xml) :
    R :=
  if x.tag.name = "int" then setInt (Xml.name x) (strtol (Xml.value x)) r
  else setString (Xml.name x) (Xml.value x) r

/-- The section `life`. -/
def lifeSection : ListSection LifeInfo where
  listType := .lives
  entryType := .life
  state b K o g := { b with head := K, overrun := o, lives := g }
  init _ l := { l with f := false }
  read := readEntry LifeInfo.setInt LifeInfo.setString
  overrun _ := false

/-- The section `portal`. -/
def portalSection : ListSection PortalInfo where
  listType := .portals
  entryType := .portal
  state b K o g := { b with head := K, overrun := o, portals := g }
  init g p := { p with id := UInt8.ofNat g.count }
  read := readEntry PortalInfo.setInt PortalInfo.setString
  overrun x := if x.tag.name = "int" then false else portalOverrun (Xml.name x) (Xml.value x)

/-- The section `reactor`. -/
def reactorSection : ListSection MapReactorInfo where
  listType := .reactors
  entryType := .reactor
  state b K o g := { b with head := K, overrun := o, reactors := g }
  init g r := { r with id := UInt32.ofNat g.count }
  read := readEntry MapReactorInfo.setInt MapReactorInfo.setString
  overrun _ := false

theorem Xml.IsValue.nameValue {x : Xml} (h : Xml.IsValue x) : x.tag.keyValue = .ok (Xml.name x, Xml.value x) := by
  obtain ⟨key, value, hkey, hvalue, heq⟩ := h.keyValue
  rw [heq, Xml.name, Xml.value, hkey, hvalue]
  rfl

theorem Exec.bind_ok_eq_map {A B : Type} (x : Exec A) (f : A → B) : (x >>= fun a => .ok (f a)) = x.map f := by
  cases x <;> rfl

theorem string_ne_int : ("string" = "int") = False := eq_false (by decide)

theorem lifeSection_parsed : lifeSection.Parsed where
  entry t s K o g hskip := by
    simp only [lifeSection, onMapStart, hskip, lt_irrefl, if_false]
    exact Exec.bind_ok_eq_map ..
  element x s K o g hskip htype hvalue := by
    simp only [lifeSection, onMapStart, hskip, lt_irrefl, if_false, hvalue.nameValue, readEntry]
    rcases htype with htype | htype
    · simp only [htype, if_true, Bool.or_false]
      exact Exec.bind_ok_eq_map ..
    · simp only [htype, string_ne_int, if_false, if_true, Bool.or_false]
      exact Exec.bind_ok_eq_map ..
  entryEnd s K o g hskip hlevel := by
    simp only [lifeSection, onMapEnd, hskip, hlevel, lt_irrefl, if_false]
  listEnd s K o g hskip hlevel := by
    simp only [lifeSection, onMapEnd, hskip, hlevel, lt_irrefl, if_false]

theorem portalSection_parsed : portalSection.Parsed where
  entry t s K o g hskip := by
    simp only [portalSection, onMapStart, hskip, lt_irrefl, if_false]
    exact Exec.bind_ok_eq_map ..
  element x s K o g hskip htype hvalue := by
    simp only [portalSection, onMapStart, hskip, lt_irrefl, if_false, hvalue.nameValue, readEntry]
    rcases htype with htype | htype
    · simp only [htype, if_true, Bool.or_false]
      exact Exec.bind_ok_eq_map ..
    · simp only [htype, string_ne_int, if_false, if_true]
      exact Exec.bind_ok_eq_map ..
  entryEnd s K o g hskip hlevel := by
    simp only [portalSection, onMapEnd, hskip, hlevel, lt_irrefl, if_false]
  listEnd s K o g hskip hlevel := by
    simp only [portalSection, onMapEnd, hskip, hlevel, lt_irrefl, if_false]

theorem reactorSection_parsed : reactorSection.Parsed where
  entry t s K o g hskip := by
    simp only [reactorSection, onMapStart, hskip, lt_irrefl, if_false]
    exact Exec.bind_ok_eq_map ..
  element x s K o g hskip htype hvalue := by
    simp only [reactorSection, onMapStart, hskip, lt_irrefl, if_false, hvalue.nameValue, readEntry]
    rcases htype with htype | htype
    · simp only [htype, if_true, Bool.or_false]
      exact Exec.bind_ok_eq_map ..
    · simp only [htype, string_ne_int, if_false, if_true, Bool.or_false]
      exact Exec.bind_ok_eq_map ..
  entryEnd s K o g hskip hlevel := by
    simp only [reactorSection, onMapEnd, hskip, hlevel, lt_irrefl, if_false]
  listEnd s K o g hskip hlevel := by
    simp only [reactorSection, onMapEnd, hskip, hlevel, lt_irrefl, if_false]

/-! ## Footholds -/

/-- What is done with an element of a foothold. -/
def readCoordinate (fh : Foothold) (x : Xml) : Foothold := fh.setCoordinate (Xml.name x) (strtol (Xml.value x))

/-- The foothold has been made of its element. -/
def Foothold.Made (e : Xml) (fh : Foothold) : Prop :=
  ∃ fh₀ : Foothold, fh = e.children.foldl readCoordinate { fh₀ with id := UInt32.ofInt (strtol e.tag.id) }

/-- The state at a level among footholds. -/
def MapParserContext.among (s : MapParserContext) (level : ℕ) (fh : Foothold) (inserted : List Foothold) :
    MapParserContext :=
  { s with footholdLevel := level, currentFoothold := fh, inserted := inserted }

/-- In the section `foothold`, and not skipping. -/
structure MapParserContext.AtFootholds (s : MapParserContext) : Prop where
  skip : s.skip = 0
  head : ∃ K, s.head = .footholds :: K

/-- Elements at a level of which those of a list are inserted. -/
def Inserts (level : ℕ) (tags : List (Event Tag)) (l : List Xml) : Prop :=
  ∀ (s : MapParserContext), s.AtFootholds → ∀ fh ins, ∃ fh' ins',
    mapParser.run tags (s.among level fh ins) = .ok (s.among level fh' (ins ++ ins')) ∧
      List.Forall₂ Foothold.Made l ins'

/-- The footholds of several elements. -/
theorem inserts_forest {level : ℕ} {f : Xml → List Xml} {cs : List Xml}
    (h : ∀ c ∈ cs, Inserts level c.events (f c)) : Inserts level (Element.forest cs) (cs.flatMap f) := by
  intro s hs fh ins
  have hone (c : Xml) (hc : c ∈ cs) (l : List Xml) (s' : MapParserContext)
      (hs' : ∃ fh' ins', s' = s.among level fh' (ins ++ ins') ∧ List.Forall₂ Foothold.Made l ins') :
      ∃ s'', mapParser.run c.events s' = .ok s'' ∧
        ∃ fh' ins', s'' = s.among level fh' (ins ++ ins') ∧ List.Forall₂ Foothold.Made (l ++ f c) ins' := by
    obtain ⟨fh', ins', rfl, hmade⟩ := hs'
    obtain ⟨fh'', ins'', hrun, hmade'⟩ := h c hc s hs fh' (ins ++ ins')
    exact ⟨_, hrun, fh'', ins' ++ ins'', by rw [List.append_assoc], List.rel_append hmade hmade'⟩
  obtain ⟨s', hrun, fh', ins', rfl, hmade⟩ := Parser.run_forest_collect (l := []) hone
    ⟨fh, [], by rw [List.append_nil], .nil⟩
  exact ⟨fh', ins', hrun, hmade⟩

/-- A foothold is inserted at its end tag. -/
theorem inserts_foothold {e : Xml} (he : Xml.IsFoothold e) : Inserts 2 e.events [e] := by
  intro s hs fh ins
  obtain ⟨K, hhead⟩ := hs.head
  have hskip := hs.skip
  have hstart : onMapStart e.tag (s.among 2 fh ins) =
      .ok (s.among 3 { fh with id := UInt32.ofInt (strtol e.tag.id) } ins) := by
    simp only [onMapStart, MapParserContext.among, hskip, hhead, lt_irrefl, if_false, Tag.first_eq he.named]
    rfl
  have hone (x : Xml) (hx : x ∈ e.children) (s' : MapParserContext) (hs' : ∃ fh', s' = s.among 3 fh' ins) :
      mapParser.run x.events s' = .ok (s'.among 3 (readCoordinate s'.currentFoothold x) ins) ∧
        ∃ fh', s'.among 3 (readCoordinate s'.currentFoothold x) ins = s.among 3 fh' ins := by
    obtain ⟨fh', rfl⟩ := hs'
    refine ⟨mapParser_entered ?_, _, rfl⟩
    simp only [onMapStart, MapParserContext.among, hskip, hhead, lt_irrefl, if_false,
      (he.values x hx).2.nameValue, MapParserContext.deeper, readCoordinate]
    rfl
  obtain ⟨hrun, -⟩ := Parser.run_forest (p := mapParser) hone
    ⟨{ fh with id := UInt32.ofInt (strtol e.tag.id) }, rfl⟩
  have hfold (xs : List Xml) (fh' : Foothold) :
      xs.foldl (fun s' x => s'.among 3 (readCoordinate s'.currentFoothold x) ins) (s.among 3 fh' ins) =
        s.among 3 (xs.foldl readCoordinate fh') ins := by
    induction xs generalizing fh' with
    | nil => rfl
    | cons x xs ih => exact ih _
  rw [hfold] at hrun
  refine ⟨e.children.foldl readCoordinate { fh with id := UInt32.ofInt (strtol e.tag.id) }, [_], ?_,
    .cons ⟨fh, rfl⟩ .nil⟩
  rw [Parser.run_element rfl hstart hrun rfl]
  change onMapEnd _ = _
  simp only [onMapEnd, MapParserContext.among, hskip, lt_irrefl, if_false]
  rfl

/-- A layer or a group has the footholds that are in it. -/
theorem inserts_inside {level : ℕ} (hlevel : level < 2) {e : Xml} {l : List Xml}
    (h : Inserts (level + 1) (Element.forest e.children) l) : Inserts level e.events l := by
  intro s hs fh ins
  obtain ⟨K, hhead⟩ := hs.head
  have hskip := hs.skip
  obtain ⟨fh', ins', hrun, hmade⟩ := h s hs fh ins
  have hstart : onMapStart e.tag (s.among level fh ins) = .ok (s.among (level + 1) fh ins) := by
    have h2 : level ≠ 2 := by omega
    have h3 : level ≠ 3 := by omega
    simp only [onMapStart, MapParserContext.among, hskip, hhead, lt_irrefl, if_false, h2, h3]
  refine ⟨fh', ins', ?_, hmade⟩
  rw [Parser.run_element rfl hstart hrun rfl]
  have h3 : level + 1 ≠ 3 := by omega
  change onMapEnd _ = _
  simp only [onMapEnd, MapParserContext.among, hskip, lt_irrefl, if_false, Nat.succ_pos, if_true, h3,
    Nat.add_sub_cancel]

/-! ## The whole map -/

/-- `strcpy` of an element of the section `info` goes beyond the end. -/
def infoOverrun (x : Xml) : Bool :=
  decide (x.tag.name = "string" ∧ Xml.name x = "onUserEnter" ∧ 32 < (Xml.value x).utf8ByteSize)

/-- There has been an overrun in some sections. -/
def overrunOf (cs : List Xml) : Bool :=
  ((sectionOf cs "portal").any fun e => e.children.any portalSection.overrun) ||
    (sectionOf cs "info").any infoOverrun

/-- What has become of the section that is a list. -/
structure GrowingList.Parsed {R : Type} (k : ListSection R) (name : String) (cs : List Xml) (g : GrowingList R) :
    Prop where
  listed : g.Listed k.read (sectionOf cs name)
  kept : (∀ c ∈ cs, Xml.name c ≠ name) → g.items.isSome

/-- What has become of sections. -/
structure MapParserContext.Parsed (cs : List Xml) (s : MapParserContext) : Prop where
  head : s.head = [.topLevel]
  skip : s.skip = 0
  level : s.footholdLevel = 0
  lives : s.lives.Parsed lifeSection "life" cs
  portals : s.portals.Parsed portalSection "portal" cs
  reactors : s.reactors.Parsed reactorSection "reactor" cs
  seats : s.seats = UInt16.ofNat (sectionOf cs "seat").length
  inserted : List.Forall₂ Foothold.Made (footholdsOf cs) s.inserted
  overrun : s.overrun = overrunOf cs

theorem sectionOf_other {cs : List Xml} {c : Xml} {name : String} (h : Xml.name c ≠ name) :
    sectionOf (cs ++ [c]) name = sectionOf cs name := by
  rw [sectionOf_append, if_neg h, List.append_nil]

theorem sectionOf_fresh {cs : List Xml} {name : String} (h : ∀ c ∈ cs, Xml.name c ≠ name) :
    sectionOf cs name = [] := by
  rw [sectionOf, List.filter_eq_nil_iff.2 fun c hc => by simpa using h c hc, List.flatMap_nil]

theorem sectionOf_first {cs : List Xml} {c : Xml} {name : String} (hname : Xml.name c = name)
    (h : ∀ c ∈ cs, Xml.name c ≠ name) : sectionOf (cs ++ [c]) name = c.children := by
  rw [sectionOf_append, if_pos hname, sectionOf_fresh h, List.nil_append]

namespace GrowingList

variable {R : Type} {k : ListSection R} {name : String} {cs : List Xml} {c : Xml} {g : GrowingList R}

theorem Parsed.other (hg : g.Parsed k name cs) (h : Xml.name c ≠ name) : g.Parsed k name (cs ++ [c]) where
  listed := by
    rw [sectionOf_other h]
    exact hg.listed
  kept hfresh := hg.kept fun c hc => hfresh c (List.mem_append_left _ hc)

theorem Parsed.first {g' : GrowingList R} (hname : Xml.name c = name) (hfresh : ∀ c ∈ cs, Xml.name c ≠ name)
    (hg' : g'.Listed k.read c.children) : g'.Parsed k name (cs ++ [c]) where
  listed := by
    rw [sectionOf_first hname hfresh]
    exact hg'
  kept h := absurd hname (h c (List.mem_append_right _ List.mem_cons_self))

/-- The section of a list. -/
theorem Parsed.run {s : MapParserContext} {K : List MapItemType} {o : Bool} (hg : g.Parsed k name cs)
    (hk : k.Parsed) (hskip : s.skip = 0) (hlevel : s.footholdLevel = 0) (hname : Xml.name c = name)
    (hfresh : ∀ c ∈ cs, Xml.name c ≠ name)
    (hstart : onMapStart c.tag (k.state s K o g) = .ok (k.state s (k.listType :: K) o g))
    (hc : ∀ e ∈ c.children, Xml.IsEntry e) :
    ∃ g', mapParser.run c.events (k.state s K o g) =
        .ok (k.state s K (o || c.children.any fun e => e.children.any k.overrun) g') ∧
      g'.Parsed k name (cs ++ [c]) := by
  have hlisted := hg.listed
  rw [sectionOf_fresh hfresh] at hlisted
  obtain ⟨g', hrun, hg'⟩ := ListSection.run_section hk hskip hlevel hlisted (hg.kept hfresh) hstart hc
  exact ⟨g', hrun, .first hname hfresh hg'⟩

end GrowingList

/-- The start tag of a section. -/
theorem onMapStart_section {c : Xml} {s : MapParserContext} {K : List MapItemType} (hskip : s.skip = 0)
    (hhead : s.head = .topLevel :: K) (himgdir : c.tag.name = "imgdir")
    (hname : ∃ name, c.tag.attr "name" = some name) :
    onMapStart c.tag s =
      if Xml.name c = "info" then .ok (s.push .info)
      else if Xml.name c = "life" then .ok (s.push .lives)
      else if Xml.name c = "reactor" then .ok (s.push .reactors)
      else if Xml.name c = "portal" then .ok (s.push .portals)
      else if Xml.name c = "foothold" then .ok (s.push .footholds)
      else if Xml.name c = "seat" then .ok (s.push .seats)
      else .ok s.deeper := by
  obtain ⟨name, hname⟩ := hname
  simp only [onMapStart, hskip, lt_irrefl, if_false, hhead, himgdir, if_true, hname, Xml.name,
    Option.getD_some]

/-- What is written to in the section `info`. -/
def MapParserContext.withInfo (s : MapParserContext) (returnMap forcedReturn : UInt32) (onUserEnter : String)
    (overrun : Bool) : MapParserContext :=
  { s with returnMap := returnMap, forcedReturn := forcedReturn, onUserEnter := onUserEnter, overrun := overrun }

theorem setInfo_eq (s : MapParserContext) (x : Xml) : ∃ rm fr ue,
    s.setInfo x.tag.name (Xml.name x) (Xml.value x) = s.withInfo rm fr ue (s.overrun || infoOverrun x) := by
  have hother (h : ¬(x.tag.name = "string" ∧ Xml.name x = "onUserEnter")) :
      s.withInfo s.returnMap s.forcedReturn s.onUserEnter (s.overrun || infoOverrun x) = s := by
    rw [infoOverrun, decide_eq_false (fun h' => h ⟨h'.1, h'.2.1⟩), Bool.or_false]
    rfl
  rw [MapParserContext.setInfo]
  split
  · rename_i hint
    have hstring : ¬(x.tag.name = "string" ∧ Xml.name x = "onUserEnter") := by
      rw [hint]
      exact fun h => absurd h.1 (by decide)
    have hoverrun : (s.overrun || infoOverrun x) = s.overrun := congrArg MapParserContext.overrun (hother hstring)
    rw [hoverrun]
    split
    · exact ⟨_, s.forcedReturn, s.onUserEnter, rfl⟩
    · split
      · exact ⟨s.returnMap, _, s.onUserEnter, rfl⟩
      · exact ⟨s.returnMap, s.forcedReturn, s.onUserEnter, rfl⟩
  · split
    · rename_i hstring
      split
      · rename_i hkey
        refine ⟨s.returnMap, s.forcedReturn, Xml.value x, ?_⟩
        simp only [infoOverrun, hstring, hkey, true_and]
        rfl
      · rename_i hkey
        exact ⟨_, _, _, (hother fun h => hkey h.2).symm⟩
    · rename_i hstring
      exact ⟨_, _, _, (hother fun h => hstring h.1).symm⟩

/-- An element of the section `info`. -/
theorem run_infoValue {x : Xml} {s : MapParserContext} {K : List MapItemType} (hskip : s.skip = 0)
    (hhead : s.head = .info :: K)
    (hvalue : x.tag.name = "int" ∨ x.tag.name = "float" ∨ x.tag.name = "string" → Xml.IsValue x) :
    ∃ rm fr ue, mapParser.run x.events s = .ok (s.withInfo rm fr ue (s.overrun || infoOverrun x)) := by
  by_cases htype : x.tag.name = "int" ∨ x.tag.name = "float" ∨ x.tag.name = "string"
  · obtain ⟨rm, fr, ue, hset⟩ := setInfo_eq s.deeper x
    refine ⟨rm, fr, ue, mapParser_entered ?_⟩
    simp only [onMapStart, hskip, lt_irrefl, if_false, hhead, htype, if_true, (hvalue htype).nameValue]
    exact congrArg Except.ok hset
  · refine ⟨s.returnMap, s.forcedReturn, s.onUserEnter, mapParser_entered ?_⟩
    have hoverrun : infoOverrun x = false := decide_eq_false fun h => htype (.inr (.inr h.1))
    simp only [onMapStart, hskip, lt_irrefl, if_false, hhead, htype, hoverrun, Bool.or_false]
    rfl

/-- The section `info`. -/
theorem run_mapInfo {c : Xml} {s : MapParserContext} (hskip : s.skip = 0) (hlevel : s.footholdLevel = 0)
    (hstart : onMapStart c.tag s = .ok (s.push .info))
    (hvalues : ∀ x ∈ c.children, x.tag.name = "int" ∨ x.tag.name = "float" ∨ x.tag.name = "string" → Xml.IsValue x) :
    ∃ rm fr ue, mapParser.run c.events s =
      .ok (s.withInfo rm fr ue (s.overrun || c.children.any infoOverrun)) := by
  have hone (x : Xml) (hx : x ∈ c.children) (l : List Xml) (s' : MapParserContext)
      (hs' : ∃ rm fr ue, s' = (s.push .info).withInfo rm fr ue (s.overrun || l.any infoOverrun)) :
      ∃ s'', mapParser.run x.events s' = .ok s'' ∧
        ∃ rm fr ue, s'' = (s.push .info).withInfo rm fr ue (s.overrun || (l ++ [x]).any infoOverrun) := by
    obtain ⟨rm, fr, ue, rfl⟩ := hs'
    obtain ⟨rm', fr', ue', hrun⟩ := run_infoValue (x := x)
      (s := (s.push .info).withInfo rm fr ue (s.overrun || l.any infoOverrun)) hskip rfl (hvalues x hx)
    refine ⟨_, hrun, rm', fr', ue', ?_⟩
    rw [List.any_append, ← Bool.or_assoc]
    simp only [List.any_cons, List.any_nil, Bool.or_false]
    rfl
  obtain ⟨s₂, hrun, rm, fr, ue, rfl⟩ := Parser.run_forest_collect (p := mapParser) (g := fun x => [x]) (l := [])
    (s := s.push .info) hone
    ⟨s.returnMap, s.forcedReturn, s.onUserEnter, by rw [List.any_nil, Bool.or_false]; rfl⟩
  rw [List.nil_append, List.flatMap_singleton'] at hrun
  refine ⟨rm, fr, ue, ?_⟩
  rw [Parser.run_element rfl hstart hrun rfl]
  change onMapEnd _ = _
  simp only [onMapEnd, MapParserContext.push, MapParserContext.withInfo, hskip, hlevel, lt_irrefl, if_false]

/-- The section `foothold`. -/
theorem run_footholds {c : Xml} {s : MapParserContext} (hskip : s.skip = 0) (hlevel : s.footholdLevel = 0)
    (hstart : onMapStart c.tag s = .ok (s.push .footholds))
    (hc : ∀ layer ∈ c.children, ∀ group ∈ layer.children, ∀ fh ∈ group.children, Xml.IsFoothold fh) :
    ∃ fh ins, mapParser.run c.events s = .ok { s with currentFoothold := fh, inserted := s.inserted ++ ins } ∧
      List.Forall₂ Foothold.Made (c.children.flatMap fun layer => layer.children.flatMap (·.children)) ins := by
  have hinserts : Inserts 0 (Element.forest c.children)
      (c.children.flatMap fun layer => layer.children.flatMap (·.children)) := by
    refine inserts_forest fun layer hlayer => inserts_inside (by decide) ?_
    refine inserts_forest fun group hgroup => inserts_inside (by decide) ?_
    have hone := inserts_forest (f := fun fh => [fh]) fun fh hfh =>
      inserts_foothold (hc layer hlayer group hgroup fh hfh)
    rwa [List.flatMap_singleton'] at hone
  obtain ⟨fh, ins, hrun, hmade⟩ := hinserts (s.push .footholds) ⟨hskip, _, rfl⟩ s.currentFoothold s.inserted
  have hinside : (s.push .footholds).among 0 s.currentFoothold s.inserted = s.push .footholds := by
    rw [← hlevel]
    rfl
  rw [hinside] at hrun
  refine ⟨fh, ins, ?_, hmade⟩
  rw [Parser.run_element rfl hstart hrun rfl]
  change onMapEnd _ = _
  simp only [onMapEnd, MapParserContext.push, MapParserContext.among, hskip, hlevel, lt_irrefl, if_false]

/-- The section `seat`. -/
theorem run_seats {c : Xml} {s : MapParserContext} (hskip : s.skip = 0) (hlevel : s.footholdLevel = 0)
    (hstart : onMapStart c.tag s = .ok (s.push .seats)) :
    mapParser.run c.events s = .ok { s with seats := s.seats + UInt16.ofNat c.children.length } := by
  have hone (x : Xml) (_ : x ∈ c.children) (l : List Xml) (s' : MapParserContext)
      (hs' : s' = { s.push .seats with seats := s.seats + UInt16.ofNat l.length }) :
      ∃ s'', mapParser.run x.events s' = .ok s'' ∧
        s'' = { s.push .seats with seats := s.seats + UInt16.ofNat (l ++ [x]).length } := by
    obtain rfl := hs'
    have hcount : s.seats + UInt16.ofNat (l ++ [x]).length = s.seats + UInt16.ofNat l.length + 1 := by
      rw [List.length_append, UInt16.ofNat_add, ← UInt16.add_assoc]
      rfl
    refine ⟨_, mapParser_entered ?_, rfl⟩
    simp only [onMapStart, MapParserContext.push, hskip, lt_irrefl, if_false, MapParserContext.deeper, hcount]
  obtain ⟨s₂, hrun, rfl⟩ := Parser.run_forest_collect (p := mapParser) (g := fun x => [x]) (l := []) (s := s.push .seats)
    hone (by simp [MapParserContext.push])
  rw [List.nil_append, List.flatMap_singleton'] at hrun
  rw [Parser.run_element rfl hstart hrun rfl]
  change onMapEnd _ = _
  simp only [onMapEnd, MapParserContext.push, hskip, hlevel, lt_irrefl, if_false]

namespace MapParserContext

/-- A section that is not parsed changes nothing. -/
theorem Parsed.other {cs : List Xml} {c : Xml} {s : MapParserContext} (hs : s.Parsed cs)
    (h : ∀ name ∈ mapSections, Xml.name c ≠ name) : s.Parsed (cs ++ [c]) where
  head := hs.head
  skip := hs.skip
  level := hs.level
  lives := hs.lives.other (h _ (by decide))
  portals := hs.portals.other (h _ (by decide))
  reactors := hs.reactors.other (h _ (by decide))
  seats := by
    rw [sectionOf_other (h _ (by decide))]
    exact hs.seats
  inserted := by
    rw [footholdsOf, sectionOf_other (h _ (by decide))]
    exact hs.inserted
  overrun := by
    rw [overrunOf, sectionOf_other (h _ (by decide)), sectionOf_other (h _ (by decide))]
    exact hs.overrun

theorem any_never (l : List Xml) : (l.any fun e => e.children.any fun _ => false) = false := by
  simp only [List.any_eq_false, List.any_eq_true, not_exists, Bool.false_eq_true, and_false, not_false_iff,
    implies_true]

/-- A section of a map. -/
theorem Parsed.run {d : Xml} (hd : Xml.IsMap d) {cs cs' : List Xml} {c : Xml} (hcs : d.children = cs ++ c :: cs')
    {s : MapParserContext} (hs : s.Parsed cs) :
    ∃ s', mapParser.run c.events s = .ok s' ∧ s'.Parsed (cs ++ [c]) := by
  have hc : c ∈ d.children := hcs ▸ List.mem_append_right _ List.mem_cons_self
  have hfresh (name : String) (hname : Xml.name c = name) (hmem : name ∈ mapSections) :
      ∀ c' ∈ cs, Xml.name c' ≠ name := by
    intro c' hc' hname'
    have honce := hd.once
    rw [hcs, List.pairwise_append] at honce
    exact honce.2.2 c' hc' c List.mem_cons_self (hname' ▸ hmem) (hname'.trans hname.symm)
  have hstart := onMapStart_section hs.skip hs.head (hd.sections c hc).1 (hd.sections c hc).2
  have hoverrun (name : String) (hname : Xml.name c = name) (h : name ≠ "info") (h' : name ≠ "portal") :
      overrunOf (cs ++ [c]) = overrunOf cs := by
    rw [overrunOf, sectionOf_other (hname ▸ h'), sectionOf_other (hname ▸ h), overrunOf]
  by_cases hinfo : Xml.name c = "info"
  · have hne (name : String) (h : "info" ≠ name) : Xml.name c ≠ name := hinfo ▸ h
    rw [if_pos hinfo] at hstart
    obtain ⟨rm, fr, ue, hrun⟩ := run_mapInfo hs.skip hs.level hstart (hd.info c hc hinfo)
    refine ⟨_, hrun, hs.head, hs.skip, hs.level, hs.lives.other (hne _ (by decide)),
      hs.portals.other (hne _ (by decide)), hs.reactors.other (hne _ (by decide)), ?_, ?_, ?_⟩
    · rw [sectionOf_other (hne _ (by decide))]
      exact hs.seats
    · rw [footholdsOf, sectionOf_other (hne _ (by decide))]
      exact hs.inserted
    · rw [overrunOf, sectionOf_other (hne _ (by decide)), sectionOf_append, if_pos hinfo, List.any_append,
        ← Bool.or_assoc]
      exact congrArg (· || _) hs.overrun
  rw [if_neg hinfo] at hstart
  by_cases hlife : Xml.name c = "life"
  · have hne (name : String) (h : "life" ≠ name) : Xml.name c ≠ name := hlife ▸ h
    rw [if_pos hlife] at hstart
    obtain ⟨g, hrun, hg⟩ := hs.lives.run (s := s) lifeSection_parsed hs.skip hs.level hlife
      (hfresh _ hlife (by decide)) hstart (hd.entries c hc (.inl hlife))
    refine ⟨_, hrun, hs.head, hs.skip, hs.level, hg, hs.portals.other (hne _ (by decide)),
      hs.reactors.other (hne _ (by decide)), ?_, ?_, ?_⟩
    · rw [sectionOf_other (hne _ (by decide))]
      exact hs.seats
    · rw [footholdsOf, sectionOf_other (hne _ (by decide))]
      exact hs.inserted
    · rw [hoverrun _ hlife (by decide) (by decide), ← hs.overrun]
      exact (congrArg (s.overrun || ·) (any_never _)).trans (Bool.or_false _)
  rw [if_neg hlife] at hstart
  by_cases hreactor : Xml.name c = "reactor"
  · have hne (name : String) (h : "reactor" ≠ name) : Xml.name c ≠ name := hreactor ▸ h
    rw [if_pos hreactor] at hstart
    obtain ⟨g, hrun, hg⟩ := hs.reactors.run (s := s) reactorSection_parsed hs.skip hs.level hreactor
      (hfresh _ hreactor (by decide)) hstart (hd.entries c hc (.inr (.inr hreactor)))
    refine ⟨_, hrun, hs.head, hs.skip, hs.level, hs.lives.other (hne _ (by decide)),
      hs.portals.other (hne _ (by decide)), hg, ?_, ?_, ?_⟩
    · rw [sectionOf_other (hne _ (by decide))]
      exact hs.seats
    · rw [footholdsOf, sectionOf_other (hne _ (by decide))]
      exact hs.inserted
    · rw [hoverrun _ hreactor (by decide) (by decide), ← hs.overrun]
      exact (congrArg (s.overrun || ·) (any_never _)).trans (Bool.or_false _)
  rw [if_neg hreactor] at hstart
  by_cases hportal : Xml.name c = "portal"
  · have hne (name : String) (h : "portal" ≠ name) : Xml.name c ≠ name := hportal ▸ h
    rw [if_pos hportal] at hstart
    obtain ⟨g, hrun, hg⟩ := hs.portals.run (s := s) portalSection_parsed hs.skip hs.level hportal
      (hfresh _ hportal (by decide)) hstart (hd.entries c hc (.inr (.inl hportal)))
    refine ⟨_, hrun, hs.head, hs.skip, hs.level, hs.lives.other (hne _ (by decide)), hg,
      hs.reactors.other (hne _ (by decide)), ?_, ?_, ?_⟩
    · rw [sectionOf_other (hne _ (by decide))]
      exact hs.seats
    · rw [footholdsOf, sectionOf_other (hne _ (by decide))]
      exact hs.inserted
    · rw [overrunOf, sectionOf_append, if_pos hportal, sectionOf_other (hne _ (by decide)), List.any_append,
        Bool.or_right_comm]
      exact congrArg (· || _) hs.overrun
  rw [if_neg hportal] at hstart
  by_cases hfoothold : Xml.name c = "foothold"
  · have hne (name : String) (h : "foothold" ≠ name) : Xml.name c ≠ name := hfoothold ▸ h
    rw [if_pos hfoothold] at hstart
    obtain ⟨fh, ins, hrun, hmade⟩ := run_footholds hs.skip hs.level hstart (hd.footholds c hc hfoothold)
    refine ⟨_, hrun, hs.head, hs.skip, hs.level, hs.lives.other (hne _ (by decide)),
      hs.portals.other (hne _ (by decide)), hs.reactors.other (hne _ (by decide)), ?_, ?_, ?_⟩
    · rw [sectionOf_other (hne _ (by decide))]
      exact hs.seats
    · rw [footholdsOf, sectionOf_append, if_pos hfoothold, List.flatMap_append]
      exact List.rel_append hs.inserted hmade
    · rw [hoverrun _ hfoothold (by decide) (by decide)]
      exact hs.overrun
  rw [if_neg hfoothold] at hstart
  by_cases hseat : Xml.name c = "seat"
  · have hne (name : String) (h : "seat" ≠ name) : Xml.name c ≠ name := hseat ▸ h
    rw [if_pos hseat] at hstart
    refine ⟨_, run_seats hs.skip hs.level hstart, hs.head, hs.skip, hs.level, hs.lives.other (hne _ (by decide)),
      hs.portals.other (hne _ (by decide)), hs.reactors.other (hne _ (by decide)), ?_, ?_, ?_⟩
    · rw [sectionOf_append, if_pos hseat, List.length_append, UInt16.ofNat_add, ← hs.seats]
    · rw [footholdsOf, sectionOf_other (hne _ (by decide))]
      exact hs.inserted
    · rw [hoverrun _ hseat (by decide) (by decide)]
      exact hs.overrun
  rw [if_neg hseat] at hstart
  refine ⟨s, mapParser_entered hstart, hs.other ?_⟩
  simp only [mapSections, List.forall_mem_cons]
  exact ⟨hinfo, hlife, hreactor, hportal, hfoothold, hseat, fun _ h => absurd h List.not_mem_nil⟩

end MapParserContext

/-- What becomes of a map. -/
theorem run_map {d : Xml} (hd : Xml.IsMap d) (fh : Foothold) (returnMap : UInt32) (lives : ℕ → LifeInfo)
    (portals : ℕ → PortalInfo) (reactors : ℕ → MapReactorInfo) :
    ∃ s s' : MapParserContext, mapParser.run d.events (.start fh returnMap lives portals reactors) = .ok s' ∧
      s.Parsed d.children ∧ s' = { s with head := [] } := by
  obtain ⟨number, hnumber⟩ := hd.named
  have hempty : MapParserContext.Parsed []
      { MapParserContext.start fh returnMap lives portals reactors with
        head := [.topLevel], id := UInt32.ofInt (strtol number) } := by
    exact ⟨rfl, rfl, rfl, ⟨⟨Nat.zero_le _, Nat.one_pos, .nil⟩, fun _ => rfl⟩,
      ⟨⟨Nat.zero_le _, Nat.one_pos, .nil⟩, fun _ => rfl⟩, ⟨⟨Nat.zero_le _, Nat.one_pos, .nil⟩, fun _ => rfl⟩,
      rfl, .nil, rfl⟩
  have hstart : onMapStart d.tag (.start fh returnMap lives portals reactors) =
      .ok { MapParserContext.start fh returnMap lives portals reactors with
        head := [.topLevel], id := UInt32.ofInt (strtol number) } := by
    simp only [onMapStart, MapParserContext.start, lt_irrefl, if_false, hd.imgdir, if_true, hnumber]
  obtain ⟨s, hrun, hs⟩ := Parser.run_forest_prefix (p := mapParser) (I := MapParserContext.Parsed) (b := [])
    (fun _ c _ hcs s hs => hs.run hd hcs) hempty
  rw [List.nil_append] at hs
  refine ⟨s, _, ?_, hs, rfl⟩
  rw [Parser.run_element rfl hstart hrun rfl]
  change onMapEnd _ = _
  simp only [onMapEnd, hs.skip, hs.level, hs.head, lt_irrefl, if_false]

end Syrup
