import Syrup.Wz.Maps.Sections

/-!
# What is told of a map

The entries of a map are told as the document has them (`MapParserContext.Told`) if and only if their values fit
(`Xml.FitsMap`, `mapInfo_told_iff`). Numbers have to be in the range of their fields, and texts may not be
longer than their arrays. The time of a reactor has to be `0` or `1`, as all that is kept of it is whether it is `1`.
-/

namespace Syrup

open Sax

/-! ## Numbers -/

/-- In the range of an `int16_t`. -/
def FitsInt16 (v : ℤ) : Prop := -2 ^ 15 ≤ v ∧ v < 2 ^ 15

/-- In the range of a `uint16_t`. -/
def FitsUInt16 (v : ℤ) : Prop := 0 ≤ v ∧ v < 2 ^ 16

/-- In the range of a `uint32_t`. -/
def FitsUInt32 (v : ℤ) : Prop := 0 ≤ v ∧ v < 2 ^ 32

theorem toInt_ofInt_iff (v : ℤ) : (Int16.ofInt v).toInt = v ↔ FitsInt16 v := by
  constructor
  · intro h
    rw [← h]
    exact ⟨Int16.le_toInt _, Int16.toInt_lt _⟩
  · exact fun h => Int16.toInt_ofInt_of_le h.1 h.2

theorem toNat_ofInt16_iff (v : ℤ) : ((UInt16.ofInt v).toNat : ℤ) = v ↔ FitsUInt16 v := by
  have htoNat : ((UInt16.ofInt v).toNat : ℤ) = v % 2 ^ 16 := by
    rw [UInt16.ofInt, UInt16.toNat_ofNat']
    omega
  rw [htoNat, FitsUInt16]
  omega

theorem toNat_ofInt32_iff (v : ℤ) : ((UInt32.ofInt v).toNat : ℤ) = v ↔ FitsUInt32 v := by
  have htoNat : ((UInt32.ofInt v).toNat : ℤ) = v % 2 ^ 32 := by
    rw [UInt32.ofInt, UInt32.toNat_ofNat']
    omega
  rw [htoNat, FitsUInt32]
  omega

/-! ## Entries -/

/-- An entry of the section `life` has become the record. -/
structure LifeInfo.Told (e : Xml) (l : LifeInfo) : Prop where
  type : ∀ v ∈ lastString e.children "type", l.type = .ofString v
  id : ∀ v ∈ lastString e.children "id", (l.id.toNat : ℤ) = strtol v
  x : ∀ v ∈ lastInt e.children "x", l.x.toInt = v
  y : ∀ v ∈ lastInt e.children "y", l.y.toInt = v
  fh : ∀ v ∈ lastInt e.children "fh", (l.fh.toNat : ℤ) = v
  cy : ∀ v ∈ lastInt e.children "cy", l.cy.toInt = v
  rx0 : ∀ v ∈ lastInt e.children "rx0", l.rx0.toInt = v
  rx1 : ∀ v ∈ lastInt e.children "rx1", l.rx1.toInt = v
  f : ∀ v ∈ lastInt e.children "f", l.f = decide (v ≠ 0)

/-- The values of an entry of the section `life` fit. -/
structure Xml.FitsLife (e : Xml) : Prop where
  id : ∀ v ∈ lastString e.children "id", FitsUInt32 (strtol v)
  x : ∀ v ∈ lastInt e.children "x", FitsInt16 v
  y : ∀ v ∈ lastInt e.children "y", FitsInt16 v
  fh : ∀ v ∈ lastInt e.children "fh", FitsUInt16 v
  cy : ∀ v ∈ lastInt e.children "cy", FitsInt16 v
  rx0 : ∀ v ∈ lastInt e.children "rx0", FitsInt16 v
  rx1 : ∀ v ∈ lastInt e.children "rx1", FitsInt16 v

/-- An entry of the section `portal` has become the record. -/
structure PortalInfo.Told (e : Xml) (p : PortalInfo) : Prop where
  name : ∀ v ∈ lastString e.children "pn", p.name = v
  x : ∀ v ∈ lastInt e.children "x", p.x.toInt = v
  y : ∀ v ∈ lastInt e.children "y", p.y.toInt = v
  targetMap : ∀ v ∈ lastInt e.children "tm", (p.targetMap.toNat : ℤ) = v
  targetName : ∀ v ∈ lastString e.children "tn", p.targetName = v
  script : ∀ v ∈ lastString e.children "script", p.script = v

/-- The numbers of an entry of the section `portal` fit. -/
structure Xml.FitsPortal (e : Xml) : Prop where
  x : ∀ v ∈ lastInt e.children "x", FitsInt16 v
  y : ∀ v ∈ lastInt e.children "y", FitsInt16 v
  targetMap : ∀ v ∈ lastInt e.children "tm", FitsUInt32 v

/-- An entry of the section `reactor` has become the record. -/
structure MapReactorInfo.Told (e : Xml) (r : MapReactorInfo) : Prop where
  id : ∀ v ∈ lastString e.children "id", (r.id.toNat : ℤ) = strtol v
  reactorTime : ∀ v ∈ lastInt e.children "reactorTime", r.reactorTime.toInt = v
  x : ∀ v ∈ lastInt e.children "x", r.x.toInt = v
  y : ∀ v ∈ lastInt e.children "y", r.y.toInt = v
  f : ∀ v ∈ lastInt e.children "f", r.f = decide (v ≠ 0)

/-- The values of an entry of the section `reactor` fit. -/
structure Xml.FitsReactor (e : Xml) : Prop where
  id : ∀ v ∈ lastString e.children "id", FitsUInt32 (strtol v)
  reactorTime : ∀ v ∈ lastInt e.children "reactorTime", v = 0 ∨ v = 1
  x : ∀ v ∈ lastInt e.children "x", FitsInt16 v
  y : ∀ v ∈ lastInt e.children "y", FitsInt16 v
  f : ∀ v ∈ lastInt e.children "f", v = 0 ∨ v = 1

/-- A foothold has been inserted as it is. -/
structure Foothold.Told (e : Xml) (fh : Foothold) : Prop where
  id : (fh.id.toNat : ℤ) = strtol e.tag.id
  x1 : ∀ v ∈ lastInt e.children "x1", fh.p1.x.toInt = v
  y1 : ∀ v ∈ lastInt e.children "y1", fh.p1.y.toInt = v
  x2 : ∀ v ∈ lastInt e.children "x2", fh.p2.x.toInt = v
  y2 : ∀ v ∈ lastInt e.children "y2", fh.p2.y.toInt = v

/-- The numbers of a foothold fit. -/
structure Xml.FitsFoothold (e : Xml) : Prop where
  id : FitsUInt32 (strtol e.tag.id)
  x1 : ∀ v ∈ lastInt e.children "x1", FitsInt16 v
  y1 : ∀ v ∈ lastInt e.children "y1", FitsInt16 v
  x2 : ∀ v ∈ lastInt e.children "x2", FitsInt16 v
  y2 : ∀ v ∈ lastInt e.children "y2", FitsInt16 v

/-- The texts of a map fit. -/
structure Xml.FitsTexts (d : Xml) : Prop where
  portal : ∀ e ∈ sectionOf d.children "portal", ∀ x ∈ e.children, x.tag.name = "string" →
    (Xml.name x = "pn" ∨ Xml.name x = "tn" → (Xml.value x).utf8ByteSize ≤ 16) ∧
      (Xml.name x = "script" → (Xml.value x).utf8ByteSize ≤ 32)
  info : ∀ x ∈ sectionOf d.children "info", x.tag.name = "string" → Xml.name x = "onUserEnter" →
    (Xml.value x).utf8ByteSize ≤ 32

/-! ## Maps -/

/-- After parsing, the map is what the document says. -/
structure MapParserContext.Told (d : Xml) (s : MapParserContext) : Prop where
  head : s.head = []
  skip : s.skip = 0
  level : s.footholdLevel = 0
  lives : List.Forall₂ LifeInfo.Told (sectionOf d.children "life") s.lives.records
  portals : List.Forall₂ PortalInfo.Told (sectionOf d.children "portal") s.portals.records
  reactors : List.Forall₂ MapReactorInfo.Told (sectionOf d.children "reactor") s.reactors.records
  seats : s.seats.toNat = (sectionOf d.children "seat").length
  inserted : List.Forall₂ Foothold.Told (footholdsOf d.children) s.inserted
  livesCapacity : s.lives.count ≤ s.lives.capacity
  portalsCapacity : s.portals.count ≤ s.portals.capacity
  reactorsCapacity : s.reactors.count ≤ s.reactors.capacity
  overrun : s.overrun = false

/-- The values of a map fit. -/
structure Xml.FitsMap (d : Xml) : Prop where
  lives : ∀ e ∈ sectionOf d.children "life", Xml.FitsLife e
  portals : ∀ e ∈ sectionOf d.children "portal", Xml.FitsPortal e
  reactors : ∀ e ∈ sectionOf d.children "reactor", Xml.FitsReactor e
  seats : (sectionOf d.children "seat").length < 2 ^ 16
  footholds : ∀ e ∈ footholdsOf d.children, Xml.FitsFoothold e
  texts : Xml.FitsTexts d

/-! ## What is written to a record -/

/-- What is said of a value that has been written is said of what is written for it. -/
theorem written_iff {V X : Type} {o : Option V} {g : V → X} {x₀ x : X} (hx : x = (o.map g).getD x₀)
    {S : X → V → Prop} {F : V → Prop} (h : ∀ v, S (g v) v ↔ F v) :
    (∀ v ∈ o, S x v) ↔ ∀ v ∈ o, F v := by
  subst hx
  refine forall₂_congr fun v hv => ?_
  rw [Option.mem_def.1 hv]
  exact h v

theorem written_eq {V X : Type} {o : Option V} {conv : V → X} {x₀ x : X} (hx : x = (o.map conv).getD x₀) :
    ∀ v ∈ o, x = conv v :=
  (written_iff hx (S := fun x v => x = conv v) fun _ => Iff.of_eq (eq_self _)).2 fun _ _ => trivial

theorem written_int16 {o : Option ℤ} {x₀ x : Int16} (hx : x = (o.map Int16.ofInt).getD x₀) :
    (∀ v ∈ o, x.toInt = v) ↔ ∀ v ∈ o, FitsInt16 v :=
  written_iff hx (S := fun x v => x.toInt = v) toInt_ofInt_iff

theorem written_uint16 {o : Option ℤ} {x₀ x : UInt16} (hx : x = (o.map UInt16.ofInt).getD x₀) :
    (∀ v ∈ o, (x.toNat : ℤ) = v) ↔ ∀ v ∈ o, FitsUInt16 v :=
  written_iff hx (S := fun x v => (x.toNat : ℤ) = v) toNat_ofInt16_iff

theorem written_uint32 {V : Type} {num : V → ℤ} {o : Option V} {x₀ x : UInt32}
    (hx : x = (o.map fun v => UInt32.ofInt (num v)).getD x₀) :
    (∀ v ∈ o, (x.toNat : ℤ) = num v) ↔ ∀ v ∈ o, FitsUInt32 (num v) :=
  written_iff hx (S := fun x v => (x.toNat : ℤ) = num v) fun v => toNat_ofInt32_iff (num v)

section Entry

variable {R X : Type} {setInt : String → ℤ → R → R} {setString : String → String → R → R} {p : R → X}
  {q : String} {e : Xml}

theorem readEntry_int {g : ℤ → X} (hint : ∀ k v r, p (setInt k v r) = if k = q then g v else p r)
    (hstring : ∀ k v r, p (setString k v r) = p r) (r : R) :
    p (e.children.foldl (readEntry setInt setString) r) = ((lastInt e.children q).map g).getD (p r) := by
  rw [lastInt, ← findSome?_map]
  refine foldl_written (fun x _ r => ?_) r
  rw [readEntry, intOf]
  by_cases htype : x.tag.name = "int"
  · rw [if_pos htype, hint]
    by_cases hkey : Xml.name x = q
    · rw [if_pos hkey, if_pos ⟨htype, hkey⟩]
      rfl
    · rw [if_neg hkey, if_neg fun h => hkey h.2]
      rfl
  · rw [if_neg htype, if_neg fun h => htype h.1]
    exact hstring ..

theorem readEntry_string {g : String → X}
    (hstring : ∀ k v r, p (setString k v r) = if k = q then g v else p r)
    (hint : ∀ k v r, p (setInt k v r) = p r) (he : Xml.IsEntry e) (r : R) :
    p (e.children.foldl (readEntry setInt setString) r) =
      ((lastString e.children q).map g).getD (p r) := by
  rw [lastString, ← findSome?_map]
  refine foldl_written (fun x hx r => ?_) r
  rw [readEntry, stringOf]
  rcases (he x hx).1 with htype | htype
  · have hother : ¬(x.tag.name = "string" ∧ (x.tag.attr "name").getD "" = q) := by
      rw [htype]
      exact fun h => absurd h.1 (by decide)
    rw [if_pos htype, if_neg hother]
    exact hint ..
  · have hother : x.tag.name ≠ "int" := by
      rw [htype]
      decide
    rw [if_neg hother, hstring]
    by_cases hkey : Xml.name x = q
    · rw [if_pos hkey, if_pos ⟨htype, hkey⟩]
      rfl
    · rw [if_neg hkey, if_neg fun h => hkey h.2]
      rfl

end Entry

/-- A part of a record of the section `life` is set by the numbers with a key. -/
theorem LifeInfo.read_int {X : Type} {p : LifeInfo → X} {q : String} {g : ℤ → X}
    (hint : ∀ k v r, p (LifeInfo.setInt k v r) = if k = q then g v else p r)
    (hstring : ∀ k v r, p (LifeInfo.setString k v r) = p r) (e : Xml) (r : LifeInfo) :
    p (e.children.foldl lifeSection.read r) = ((lastInt e.children q).map g).getD (p r) :=
  readEntry_int hint hstring r

/-- A key that leads to what there is otherwise does not matter. -/
theorem ite_ite_of_ne {X : Type} {k a b : String} (h : a ≠ b) (z w : X) :
    (if k = a then z else if k = b then w else z) = if k = b then w else z := by
  by_cases hk : k = a
  · rw [if_pos hk, hk, if_neg h]
  · rw [if_neg hk]

/-- The numbers of an entry leave the type alone, and the id. -/
theorem LifeInfo.setInt_type (k : String) (v : ℤ) (r : LifeInfo) : (LifeInfo.setInt k v r).type = r.type := by
  simp only [LifeInfo.setInt, apply_ite LifeInfo.type, ite_self]

theorem LifeInfo.setInt_id (k : String) (v : ℤ) (r : LifeInfo) : (LifeInfo.setInt k v r).id = r.id := by
  simp only [LifeInfo.setInt, apply_ite LifeInfo.id, ite_self]

theorem lifeInfo_told_iff {e : Xml} (he : Xml.IsEntry e) (r : LifeInfo) :
    (e.children.foldl lifeSection.read r).Told e ↔ Xml.FitsLife e := by
  have htype : (e.children.foldl lifeSection.read r).type =
      ((lastString e.children "type").map LifeType.ofString).getD r.type :=
    readEntry_string (p := LifeInfo.type) (by intros; unfold LifeInfo.setString; split_ifs <;> simp_all)
      LifeInfo.setInt_type he r
  have hid : (e.children.foldl lifeSection.read r).id =
      ((lastString e.children "id").map fun v => UInt32.ofInt (strtol v)).getD r.id :=
    readEntry_string (p := LifeInfo.id) (by intros; unfold LifeInfo.setString; split_ifs <;> simp_all)
      LifeInfo.setInt_id he r
  have hx := LifeInfo.read_int (p := LifeInfo.x) (q := "x") (g := Int16.ofInt)
    (fun k v r => by simp (disch := decide) only [LifeInfo.setInt, apply_ite LifeInfo.x, ite_self])
    (by intros; unfold LifeInfo.setString; split_ifs <;> rfl) e r
  have hy := LifeInfo.read_int (p := LifeInfo.y) (q := "y") (g := Int16.ofInt)
    (fun k v r => by simp (disch := decide) only [LifeInfo.setInt, apply_ite LifeInfo.y, ite_self, ite_ite_of_ne])
    (by intros; unfold LifeInfo.setString; split_ifs <;> rfl) e r
  have hfh := LifeInfo.read_int (p := LifeInfo.fh) (q := "fh") (g := UInt16.ofInt)
    (fun k v r => by simp (disch := decide) only [LifeInfo.setInt, apply_ite LifeInfo.fh, ite_self, ite_ite_of_ne])
    (by intros; unfold LifeInfo.setString; split_ifs <;> rfl) e r
  have hcy := LifeInfo.read_int (p := LifeInfo.cy) (q := "cy") (g := Int16.ofInt)
    (fun k v r => by simp (disch := decide) only [LifeInfo.setInt, apply_ite LifeInfo.cy, ite_self, ite_ite_of_ne])
    (by intros; unfold LifeInfo.setString; split_ifs <;> rfl) e r
  have hrx0 := LifeInfo.read_int (p := LifeInfo.rx0) (q := "rx0") (g := Int16.ofInt)
    (fun k v r => by simp (disch := decide) only [LifeInfo.setInt, apply_ite LifeInfo.rx0, ite_self, ite_ite_of_ne])
    (by intros; unfold LifeInfo.setString; split_ifs <;> rfl) e r
  have hrx1 := LifeInfo.read_int (p := LifeInfo.rx1) (q := "rx1") (g := Int16.ofInt)
    (fun k v r => by simp (disch := decide) only [LifeInfo.setInt, apply_ite LifeInfo.rx1, ite_self, ite_ite_of_ne])
    (by intros; unfold LifeInfo.setString; split_ifs <;> rfl) e r
  have hf := LifeInfo.read_int (p := LifeInfo.f) (q := "f") (g := fun v => decide (v ≠ 0))
    (fun k v r => by simp (disch := decide) only [LifeInfo.setInt, apply_ite LifeInfo.f, ite_ite_of_ne])
    (by intros; unfold LifeInfo.setString; split_ifs <;> rfl) e r
  constructor
  · intro h
    exact ⟨(written_uint32 hid).1 h.id, (written_int16 hx).1 h.x, (written_int16 hy).1 h.y,
      (written_uint16 hfh).1 h.fh, (written_int16 hcy).1 h.cy, (written_int16 hrx0).1 h.rx0,
      (written_int16 hrx1).1 h.rx1⟩
  · intro h
    exact ⟨written_eq htype, (written_uint32 hid).2 h.id, (written_int16 hx).2 h.x, (written_int16 hy).2 h.y,
      (written_uint16 hfh).2 h.fh, (written_int16 hcy).2 h.cy, (written_int16 hrx0).2 h.rx0,
      (written_int16 hrx1).2 h.rx1, written_eq hf⟩

theorem portalInfo_told_iff {e : Xml} (he : Xml.IsEntry e) (p : PortalInfo) :
    (e.children.foldl portalSection.read p).Told e ↔ Xml.FitsPortal e := by
  have hname : (e.children.foldl portalSection.read p).name = ((lastString e.children "pn").map id).getD p.name :=
    readEntry_string (p := PortalInfo.name) (by intros; unfold PortalInfo.setString; split_ifs <;> simp_all)
      (by intros; unfold PortalInfo.setInt; split_ifs <;> rfl) he p
  have htargetName : (e.children.foldl portalSection.read p).targetName =
      ((lastString e.children "tn").map id).getD p.targetName :=
    readEntry_string (p := PortalInfo.targetName)
      (by intros; unfold PortalInfo.setString; split_ifs <;> simp_all)
      (by intros; unfold PortalInfo.setInt; split_ifs <;> rfl) he p
  have hscript : (e.children.foldl portalSection.read p).script =
      ((lastString e.children "script").map id).getD p.script :=
    readEntry_string (p := PortalInfo.script)
      (by intros; unfold PortalInfo.setString; split_ifs <;> simp_all)
      (by intros; unfold PortalInfo.setInt; split_ifs <;> rfl) he p
  have hx : (e.children.foldl portalSection.read p).x = ((lastInt e.children "x").map Int16.ofInt).getD p.x :=
    readEntry_int (p := PortalInfo.x) (by intros; unfold PortalInfo.setInt; split_ifs <;> simp_all)
      (by intros; unfold PortalInfo.setString; split_ifs <;> rfl) p
  have hy : (e.children.foldl portalSection.read p).y = ((lastInt e.children "y").map Int16.ofInt).getD p.y :=
    readEntry_int (p := PortalInfo.y) (by intros; unfold PortalInfo.setInt; split_ifs <;> simp_all)
      (by intros; unfold PortalInfo.setString; split_ifs <;> rfl) p
  have htargetMap : (e.children.foldl portalSection.read p).targetMap =
      ((lastInt e.children "tm").map UInt32.ofInt).getD p.targetMap :=
    readEntry_int (p := PortalInfo.targetMap)
      (by intros; unfold PortalInfo.setInt; split_ifs <;> simp_all)
      (by intros; unfold PortalInfo.setString; split_ifs <;> rfl) p
  constructor
  · intro h
    exact ⟨(written_int16 hx).1 h.x, (written_int16 hy).1 h.y, (written_uint32 htargetMap).1 h.targetMap⟩
  · intro h
    exact ⟨written_eq hname, (written_int16 hx).2 h.x, (written_int16 hy).2 h.y,
      (written_uint32 htargetMap).2 h.targetMap, written_eq htargetName, written_eq hscript⟩

theorem mapReactorInfo_told_iff {e : Xml} (he : Xml.IsEntry e) (r : MapReactorInfo) :
    (e.children.foldl reactorSection.read r).Told e ↔ Xml.FitsReactor e := by
  have hid : (e.children.foldl reactorSection.read r).id =
      ((lastString e.children "id").map fun v => UInt32.ofInt (strtol v)).getD r.id :=
    readEntry_string (p := MapReactorInfo.id)
      (by intros; unfold MapReactorInfo.setString; split_ifs <;> simp_all)
      (by intros; unfold MapReactorInfo.setInt; split_ifs <;> rfl) he r
  have hx : (e.children.foldl reactorSection.read r).x = ((lastInt e.children "x").map Int16.ofInt).getD r.x :=
    readEntry_int (p := MapReactorInfo.x) (by intros; unfold MapReactorInfo.setInt; split_ifs <;> simp_all)
      (by intros; unfold MapReactorInfo.setString; split_ifs <;> rfl) r
  have hy : (e.children.foldl reactorSection.read r).y = ((lastInt e.children "y").map Int16.ofInt).getD r.y :=
    readEntry_int (p := MapReactorInfo.y) (by intros; unfold MapReactorInfo.setInt; split_ifs <;> simp_all)
      (by intros; unfold MapReactorInfo.setString; split_ifs <;> rfl) r
  have htime : (e.children.foldl reactorSection.read r).reactorTime =
      ((lastInt e.children "reactorTime").map fun v => if v = 1 then 1 else 0).getD r.reactorTime :=
    readEntry_int (p := MapReactorInfo.reactorTime)
      (by intros; unfold MapReactorInfo.setInt; split_ifs <;> simp_all)
      (by intros; unfold MapReactorInfo.setString; split_ifs <;> rfl) r
  have hf : (e.children.foldl reactorSection.read r).f =
      ((lastInt e.children "f").map fun v => decide (v = 1)).getD r.f :=
    readEntry_int (p := MapReactorInfo.f) (by intros; unfold MapReactorInfo.setInt; split_ifs <;> simp_all)
      (by intros; unfold MapReactorInfo.setString; split_ifs <;> rfl) r
  -- Whether it is `1` is kept.
  have htimeFits := written_iff htime (S := fun x v => x.toInt = v) (F := fun v => v = 0 ∨ v = 1) fun v => by
    by_cases hv : v = 1
    · rw [if_pos hv, hv]
      decide
    · rw [if_neg hv]
      exact ⟨fun h => .inl h.symm, fun h => (h.resolve_right hv).symm⟩
  have hfFits := written_iff hf (S := fun x v => x = decide (v ≠ 0)) (F := fun v => v = 0 ∨ v = 1) fun v => by
    rw [decide_eq_decide]
    omega
  constructor
  · intro h
    exact ⟨(written_uint32 hid).1 h.id, htimeFits.1 h.reactorTime, (written_int16 hx).1 h.x,
      (written_int16 hy).1 h.y, hfFits.1 h.f⟩
  · intro h
    exact ⟨(written_uint32 hid).2 h.id, htimeFits.2 h.reactorTime, (written_int16 hx).2 h.x,
      (written_int16 hy).2 h.y, hfFits.2 h.f⟩

/-- A coordinate is the number given for it. -/
theorem readCoordinate_int {p : Foothold → Int16} {q : String}
    (hset : ∀ k v fh, p (Foothold.setCoordinate k v fh) = if k = q then Int16.ofInt v else p fh) {e : Xml}
    (he : ∀ x ∈ e.children, x.tag.name = "int") (fh : Foothold) :
    p (e.children.foldl readCoordinate fh) = ((lastInt e.children q).map Int16.ofInt).getD (p fh) := by
  rw [lastInt, ← findSome?_map]
  refine foldl_written (fun x hx r => ?_) fh
  rw [readCoordinate, intOf, hset]
  by_cases hkey : Xml.name x = q
  · rw [if_pos hkey, if_pos ⟨he x hx, hkey⟩]
    rfl
  · rw [if_neg hkey, if_neg fun h => hkey h.2]
    rfl

theorem foothold_told_iff {e : Xml} (he : Xml.IsFoothold e) {fh : Foothold} (hmade : fh.Made e) :
    fh.Told e ↔ Xml.FitsFoothold e := by
  obtain ⟨fh₀, rfl⟩ := hmade
  have hkept (l : List Xml) (fh : Foothold) : (l.foldl readCoordinate fh).id = fh.id := by
    induction l generalizing fh with
    | nil => rfl
    | cons x l ih =>
      rw [List.foldl_cons, ih, readCoordinate, Foothold.setCoordinate]
      split_ifs <;> rfl
  have hint (x : Xml) (hx : x ∈ e.children) : x.tag.name = "int" := (he.values x hx).1
  have hx1 := readCoordinate_int (p := (·.p1.x)) (q := "x1")
    (by intros; unfold Foothold.setCoordinate; split_ifs <;> simp_all) hint
    { fh₀ with id := UInt32.ofInt (strtol e.tag.id) }
  have hy1 := readCoordinate_int (p := (·.p1.y)) (q := "y1")
    (by intros; unfold Foothold.setCoordinate; split_ifs <;> simp_all) hint
    { fh₀ with id := UInt32.ofInt (strtol e.tag.id) }
  have hx2 := readCoordinate_int (p := (·.p2.x)) (q := "x2")
    (by intros; unfold Foothold.setCoordinate; split_ifs <;> simp_all) hint
    { fh₀ with id := UInt32.ofInt (strtol e.tag.id) }
  have hy2 := readCoordinate_int (p := (·.p2.y)) (q := "y2")
    (by intros; unfold Foothold.setCoordinate; split_ifs <;> simp_all) hint
    { fh₀ with id := UInt32.ofInt (strtol e.tag.id) }
  have hid := toNat_ofInt32_iff (strtol e.tag.id)
  constructor
  · intro h
    refine ⟨hid.1 ?_, (written_int16 hx1).1 h.x1, (written_int16 hy1).1 h.y1, (written_int16 hx2).1 h.x2,
      (written_int16 hy2).1 h.y2⟩
    have hidTold := h.id
    rwa [hkept] at hidTold
  · intro h
    refine ⟨?_, (written_int16 hx1).2 h.x1, (written_int16 hy1).2 h.y1, (written_int16 hx2).2 h.x2,
      (written_int16 hy2).2 h.y2⟩
    rw [hkept]
    exact hid.2 h.id

/-! ## The map -/

/-- Entries are told one by one. -/
theorem forall₂_told_iff {R : Type} {Made T : Xml → R → Prop} {F : Xml → Prop} {l : List Xml} {rs : List R}
    (hmade : List.Forall₂ Made l rs) (h : ∀ e ∈ l, ∀ r, Made e r → (T e r ↔ F e)) :
    List.Forall₂ T l rs ↔ ∀ e ∈ l, F e := by
  induction hmade with
  | nil => exact ⟨fun _ _ h => absurd h List.not_mem_nil, fun _ => .nil⟩
  | @cons e r l rs hr hrs ih =>
    rw [List.forall₂_cons, List.forall_mem_cons, h e List.mem_cons_self r hr,
      ih fun e he => h e (List.mem_cons_of_mem _ he)]

/-- Nothing has been written beyond the end if and only if the texts fit. -/
theorem overrun_iff {d : Xml}
    (hportals : ∀ e ∈ sectionOf d.children "portal", Xml.IsEntry e) :
    overrunOf d.children = false ↔ Xml.FitsTexts d := by
  have hportal (x : Xml) (hx : x.tag.name = "int" ∨ x.tag.name = "string") : portalSection.overrun x = false ↔
      (x.tag.name = "string" → (Xml.name x = "pn" ∨ Xml.name x = "tn" → (Xml.value x).utf8ByteSize ≤ 16) ∧
        (Xml.name x = "script" → (Xml.value x).utf8ByteSize ≤ 32)) := by
    rcases hx with hx | hx
    · simp only [portalSection, hx, if_true, true_iff]
      exact fun h => absurd h (by decide)
    · simp only [portalSection, hx, string_ne_int, if_false, portalOverrun, Bool.or_eq_false_iff,
        Bool.and_eq_false_imp, decide_eq_true_iff, decide_eq_false_iff_not, not_lt, true_imp_iff]
  have hinfo (x : Xml) : infoOverrun x = false ↔
      (x.tag.name = "string" → Xml.name x = "onUserEnter" → (Xml.value x).utf8ByteSize ≤ 32) := by
    simp only [infoOverrun, decide_eq_false_iff_not, not_and, not_lt]
  rw [overrunOf, Bool.or_eq_false_iff]
  constructor
  · rintro ⟨hp, hi⟩
    rw [List.any_eq_false] at hp hi
    refine ⟨fun e he x hx => ?_, fun x hx => (hinfo x).1 (Bool.eq_false_of_not_eq_true (hi x hx))⟩
    have hnone := Bool.eq_false_of_not_eq_true (hp e he)
    rw [List.any_eq_false] at hnone
    exact (hportal x (hportals e he x hx).1).1 (Bool.eq_false_of_not_eq_true (hnone x hx))
  · rintro ⟨hp, hi⟩
    constructor
    · refine List.any_eq_false.2 fun e he => Bool.not_eq_true _ ▸ List.any_eq_false.2 fun x hx => ?_
      rw [Bool.not_eq_true]
      exact (hportal x (hportals e he x hx).1).2 (hp e he x hx)
    · refine List.any_eq_false.2 fun x hx => ?_
      rw [Bool.not_eq_true]
      exact (hinfo x).2 (hi x hx)

/-- The map is what the document says if and only if its values fit. -/
theorem mapInfo_told_iff {d : Xml} (hd : Xml.IsMap d) (fh : Foothold) (returnMap : UInt32) (lives : ℕ → LifeInfo)
    (portals : ℕ → PortalInfo) (reactors : ℕ → MapReactorInfo) :
    (∃ s, mapParser.run d.events (.start fh returnMap lives portals reactors) = .ok s ∧ s.Told d) ↔
      Xml.FitsMap d := by
  obtain ⟨s, s', hrun, hs, rfl⟩ := run_map hd fh returnMap lives portals reactors
  have hentry (name : String) (hname : name = "life" ∨ name = "portal" ∨ name = "reactor") (e : Xml)
      (he : e ∈ sectionOf d.children name) : Xml.IsEntry e := by
    obtain ⟨c, hc, he⟩ := List.mem_flatMap.1 he
    rw [List.mem_filter, decide_eq_true_iff] at hc
    exact hd.entries c hc.1 (hc.2 ▸ hname) e he
  have hfoothold (e : Xml) (he : e ∈ footholdsOf d.children) : Xml.IsFoothold e := by
    obtain ⟨layer, hlayer, he⟩ := List.mem_flatMap.1 he
    obtain ⟨c, hc, hlayer⟩ := List.mem_flatMap.1 hlayer
    rw [List.mem_filter, decide_eq_true_iff] at hc
    obtain ⟨group, hgroup, he⟩ := List.mem_flatMap.1 he
    exact hd.footholds c hc.1 hc.2 layer hlayer group hgroup e he
  have hlives := forall₂_told_iff (T := LifeInfo.Told) (F := Xml.FitsLife) hs.lives.listed.made
    fun e he r hr => by
      obtain ⟨r₀, rfl⟩ := hr
      exact lifeInfo_told_iff (hentry "life" (.inl rfl) e he) r₀
  have hportals := forall₂_told_iff (T := PortalInfo.Told) (F := Xml.FitsPortal) hs.portals.listed.made
    fun e he r hr => by
      obtain ⟨r₀, rfl⟩ := hr
      exact portalInfo_told_iff (hentry "portal" (.inr (.inl rfl)) e he) r₀
  have hreactors := forall₂_told_iff (T := MapReactorInfo.Told) (F := Xml.FitsReactor)
    hs.reactors.listed.made fun e he r hr => by
      obtain ⟨r₀, rfl⟩ := hr
      exact mapReactorInfo_told_iff (hentry "reactor" (.inr (.inr rfl)) e he) r₀
  have hfootholds := forall₂_told_iff (T := Foothold.Told) (F := Xml.FitsFoothold) hs.inserted
    fun e he r hr => foothold_told_iff (hfoothold e he) hr
  have hseats : s.seats.toNat = (sectionOf d.children "seat").length ↔
      (sectionOf d.children "seat").length < 2 ^ 16 := by
    rw [hs.seats, UInt16.toNat_ofNat']
    omega
  have htexts := overrun_iff (hentry "portal" (.inr (.inl rfl)))
  rw [← hs.overrun] at htexts
  constructor
  · rintro ⟨s', hrun', h⟩
    obtain rfl := Except.ok.inj (hrun.symm.trans hrun')
    exact ⟨hlives.1 h.lives, hportals.1 h.portals, hreactors.1 h.reactors, hseats.1 h.seats,
      hfootholds.1 h.inserted, htexts.1 h.overrun⟩
  · intro h
    exact ⟨_, hrun, rfl, hs.skip, hs.level, hlives.2 h.lives, hportals.2 h.portals, hreactors.2 h.reactors,
      hseats.2 h.seats, hfootholds.2 h.footholds, hs.lives.listed.count, hs.portals.listed.count,
      hs.reactors.listed.count, htexts.2 h.texts⟩

/-- A document about a map with one reactor, that comes back after a time. -/
def reactorDocument (reactorTime : String) : Xml :=
  .node ⟨"imgdir", [("name", "100000000.img")]⟩
    [.node ⟨"imgdir", [("name", "reactor")]⟩
      [.node ⟨"imgdir", [("name", "0")]⟩
        [.node ⟨"string", [("name", "id"), ("value", "2000")]⟩ [],
          .node ⟨"int", [("name", "reactorTime"), ("value", reactorTime)]⟩ []]]]

theorem reactorDocument_isMap (reactorTime : String) : Xml.IsMap (reactorDocument reactorTime) where
  imgdir := rfl
  named := ⟨_, rfl⟩
  sections c hc := by
    obtain rfl := List.mem_singleton.1 hc
    exact ⟨rfl, _, rfl⟩
  once := List.pairwise_singleton ..
  info c hc hname := by
    obtain rfl := List.mem_singleton.1 hc
    have hne : "reactor" ≠ "info" := by decide
    exact absurd hname hne
  entries c hc _ e he x hx := by
    obtain rfl := List.mem_singleton.1 hc
    obtain rfl := List.mem_singleton.1 he
    rcases List.mem_cons.1 hx with rfl | hx
    · exact ⟨.inr rfl, _, _, rfl, rfl⟩
    · obtain rfl := List.mem_singleton.1 hx
      exact ⟨.inl rfl, _, _, rfl, rfl⟩
  footholds c hc hname := by
    obtain rfl := List.mem_singleton.1 hc
    have hne : "reactor" ≠ "foothold" := by decide
    exact absurd hname hne

/-- A map in memory that is all zeros. -/
def zeroMap : MapParserContext :=
  .start default 0 (fun _ => ⟨.mob, 0, 0, 0, 0, 0, 0, 0, false⟩) (fun _ => ⟨0, "", 0, 0, 0, "", ""⟩)
    fun _ => ⟨0, 0, 0, 0, false⟩

/-- A reactor that comes back after one second. -/
theorem mapInfo_told_second :
    ∃ s, mapParser.run (reactorDocument "1").events zeroMap = .ok s ∧ s.Told (reactorDocument "1") := by
  have hnone (name : String) (h : "reactor" ≠ name) : sectionOf (reactorDocument "1").children name = [] :=
    sectionOf_fresh fun c hc => by
      obtain rfl := List.mem_singleton.1 hc
      exact h
  have hlife := hnone "life" (by decide)
  have hportal := hnone "portal" (by decide)
  have hseat := hnone "seat" (by decide)
  have hinfo := hnone "info" (by decide)
  have hfoothold : footholdsOf (reactorDocument "1").children = [] := by
    rw [footholdsOf, hnone "foothold" (by decide), List.flatMap_nil]
  refine (mapInfo_told_iff (reactorDocument_isMap "1") _ _ _ _ _).2 ⟨?_, ?_, ?_, ?_, ?_, ?_, ?_⟩
  · rw [hlife]
    exact fun _ h => absurd h List.not_mem_nil
  · rw [hportal]
    exact fun _ h => absurd h List.not_mem_nil
  · intro e he
    obtain ⟨c, hc, he⟩ := List.mem_flatMap.1 he
    obtain rfl := List.mem_singleton.1 (List.mem_of_mem_filter hc)
    obtain rfl := List.mem_singleton.1 he
    refine ⟨fun v hv => ?_, fun v hv => ?_, fun v hv => ?_, fun v hv => ?_, fun v hv => ?_⟩
    · obtain rfl : "2000" = v := Option.some.inj hv
      exact ⟨by decide +kernel, by decide +kernel⟩
    · obtain rfl : strtol "1" = v := Option.some.inj hv
      exact .inr (by decide +kernel)
    · cases hv
    · cases hv
    · cases hv
  · rw [hseat]
    decide
  · rw [hfoothold]
    exact fun _ h => absurd h List.not_mem_nil
  · rw [hportal]
    exact fun _ h => absurd h List.not_mem_nil
  · rw [hinfo]
    exact fun _ h => absurd h List.not_mem_nil

/-- A reactor that comes back after ten seconds: it is told that it never does. -/
theorem mapInfo_told_fails :
    ¬∃ s, mapParser.run (reactorDocument "10").events zeroMap = .ok s ∧ s.Told (reactorDocument "10") := by
  rintro ⟨s, hrun, hs⟩
  have htimes : ((mapParser.run (reactorDocument "10").events zeroMap).map fun s =>
      s.reactors.records.map (·.reactorTime)) = .ok [0] := by decide +kernel
  rw [hrun] at htimes
  have hreactors := hs.reactors
  obtain ⟨e, hsection⟩ : ∃ e, sectionOf (reactorDocument "10").children "reactor" = [e] ∧
      lastInt e.children "reactorTime" = some 10 := ⟨_, rfl, by decide +kernel⟩
  rw [hsection.1] at hreactors
  cases hrecords : s.reactors.records with
  | nil =>
    rw [hrecords] at hreactors
    cases hreactors
  | cons r rs =>
    rw [hrecords] at hreactors
    have htime := (List.forall₂_cons.1 hreactors).1.reactorTime 10 hsection.2
    have hrs : s.reactors.records.map (·.reactorTime) = [0] := Except.ok.inj htimes
    rw [hrecords] at hrs
    have hzero : r.reactorTime = 0 := (List.cons.inj hrs).1
    rw [hzero] at htime
    exact absurd htime (by decide)

end Syrup
