import Syrup.Wz.Items.Parsed

/-!
# The two parsers of items

What a section `info` says of an item is the last value given for each of its attributes, or a default
(`ItemRecord.described`). This is what becomes of an item (`itemRecord_eq`), but not of a piece of equipment
with `quest`, as that is taken for `monsterBook`: the records are those described if and only if this does no
harm (`itemInfos_described_iff`).
-/

namespace Syrup

open Sax ItemParserContext

variable {D : Type}

/-! ## What is said of an item -/

/-- The value of a `double`, if it is the attribute `key`. -/
def doubleOf (key : String) (c : Xml) : Option String :=
  if c.tag.name = "double" ∧ (c.tag.attr "name").getD "" = key then some ((c.tag.attr "value").getD "") else none

/-- Whether it is positive. -/
def flag (cs : List Xml) (key : String) : Bool := ((lastInt cs key).map fun v => decide (0 < v)).getD false

/-- The record of an item of which the section `info` says `cs`. -/
def ItemRecord.described (fl : Doubles D) (id : String) (cs : List Xml) : ItemRecord D where
  id := UInt32.ofInt (strtol id)
  slotMax := ((lastInt cs "slotMax").map Int16.ofInt).getD 100
  price := ((lastInt cs "price").map Int32.ofInt).getD 0
  untradable := flag cs "tradeBlock"
  oneOfAKind := flag cs "only"
  monsterBook := flag cs "monsterBook"
  quest := flag cs "quest"
  unitPrice := ((cs.reverse.findSome? (doubleOf "unitPrice")).map fun v => fl.strtod (withPoint v)).getD fl.zero

/-- An attribute `quest` of a piece of equipment does no harm: it is not positive, and it does not come after
    a positive `monsterBook`. -/
def QuestHarmless (cs : List Xml) : Prop :=
  ∀ before q after v, cs = before ++ q :: after → intOf "quest" q = some v → lastInt after "quest" = none →
    v ≤ 0 ∧ (lastInt after "monsterBook" = none → ∀ w, lastInt before "monsterBook" = some w → w ≤ 0)

/-! ## What becomes of it -/

/-- What a section is read as. -/
def ItemRecord.readAll (fl : Doubles D) (set : String → ℤ → ItemRecord D → ItemRecord D) (id : String)
    (cs : List Xml) : ItemRecord D :=
  cs.foldl (·.read fl set) (.initial fl id)

section Read

variable (fl : Doubles D)

/-- What is written to a part of the record is the last value of its attribute. -/
theorem read_int {X : Type} (set : String → ℤ → ItemRecord D → ItemRecord D) {p : ItemRecord D → X}
    {g : ℤ → X} {q : String}
    (hset : ∀ k v r, p (set k v r) = if k = q then g v else p r)
    (hdouble : ∀ k v r, p (ItemRecord.setDouble fl k v r) = p r) (cs : List Xml) (r : ItemRecord D) :
    p (cs.foldl (·.read fl set) r) = ((lastInt cs q).map g).getD (p r) := by
  rw [lastInt, ← findSome?_map]
  refine foldl_written (fun c _ r => ?_) r
  simp only [ItemRecord.read, intOf]
  by_cases hint : c.tag.name = "int"
  · rw [if_pos hint, hset]
    by_cases hkey : (c.tag.attr "name").getD "" = q
    · rw [if_pos hkey, if_pos ⟨hint, hkey⟩]
      rfl
    · rw [if_neg hkey, if_neg fun h => hkey h.2]
      rfl
  · have hother : ¬(c.tag.name = "int" ∧ (c.tag.attr "name").getD "" = q) := fun h => hint h.1
    rw [if_neg hint, if_neg hother]
    split
    · exact hdouble ..
    · rfl

/-- So it is for the unit price. -/
theorem read_double {set : String → ℤ → ItemRecord D → ItemRecord D}
    (hset : ∀ k v r, (set k v r).unitPrice = r.unitPrice) (cs : List Xml) (r : ItemRecord D) :
    (cs.foldl (·.read fl set) r).unitPrice =
      ((cs.reverse.findSome? (doubleOf "unitPrice")).map fun v => fl.strtod (withPoint v)).getD r.unitPrice := by
  rw [← findSome?_map]
  refine foldl_written (fun c _ r => ?_) r
  simp only [ItemRecord.read, doubleOf]
  by_cases hdouble : c.tag.name = "double"
  · have hint : c.tag.name ≠ "int" := by
      rw [hdouble]
      decide
    rw [if_neg hint, if_pos hdouble, ItemRecord.setDouble]
    by_cases hkey : (c.tag.attr "name").getD "" = "unitPrice"
    · rw [if_pos hkey, if_pos ⟨hdouble, hkey⟩]
      rfl
    · have hother : ¬(c.tag.name = "double" ∧ (c.tag.attr "name").getD "" = "unitPrice") := fun h => hkey h.2
      rw [if_neg hkey, if_neg hother]
      rfl
  · have hother : ¬(c.tag.name = "double" ∧ (c.tag.attr "name").getD "" = "unitPrice") := fun h => hdouble h.1
    rw [if_neg hother, if_neg hdouble]
    split
    · exact hset ..
    · rfl

/-- The id is not in the section. -/
theorem read_id {set : String → ℤ → ItemRecord D → ItemRecord D} (hset : ∀ k v r, (set k v r).id = r.id)
    (cs : List Xml) (r : ItemRecord D) : (cs.foldl (·.read fl set) r).id = r.id := by
  induction cs generalizing r with
  | nil => rfl
  | cons c cs ih =>
    rw [List.foldl_cons, ih, ItemRecord.read]
    split
    · exact hset ..
    · split
      · rw [ItemRecord.setDouble]
        split <;> rfl
      · rfl

/-- What `setDouble` does not write to. -/
theorem setDouble_toItemInfo (k v : String) (r : ItemRecord D) :
    (ItemRecord.setDouble fl k v r).toItemInfo = r.toItemInfo := by
  rw [ItemRecord.setDouble]
  split <;> rfl

end Read

/-- The attributes that are set alike by both parsers. -/
structure SetsAlike (set : String → ℤ → ItemRecord D → ItemRecord D) : Prop where
  id : ∀ k v r, (set k v r).id = r.id
  slotMax : ∀ k v r, (set k v r).slotMax = if k = "slotMax" then Int16.ofInt v else r.slotMax
  price : ∀ k v r, (set k v r).price = if k = "price" then Int32.ofInt v else r.price
  untradable : ∀ k v r, (set k v r).untradable = if k = "tradeBlock" then decide (0 < v) else r.untradable
  oneOfAKind : ∀ k v r, (set k v r).oneOfAKind = if k = "only" then decide (0 < v) else r.oneOfAKind
  unitPrice : ∀ k v r, (set k v r).unitPrice = r.unitPrice

theorem setInt_alike : SetsAlike (ItemRecord.setInt (D := D)) := by
  constructor <;> intro k v r <;> rw [ItemRecord.setInt] <;> split_ifs <;> simp_all

theorem setEquipInt_alike : SetsAlike (ItemRecord.setEquipInt (D := D)) := by
  constructor <;> intro k v r <;> rw [ItemRecord.setEquipInt] <;> split_ifs <;> simp_all

/-- But for `monsterBook` and `quest` they tell the section as it is. -/
theorem SetsAlike.read {set : String → ℤ → ItemRecord D → ItemRecord D} (h : SetsAlike set) (fl : Doubles D)
    (id : String) (cs : List Xml) :
    ItemRecord.readAll fl set id cs =
      { ItemRecord.described fl id cs with
        monsterBook := (ItemRecord.readAll fl set id cs).monsterBook
        quest := (ItemRecord.readAll fl set id cs).quest } := by
  have hdouble {X : Type} (part : ItemInfo → X) (k v : String) (r : ItemRecord D) :
      part (ItemRecord.setDouble fl k v r).toItemInfo = part r.toItemInfo := by
    rw [setDouble_toItemInfo]
  have hid := read_id fl h.id cs (.initial fl id)
  have hslotMax := read_int fl set (p := fun r => r.slotMax) h.slotMax (hdouble (·.slotMax)) cs (.initial fl id)
  have hprice := read_int fl set (p := fun r => r.price) h.price (hdouble (·.price)) cs (.initial fl id)
  have huntradable := read_int fl set (p := fun r => r.untradable) (g := fun v => decide (0 < v))
    h.untradable (hdouble (·.untradable)) cs (.initial fl id)
  have honeOfAKind := read_int fl set (p := fun r => r.oneOfAKind) (g := fun v => decide (0 < v))
    h.oneOfAKind (hdouble (·.oneOfAKind)) cs (.initial fl id)
  have hunitPrice := read_double fl h.unitPrice cs (.initial fl id)
  rw [ItemRecord.readAll]
  generalize cs.foldl (·.read fl set) (ItemRecord.initial fl id) = r at *
  obtain ⟨⟨_, _, _, _, _, _, _⟩, _⟩ := r
  simp only [ItemRecord.mk.injEq, ItemInfo.mk.injEq]
  exact ⟨⟨hid, hslotMax, hprice, huntradable, honeOfAKind, trivial, trivial⟩, hunitPrice⟩

/-- An item is told as it is. -/
theorem itemRecord_eq (fl : Doubles D) (e : Xml) :
    itemRecord fl e = .described fl e.tag.id (Xml.itemInfo e) := by
  have hmonsterBook := read_int fl .setInt (p := fun r => r.monsterBook)
    (g := fun v => decide (0 < v)) (q := "monsterBook")
    (fun k v r => by rw [ItemRecord.setInt]; split_ifs <;> simp_all)
    (fun k v r => by rw [setDouble_toItemInfo]) (Xml.itemInfo e) (.initial fl e.tag.id)
  have hquest := read_int fl .setInt (p := fun r => r.quest)
    (g := fun v => decide (0 < v)) (q := "quest")
    (fun k v r => by rw [ItemRecord.setInt]; split_ifs <;> simp_all)
    (fun k v r => by rw [setDouble_toItemInfo]) (Xml.itemInfo e) (.initial fl e.tag.id)
  change ItemRecord.readAll fl .setInt e.tag.id (Xml.itemInfo e) = _
  rw [setInt_alike.read, ItemRecord.readAll, hmonsterBook, hquest]
  rfl

/-- The value given for either of two attributes. -/
def lastOf (cs : List Xml) (key key' : String) : Option ℤ :=
  cs.reverse.findSome? fun c => (intOf key c).or (intOf key' c)

/-- What becomes of a piece of equipment. -/
theorem equipRecord_eq (fl : Doubles D) (d : Xml) :
    equipRecord fl d = { ItemRecord.described fl d.tag.id (Xml.equipInfo d) with
      monsterBook := ((lastOf (Xml.equipInfo d) "monsterBook" "quest").map fun v => decide (0 < v)).getD false
      quest := false } := by
  have hmonsterBook : (ItemRecord.readAll fl .setEquipInt d.tag.id (Xml.equipInfo d)).monsterBook =
      ((lastOf (Xml.equipInfo d) "monsterBook" "quest").map fun v => decide (0 < v)).getD false := by
    rw [lastOf, ← findSome?_map]
    refine foldl_written (p := fun r : ItemRecord D => r.monsterBook) (fun c _ r => ?_)
      (.initial fl d.tag.id)
    simp only [ItemRecord.read, intOf]
    by_cases hint : c.tag.name = "int"
    · rw [if_pos hint, ItemRecord.setEquipInt]
      split_ifs <;> simp_all
    · rw [if_neg hint]
      split_ifs <;> simp_all [setDouble_toItemInfo]
  have hkept (l : List Xml) (r : ItemRecord D) : (l.foldl (·.read fl .setEquipInt) r).quest = r.quest := by
    induction l generalizing r with
    | nil => rfl
    | cons c l ih =>
      rw [List.foldl_cons, ih, ItemRecord.read]
      split
      · rw [ItemRecord.setEquipInt]
        split_ifs <;> rfl
      · split
        · rw [setDouble_toItemInfo]
        · rfl
  have hquest : (ItemRecord.readAll fl .setEquipInt d.tag.id (Xml.equipInfo d)).quest = false :=
    hkept (Xml.equipInfo d) (.initial fl d.tag.id)
  change ItemRecord.readAll fl .setEquipInt d.tag.id (Xml.equipInfo d) = _
  rw [setEquipInt_alike.read, hmonsterBook, hquest]

/-! ## When it is the same -/

theorem lastInt_split (key : String) (before : List Xml) (q : Xml) (after : List Xml) :
    lastInt (before ++ q :: after) key = ((lastInt after key).or (intOf key q)).or (lastInt before key) := by
  rw [lastInt, List.reverse_append, List.reverse_cons, List.findSome?_append, List.findSome?_append,
    List.findSome?_singleton]
  rfl

theorem lastOf_split (key key' : String) (before : List Xml) (q : Xml) (after : List Xml) :
    lastOf (before ++ q :: after) key key' =
      ((lastOf after key key').or ((intOf key q).or (intOf key' q))).or (lastOf before key key') := by
  rw [lastOf, List.reverse_append, List.reverse_cons, List.findSome?_append, List.findSome?_append,
    List.findSome?_singleton]
  rfl

theorem lastOf_of_none {cs : List Xml} {key key' : String} (h : lastInt cs key' = none) :
    lastOf cs key key' = lastInt cs key := by
  rw [lastInt, List.findSome?_eq_none_iff] at h
  have hor (l : List Xml) (hl : ∀ c ∈ l, intOf key' c = none) :
      l.findSome? (fun c => (intOf key c).or (intOf key' c)) = l.findSome? (intOf key) := by
    induction l with
    | nil => rfl
    | cons c l ih =>
      rw [List.findSome?_cons, List.findSome?_cons, hl c List.mem_cons_self, Option.or_none,
        ih fun c hc => hl c (List.mem_cons_of_mem _ hc)]
  exact hor _ h

theorem intOf_ne {key key' : String} (hne : key ≠ key') {c : Xml} {v : ℤ} (h : intOf key c = some v) :
    intOf key' c = none := by
  rw [intOf] at h ⊢
  split at h
  · rename_i hc
    exact if_neg fun hc' => hne (hc.2.symm.trans hc'.2)
  · cases h

/-- The last `quest`. -/
theorem exists_last {cs : List Xml} {key : String} {v : ℤ} (h : lastInt cs key = some v) :
    ∃ before q after, cs = before ++ q :: after ∧ intOf key q = some v ∧ lastInt after key = none := by
  obtain ⟨l₁, q, l₂, hcs, hq, hl₁⟩ := List.findSome?_eq_some_iff.1 h
  refine ⟨l₂.reverse, q, l₁.reverse, ?_, hq, ?_⟩
  · rw [← List.reverse_reverse cs, hcs, List.reverse_append, List.reverse_cons, List.append_assoc]
    rfl
  · rw [lastInt, List.reverse_reverse, List.findSome?_eq_none_iff]
    exact hl₁

/-- A piece of equipment is told as it is if and only if its `quest` does no harm. -/
theorem equipRecord_described_iff (fl : Doubles D) (d : Xml) :
    equipRecord fl d = .described fl d.tag.id (Xml.equipInfo d) ↔ QuestHarmless (Xml.equipInfo d) := by
  rw [equipRecord_eq]
  generalize Xml.equipInfo d = cs
  have hfields : ({ ItemRecord.described fl d.tag.id cs with
      monsterBook := ((lastOf cs "monsterBook" "quest").map fun v => decide (0 < v)).getD false
      quest := false } : ItemRecord D) = .described fl d.tag.id cs ↔
      ((lastOf cs "monsterBook" "quest").map fun v => decide (0 < v)).getD false = flag cs "monsterBook" ∧
        false = flag cs "quest" := by
    simp only [ItemRecord.described, ItemRecord.mk.injEq, ItemInfo.mk.injEq, true_and, and_true]
  rw [hfields]
  have hsplit {before after : List Xml} {q : Xml} {v : ℤ} (hcs : cs = before ++ q :: after)
      (hq : intOf "quest" q = some v) (hafter : lastInt after "quest" = none) :
      (((lastOf cs "monsterBook" "quest").map fun v => decide (0 < v)).getD false = flag cs "monsterBook" ∧
        false = flag cs "quest") ↔
      (v ≤ 0 ∧ (lastInt after "monsterBook" = none → ∀ w, lastInt before "monsterBook" = some w → w ≤ 0)) := by
    have hbook : intOf "monsterBook" q = none := intOf_ne (by decide) hq
    have hof : lastOf cs "monsterBook" "quest" = (lastInt after "monsterBook").or (some v) := by
      rw [hcs, lastOf_split, lastOf_of_none hafter, hbook, hq, Option.none_or]
      cases lastInt after "monsterBook" <;> rfl
    have hlastBook : lastInt cs "monsterBook" =
        (lastInt after "monsterBook").or (lastInt before "monsterBook") := by
      rw [hcs, lastInt_split, hbook, Option.or_none]
    have hlastQuest : lastInt cs "quest" = some v := by
      rw [hcs, lastInt_split, hafter, hq, Option.none_or]
      rfl
    rw [flag, flag, hof, hlastBook, hlastQuest]
    cases lastInt after "monsterBook" with
    | some w => simp
    | none =>
      cases lastInt before "monsterBook" with
      | none => simp
      | some w =>
        simp only [Option.none_or, Option.map_some, Option.getD_some, decide_eq_decide, Option.some.injEq,
          forall_eq', true_imp_iff, Bool.false_eq, decide_eq_false_iff_not, not_lt]
        constructor
        · rintro ⟨hiff, hv⟩
          exact ⟨hv, not_lt.1 fun hw => absurd (hiff.2 hw) (not_lt.2 hv)⟩
        · rintro ⟨hv, hw⟩
          exact ⟨⟨fun h => absurd h (not_lt.2 hv), fun h => absurd h (not_lt.2 hw)⟩, hv⟩
  constructor
  · intro h before q after v hcs hq hafter
    exact (hsplit hcs hq hafter).1 h
  · intro h
    cases hquest : lastInt cs "quest" with
    | none =>
      refine ⟨by rw [lastOf_of_none hquest, flag], by rw [flag, hquest]; rfl⟩
    | some v =>
      obtain ⟨before, q, after, hcs, hq, hafter⟩ := exists_last hquest
      exact (hsplit hcs hq hafter).2 (h before q after v hcs hq hafter)

/-- The records of all documents. -/
def describedRecords (fl : Doubles D) (items equips : List Xml) : List (ItemRecord D) :=
  (items.flatMap fun d => d.children.map fun e => .described fl e.tag.id (Xml.itemInfo e)) ++
    equips.map fun d => .described fl d.tag.id (Xml.equipInfo d)

/-- `ITEM_INFOS` holds what the documents say of all items, within its block, and the parsers are as they were
    at first, if and only if no `quest` of a piece of equipment does harm. -/
theorem itemInfos_described_iff (fl : Doubles D) (memory : ℕ → ItemRecord D) {items equips : List Xml}
    (hitems : ∀ d ∈ items, Xml.HasItems d) (hequips : ∀ d ∈ equips, Xml.IsEquip d) :
    (∃ s, wzInitItems fl memory items equips = .ok s ∧ s.head = [] ∧ s.head2 = [] ∧ s.skip = 0 ∧
      s.count ≤ s.itemCapacity ∧ s.records = describedRecords fl items equips) ↔
    ∀ d ∈ equips, QuestHarmless (Xml.equipInfo d) := by
  obtain ⟨s, hrun, hs⟩ := wzInitItems_records fl memory items equips hitems hequips
  have hrecords : s.records = describedRecords fl items equips ↔
      ∀ d ∈ equips, QuestHarmless (Xml.equipInfo d) := by
    have hsame : (items.flatMap fun d => d.children.map (itemRecord fl)) =
        items.flatMap fun d => d.children.map fun e => .described fl e.tag.id (Xml.itemInfo e) := by
      refine congrArg (items.flatMap ·) (funext fun d => ?_)
      exact List.map_congr_left fun e _ => itemRecord_eq fl e
    rw [hs.records, describedRecords, hsame, List.append_cancel_left_eq, List.map_inj_left]
    exact forall₂_congr fun d _ => equipRecord_described_iff fl d
  constructor
  · rintro ⟨s', hrun', -, -, -, -, hs'⟩
    rw [hrun] at hrun'
    cases hrun'
    exact hrecords.1 hs'
  · intro h
    exact ⟨s, hrun, hs.head_eq, hs.head2_eq, hs.skip, hs.count, hrecords.2 h⟩

/-- A value of a section. -/
def intValue (key value : String) : Xml := .node ⟨"int", [("name", key), ("value", value)]⟩ []

/-- A document about a cap, whose section `info` says `cs`. -/
def capDocument (cs : List Xml) : Xml :=
  .node ⟨"imgdir", [("name", "01002140.img")]⟩
    [.node ⟨"imgdir", [("name", "default")]⟩ [], .node ⟨"imgdir", [("name", "info")]⟩ cs]

theorem capDocument_isEquip {cs : List Xml}
    (h : ∀ x ∈ cs, x.tag.name = "int" ∨ x.tag.name = "double" → Xml.IsValue x) : Xml.IsEquip (capDocument cs) where
  imgdir := rfl
  named := List.cons_ne_nil _ _
  info := by
    refine ⟨[.node ⟨"imgdir", [("name", "default")]⟩ []], .node ⟨"imgdir", [("name", "info")]⟩ cs, [], rfl, ?_,
      List.cons_ne_nil _ _, rfl, h⟩
    intro c hc
    rw [List.mem_singleton] at hc
    subst hc
    exact ⟨List.cons_ne_nil _ _, by decide⟩

theorem intValue_isValue (key value : String) : Xml.IsValue (intValue key value) := ⟨key, value, rfl, rfl⟩

/-- Numbers that are all `0`. -/
def zeros : Doubles ℕ := ⟨0, fun _ => 0⟩

/-- A cap that is told as it is. -/
theorem itemInfos_described_cap : ∃ s, wzInitItems zeros (fun _ => .initial zeros "")
    [] [capDocument [intValue "price" "500"]] = .ok s ∧ s.head = [] ∧ s.head2 = [] ∧ s.skip = 0 ∧
      s.count ≤ s.itemCapacity ∧ s.records = describedRecords zeros [] [capDocument [intValue "price" "500"]] := by
  refine (itemInfos_described_iff zeros _ (fun _ h => absurd h List.not_mem_nil) fun d hd => ?_).2 fun d hd => ?_
  · rw [List.mem_singleton] at hd
    subst hd
    refine capDocument_isEquip fun x hx _ => ?_
    rw [List.mem_singleton] at hx
    exact hx ▸ intValue_isValue _ _
  · rw [List.mem_singleton] at hd
    subst hd
    intro before q after v hcs hq hafter
    have hq' : q = intValue "price" "500" := by
      have hmem : q ∈ [intValue "price" "500"] := by
        change q ∈ Xml.equipInfo (capDocument [intValue "price" "500"])
        rw [hcs]
        exact List.mem_append_right _ List.mem_cons_self
      exact List.mem_singleton.1 hmem
    subst hq'
    have hnone : intOf "quest" (intValue "price" "500") = none := by decide
    rw [hnone] at hq
    cases hq

/-- A cap for a quest: it is taken for one of a monster book, and for none of a quest. -/
theorem itemInfos_described_fails : ¬∃ s, wzInitItems zeros (fun _ => .initial zeros "")
    [] [capDocument [intValue "quest" "1"]] = .ok s ∧ s.head = [] ∧ s.head2 = [] ∧ s.skip = 0 ∧
      s.count ≤ s.itemCapacity ∧ s.records = describedRecords zeros [] [capDocument [intValue "quest" "1"]] := by
  rintro ⟨s, hrun, -, -, -, -, hrecords⟩
  obtain ⟨s', hrun', hs'⟩ := wzInitItems_records zeros (fun _ => .initial zeros "") []
    [capDocument [intValue "quest" "1"]] (fun _ h => absurd h List.not_mem_nil) fun d hd => by
      rw [List.mem_singleton] at hd
      subst hd
      refine capDocument_isEquip fun x hx _ => ?_
      rw [List.mem_singleton] at hx
      exact hx ▸ intValue_isValue _ _
  rw [hrun] at hrun'
  cases hrun'
  rw [hs'.records] at hrecords
  revert hrecords
  decide +kernel

end Syrup
