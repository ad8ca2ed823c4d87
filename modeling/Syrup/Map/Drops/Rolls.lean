import Syrup.Map.Damage

/-!
# Rolled drops fit

`map_damage_monster_by` and `map_drop_batch_from_reactor` roll the drops of a table by the same lines:
a bound `max_drops` is computed from the chances, and then the drops are written one after the other to
an array of that many. Here the writes are as they are in the source (`fillDrops`), and fault from
`max_drops` on. They never do, and what has been written is what `rollDrops` says: the functions, of
which the model uses `rollDrops`, put down what is filled in.
-/

namespace Syrup

/-! ## The array -/

/-- `drops`, as far as there are any, and how many numbers of `rand` have been used. -/
structure DropArray where
  drops : List DropItem
  used : ℕ

/-- `drops_copy[i].chance / 1000000 + 1`, where the chance has been multiplied by 16. -/
def DropInfo.most (d : DropInfo) : ℕ := (Int.tdiv (d.chance * 16) 1000000 + 1).toNat

/-- `max_drops`. -/
def maxDrops (info : List DropInfo) : ℕ := (info.map DropInfo.most).sum

namespace DropArray

variable (env : MapEnv) (rand : ℕ → ℕ) (size : ℕ) (d : DropInfo) (a : DropArray)

/-- `rand() % 1000000`. -/
def draw : ℕ × DropArray := (rand a.used % 1000000, { a with used := a.used + 1 })

/-- A drop is written to `drops[drop_count]`, and `drop_count++`. -/
def put : Exec DropArray := do
  Exec.within size a.drops.length
  let drop ← d.make env (rand a.used)
  return { drops := a.drops ++ [drop], used := a.used + d.draws }

/-- The loop `for (size_t j = 0; j < drops_copy[i].chance / 1000000; j++)`. -/
def putMany (n : ℕ) : Exec DropArray :=
  (List.range n).foldlM (fun a _ => a.put env rand size d) a

/-- The part for the chances above `1000000`: there are drops for certain, and a chance is left. Of
    mesos there is one drop, and the chance stays as it is. -/
def putCertain (chance : ℤ) : Exec (ℤ × DropArray) :=
  if chance > 1000000 then
    if d.itemId = 0 then do
      let a ← a.put env rand size d
      return (chance, a)
    else do
      let a ← a.putMany env rand size d (chance / 1000000).toNat
      return (chance % 1000000, a)
  else return (chance, a)

/-- A round of the loop over the entries. -/
def putEntry : Exec DropArray := do
  let chance ← Exec.int32 (d.chance * 16)
  let (chance, a) ← a.putCertain env rand size d chance.toInt
  let (drawn, a) := a.draw rand
  if drawn < chance then a.put env rand size d else return a

end DropArray

/-- The lines that `map_damage_monster_by` and `map_drop_batch_from_reactor` share. -/
def fillDrops (env : MapEnv) (rand : ℕ → ℕ) (info : List DropInfo) : Exec (List DropItem) := do
  let a ← info.foldlM (fun a d => DropArray.putEntry env rand (maxDrops info) d a) ⟨[], 0⟩
  return a.drops

/-! ## What an entry makes -/

/-- A drop is of an entry: an amount within the bounds of it, or a piece of equipment. -/
def DropInfo.Makes (d : DropInfo) : DropItem → Prop
  | .meso amount => d.itemId = 0 ∧ d.min ≤ amount.toInt ∧ amount.toInt ≤ d.max
  | .item _ item => item.item.itemId = d.itemId ∧ d.min ≤ item.quantity.toInt ∧ item.quantity.toInt ≤ d.max
  | .equip equip => equip.item.itemId = d.itemId

/-- An entry of a table: its chance, times 16, is an `int32_t`, and its amounts are positive and in
    the range of quantities. -/
structure DropInfo.Fair (d : DropInfo) : Prop where
  chance_nonneg : 0 ≤ d.chance
  chance_le : d.chance ≤ 2147483647 / 16
  one_le : 1 ≤ d.min
  min_le : d.min ≤ d.max
  max_le : d.max ≤ 32767

/-- The whole part of an expected number of drops. -/
def DropInfo.whole (d : DropInfo) : ℕ := (16 * d.chance / 1000000).toNat

/-- The drops of an entry: of an item or a piece of equipment there are as many as are expected, which
    is one more or less if that is not a whole number. -/
structure DropInfo.Rolled (d : DropInfo) (drops : List DropItem) : Prop where
  makes : ∀ drop ∈ drops, d.Makes drop
  count : d.itemId ≠ 0 → drops.length = d.whole ∨ drops.length = d.whole + 1
  exactly : d.itemId ≠ 0 → 1000000 ∣ 16 * d.chance → drops.length = d.whole

/-- A piece of equipment that there is no record of. -/
def DropInfo.Unknown (env : MapEnv) (d : DropInfo) : Prop :=
  d.itemId / 1000000 = 1 ∧ env.equipInfo d.itemId = none

variable {env : MapEnv} {rand : ℕ → ℕ} {d : DropInfo} {info : List DropInfo} {drops : List DropItem} {n n' size : ℕ}
  {a : DropArray}

/-- The amounts are in the bounds. -/
theorem DropInfo.Fair.amount (h : d.Fair) (r : ℕ) :
    ∃ amount, d.amount r = .ok amount ∧ d.min ≤ amount ∧ amount ≤ d.max := by
  obtain ⟨-, -, -, hle, -⟩ := h
  have hpos : 0 < d.max - d.min + 1 := by omega
  refine ⟨Int.tmod r (d.max - d.min + 1) + d.min, if_neg hpos.ne', ?_, ?_⟩
  · have := Int.tmod_nonneg (d.max - d.min + 1) (Int.natCast_nonneg r)
    omega
  · have := Int.tmod_lt_of_pos (r : ℤ) hpos
    omega

/-- A drop that is made is of the entry; and one is made, unless it is an unknown piece of
    equipment. -/
theorem DropInfo.Fair.make (h : d.Fair) (env : MapEnv) (r : ℕ) :
    (∃ drop, d.make env r = .ok drop ∧ d.Makes drop) ∨
      (d.make env r = .error .nullPointer ∧ d.Unknown env) := by
  obtain ⟨amount, hamount, hmin, hmax⟩ := h.amount r
  have h₁ := h.one_le
  have h₂ := h.max_le
  rw [DropInfo.make]
  split
  · rename_i hmeso
    refine .inl ⟨.meso (Int32.ofInt amount), by rw [hamount]; rfl, hmeso, ?_⟩
    rw [Int32.toInt_ofInt_of_le (by omega) (by omega)]
    exact ⟨hmin, hmax⟩
  · split
    · rename_i hequip
      cases hinfo : env.equipInfo d.itemId with
      | none => exact .inr ⟨rfl, hequip, hinfo⟩
      | some info => exact .inl ⟨_, rfl, env.equipInfo_id hinfo⟩
    · rw [hamount]
      refine .inl ⟨_, rfl, ?_⟩
      change d.itemId = d.itemId ∧ d.min ≤ (Int16.ofInt amount).toInt ∧ (Int16.ofInt amount).toInt ≤ d.max
      rw [Int16.toInt_ofInt_of_le (by omega) (by omega)]
      exact ⟨rfl, hmin, hmax⟩

/-- The same of several drops. -/
theorem DropInfo.Fair.makes (h : d.Fair) (env : MapEnv) (f : ℕ → ℕ) (l : List ℕ) :
    (∃ drops, l.mapM (fun j => d.make env (f j)) = .ok drops ∧ drops.length = l.length ∧
        ∀ drop ∈ drops, d.Makes drop) ∨
      (l.mapM (fun j => d.make env (f j)) = .error .nullPointer ∧ d.Unknown env) := by
  induction l with
  | nil => exact .inl ⟨[], rfl, rfl, nofun⟩
  | cons j l ih =>
    rw [List.mapM_cons]
    obtain ⟨drop, hdrop, hof⟩ | ⟨hnull, hwhy⟩ := h.make env (f j)
    · obtain ⟨drops, hdrops, hlen, hall⟩ | ⟨hnull, hwhy⟩ := ih
      · refine .inl ⟨drop :: drops, by rw [hdrop, hdrops]; rfl, by simp [hlen], ?_⟩
        exact List.forall_mem_cons.2 ⟨hof, hall⟩
      · exact .inr ⟨by rw [hdrop, hnull]; rfl, hwhy⟩
    · exact .inr ⟨by rw [hnull]; rfl, hwhy⟩

/-- How many drops there are: those for certain, and perhaps another one. -/
theorem DropInfo.Fair.count (h : d.Fair) {r : ℕ} (hr : r < 1000000) (count : ℕ)
    (hcount : count = d.certain.1 + if (r : ℤ) < d.certain.2 then 1 else 0) :
    count ≤ d.most ∧ (d.itemId ≠ 0 → (count = d.whole ∨ count = d.whole + 1) ∧
      (1000000 ∣ 16 * d.chance → count = d.whole)) := by
  have hnn := h.chance_nonneg
  rw [DropInfo.most, Int.tdiv_eq_ediv_of_nonneg (by omega), DropInfo.whole]
  rw [DropInfo.certain] at hcount
  split at hcount
  · split at hcount
    · -- Mesos: the chance is above all numbers that are drawn.
      simp only at hcount
      rw [if_pos (by omega)] at hcount
      exact ⟨by omega, fun hne => absurd ‹_› hne⟩
    · simp only at hcount
      split at hcount <;> omega
  · simp only at hcount
    split at hcount <;> omega

/-- What an entry rolls, with what is certain of it at hand. -/
theorem DropInfo.roll_eq (env : MapEnv) (rand : ℕ → ℕ) (n : ℕ) (d : DropInfo) : d.roll env rand n = do
    let sure ← (List.range d.certain.1).mapM fun j => d.make env (rand (n + j * d.draws))
    if (rand (n + d.certain.1 * d.draws) % 1000000 : ℕ) < d.certain.2 then
      let more ← d.make env (rand (n + d.certain.1 * d.draws + 1))
      return (sure ++ [more], n + d.certain.1 * d.draws + 1 + d.draws)
    else return (sure, n + d.certain.1 * d.draws + 1) := rfl

/-- What an entry rolls. -/
theorem DropInfo.Fair.roll (h : d.Fair) (env : MapEnv) (rand : ℕ → ℕ) (n : ℕ) :
    (∃ drops n', d.roll env rand n = .ok (drops, n') ∧ drops.length ≤ d.most ∧ d.Rolled drops) ∨
      (d.roll env rand n = .error .nullPointer ∧ d.Unknown env) := by
  rw [DropInfo.roll_eq]
  obtain ⟨sure, hsure, hlen, hall⟩ | ⟨hnull, hwhy⟩ :=
    h.makes env (fun j => rand (n + j * d.draws)) (List.range d.certain.1)
  · rw [List.length_range] at hlen
    rw [hsure]
    have hr : rand (n + d.certain.1 * d.draws) % 1000000 < 1000000 := Nat.mod_lt _ (by decide)
    by_cases hlt : ((rand (n + d.certain.1 * d.draws) % 1000000 : ℕ) : ℤ) < d.certain.2
    · obtain ⟨more, hmore, hof⟩ | ⟨hnull, hwhy⟩ :=
        h.make env (rand (n + d.certain.1 * d.draws + 1))
      · have hcount := h.count hr (sure ++ [more]).length (by
          rw [if_pos hlt, List.length_append, hlen]
          rfl)
        refine .inl ⟨sure ++ [more], _, by rw [Exec.ok_bind, if_pos hlt, hmore]; rfl, hcount.1,
          ⟨?_, fun hne => (hcount.2 hne).1, fun hne => (hcount.2 hne).2⟩⟩
        · intro drop hdrop
          rcases List.mem_append.1 hdrop with hdrop | hdrop
          · exact hall drop hdrop
          · exact List.mem_singleton.1 hdrop ▸ hof
      · exact .inr ⟨by rw [Exec.ok_bind, if_pos hlt, hnull]; rfl, hwhy⟩
    · have hcount := h.count hr sure.length (by rw [if_neg hlt, hlen]; rfl)
      exact .inl ⟨sure, _, by rw [Exec.ok_bind, if_neg hlt]; rfl, hcount.1,
        ⟨hall, fun hne => (hcount.2 hne).1, fun hne => (hcount.2 hne).2⟩⟩
  · exact .inr ⟨by rw [hnull]; rfl, hwhy⟩

/-- What a table rolls, entry by entry. -/
theorem rollDrops_spec (h : ∀ d ∈ info, d.Fair) (env : MapEnv) (rand : ℕ → ℕ) (n : ℕ) :
    (∃ parts : List (List DropItem), rollDrops env rand n info = .ok parts.flatten ∧
        parts.flatten.length ≤ maxDrops info ∧ List.Forall₂ DropInfo.Rolled info parts) ∨
      (rollDrops env rand n info = .error .nullPointer ∧ ∃ d ∈ info, d.Unknown env) := by
  induction info generalizing n with
  | nil => exact .inl ⟨[], rfl, le_rfl, .nil⟩
  | cons d info ih =>
    obtain ⟨hd, hinfo⟩ := List.forall_mem_cons.1 h
    rw [rollDrops]
    obtain ⟨drops, n', hroll, hlen, hrolled⟩ | ⟨hnull, hwhy⟩ := hd.roll env rand n
    · obtain ⟨parts, hrest, hle, hparts⟩ | ⟨hnull, d', hd', hwhy⟩ := ih hinfo n'
      · refine .inl ⟨drops :: parts, ?_, ?_, .cons hrolled hparts⟩
        · rw [hroll, Exec.ok_bind]
          dsimp only
          rw [hrest]
          rfl
        · rw [List.flatten_cons, List.length_append, maxDrops, List.map_cons, List.sum_cons]
          exact Nat.add_le_add hlen hle
      · refine .inr ⟨?_, d', List.mem_cons_of_mem _ hd', hwhy⟩
        rw [hroll, Exec.ok_bind]
        dsimp only
        rw [hnull]
        rfl
    · refine .inr ⟨?_, d, List.mem_cons_self, hwhy⟩
      rw [hnull]
      rfl

/-! ## The writes -/

/-- A drop is written where there is room. -/
theorem DropArray.put_eq (hroom : a.drops.length < size) : a.put env rand size d =
    (fun drop => ⟨a.drops ++ [drop], a.used + d.draws⟩) <$> d.make env (rand a.used) := by
  rw [DropArray.put, Exec.within, if_pos hroom, Exec.ok_bind]
  rfl

/-- Several drops are written where there is room for all of them. -/
theorem DropArray.putMany_eq (h : d.Fair) (k : ℕ) (hroom : a.drops.length + k ≤ size) :
    a.putMany env rand size d k = (fun drops => ⟨a.drops ++ drops, a.used + k * d.draws⟩) <$>
      (List.range k).mapM fun j => d.make env (rand (a.used + j * d.draws)) := by
  -- The last drop is made from the numbers that are drawn after those of the others.
  induction k with
  | zero => simp [DropArray.putMany]
  | succ k ih =>
    rw [DropArray.putMany] at ih ⊢
    rw [List.range_succ, List.foldlM_append, ih (by omega), List.mapM_append]
    obtain ⟨drops, hmany, hlen, -⟩ | ⟨hmany, -⟩ :=
      h.makes env (fun j => rand (a.used + j * d.draws)) (List.range k)
    · rw [List.length_range] at hlen
      rw [hmany, Except.map_ok, Exec.ok_bind, Exec.ok_bind, List.foldlM_cons, List.mapM_cons,
        DropArray.put_eq (by rw [List.length_append, hlen]; omega)]
      cases d.make env (rand (a.used + k * d.draws)) with
      | error e => rfl
      | ok drop =>
        have happend : (⟨a.drops ++ drops ++ [drop], a.used + k * d.draws + d.draws⟩ : DropArray) =
            ⟨a.drops ++ (drops ++ [drop]), a.used + (k + 1) * d.draws⟩ := by
          rw [List.append_assoc, Nat.succ_mul, Nat.add_assoc]
        exact congrArg Except.ok happend
    · rw [hmany]
      rfl

/-- What is written for certain. -/
theorem DropArray.putCertain_eq (h : d.Fair) (hroom : a.drops.length + d.most ≤ size) :
    a.putCertain env rand size d (d.chance * 16) =
      (fun drops => (d.certain.2, ⟨a.drops ++ drops, a.used + d.certain.1 * d.draws⟩)) <$>
        (List.range d.certain.1).mapM fun j => d.make env (rand (a.used + j * d.draws)) := by
  have hmost : d.certain.1 ≤ d.most :=
    (Nat.le_add_right _ _).trans (h.count (Nat.zero_lt_succ 999999) _ rfl).1
  rw [DropArray.putCertain]
  rw [DropInfo.certain] at hmost ⊢
  by_cases hmany : d.chance * 16 > 1000000
  · by_cases hmeso : d.itemId = 0
    · simp only [if_pos hmany, if_pos hmeso] at hmost ⊢
      rw [DropArray.put_eq (by omega), List.range_one, List.mapM_cons]
      simp only [Nat.zero_mul, Nat.add_zero, Nat.one_mul]
      cases d.make env (rand a.used) <;> rfl
    · simp only [if_pos hmany, if_neg hmeso] at hmost ⊢
      rw [DropArray.putMany_eq h _ (by omega)]
      cases (List.range (d.chance * 16 / 1000000).toNat).mapM fun j =>
        d.make env (rand (a.used + j * d.draws)) <;> rfl
  · simp only [if_neg hmany, List.range_zero, List.mapM_nil]
    simp

/-- A round of the loop writes what the entry rolls. -/
theorem DropArray.putEntry_eq (h : d.Fair) (hroom : a.drops.length + d.most ≤ size) :
    a.putEntry env rand size d =
      (fun x => ⟨a.drops ++ x.1, x.2⟩) <$> d.roll env rand a.used := by
  have hchance : Exec.int32 (d.chance * 16) = .ok (Int32.ofInt (d.chance * 16)) := by
    have := h.chance_nonneg
    have := h.chance_le
    exact if_pos (by omega)
  rw [DropArray.putEntry, hchance, Exec.ok_bind, Exec.toInt_int32 hchance,
    DropArray.putCertain_eq h hroom, DropInfo.roll_eq]
  obtain ⟨sure, hsure, hlen, -⟩ | ⟨hsure, -⟩ :=
    h.makes env (fun j => rand (a.used + j * d.draws)) (List.range d.certain.1)
  · rw [List.length_range] at hlen
    rw [hsure, Except.map_ok, Exec.ok_bind, Exec.ok_bind]
    dsimp only [DropArray.draw]
    split
    · rename_i hlt
      -- There is room for one more.
      have hmost := (h.count (Nat.mod_lt (rand (a.used + d.certain.1 * d.draws)) (by decide)) _ rfl).1
      rw [if_pos hlt] at hmost
      rw [DropArray.put_eq]
      · cases d.make env (rand (a.used + d.certain.1 * d.draws + 1)) with
        | error e => rfl
        | ok drop => exact congrArg (fun l => Except.ok (DropArray.mk l _)) (List.append_assoc ..)
      · rw [List.length_append, hlen]
        omega
    · rfl
  · rw [hsure]
    rfl

/-- The loop writes what is rolled. -/
theorem DropArray.foldlM_putEntry (info : List DropInfo) (h : ∀ d ∈ info, d.Fair)
    (hroom : a.drops.length + maxDrops info ≤ size) :
    DropArray.drops <$> info.foldlM (fun a d => a.putEntry env rand size d) a =
      (a.drops ++ ·) <$> rollDrops env rand a.used info := by
  induction info generalizing a with
  | nil => exact congrArg Except.ok (List.append_nil _).symm
  | cons d info ih =>
    obtain ⟨hd, hinfo⟩ := List.forall_mem_cons.1 h
    rw [maxDrops, List.map_cons, List.sum_cons] at hroom
    rw [List.foldlM_cons, DropArray.putEntry_eq hd (by omega), rollDrops]
    obtain ⟨drops, used, hroll, hlen, -⟩ | ⟨hroll, -⟩ := hd.roll env rand a.used
    · have hrest := @ih ⟨a.drops ++ drops, used⟩ hinfo (by
        rw [List.length_append, maxDrops]
        omega)
      rw [hroll, Except.map_ok, Exec.ok_bind, Exec.ok_bind, hrest]
      dsimp only
      cases rollDrops env rand used info with
      | error e => rfl
      | ok rest => exact congrArg Except.ok (List.append_assoc ..)
    · rw [hroll]
      rfl

/-- No write is outside of the array, and what has been written is what is rolled. -/
theorem fillDrops_eq (h : ∀ d ∈ info, d.Fair) (env : MapEnv) (rand : ℕ → ℕ) :
    fillDrops env rand info = rollDrops env rand 0 info := by
  have hfill := @DropArray.foldlM_putEntry env rand (maxDrops info) ⟨[], 0⟩ info h
    (Nat.zero_add _).le
  simp only [List.nil_append] at hfill
  rw [fillDrops, ← map_eq_pure_bind, hfill]
  cases rollDrops env rand 0 info <;> rfl

/-! ## Both copies -/

open Map

/-- The drops of a table fit into the array and are as its entries say, or the rolling stops at a piece
    of equipment that there is no record of; and a monster and a reactor that have the table drop
    what is filled in, from the same random numbers. -/
structure RollsFit (env : MapEnv) (rand : ℕ → ℕ) (info : List DropInfo) : Prop where
  fits : (∃ parts : List (List DropItem), fillDrops env rand info = .ok parts.flatten ∧
      parts.flatten.length ≤ maxDrops info ∧ List.Forall₂ DropInfo.Rolled info parts) ∨
    (fillDrops env rand info = .error .nullPointer ∧ ∃ d ∈ info, d.Unknown env)
  monster : ∀ (o : Outcomes) (m : Map) (player : PlayerRef) (place : Map.MonsterPlace) (monster : MapMonster),
    o.rand = rand → m.readPlace place = .ok monster → env.dropInfo monster.id = some info →
      m.die env o player place = do
        let m ← m.releaseControl place
        let drops ← fillDrops env rand info
        let (_, m) ← mapDropBatchFromMapObject env.toEnv { o with alloc := fun n => o.alloc (n + 1) } m
          player monster.oid drops
        if drops.length = 1 then mapKillMonster env.toEnv (o.alloc 0) m monster.oid else return m
  reactor : ∀ (o : Outcomes) (m : Map) (player : PlayerRef) (oid : UInt32) (object : MapObject)
      (reactor : Reactor),
    o.rand = rand → objectListGet env.toEnv m.objectList oid = some object → object.type = .reactor →
    m.reactors[object.index]? = some reactor → env.reactorDropInfo reactor.id = some info →
      mapDropBatchFromReactor env o m player oid = do
        let drops ← fillDrops env rand info
        mapDropBatchFromMapObject env.toEnv o m player object.oid drops

/-- Every table of fair entries is rolled in its bounds, and alike by both. -/
theorem rolls_fit (h : ∀ d ∈ info, d.Fair) (env : MapEnv) (rand : ℕ → ℕ) : RollsFit env rand info := by
  refine ⟨?_, ?_, ?_⟩
  · rw [fillDrops_eq h]
    exact rollDrops_spec h env rand 0
  · rintro o m player place monster rfl hread hinfo
    rw [fillDrops_eq h, Map.die, hread, Exec.ok_bind]
    cases m.releaseControl place with
    | error e => rfl
    | ok m => simp only [Exec.ok_bind, hinfo]
  · rintro o m player oid object reactor rfl hobject htype hreactor hinfo
    rw [fillDrops_eq h, mapDropBatchFromReactor, hobject]
    simp only [htype, hreactor, hinfo, ne_eq, not_true_eq_false, if_false, Exec.deref, Exec.ok_bind]

/-- Of an item with a chance of 2000000, which is 32 times a million, there are 32; and of another one
    with the expectation 1.6 there are one or two. -/
def spoils : List DropInfo :=
  [⟨2060000, 1, 10, false, 0, 2000000⟩, ⟨2000000, 1, 1, false, 0, 100000⟩, ⟨0, 5, 20, false, 0, 70000⟩]

/-- The monsters and the reactors have the table. -/
def spoilsEnv : MapEnv where
  toEnv := .ofLists [] [] [] []
  monsterHp _ := some 10
  dropInfo _ := some spoils
  reactorDropInfo _ := some spoils
  maxSpawnCount _ _ := 0
  maxSpawnCount_le _ _ := Nat.zero_le _

theorem rolls_fit_spoils : RollsFit spoilsEnv (fun n => 1103515245 * n + 12345) spoils := by
  refine rolls_fit (fun d hd => ?_) _ _
  simp only [spoils, List.mem_cons, List.not_mem_nil, or_false] at hd
  obtain rfl | rfl | rfl := hd <;> constructor <;> decide

end Syrup
