import Syrup.Lib.Arena

/-!
# Locks with queues

Whoever wants a lock takes a *place* at the end of its queue; the one that has the first place *holds* the
lock (`Holds`), and gives the place up, whereupon the next one, if any, is woken. The places of all locks
are numbered in the order in which they are taken; they form an arena.

Whatever is done with the locks, whoever holds one holds it until that place is given up
(`Holds.lock`, `Holds.unlock`), and whoever waits for one has been woken as soon as it holds it
(`Waits.lock`, `Waits.unlock`).
-/

/-- The queues of locks, the places that have been woken, and all places. -/
structure LockQueues where
  queue : ℕ → List ℕ
  woken : List ℕ
  places : Arena

namespace LockQueues

section Operations

variable (q : LockQueues) (c : ℕ)

/-- No place has been taken. -/
def empty : LockQueues := ⟨fun _ => [], [], .empty⟩

/-- The first place. -/
def first : Option ℕ := (q.queue c).head?

/-- The next place is taken. -/
def lock : LockQueues :=
  { q with
    queue := Function.update q.queue c (q.queue c ++ [q.places.next])
    places := q.places.alloc }

/-- The first place is given up, if there is one. -/
def unlock : Option (ℕ × LockQueues) :=
  match q.queue c with
  | [] => none
  | k :: ks => some (k, {
      queue := Function.update q.queue c ks
      woken := ks.head?.toList ++ q.woken
      places := q.places.release k })

/-- The lock is held by whom has this place. -/
def Holds (k : ℕ) : Prop := q.first c = some k

/-- Whoever has this place waits for the lock, until it is woken. -/
def Waits (k : ℕ) : Prop := k ∈ q.queue c ∧ (k ∈ q.woken ↔ q.Holds c k)

/-- Every place that is held is once in one queue. -/
structure Ok : Prop where
  kept : q.places.Kept
  live : ∀ k, k ∈ q.places.live ↔ ∃ c, k ∈ q.queue c
  unique : ∀ k c c', k ∈ q.queue c → k ∈ q.queue c' → c = c'
  nodup : ∀ c, (q.queue c).Nodup
  woken : ∀ k ∈ q.woken, k < q.places.next

end Operations

variable {q q' : LockQueues} {c c' k k' : ℕ}

theorem ok_empty : empty.Ok :=
  ⟨Arena.kept_empty, fun _ => ⟨nofun, nofun⟩, nofun, fun _ => List.nodup_nil, nofun⟩

theorem Holds.mem (h : q.Holds c k) : k ∈ q.queue c := List.mem_of_mem_head? h

theorem Ok.mem_live (h : q.Ok) (hk : k ∈ q.queue c) : k ∈ q.places.live := (h.live k).2 ⟨c, hk⟩

theorem Ok.lt (h : q.Ok) (hk : k ∈ q.queue c) : k < q.places.next := h.kept.lt (h.mem_live hk)

/-! ## A place is taken -/

theorem queue_lock : (q.lock c).queue = Function.update q.queue c (q.queue c ++ [q.places.next]) := rfl

theorem mem_lock : k ∈ (q.lock c).queue c' ↔ k ∈ q.queue c' ∨ (c' = c ∧ k = q.places.next) := by
  rw [queue_lock]
  rcases eq_or_ne c' c with rfl | hne
  · simp
  · simp [hne]

theorem Ok.lock (h : q.Ok) : (q.lock c).Ok := by
  have hnew (c' : ℕ) : q.places.next ∉ q.queue c' := fun hmem => lt_irrefl _ (h.lt hmem)
  refine ⟨h.kept.alloc, fun k => ?_, fun k c₁ c₂ h₁ h₂ => ?_, fun c' => ?_, fun k hk =>
    Nat.lt_succ_of_lt (h.woken k hk)⟩
  · change k ∈ q.places.next :: q.places.live ↔ _
    rw [List.mem_cons, h.live]
    constructor
    · rintro (rfl | ⟨c', hk⟩)
      · exact ⟨c, mem_lock.2 (.inr ⟨rfl, rfl⟩)⟩
      · exact ⟨c', mem_lock.2 (.inl hk)⟩
    · rintro ⟨c', hk⟩
      rcases mem_lock.1 hk with hk | ⟨-, rfl⟩
      · exact .inr ⟨c', hk⟩
      · exact .inl rfl
  · rcases mem_lock.1 h₁ with h₁ | ⟨hc₁, hk₁⟩ <;> rcases mem_lock.1 h₂ with h₂ | ⟨hc₂, hk₂⟩
    · exact h.unique k c₁ c₂ h₁ h₂
    · exact absurd (hk₂ ▸ h₁) (hnew c₁)
    · exact absurd (hk₁ ▸ h₂) (hnew c₂)
    · exact hc₁.trans hc₂.symm
  · rw [queue_lock]
    rcases eq_or_ne c' c with rfl | hne
    · rw [Function.update_self, List.nodup_append]
      refine ⟨h.nodup c', List.nodup_singleton _, fun k hk k' hk' => ?_⟩
      rw [List.mem_singleton] at hk'
      rintro rfl
      exact hnew c' (hk' ▸ hk)
    · rw [Function.update_of_ne hne]
      exact h.nodup c'

theorem first_lock (hk : q.first c' = some k) : (q.lock c).first c' = some k := by
  rw [first, queue_lock]
  rcases eq_or_ne c' c with rfl | hne
  · rw [Function.update_self, List.head?_append]
    exact Option.or_eq_some_iff.2 (.inl hk)
  · rw [Function.update_of_ne hne]
    exact hk

theorem Holds.lock (h : q.Holds c' k) : (q.lock c).Holds c' k := first_lock h

theorem Waits.lock (h : q.Waits c' k) : (q.lock c).Waits c' k := by
  refine ⟨mem_lock.2 (.inl h.1), ?_⟩
  change k ∈ q.woken ↔ _
  rw [h.2]
  refine ⟨Holds.lock, fun hk => ?_⟩
  obtain ⟨j, hj⟩ : ∃ j, q.first c' = some j := by
    rw [first]
    cases hq : q.queue c' with
    | nil =>
      have hmem := h.1
      rw [hq] at hmem
      cases hmem
    | cons j ks => exact ⟨j, rfl⟩
  rw [Holds, first_lock hj] at hk
  rw [Holds, hj, hk]

/-- The lock was free. -/
theorem holds_lock (h : q.first c = none) : (q.lock c).Holds c q.places.next := by
  rw [first, List.head?_eq_none_iff] at h
  rw [Holds, first, queue_lock, Function.update_self, h]
  rfl

/-- The lock was held. -/
theorem Ok.waits_lock (h : q.Ok) (hk : q.Holds c k) : (q.lock c).Waits c q.places.next := by
  refine ⟨mem_lock.2 (.inr ⟨rfl, rfl⟩), fun hmem => absurd (h.woken _ hmem) (lt_irrefl _), fun hnext => ?_⟩
  rw [Holds, first_lock hk] at hnext
  have hlt := h.lt hk.mem
  rw [Option.some.inj hnext] at hlt
  exact absurd hlt (lt_irrefl _)

/-! ## A place is given up -/

theorem Holds.exists_unlock (h : q.Holds c k) : ∃ q', q.unlock c = some (k, q') := by
  rw [Holds, first] at h
  cases hq : q.queue c with
  | nil =>
    rw [hq] at h
    cases h
  | cons j ks =>
    rw [hq] at h
    obtain rfl := Option.some.inj h
    exact ⟨_, by rw [unlock, hq]⟩

/-- Who has the first place, and what is left. -/
theorem unlock_eq (h : q.unlock c = some (k, q')) : ∃ ks, q.queue c = k :: ks ∧ q' = {
    queue := Function.update q.queue c ks
    woken := ks.head?.toList ++ q.woken
    places := q.places.release k } := by
  rw [unlock] at h
  split at h
  · cases h
  · obtain ⟨rfl, rfl⟩ := Prod.mk.inj (Option.some.inj h)
    exact ⟨_, ‹_›, rfl⟩

theorem unlock_holds (h : q.unlock c = some (k, q')) : q.Holds c k := by
  obtain ⟨ks, hq, -⟩ := unlock_eq h
  rw [Holds, first, hq]
  rfl

theorem unlock_places (h : q.unlock c = some (k, q')) : q'.places = q.places.release k := by
  obtain ⟨ks, -, rfl⟩ := unlock_eq h
  rfl

theorem Ok.mem_unlock (hq : q.Ok) (h : q.unlock c = some (k, q')) :
    k' ∈ q'.queue c' ↔ k' ∈ q.queue c' ∧ k' ≠ k := by
  obtain ⟨ks, hks, rfl⟩ := unlock_eq h
  have hnodup := hq.nodup c
  rw [hks, List.nodup_cons] at hnodup
  dsimp only
  rcases eq_or_ne c' c with rfl | hne
  · rw [Function.update_self, hks, List.mem_cons]
    refine ⟨fun hk => ⟨.inr hk, ?_⟩, fun ⟨hk, hne⟩ => hk.resolve_left hne⟩
    rintro rfl
    exact hnodup.1 hk
  · rw [Function.update_of_ne hne]
    refine ⟨fun hk => ⟨hk, ?_⟩, And.left⟩
    rintro rfl
    exact hne (hq.unique _ _ _ hk (unlock_holds h).mem)

theorem Ok.unlock (hq : q.Ok) (h : q.unlock c = some (k, q')) : q'.Ok := by
  have hmem := (unlock_holds h).mem
  have hplaces := unlock_places h
  refine ⟨hplaces ▸ hq.kept.release (hq.mem_live hmem), fun k' => ?_, fun k' c₁ c₂ h₁ h₂ => ?_,
    fun c' => ?_, fun k' hk' => ?_⟩
  · rw [hplaces]
    change k' ∈ q.places.live.erase k ↔ _
    rw [hq.kept.nodup.mem_erase_iff, hq.live]
    constructor
    · rintro ⟨hne, c', hk'⟩
      exact ⟨c', (hq.mem_unlock h).2 ⟨hk', hne⟩⟩
    · rintro ⟨c', hk'⟩
      obtain ⟨hk', hne⟩ := (hq.mem_unlock h).1 hk'
      exact ⟨hne, c', hk'⟩
  · exact hq.unique k' c₁ c₂ ((hq.mem_unlock h).1 h₁).1 ((hq.mem_unlock h).1 h₂).1
  · obtain ⟨ks, hks, rfl⟩ := unlock_eq h
    dsimp only
    rcases eq_or_ne c' c with rfl | hne
    · rw [Function.update_self]
      have := hq.nodup c'
      rw [hks] at this
      exact (List.nodup_cons.1 this).2
    · rw [Function.update_of_ne hne]
      exact hq.nodup c'
  · rw [hplaces]
    change k' < q.places.next
    obtain ⟨ks, hks, rfl⟩ := unlock_eq h
    rcases List.mem_append.1 hk' with hk' | hk'
    · refine hq.lt (c := c) ?_
      rw [hks]
      exact List.mem_cons_of_mem _ (List.mem_of_mem_head? (Option.mem_toList.1 hk'))
    · exact hq.woken k' hk'

/-- Nobody else loses a lock. -/
theorem Holds.unlock (hk : q.Holds c' k') (hne : k' ≠ k) (h : q.unlock c = some (k, q')) :
    q'.Holds c' k' := by
  have hc : c' ≠ c := by
    rintro rfl
    exact hne (Option.some.inj (hk.symm.trans (unlock_holds h)))
  obtain ⟨ks, -, rfl⟩ := unlock_eq h
  rw [Holds, first]
  dsimp only
  rw [Function.update_of_ne hc]
  exact hk

/-- Whoever waits is woken if it is the next one. -/
theorem Waits.unlock (hk : q.Waits c' k') (hq : q.Ok) (hne : k' ≠ k) (h : q.unlock c = some (k, q')) :
    q'.Waits c' k' := by
  have hmem := (hq.mem_unlock h).2 ⟨hk.1, hne⟩
  refine ⟨hmem, ?_⟩
  obtain ⟨ks, hks, rfl⟩ := unlock_eq h
  change k' ∈ ks.head?.toList ++ q.woken ↔ (Function.update q.queue c ks c').head? = some k'
  rw [List.mem_append, Option.mem_toList]
  rcases eq_or_ne c' c with rfl | hc
  · have hnot : k' ∉ q.woken := fun hwoken =>
      hne (Option.some.inj ((hk.2.1 hwoken).symm.trans (unlock_holds h)))
    rw [Function.update_self, or_iff_left hnot]
  · rw [Function.update_of_ne hc, hk.2]
    refine ⟨fun hk' => hk'.resolve_left fun hhead => ?_, .inr⟩
    refine hc (hq.unique k' c' c hk.1 ?_)
    rw [hks]
    exact List.mem_cons_of_mem _ (List.mem_of_mem_head? hhead)

end LockQueues
