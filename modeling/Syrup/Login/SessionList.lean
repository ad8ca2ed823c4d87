import Syrup.Exec
import Syrup.Lib.BackLinks
import Syrup.Lib.Run

/-!
# The list of login sessions

The sessions of a worker of the login server are in an array, which is made larger when it is full and
smaller when it is less than a quarter full; the last session takes the place of one that is freed. A
session knows its container and a container knows the address of its session, so that the containers
are told when the array has moved.

A block of memory is known by a number, and an address is a block and an index (`SessionRef`). The array
is kept without an end; how many entries its block has been allocated for (`size`) is kept beside it,
so that one may say that it is overrun. A container is known by its number, too: it is the only part
of a session that matters here. Which containers have been given a session that has not been freed
(`live`) is kept for the statements.
-/

namespace Syrup

open BackLinks

/-- An address in an array of sessions. -/
abbrev SessionRef := ℕ × ℕ

/-- `struct SessionList`, with the sessions of the containers. -/
structure SessionList where
  capacity : ℕ
  count : ℕ
  block : ℕ
  size : ℕ
  sessions : ℕ → ℕ
  blocks : ℕ
  session : ℕ → Option SessionRef

namespace SessionList

/-- `session_list_init`. -/
def init : SessionList where
  capacity := 1
  count := 0
  block := 0
  size := 1
  sessions := default
  blocks := 1
  session _ := none

variable (l : SessionList)

/-- The loop which tells the containers of the sessions their addresses. -/
def tellContainers : SessionList :=
  { l with
    session := (List.range l.count).foldl
      (fun session i => Function.update session (l.sessions i) (some (l.block, i))) l.session }

/-- `realloc` of the array for so many sessions, and what is done when it has moved. -/
def reallocate (moves : Bool) (size : ℕ) : SessionList :=
  if moves then tellContainers { l with block := l.blocks, blocks := l.blocks + 1, size := size }
  else { l with size := size }

/-- `session_list_allocate`; `grow` is the outcome of making the array larger: whether it moves, if
    there is memory. -/
def allocate (grow : Option Bool) : Option (SessionRef × SessionList) :=
  if l.count = l.capacity then
    match grow with
    | none => none
    | some moves =>
      let l := { l.reallocate moves (l.capacity * 2) with capacity := l.capacity * 2 }
      some ((l.block, l.count), { l with count := l.count + 1 })
  else some ((l.block, l.count), { l with count := l.count + 1 })

/-- `session_list_free`. -/
def free (moves : Bool) (session : SessionRef) : Exec SessionList :=
  if session.1 ≠ l.block then .error .outOfBounds
  else
    let index := session.2
    let last := l.sessions (l.count - 1)
    let l := { l with sessions := Function.update l.sessions index last }
    let l := if index ≠ l.count - 1 then
        { l with session := Function.update l.session last (some (l.block, index)) }
      else l
    let l := { l with count := l.count - 1 }
    if l.count < l.capacity / 4 then return l.reallocate moves (l.capacity / 2) else return l

end SessionList

/-! ## Sessions that come and go -/

/-- A worker, with the number of containers that have been made. -/
structure SessionWorker where
  sessions : SessionList
  containers : ℕ
  live : List ℕ

/-- What happens to the list: a client connects, for whom there may not be everything that is needed,
    or a session is destroyed. -/
inductive SessionEvent
  | connect (grow : Option Bool) (created moves : Bool)
  | destroy (container : ℕ) (moves : Bool)

namespace SessionWorker

/-- A worker that has been started. -/
def start : SessionWorker := ⟨.init, 0, []⟩

variable (w : SessionWorker)

/-- `on_session_thread_assign`, for a client that connects: a container is made for his session, but it
    is freed again if the session cannot be `created`. -/
def connect (grow : Option Bool) (created moves : Bool) : Exec SessionWorker :=
  match w.sessions.allocate grow with
  | none => return w
  | some (ref, l) =>
    if created then
      return {
        sessions :=
          { l with
            sessions := Function.update l.sessions ref.2 w.containers
            session := Function.update l.session w.containers (some ref) }
        containers := w.containers + 1
        live := w.containers :: w.live }
    else do
      let l ← l.free moves ref
      return { w with sessions := l }

/-- `destroy_session`, after the container has been freed. -/
def destroy (container : ℕ) (moves : Bool) : Exec SessionWorker := do
  let ref ← Exec.deref (w.sessions.session container)
  let l ← SessionList.free
    { w.sessions with session := Function.update w.sessions.session container none } moves ref
  return { w with sessions := l, live := w.live.erase container }

end SessionWorker

/-- The worker after it. -/
def SessionEvent.step : SessionEvent → SessionWorker → Exec SessionWorker
  | connect grow created moves, w => w.connect grow created moves
  | destroy container moves, w => w.destroy container moves

/-! ## What the slots hold -/

namespace SessionList

variable {l l' : SessionList}

/-- What is at the addresses of the array: the containers of its sessions. -/
def slot (l : SessionList) : SessionRef → Option ℕ :=
  BackLinks.held (Function.update (fun _ => none) l.block (some l)) fun l => firsts l.count l.sessions

theorem slot_eq_some {ref : SessionRef} {c : ℕ} :
    l.slot ref = some c ↔ ref.1 = l.block ∧ ref.2 < l.count ∧ l.sessions ref.2 = c := by
  rw [slot, held_eq_some]
  by_cases h : ref.1 = l.block
  · rw [h, Function.update_self]
    simp only [Option.some.injEq, exists_eq_left', firsts_eq_some, true_and]
  · rw [Function.update_of_ne h]
    simp [h]

theorem slot_congr (hblock : l'.block = l.block) (hcount : l'.count = l.count)
    (hsessions : l'.sessions = l.sessions) : l'.slot = l.slot := by
  funext ref
  refine Option.ext fun c => ?_
  rw [slot_eq_some, slot_eq_some, hblock, hcount, hsessions]

/-- The array is changed at one place. -/
theorem Linked.set {back : ℕ → Option SessionRef} {i : ℕ} {o : Option ℕ}
    (h : Linked back (Function.update l.slot (l.block, i) o)) (hblock : l'.block = l.block)
    (hget : firsts l'.count l'.sessions = Function.update (firsts l.count l.sessions) i o) :
    Linked back l'.slot := by
  have hslot : BackLinks.held
        (Function.update (Function.update (fun _ => none) l.block (some l)) l.block (some l'))
        (fun l : SessionList => firsts l.count l.sessions) =
      Function.update (BackLinks.held (Function.update (fun _ => none) l.block (some l))
        fun l : SessionList => firsts l.count l.sessions) (l.block, i) o :=
    held_set (Function.update_self ..) hget
  rw [Function.update_idem] at hslot
  rw [slot, hblock, hslot]
  exact h

/-- The array is changed at two places. -/
theorem Linked.set_set {back : ℕ → Option SessionRef} {i j : ℕ} {o o' : Option ℕ}
    (h : Linked back (Function.update (Function.update l.slot (l.block, i) o) (l.block, j) o'))
    (hblock : l'.block = l.block)
    (hget : firsts l'.count l'.sessions =
      Function.update (Function.update (firsts l.count l.sessions) i o) j o') :
    Linked back l'.slot := by
  have hslot : BackLinks.held
        (Function.update (Function.update (fun _ => none) l.block (some l)) l.block (some l'))
        (fun l : SessionList => firsts l.count l.sessions) =
      Function.update (Function.update (BackLinks.held (Function.update (fun _ => none) l.block (some l))
        fun l : SessionList => firsts l.count l.sessions) (l.block, i) o) (l.block, j) o' :=
    held_set_set (Function.update_self ..) hget
  rw [Function.update_idem] at hslot
  rw [slot, hblock, hslot]
  exact h

/-- The containers of the first sessions have been told. -/
theorem told (h : Linked l.session l.slot) (block : ℕ) {n : ℕ} (hn : n ≤ l.count) :
    (List.range n).foldl
      (fun session i => Function.update session (l.sessions i) (some (block, i))) l.session =
    fun c => (l.session c).map fun ref => if ref.2 < n then (block, ref.2) else ref := by
  induction n with
  | zero => simp
  | succ n ih =>
    have hlast : l.session (l.sessions n) = some (l.block, n) :=
      (h _ _).2 (slot_eq_some.2 ⟨rfl, hn, rfl⟩)
    rw [List.range_succ, List.foldl_append, ih (Nat.le_of_succ_le hn), List.foldl_cons, List.foldl_nil]
    funext c
    by_cases hc : c = l.sessions n
    · rw [hc, Function.update_self, hlast, Option.map_some, if_pos (Nat.lt_succ_self n)]
    · rw [Function.update_of_ne hc]
      refine Option.map_congr fun ref href => ?_
      obtain ⟨-, -, hsession⟩ := slot_eq_some.1 ((h c ref).1 href)
      have hne : ref.2 ≠ n := by
        rintro rfl
        exact hc hsession.symm
      simp only [show ref.2 < n + 1 ↔ ref.2 < n by omega]

/-- When the array has moved, the containers know it. -/
theorem Linked.tellContainers (h : Linked l.session l.slot) (block blocks size : ℕ) :
    Linked (SessionList.tellContainers { l with block := block, blocks := blocks, size := size }).session
      (SessionList.tellContainers { l with block := block, blocks := blocks, size := size }).slot := by
  refine h.relocate (fun ref => (block, ref.2)) (fun c => ?_) fun ref c => ?_
  · refine (congrFun (told h block le_rfl) c).trans (Option.map_congr fun ref href => ?_)
    exact if_pos (slot_eq_some.1 ((h c ref).1 href)).2.1
  · rw [slot_eq_some]
    constructor
    · rintro ⟨hblock, hlt, hc⟩
      exact ⟨(l.block, ref.2), slot_eq_some.2 ⟨rfl, hlt, hc⟩, Prod.ext hblock.symm rfl⟩
    · rintro ⟨ref', href', rfl⟩
      obtain ⟨-, hlt, hc⟩ := slot_eq_some.1 href'
      exact ⟨rfl, hlt, hc⟩

/-- The containers know their sessions after the array has been made larger or smaller. -/
theorem Linked.reallocate (h : Linked l.session l.slot) (moves : Bool) (size : ℕ) :
    Linked (l.reallocate moves size).session (l.reallocate moves size).slot := by
  rw [SessionList.reallocate]
  split
  · exact Linked.tellContainers h _ _ _
  · have hslot : SessionList.slot { l with size := size } = l.slot := slot_congr rfl rfl rfl
    rw [hslot]
    exact h

@[simp] theorem reallocate_count (moves : Bool) (size : ℕ) :
    (l.reallocate moves size).count = l.count := by
  rw [reallocate]
  split <;> rfl

@[simp] theorem reallocate_size (moves : Bool) (size : ℕ) :
    (l.reallocate moves size).size = size := by
  rw [reallocate]
  split <;> rfl

@[simp] theorem reallocate_capacity (moves : Bool) (size : ℕ) :
    (l.reallocate moves size).capacity = l.capacity := by
  rw [reallocate]
  split <;> rfl

/-- Who has a session still has one after a reallocation. -/
theorem reallocate_session (h : Linked l.session l.slot) (moves : Bool) (size : ℕ) {c : ℕ} :
    (l.reallocate moves size).session c = none ↔ l.session c = none := by
  rw [reallocate]
  split
  · change (List.range l.count).foldl _ l.session c = none ↔ _
    rw [told h l.blocks le_rfl, Option.map_eq_none_iff]
  · exact Iff.rfl

end SessionList

/-! ## Sessions that are where their containers say -/

/-- The array is not overrun, the containers of the sessions know where these are, and the sessions
    in it are those that live, each once. -/
structure SessionWorker.Sound (w : SessionWorker) : Prop where
  count_le : w.sessions.count ≤ w.sessions.size
  linked : ∀ c ref, w.sessions.session c = some ref ↔
    ref.1 = w.sessions.block ∧ ref.2 < w.sessions.count ∧ w.sessions.sessions ref.2 = c
  live : ((List.range w.sessions.count).map w.sessions.sessions).Perm w.live

/-- A new session finds the array as full as its capacity says, so that it is made larger, or there is
    a slot left in the block. This fails when the array has been made smaller, so that its block is
    half as large as its capacity says, and then is full again. -/
def SessionFits : SessionEvent → SessionWorker → Prop
  | .connect .., w => w.sessions.count = w.sessions.capacity ∨ w.sessions.count < w.sessions.size
  | .destroy .., _ => True

namespace SessionList

variable {l l' : SessionList}

/-- A list whose containers know their sessions, those that live, and whose block is not larger than
    its capacity says. -/
structure Sound (l : SessionList) (live : List ℕ) : Prop where
  count_le : l.count ≤ l.size
  size_le : l.size ≤ l.capacity
  capacity_pos : 0 < l.capacity
  linked : Linked l.session l.slot
  nodup : live.Nodup
  live : ∀ c, l.session c = none ↔ c ∉ live

theorem sound_init : Sound init [] where
  count_le := Nat.zero_le _
  size_le := le_rfl
  capacity_pos := Nat.one_pos
  linked _ _ := iff_of_false nofun fun h => absurd (slot_eq_some.1 h).2.1 (Nat.not_lt_zero _)
  nodup := List.nodup_nil
  live _ := iff_of_true rfl List.not_mem_nil

variable {live : List ℕ}

/-- The sessions in the array are those that live. -/
theorem Sound.perm (h : Sound l live) : ((List.range l.count).map l.sessions).Perm live := by
  refine (List.perm_ext_iff_of_nodup ?_ h.nodup).2 fun c => ?_
  · refine List.Nodup.map_on (fun i hi j hj heq => ?_) List.nodup_range
    have hlinked (i : ℕ) (hi : i ∈ List.range l.count) : l.session (l.sessions i) = some (l.block, i) :=
      (h.linked _ _).2 (slot_eq_some.2 ⟨rfl, List.mem_range.1 hi, rfl⟩)
    have hij := (hlinked i hi).symm.trans (heq ▸ hlinked j hj)
    exact (Prod.mk.inj (Option.some.inj hij)).2
  · rw [← not_iff_not, ← h.live c, List.mem_map, Option.eq_none_iff_forall_ne_some]
    constructor
    · intro hnone ref href
      obtain ⟨-, hlt, hc⟩ := slot_eq_some.1 ((h.linked c ref).1 href)
      exact hnone ⟨ref.2, List.mem_range.2 hlt, hc⟩
    · rintro hnone ⟨i, hi, hc⟩
      exact hnone (l.block, i) ((h.linked _ _).2 (slot_eq_some.2 ⟨rfl, List.mem_range.1 hi, hc⟩))

theorem Sound.reallocate (h : Sound l live) (moves : Bool) {size capacity : ℕ}
    (hcount : l.count ≤ size) (hsize : size ≤ capacity) (hpos : 0 < capacity) :
    Sound { l.reallocate moves size with capacity := capacity } live where
  count_le := by simpa using hcount
  size_le := by simpa using hsize
  capacity_pos := hpos
  linked := by
    have hlinked := Linked.reallocate h.linked moves size
    have hslot : SessionList.slot { l.reallocate moves size with capacity := capacity } =
        (l.reallocate moves size).slot := slot_congr rfl rfl rfl
    rwa [← hslot] at hlinked
  nodup := h.nodup
  live c := (reallocate_session h.linked moves size).trans (h.live c)

/-- The array may be made smaller when it is less than a quarter full. -/
theorem Sound.shrink (h : Sound l live) (moves : Bool) :
    Sound (if l.count < l.capacity / 4 then l.reallocate moves (l.capacity / 2) else l) live := by
  split
  · have hsound : Sound { l.reallocate moves (l.capacity / 2) with capacity := l.capacity } live :=
      h.reallocate moves (by omega) (by omega) h.capacity_pos
    have hsame : { l.reallocate moves (l.capacity / 2) with capacity := l.capacity } =
        l.reallocate moves (l.capacity / 2) := by
      rw [SessionList.reallocate]
      split <;> rfl
    rwa [hsame] at hsound
  · exact h

/-- An allocated slot is the one behind those of a list that has room for it. -/
theorem allocate_spec (h : Sound l live) (hfits : l.count = l.capacity ∨ l.count < l.size)
    {grow : Option Bool} {ref : SessionRef} (ha : l.allocate grow = some (ref, l')) :
    ∃ l₁, Sound l₁ live ∧ l₁.count < l₁.size ∧ ref = (l₁.block, l₁.count) ∧
      l' = { l₁ with count := l₁.count + 1 } := by
  unfold allocate at ha
  split at ha
  · rename_i hfull
    rcases grow with - | moves
    · cases ha
    · cases ha
      have hpos := h.capacity_pos
      refine ⟨{ l.reallocate moves (l.capacity * 2) with capacity := l.capacity * 2 },
        h.reallocate moves (by omega) le_rfl (by omega), ?_, rfl, rfl⟩
      simp only [reallocate_count, reallocate_size]
      omega
  · rename_i hfull
    cases ha
    exact ⟨l, h, hfits.resolve_left hfull, rfl, rfl⟩

/-- A session is put into the slot that has been allocated for it. -/
theorem Sound.put (h : Sound l live) (hroom : l.count < l.size) {c : ℕ} (hc : c ∉ live) :
    Sound { l with
      count := l.count + 1
      sessions := Function.update l.sessions l.count c
      session := Function.update l.session c (some (l.block, l.count)) } (c :: live) where
  count_le := hroom
  size_le := h.size_le
  capacity_pos := h.capacity_pos
  linked := by
    refine Linked.set (h.linked.put ((h.live c).2 hc) ?_) rfl firsts_push
    exact Option.eq_none_iff_forall_ne_some.2 fun c' hc' => lt_irrefl _ (slot_eq_some.1 hc').2.1
  nodup := List.nodup_cons.2 ⟨hc, h.nodup⟩
  live c' := by
    by_cases he : c' = c
    · rw [he]
      exact iff_of_false (by simp) (by simp)
    · rw [List.mem_cons, not_or, and_iff_right he, ← h.live c']
      exact (congrArg (· = none) (Function.update_of_ne he ..)).to_iff

/-- A session that lives is freed: the last one takes its place. -/
theorem Sound.take (h : Sound l live) {c index : ℕ} (hc : l.session c = some (l.block, index)) :
    Sound { l with
      count := l.count - 1
      sessions := Function.update l.sessions index (l.sessions (l.count - 1))
      session := Function.update (Function.update l.session (l.sessions (l.count - 1))
        (some (l.block, index))) c none } (live.erase c) where
  count_le := (Nat.sub_le ..).trans h.count_le
  size_le := h.size_le
  capacity_pos := h.capacity_pos
  linked := by
    obtain ⟨-, hlt, -⟩ := slot_eq_some.1 ((h.linked _ _).1 hc)
    have hlast : l.session (l.sessions (l.count - 1)) = some (l.block, l.count - 1) :=
      (h.linked _ _).2 (slot_eq_some.2 ⟨rfl, by omega, rfl⟩)
    exact Linked.set_set (h.linked.fill hc hlast) rfl (firsts_fill hlt)
  nodup := h.nodup.erase c
  live c' := by
    obtain ⟨-, hlt, -⟩ := slot_eq_some.1 ((h.linked _ _).1 hc)
    have hlast : l.session (l.sessions (l.count - 1)) = some (l.block, l.count - 1) :=
      (h.linked _ _).2 (slot_eq_some.2 ⟨rfl, by omega, rfl⟩)
    rw [h.nodup.mem_erase_iff, not_and]
    by_cases he : c' = c
    · rw [he]
      exact iff_of_true (Function.update_self ..) fun hne => absurd rfl hne
    · simp only [Function.update_of_ne he, ne_eq, he, not_false_eq_true, forall_const]
      rw [← h.live c']
      by_cases hl : c' = l.sessions (l.count - 1)
      · rw [hl, Function.update_self, hlast]
        exact iff_of_false nofun nofun
      · rw [Function.update_of_ne hl]

/-- A slot that has been allocated is given back. -/
theorem Sound.giveBack (h : Sound l live) (moves : Bool) :
    (free { l with count := l.count + 1 } moves (l.block, l.count)).Ensures (Sound · live) := by
  intro l' hl'
  simp only [free, ne_eq, not_true_eq_false, if_false, Nat.add_sub_cancel,
    Function.update_eq_self] at hl'
  have hl : l' = if l.count < l.capacity / 4 then l.reallocate moves (l.capacity / 2) else l := by
    split at hl' <;> rename_i hif
    · rw [if_pos hif]
      exact (Except.ok.inj hl').symm
    · rw [if_neg hif]
      exact (Except.ok.inj hl').symm
  rw [hl]
  exact h.shrink moves

/-- A session that lives is freed, after its container. -/
theorem Sound.free (h : Sound l live) (moves : Bool) {c : ℕ} {ref : SessionRef}
    (hc : l.session c = some ref) :
    (SessionList.free { l with session := Function.update l.session c none } moves ref).Ensures
      (Sound · (live.erase c)) := by
  obtain ⟨hblock, hlt, hslot⟩ := slot_eq_some.1 ((h.linked _ _).1 hc)
  obtain ⟨block, index⟩ := ref
  obtain rfl : block = l.block := hblock
  have hlast : l.session (l.sessions (l.count - 1)) = some (l.block, l.count - 1) :=
    (h.linked _ _).2 (slot_eq_some.2 ⟨rfl, by omega, rfl⟩)
  intro l' hl'
  -- the container that has been freed is only told nothing if it is not the last one itself
  have hsession : Function.update (Function.update l.session (l.sessions (l.count - 1))
      (some (l.block, index))) c none =
      if index ≠ l.count - 1 then Function.update (Function.update l.session c none)
        (l.sessions (l.count - 1)) (some (l.block, index))
      else Function.update l.session c none := by
    split <;> rename_i hi
    · refine (Function.update_comm (fun he => hi ?_) ..)
      exact congrArg Prod.snd (Option.some.inj (hc.symm.trans (he ▸ hlast)))
    · obtain rfl : index = l.count - 1 := not_not.1 hi
      rw [hslot, Function.update_idem]
  have hl := (h.take hc).shrink moves
  rw [hsession] at hl
  simp only [SessionList.free, ne_eq, not_true_eq_false, if_false] at hl'
  split at hl' <;> rename_i hi
  · rw [if_pos hi] at hl
    split at hl' <;> rename_i hif
    · rw [if_pos hif] at hl
      rwa [← Except.ok.inj hl']
    · rw [if_neg hif] at hl
      rwa [← Except.ok.inj hl']
  · rw [if_neg hi] at hl
    split at hl' <;> rename_i hif
    · rw [if_pos hif] at hl
      rwa [← Except.ok.inj hl']
    · rw [if_neg hif] at hl
      rwa [← Except.ok.inj hl']

end SessionList

namespace SessionWorker

variable {w w' : SessionWorker}

/-- A worker whose list is sound, and whose containers have all been made. -/
structure Kept (w : SessionWorker) : Prop where
  sound : w.sessions.Sound w.live
  made : ∀ c ∈ w.live, c < w.containers

theorem kept_start : Kept start := ⟨SessionList.sound_init, nofun⟩

theorem Kept.connect (h : Kept w) {grow : Option Bool} {created moves : Bool}
    (hfits : SessionFits (.connect grow created moves) w) :
    (w.connect grow created moves).Ensures Kept := by
  rw [SessionWorker.connect]
  split
  · exact .pure h
  · rename_i ref l hl
    obtain ⟨l₁, hl₁, hroom, rfl, rfl⟩ := SessionList.allocate_spec h.sound hfits hl
    split
    · have hnew : w.containers ∉ w.live := fun hc => lt_irrefl _ (h.made _ hc)
      refine .pure ⟨hl₁.put hroom hnew, fun c hc => ?_⟩
      rcases List.mem_cons.1 hc with rfl | hc
      · exact Nat.lt_succ_self _
      · exact Nat.lt_succ_of_lt (h.made c hc)
    · exact (hl₁.giveBack moves).bind fun l hl => .pure ⟨hl, h.made⟩

theorem Kept.destroy (h : Kept w) {container : ℕ} {moves : Bool} :
    (w.destroy container moves).Ensures Kept :=
  .bind (.deref fun _ href => href) fun _ href => (h.sound.free moves href).bind fun _ hl =>
    .pure ⟨hl, fun c hc => h.made c (List.mem_of_mem_erase hc)⟩

theorem Kept.step (h : Kept w) (a : SessionEvent) (hfits : SessionFits a w) :
    (a.step w).Ensures Kept := by
  cases a with
  | connect grow created moves => exact h.connect hfits
  | destroy container moves => exact h.destroy

theorem Kept.isSound (h : Kept w) : Sound w where
  count_le := h.sound.count_le
  linked c ref := (h.sound.linked c ref).trans SessionList.slot_eq_some
  live := h.sound.perm

end SessionWorker

/-- While new sessions fit, the array is never overrun, and sessions and containers know each other. -/
theorem sessionList_run {w : SessionWorker}
    (hrun : Machine.Run SessionEvent.step SessionFits .start w) : w.Sound :=
  (hrun.invariant SessionWorker.kept_start
    fun a _ w' h hfits hstep => h.step a hfits w' hstep).isSound

instance (a : SessionEvent) (w : SessionWorker) : Decidable (SessionFits a w) :=
  match a with
  | .connect .. => inferInstanceAs (Decidable (_ ∨ _))
  | .destroy .. => inferInstanceAs (Decidable True)

/-- Three sessions come, for which the array moves twice; the first one ends, and another one comes. -/
theorem sessionList_run_three : ∃ w : SessionWorker, w.Sound ∧ w.live = [3, 2, 1] ∧
    w.sessions.session 2 = some (2, 0) := by
  let es : List SessionEvent := [.connect none true false, .connect (some true) true false,
    .connect (some true) true false, .destroy 0 false, .connect none true false]
  have hes : Exec.Returns
      (es.foldlM (Machine.checked SessionEvent.step SessionFits Fault.assertion) .start)
      fun w => w.live = [3, 2, 1] ∧ w.sessions.session 2 = some (2, 0) := by
    decide
  obtain ⟨w, hw, hlive⟩ := Exec.returns_iff.1 hes
  exact ⟨w, sessionList_run (.of_checked hw), hlive⟩

/-- Three sessions come and end, so that the array is made smaller; and three come again, but the array
    is not made larger again. -/
theorem sessionList_overrun : ∃ w,
    Machine.Run SessionEvent.step (fun _ _ => True) .start w ∧ ¬w.Sound := by
  let connect : SessionEvent := .connect (some true) true false
  let es : List SessionEvent := [connect, connect, connect, .destroy 0 false, .destroy 1 false,
    .destroy 2 false, connect, connect, connect]
  have hes : (es.foldlM (fun w e => SessionEvent.step e w) .start).Returns
      fun w => w.sessions.size < w.sessions.count := by
    decide
  obtain ⟨w, hw, hlt⟩ := Exec.returns_iff.1 hes
  exact ⟨w, .of_foldlM (fun _ _ _ => trivial) hw, fun h => absurd h.count_le (not_le_of_gt hlt)⟩

end Syrup
