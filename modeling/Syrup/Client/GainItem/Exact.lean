import Syrup.Client.GainItem
import Syrup.Client.GainItems.Exact
import Syrup.HashMap.Spec

/-!
# What `client_gain_inventory_item` gives

An item that is picked up is given, all of it, or refused, upon which nothing is to have changed. But a
rechargeable item for which there is no empty slot is reported to have been given; and the search for a
quest item is ended while the loops are still looking for a place, at every stack that has as many as
are wanted together with all of the item, whether or not it is put there in the end.
-/

namespace Syrup

open Sweep Slots Machine

/-! ## What is asked of it -/

/-- The search for an item is ended at a total: it is a quest item, and this is as many as are wanted. -/
def EndsSearch (env : Env) (chr : Character) (info : ItemInfo) (id : UInt32) (total : ℤ) : Prop :=
  info.quest = true ∧
    ∃ x, hashSetU16Foreach (checkQuestItem env id) chr.quests 0 = .ok x ∧ total = x.2.toInt

/-- What the first `n` stacks have room for. -/
def freeIn (slotMax : ℤ) (quantities : List ℤ) (n : ℕ) : ℤ := ((quantities.take n).map (slotMax - ·)).sum

variable {env : Env} {alloc : Bool} {room : ℕ} {chr : Character} {info : ItemInfo} {item : InventoryItem}
  {k : Fin inventoryCount}

/-! ## The items to be found -/

/-- So many removals have made one set of another: if there have been any, another number of records is
    counted. -/
def Removals (n : ℕ) (set set' : HashSet UInt32) : Prop :=
  (n = 0 → set' = set) ∧ set'.count + n ≡ set.count [MOD 2 ^ 64]

theorem Removals.refl (set : HashSet UInt32) : Removals 0 set set := ⟨fun _ => rfl, Nat.ModEq.refl _⟩

theorem Removals.trans {n m : ℕ} {set set' set'' : HashSet UInt32} (h : Removals n set set')
    (h' : Removals m set' set'') : Removals (n + m) set set'' := by
  refine ⟨fun hn => ?_, ?_⟩
  · obtain ⟨rfl, rfl⟩ := Nat.add_eq_zero_iff.1 hn
    exact (h'.1 rfl).trans (h.1 rfl)
  · rw [Nat.add_comm n, ← Nat.add_assoc]
    exact (h'.2.add_right n).trans h.2

/-- What the loop over some slots does to its state: it gets to the first `n` stacks. -/
structure FilledUp (env : Env) (room : ℕ) (chr : Character) (info : ItemInfo) (item : InventoryItem)
    (quantities : List ℤ) (s s' : PickUp) (n : ℕ) : Prop where
  le : n ≤ quantities.length
  mods : s'.mods.length = s.mods.length + n
  reached : ∀ i < n, freeIn info.slotMax.toInt quantities i < s.quantity.toInt ∧ s.mods.length + i ≤ room
  failed : s'.failed = true ↔ room < s.mods.length + n
  left : (s'.quantity = 0 ∧ s.quantity.toInt ≤ freeIn info.slotMax.toInt quantities n) ∨
    (0 < s'.quantity.toInt ∧ s'.quantity.toInt = s.quantity.toInt - freeIn info.slotMax.toInt quantities n)
  all : s'.failed = false → s'.quantity ≠ 0 → n = quantities.length
  ended : ∃ m ≤ n, Removals m s.itemQuests s'.itemQuests ∧
    (m = 0 ↔ ∀ q ∈ quantities.take n, ¬EndsSearch env chr info item.item.itemId (q + item.quantity.toInt))

theorem freeIn_zero (slotMax : ℤ) (quantities : List ℤ) : freeIn slotMax quantities 0 = 0 := by
  simp [freeIn]

theorem freeIn_cons (slotMax q : ℤ) (quantities : List ℤ) (n : ℕ) :
    freeIn slotMax (q :: quantities) (n + 1) = slotMax - q + freeIn slotMax quantities n := by
  simp [freeIn]

/-- The loop ends at a stack. -/
theorem FilledUp.stop {q : ℤ} {quantities : List ℤ} {s s' : PickUp}
    (h : FilledUp env room chr info item [q] s s' 1) (hstop : s'.failed = true ∨ s'.quantity = 0) :
    FilledUp env room chr info item (q :: quantities) s s' 1 := by
  have hfree : freeIn info.slotMax.toInt (q :: quantities) 1 = freeIn info.slotMax.toInt [q] 1 := by
    simp [freeIn]
  refine ⟨by simp, h.mods, fun i hi => ?_, h.failed, by rw [hfree]; exact h.left, fun hf hz => ?_, ?_⟩
  · obtain rfl : i = 0 := by omega
    have := h.reached 0 Nat.zero_lt_one
    rwa [freeIn_zero] at this ⊢
  · rcases hstop with hstop | hstop
    · rw [hf] at hstop
      cases hstop
    · exact absurd hstop hz
  · obtain ⟨m, hm, hremoved, hnone⟩ := h.ended
    exact ⟨m, hm, hremoved, by simpa using hnone⟩

/-- The loop goes on after a stack. -/
theorem FilledUp.cons {q : ℤ} {quantities : List ℤ} {s s₁ s' : PickUp} {n : ℕ}
    (h : FilledUp env room chr info item [q] s s₁ 1) (hpos : 0 < s.quantity.toInt) (hgo : s₁.quantity ≠ 0)
    (h' : FilledUp env room chr info item quantities s₁ s' n) :
    FilledUp env room chr info item (q :: quantities) s s' (n + 1) := by
  have hleft : s₁.quantity.toInt = s.quantity.toInt - (info.slotMax.toInt - q) := by
    obtain ⟨hz, -⟩ | ⟨-, hleft⟩ := h.left
    · exact absurd hz hgo
    · rw [hleft]
      simp [freeIn]
  have hmods := h.mods
  refine ⟨by simpa using h'.le, by rw [h'.mods, hmods, Nat.add_assoc, Nat.add_comm 1], fun i hi => ?_, ?_, ?_,
    fun hf hz => by rw [h'.all hf hz, List.length_cons], ?_⟩
  · cases i with
    | zero =>
      rw [freeIn_zero]
      exact ⟨hpos, (h.reached 0 Nat.zero_lt_one).2⟩
    | succ i =>
      obtain ⟨hlt, hle⟩ := h'.reached i (Nat.lt_of_succ_lt_succ hi)
      rw [freeIn_cons]
      omega
  · rw [h'.failed, hmods]
    omega
  · rw [freeIn_cons]
    obtain ⟨hz, hle⟩ | ⟨hlt, heq⟩ := h'.left
    · exact .inl ⟨hz, by omega⟩
    · exact .inr ⟨hlt, by omega⟩
  · obtain ⟨m, hm, hremoved, hnone⟩ := h.ended
    obtain ⟨m', hm', hremoved', hnone'⟩ := h'.ended
    refine ⟨m + m', by omega, hremoved.trans hremoved', ?_⟩
    rw [Nat.add_eq_zero_iff, hnone, hnone', List.take_succ_cons, List.forall_mem_cons]
    simp

end Syrup
