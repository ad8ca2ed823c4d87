import Syrup.Map.Exchange.Run
import Syrup.Map.PickUpAll

/-!
# What `map_pick_up_all` tries

For every pattern of which drops the player can take, the loops end, each drop that lies on the map for the player
is tried once, and those are left that have not been taken. But `map_remove_drop` loses the list of batches of the
player if it is to be made smaller and cannot: `realloc` returns `NULL`, which is put into `player->drops`, and the
loop reads from there if there are other batches.
-/

namespace Syrup

open SwapRemove

variable {σ : Type}

/-! ## What is asked of it -/

/-- The drops that lie on a map for a player. -/
def Map.lyingFor (m : Map) (p : MapPlayer) : List Drop := (m.batchesOf p).flatten ++ (m.droppedOf p).flatten

/-- Each drop that lies on the map for a player has been tried once, and those are left that have not been
    taken. The lists of the player are in order again. -/
def TriedOnce (env : Env) (takes : Drop → σ → Exec (Bool × σ)) (r : PlayerRef) (p : MapPlayer) (m : Map) (s : σ)
    (x : Map × σ) : Prop :=
  ∃ p' tried left, Map.Owned env x.1 r p' ∧ p'.InList ∧ tried.Perm (m.lyingFor p) ∧
    tryAll takes tried s = .ok (left, x.2) ∧ (x.1.lyingFor p').Perm left

/-- The list of batches of a player is never lost: while batches are gone through, the last one coming next when
    one has gone, the list can be made smaller whenever it is to be and something is left in it. So many batches
    have been kept, the list has a capacity, and these batches are still to be gone through. -/
def KeepsList (takes : Drop → σ → Exec (Bool × σ)) (removal : UInt32 → ℕ → Bool) :
    ℕ → ℕ → ℕ → List (List Drop) → σ → Prop
  | 0, _, _, _, _ => True
  | _ + 1, _, _, [], _ => True
  | n + 1, kept, capacity, drops :: rest, s => ∀ tried left s',
    visit takes drops.length drops s = .ok (tried, left, s') →
      if left = [] then
        (∀ d, tried.getLast? = some d → kept + rest.length < capacity / 4 → removal d.oid 1 = false →
          kept + rest.length = 0) ∧
        KeepsList takes removal n kept (if kept + rest.length < capacity / 4 then capacity / 2 else capacity)
          (front rest) s'
      else KeepsList takes removal n (kept + 1) capacity rest s'

variable {env : Env} {takes : Drop → σ → Exec (Bool × σ)} {removal : UInt32 → ℕ → Bool} {m : Map} {r : PlayerRef}
  {p : MapPlayer} {s s' : σ}

theorem keepsList_cons {n kept capacity : ℕ} {drops : List Drop} {rest : List (List Drop)} {tried left : List Drop}
    (h : visit takes drops.length drops s = .ok (tried, left, s')) :
    KeepsList takes removal (n + 1) kept capacity (drops :: rest) s ↔
      if left = [] then
        (∀ d, tried.getLast? = some d → kept + rest.length < capacity / 4 → removal d.oid 1 = false →
          kept + rest.length = 0) ∧
        KeepsList takes removal n kept (if kept + rest.length < capacity / 4 then capacity / 2 else capacity)
          (front rest) s'
      else KeepsList takes removal n (kept + 1) capacity rest s' := by
  rw [KeepsList]
  refine ⟨fun hkeeps => hkeeps _ _ _ h, fun hkeeps t l s₁ h₁ => ?_⟩
  cases h.symm.trans h₁
  exact hkeeps

namespace Map

/-! ## The batches -/

theorem toNat_succ {i : UInt64} {n : ℕ} (hi : i.toNat = n) (hn : n + 1 < 2 ^ 64) : (i + 1).toNat = n + 1 := by
  rw [UInt64.toNat_add, hi]
  exact Nat.mod_eq_of_lt hn

theorem toNat_pred {i : UInt64} {n : ℕ} (hi : i.toNat = n) (hn : 0 < n) : (i - 1).toNat = n - 1 := by
  rw [UInt64.toNat_sub_of_le _ _ (by rw [UInt64.le_iff_toNat_le, hi]; exact hn), hi]
  rfl

theorem doClientAutoPickup_taken {d : Drop} {s₁ : σ} {m₁ : Map} (htake : takes d s = .ok (true, s₁))
    (hremove : mapRemoveDrop env (removal d.oid) m d.oid = .ok m₁) :
    doClientAutoPickup env takes removal m s d = .ok (true, m₁, s₁) := by
  rw [doClientAutoPickup, htake]
  change (mapRemoveDrop env (removal d.oid) m d.oid >>= _) = _
  rw [hremove]
  rfl

theorem doClientAutoPickup_kept {d : Drop} {s₁ : σ} (htake : takes d s = .ok (false, s₁)) :
    doClientAutoPickup env takes removal m s d = .ok (false, m, s₁) := by
  rw [doClientAutoPickup, htake]
  rfl

section Rounds

variable {id n : ℕ} {i j count : UInt64} {d : Drop} {s₁ : σ}

theorem pickUpBatch_end (hend : ¬j < count) :
    pickUpBatch env takes removal id (n + 1) i j count m s = .ok (i, m, s) := by
  rw [pickUpBatch, if_neg hend]

theorem pickUpBatch_taken {b : DropBatch} {m₁ : Map} (hlt : j < count) (hb : m.batch id = some b)
    (hget : b.drops[j.toNat]? = some d) (htake : takes d s = .ok (true, s₁))
    (hremove : mapRemoveDrop env (removal d.oid) m d.oid = .ok m₁) :
    pickUpBatch env takes removal id (n + 1) i j count m s =
      pickUpBatch env takes removal id n (if b.drops.length = 1 then i - 1 else i) j (count - 1) m₁ s₁ := by
  rw [pickUpBatch, if_pos hlt, hb]
  change (Exec.deref b.drops[j.toNat]? >>= _) = _
  rw [hget]
  change (doClientAutoPickup env takes removal m s d >>= _) = _
  rw [doClientAutoPickup_taken htake hremove]
  change pickUpBatch env takes removal id n _ (j - 1 + 1) (count - 1) m₁ s₁ = _
  rw [UInt64.sub_add_cancel]

theorem pickUpBatch_kept {b : DropBatch} (hlt : j < count) (hb : m.batch id = some b)
    (hget : b.drops[j.toNat]? = some d) (htake : takes d s = .ok (false, s₁)) :
    pickUpBatch env takes removal id (n + 1) i j count m s =
      pickUpBatch env takes removal id n i (j + 1) count m s₁ := by
  rw [pickUpBatch, if_pos hlt, hb]
  change (Exec.deref b.drops[j.toNat]? >>= _) = _
  rw [hget]
  change (doClientAutoPickup env takes removal m s d >>= _) = _
  rw [doClientAutoPickup_kept htake]
  change (Exec.deref (m.batch id) >>= _) = _
  rw [hb]
  change pickUpBatch env takes removal id n
    (if b.drops.length = 1 then (if b.drops.length = 1 then i - 1 else i) + 1
      else if b.drops.length = 1 then i - 1 else i) (j + 1) count m s₁ = _
  split
  · rw [UInt64.sub_add_cancel]
  · rfl

theorem pickUpDropped_end (hend : ¬j < count) :
    pickUpDropped env takes removal id (n + 1) j count m s = .ok (m, s) := by
  rw [pickUpDropped, if_neg hend]

theorem pickUpDropped_taken {b : DroppingBatch} {m₁ : Map} (hlt : j < count) (hb : m.dropping id = some b)
    (hget : b.drops[j.toNat]? = some d) (htake : takes d s = .ok (true, s₁))
    (hremove : mapRemoveDrop env (removal d.oid) m d.oid = .ok m₁) :
    pickUpDropped env takes removal id (n + 1) j count m s =
      pickUpDropped env takes removal id n j (count - 1) m₁ s₁ := by
  rw [pickUpDropped, if_pos hlt, hb]
  change (Exec.deref b.drops[j.toNat]? >>= _) = _
  rw [hget]
  change (doClientAutoPickup env takes removal m s d >>= _) = _
  rw [doClientAutoPickup_taken htake hremove]
  change pickUpDropped env takes removal id n (j - 1 + 1) (count - 1) m₁ s₁ = _
  rw [UInt64.sub_add_cancel]

theorem pickUpDropped_kept {b : DroppingBatch} (hlt : j < count) (hb : m.dropping id = some b)
    (hget : b.drops[j.toNat]? = some d) (htake : takes d s = .ok (false, s₁)) :
    pickUpDropped env takes removal id (n + 1) j count m s =
      pickUpDropped env takes removal id n (j + 1) count m s₁ := by
  rw [pickUpDropped, if_pos hlt, hb]
  change (Exec.deref b.drops[j.toNat]? >>= _) = _
  rw [hget]
  change (doClientAutoPickup env takes removal m s d >>= _) = _
  rw [doClientAutoPickup_kept htake]
  rfl

end Rounds

variable (removal) in
/-- The loop over the drops of a batch, of which some have been kept and the others are still to be tried. -/
theorem pickUpBatch_spec {k n : ℕ} {i j count : UInt64} {kept rest tried left : List Drop} {b : DropBatch}
    (h : Owned env m r p) (hp : p.InList) (hk : k < p.dropCount) (hb : m.batch (p.drops k) = some b)
    (hdrops : b.drops = kept ++ rest) (hj : j.toNat = kept.length) (hcount : count.toNat = b.drops.length)
    (hn : rest.length < n) (hvisit : visit takes rest.length rest s = .ok (tried, left, s')) :
    (kept ++ left ≠ [] ∧ ∃ m', pickUpBatch env takes removal (p.drops k) n i j count m s = .ok (i, m', s') ∧
      Owned env m' r p ∧ m'.batchesOf p = (m.batchesOf p).set k (kept ++ left) ∧ m'.dropping = m.dropping) ∨
    (kept ++ left = [] ∧ ∃ d m', tried.getLast? = some d ∧
      pickUpBatch env takes removal (p.drops k) n i j count m s = .ok (i - 1, m', s') ∧
      Owned env m' r (p.unlistDrop false (removal d.oid 1) k) ∧
      m'.batchesOf (p.unlistDrop false (removal d.oid 1) k) = swapRemove (m.batchesOf p) k ∧
      m'.dropping = m.dropping) := by
  -- The drops before `j` have been kept, and those from `j` on are tried in the order of the rest.
  induction n generalizing i j count kept rest tried left b m s with
  | zero => exact absurd hn (Nat.not_lt_zero _)
  | succ n ih =>
    obtain ⟨b₀, hb₀, hown⟩ := h.lists.batches k hk
    cases hb.symm.trans hb₀
    have hlen : b.drops.length = kept.length + rest.length := by rw [hdrops, List.length_append]
    have hfew := hown.few
    cases rest with
    | nil =>
      -- All drops have been tried.
      cases hvisit
      have hend : ¬j < count := by
        rw [UInt64.lt_iff_toNat_lt, hj, hcount, hlen]
        exact lt_irrefl _
      rw [List.append_nil] at hdrops ⊢
      refine .inl ⟨hdrops ▸ hown.nonempty, m, pickUpBatch_end hend, h, map_range_set ?_ fun _ _ _ => rfl, rfl⟩
      rw [dropsIn_eq hb, hdrops]
    | cons d rest =>
      rw [List.length_cons] at hlen hn
      have hlt : j < count := by
        rw [UInt64.lt_iff_toNat_lt, hj, hcount, hlen]
        omega
      have hget : b.drops[j.toNat]? = some d := by
        rw [hdrops, hj, List.getElem?_append_right le_rfl, Nat.sub_self]
        rfl
      obtain ⟨s₁, t, rfl, ⟨htake, hvisit⟩ | ⟨l, rfl, htake, hvisit⟩⟩ := visit_cons hvisit
      · by_cases hmore : 1 < b.drops.length
        · -- Other drops are left in the batch, and the last one takes the place of this one.
          obtain ⟨m₁, hremove, h₁, hb₁, hview₁, hdropping₁⟩ :=
            Exec.returns_iff.1 (h.removeOne hp hk hb (removal d.oid) hget hmore)
          rw [pickUpBatch_taken hlt hb hget htake hremove, if_neg (by omega)]
          have hswap : swapRemove b.drops j.toNat = kept ++ front rest := by
            rw [hdrops, hj, swapRemove_append]
          have hcount₁ : (count - 1).toNat = (swapRemove b.drops j.toNat).length := by
            rw [toNat_pred hcount (by omega), length_swapRemove]
          rw [← length_front] at hvisit hn
          obtain ⟨hne, m', hrun, h', hview, hdropping⟩ | ⟨hempty, e, m', he, hrun, h', hview, hdropping⟩ :=
            ih (i := i) h₁ hb₁ hswap hj hcount₁ (by omega) hvisit
          · refine .inl ⟨hne, m', hrun, h', ?_, hdropping.trans hdropping₁⟩
            rw [hview, hview₁, List.set_set]
          · refine .inr ⟨hempty, e, m', ?_, hrun, h', ?_, hdropping.trans hdropping₁⟩
            · rw [List.getLast?_cons, he]
              rfl
            · rw [hview, hview₁, swapRemove_set]
        · -- This was the last drop, and the batch goes.
          obtain rfl : kept = [] := List.eq_nil_of_length_eq_zero (by omega)
          obtain rfl : rest = [] := List.eq_nil_of_length_eq_zero (by omega)
          cases hvisit
          obtain ⟨m₁, hremove, h₁, hview₁, hdropping₁⟩ :=
            Exec.returns_iff.1 (h.removeLast hp hk hb (removal d.oid) hdrops)
          obtain ⟨n, rfl⟩ := Nat.exists_eq_succ_of_ne_zero (by omega : n ≠ 0)
          have hzero : (count - 1).toNat = 0 := by
            rw [toNat_pred hcount (by omega), hdrops]
            rfl
          have hend : ¬j < count - 1 := by
            rw [UInt64.lt_iff_toNat_lt, hzero]
            exact Nat.not_lt_zero _
          refine .inr ⟨rfl, d, m₁, rfl, ?_, h₁, hview₁, hdropping₁⟩
          rw [pickUpBatch_taken hlt hb hget htake hremove, if_pos (by rw [hdrops]; rfl), pickUpBatch_end hend]
      · -- The drop is kept.
        have hj₁ : (j + 1).toNat = (kept ++ [d]).length := by
          rw [toNat_succ hj (by omega), List.length_append, List.length_singleton]
        rw [pickUpBatch_kept hlt hb hget htake, List.append_cons kept d l]
        obtain ⟨hne, m', hrun, h', hview, hdropping⟩ | ⟨hempty, -⟩ :=
          ih (i := i) h hb (hdrops.trans (List.append_cons ..)) hj₁ hcount (by omega) hvisit
        · exact .inl ⟨hne, m', hrun, h', hview, hdropping⟩
        · exact absurd hempty (by simp)

section Batches

variable {N n : ℕ} {i i₁ : UInt64} {s₁ : σ} {m₁ : Map}

theorem pickUpBatches_end (hplayer : m.getPlayer r = .ok p) (hend : ¬i.toNat < p.dropCount) :
    pickUpBatches env takes removal r N (n + 1) i m s = .ok (m, s) := by
  rw [pickUpBatches, hplayer]
  change (if i.toNat < p.dropCount then _ else _) = _
  rw [if_neg hend]
  rfl

theorem pickUpBatches_next {b : DropBatch} (hplayer : m.getPlayer r = .ok p) (hlt : i.toNat < p.dropCount)
    (hfits : p.dropCount ≤ p.dropSize) (hb : m.batch (p.drops i.toNat) = some b)
    (hrun : pickUpBatch env takes removal (p.drops i.toNat) N i 0 (UInt64.ofNat b.drops.length) m s =
      .ok (i₁, m₁, s₁)) :
    pickUpBatches env takes removal r N (n + 1) i m s = pickUpBatches env takes removal r N n (i₁ + 1) m₁ s₁ := by
  rw [pickUpBatches, hplayer]
  change (if i.toNat < p.dropCount then _ else _) = _
  rw [if_pos hlt, MapPlayer.readDrop, Exec.within, if_pos (hlt.trans_le hfits)]
  change (Exec.deref (m.batch (p.drops i.toNat)) >>= _) = _
  rw [hb]
  change (pickUpBatch env takes removal (p.drops i.toNat) N i 0 (UInt64.ofNat b.drops.length) m s >>= _) = _
  rw [hrun]
  rfl

/-- When the list is lost, the loop ends at once, or reads from it. -/
theorem pickUpBatches_lost (hplayer : m.getPlayer r = .ok p) (hsize : p.dropSize = 0) (n : ℕ) :
    Exec.Ensures (pickUpBatches env takes removal r N n i m s) fun x => x = (m, s) := by
  cases n with
  | zero => exact .error
  | succ n =>
    rw [pickUpBatches, hplayer]
    change Exec.Ensures (if i.toNat < p.dropCount then _ else _) _
    split
    · rw [MapPlayer.readDrop, Exec.within, hsize, if_neg (Nat.not_lt_zero _)]
      exact .error
    · exact .pure rfl

end Batches

/-- What the loop over the batches of a player does: some have been kept, and the others are still to be gone
    through. -/
def BatchesTried (env : Env) (takes : Drop → σ → Exec (Bool × σ)) (Q : σ → Prop) (r : PlayerRef) (m : Map)
    (p : MapPlayer) (s : σ) (kept rest : List (List Drop)) (x : Map × σ) : Prop :=
  ∃ p' tried left, Owned env x.1 r p' ∧ p'.InList ∧ Q x.2 ∧ x.1.droppedOf p' = m.droppedOf p ∧
    tried.Perm rest.flatten ∧ tryAll takes tried s = .ok (left.flatten, x.2) ∧ x.1.batchesOf p' = kept ++ left

/-- What it does if it returns when the list of the player has been lost. -/
def ListLost (env : Env) (Q : σ → Prop) (r : PlayerRef) (m : Map) (p : MapPlayer) (x : Map × σ) : Prop :=
  ∃ p', Owned env x.1 r p' ∧ ¬p'.InList ∧ Q x.2 ∧ x.1.droppedOf p' = m.droppedOf p

variable (removal) in
theorem pickUpBatches_spec {Q : σ → Prop} {N n : ℕ} {i : UInt64} {kept rest : List (List Drop)}
    (h : Owned env m r p) (hp : p.InList) (hview : m.batchesOf p = kept ++ rest) (hi : i.toNat = kept.length)
    (hn : rest.length < n) (hN : ∀ drops ∈ rest, drops.length < N) (hs : Q s)
    (htakes : ∀ d ∈ rest.flatten, ∀ s, Q s → ∃ taken s', takes d s = .ok (taken, s') ∧ Q s') :
    (KeepsList takes removal rest.length kept.length p.dropCapacity rest s →
      (pickUpBatches env takes removal r N n i m s).Returns (BatchesTried env takes Q r m p s kept rest)) ∧
    (¬KeepsList takes removal rest.length kept.length p.dropCapacity rest s →
      Exec.Ensures (pickUpBatches env takes removal r N n i m s) (ListLost env Q r m p)) := by
  -- The batches before `i` have been kept; `i` has gone back by one when a batch has gone, and comes back.
  induction n generalizing i kept rest m p s with
  | zero => exact absurd hn (Nat.not_lt_zero _)
  | succ n ih =>
    have hcount : p.dropCount = kept.length + rest.length := by
      rw [← List.length_append, ← hview, batchesOf, List.length_map, List.length_range]
    have hfew := h.lists.few
    cases rest with
    | nil =>
      have hend : ¬i.toNat < p.dropCount := by
        rw [hi, hcount]
        exact lt_irrefl _
      rw [pickUpBatches_end h.lists.player hend]
      refine ⟨fun _ => ⟨p, [], [], h, hp, hs, rfl, .refl _, rfl, hview⟩, fun hno => absurd ?_ hno⟩
      exact trivial
    | cons drops rest =>
      rw [List.length_cons] at hcount hn
      obtain ⟨hNd, hNr⟩ := List.forall_mem_cons.1 hN
      have hlt : i.toNat < p.dropCount := by omega
      obtain ⟨b, hb, hown⟩ := h.lists.batches _ hlt
      have hdrops : b.drops = drops := by
        have hget := getElem?_batchesOf (m := m) hlt
        rw [hview, hi, List.getElem?_append_right le_rfl, Nat.sub_self, ← hi, dropsIn_eq hb] at hget
        exact (Option.some.inj hget).symm
      have htakes₁ : ∀ d ∈ drops, ∀ s, Q s → ∃ taken s', takes d s = .ok (taken, s') ∧ Q s' := fun d hd =>
        htakes d (List.mem_flatten.2 ⟨drops, List.mem_cons_self, hd⟩)
      have htakes₂ : ∀ d ∈ rest.flatten, ∀ s, Q s → ∃ taken s', takes d s = .ok (taken, s') ∧ Q s' := fun d hd =>
        htakes d (List.mem_append_right _ hd)
      obtain ⟨tried, left, s₁, hvisit, hs₁, hperm, htry⟩ := visit_spec htakes₁ hs le_rfl
      have hlen : (UInt64.ofNat b.drops.length).toNat = b.drops.length := UInt64.toNat_ofNat_of_lt hown.few
      rw [List.length_cons, keepsList_cons hvisit]
      rw [← hdrops] at hvisit
      have hstart : b.drops = [] ++ b.drops := rfl
      have hzero : (0 : UInt64).toNat = ([] : List Drop).length := rfl
      obtain ⟨hne, m₁, hrun, h₁, hview₁, hdropping⟩ | ⟨hempty, d, m₁, hd, hrun, h₁, hview₁, hdropping⟩ :=
        pickUpBatch_spec removal (i := i) h hp hlt hb hstart hzero hlen (by rw [hdrops]; exact hNd) hvisit
      · -- Some drops are left in the batch.
        rw [List.nil_append] at hne hview₁
        rw [pickUpBatches_next h.lists.player hlt hp.fits hb hrun, if_neg hne]
        have hview' : m₁.batchesOf p = (kept ++ [left]) ++ rest := by
          rw [hview₁, hview, hi, set_append_cons]
        have hkept : (kept ++ [left]).length = kept.length + 1 := by
          rw [List.length_append, List.length_singleton]
        obtain ⟨hreturns, hlost⟩ := ih h₁ hp hview' ((toNat_succ hi (by omega)).trans hkept.symm) (by omega) hNr hs₁
          htakes₂
        rw [hkept] at hreturns hlost
        have hdropped₁ : m₁.droppedOf p = m.droppedOf p := droppedOf_congr hdropping rfl rfl
        refine ⟨fun hkeeps => (hreturns hkeeps).mono ?_, fun hno => (hlost hno).mono ?_⟩
        · rintro x ⟨p', t, l, h', hp', hs', hdropped, hperm', htry', hview'⟩
          refine ⟨p', tried ++ t, left :: l, h', hp', hs', hdropped.trans hdropped₁, hperm.append hperm',
            tryAll_append htry htry', ?_⟩
          rw [hview', ← List.append_cons]
        · rintro x ⟨p', h', hp', hs', hdropped⟩
          exact ⟨p', h', hp', hs', hdropped.trans hdropped₁⟩
      · -- The batch has gone.
        rw [List.nil_append] at hempty
        rw [pickUpBatches_next h.lists.player hlt hp.fits hb hrun, if_pos hempty, UInt64.sub_add_cancel]
        have hlist : (p.unlistDrop false (removal d.oid 1) i.toNat).InList ↔ _ :=
          MapPlayer.unlistDrop_inList hp (by omega)
        have hiff : (∀ e, tried.getLast? = some e → kept.length + rest.length < p.dropCapacity / 4 →
            removal e.oid 1 = false → kept.length + rest.length = 0) ↔
            (p.unlistDrop false (removal d.oid 1) i.toNat).InList := by
          rw [hlist, hcount, hd]
          simp
        rw [hiff]
        obtain ⟨hdroppings, hdroppingCount, -⟩ := p.unlistDrop_droppings false (removal d.oid 1) i.toNat
        have hdropped₁ : m₁.droppedOf (p.unlistDrop false (removal d.oid 1) i.toNat) = m.droppedOf p :=
          droppedOf_congr hdropping hdroppingCount hdroppings
        by_cases hin : (p.unlistDrop false (removal d.oid 1) i.toNat).InList
        · have hview' : m₁.batchesOf (p.unlistDrop false (removal d.oid 1) i.toNat) = kept ++ front rest := by
            rw [hview₁, hview, hi, swapRemove_append]
          have hcapacity : (if kept.length + rest.length < p.dropCapacity / 4 then p.dropCapacity / 2
              else p.dropCapacity) = (p.unlistDrop false (removal d.oid 1) i.toNat).dropCapacity := by
            rw [MapPlayer.unlistDrop_dropCapacity, hcount]
            rfl
          obtain ⟨hreturns, hlost⟩ := ih h₁ hin hview' hi
            (by rw [length_front]; omega) (fun b hb => hNr b ((front_perm rest).mem_iff.1 hb)) hs₁
            (fun d hd => htakes₂ d ((front_perm rest).flatten.mem_iff.1 hd))
          rw [length_front] at hreturns hlost
          rw [hcapacity, and_iff_right hin]
          refine ⟨fun hkeeps => (hreturns hkeeps).mono ?_, fun hno => (hlost hno).mono ?_⟩
          · rintro x ⟨p', t, l, h', hp', hs', hdropped, hperm', htry', hview'⟩
            refine ⟨p', tried ++ t, l, h', hp', hs', hdropped.trans hdropped₁,
              hperm.append (hperm'.trans (front_perm rest).flatten), ?_, hview'⟩
            rw [hempty] at htry
            exact tryAll_append htry htry'
          · rintro x ⟨p', h', hp', hs', hdropped⟩
            exact ⟨p', h', hp', hs', hdropped.trans hdropped₁⟩
        · -- There is no list any more.
          refine ⟨fun hkeeps => absurd hkeeps.1 hin, fun _ => ?_⟩
          refine (pickUpBatches_lost h₁.lists.player (MapPlayer.unlistDrop_lost hp (by omega) hin) n).mono ?_
          rintro _ rfl
          exact ⟨_, h₁, hin, hs₁, hdropped₁⟩

/-! ## The dropping batches -/

variable (removal) in
/-- The loop over what a batch has dropped that is still dropping. -/
theorem pickUpDropped_spec {k n : ℕ} {j count : UInt64} {kept rest tried left : List Drop} {b : DroppingBatch}
    (h : Owned env m r p) (hk : k < p.droppingCount) (hb : m.dropping (p.droppings k) = some b)
    (hdrops : b.drops.take b.current = kept ++ rest) (hj : j.toNat = kept.length) (hcount : count.toNat = b.current)
    (hn : rest.length < n) (hvisit : visit takes rest.length rest s = .ok (tried, left, s')) :
    ∃ m', pickUpDropped env takes removal (p.droppings k) n j count m s = .ok (m', s') ∧ Owned env m' r p ∧
      m'.droppedOf p = (m.droppedOf p).set k (kept ++ left) ∧ m'.batch = m.batch := by
  induction n generalizing j count kept rest tried left b m s with
  | zero => exact absurd hn (Nat.not_lt_zero _)
  | succ n ih =>
    obtain ⟨b₀, hb₀, hown⟩ := h.lists.droppings k hk
    cases hb.symm.trans hb₀
    have hcurrent := hown.current
    have hfew := hown.few
    have hlen : b.current = kept.length + rest.length := by
      rw [← List.length_append, ← hdrops, List.length_take, min_eq_left hcurrent]
    cases rest with
    | nil =>
      cases hvisit
      have hend : ¬j < count := by
        rw [UInt64.lt_iff_toNat_lt, hj, hcount, hlen]
        exact lt_irrefl _
      rw [List.append_nil] at hdrops ⊢
      refine ⟨m, pickUpDropped_end hend, h, map_range_set ?_ fun _ _ _ => rfl, rfl⟩
      rw [droppedIn_eq hb, hdrops]
    | cons d rest =>
      rw [List.length_cons] at hlen hn
      have hlt : j < count := by
        rw [UInt64.lt_iff_toNat_lt, hj, hcount, hlen]
        omega
      have hget : b.drops[j.toNat]? = some d := by
        rw [← List.getElem?_take_of_lt (j := b.current) (by omega), hdrops, hj, List.getElem?_append_right le_rfl,
          Nat.sub_self]
        rfl
      obtain ⟨s₁, t, rfl, ⟨htake, hvisit⟩ | ⟨l, rfl, htake, hvisit⟩⟩ := visit_cons hvisit
      · obtain ⟨m₁, hremove, h₁, ⟨b₁, hb₁, htaken⟩, hview₁, hbatch₁⟩ :=
          Exec.returns_iff.1 (h.removeDropping hk hb (removal d.oid) (by omega) hget)
        rw [pickUpDropped_taken hlt hb hget htake hremove]
        have hswap : b₁.drops.take b₁.current = kept ++ front rest := by
          rw [htaken, hdrops, hj, swapRemove_append]
        have hcount₁ : (count - 1).toNat = b₁.current := by
          obtain ⟨b₂, hb₂, hown₁⟩ := h₁.lists.droppings k hk
          cases hb₁.symm.trans hb₂
          have hlen₁ := congrArg List.length hswap
          rw [List.length_take, min_eq_left hown₁.current, List.length_append, length_front] at hlen₁
          rw [toNat_pred hcount (by omega), hlen₁, hlen]
          omega
        rw [← length_front] at hvisit hn
        obtain ⟨m', hrun, h', hview, hbatch⟩ := ih h₁ hb₁ hswap hj hcount₁ (by omega) hvisit
        refine ⟨m', hrun, h', ?_, hbatch.trans hbatch₁⟩
        rw [hview, hview₁, List.set_set]
      · have hj₁ : (j + 1).toNat = (kept ++ [d]).length := by
          rw [toNat_succ hj (by omega), List.length_append, List.length_singleton]
        rw [pickUpDropped_kept hlt hb hget htake, List.append_cons kept d l]
        exact ih h hb (hdrops.trans (List.append_cons ..)) hj₁ hcount (by omega) hvisit

section Droppings

variable {N n : ℕ} {i : UInt64} {s₁ : σ} {m₁ : Map}

theorem pickUpDroppings_end (hplayer : m.getPlayer r = .ok p) (hend : ¬i.toNat < p.droppingCount) :
    pickUpDroppings env takes removal r N (n + 1) i m s = .ok (m, s) := by
  rw [pickUpDroppings, hplayer]
  change (if i.toNat < p.droppingCount then _ else _) = _
  rw [if_neg hend]
  rfl

theorem pickUpDroppings_next {b : DroppingBatch} (hplayer : m.getPlayer r = .ok p) (hlt : i.toNat < p.droppingCount)
    (hfits : p.droppingCount ≤ p.droppingSize) (hb : m.dropping (p.droppings i.toNat) = some b)
    (hrun : pickUpDropped env takes removal (p.droppings i.toNat) N 0 (UInt64.ofNat b.current) m s = .ok (m₁, s₁)) :
    pickUpDroppings env takes removal r N (n + 1) i m s =
      pickUpDroppings env takes removal r N n (i + 1) m₁ s₁ := by
  rw [pickUpDroppings, hplayer]
  change (if i.toNat < p.droppingCount then _ else _) = _
  rw [if_pos hlt, MapPlayer.readDropping, Exec.within, if_pos (hlt.trans_le hfits)]
  change (Exec.deref (m.dropping (p.droppings i.toNat)) >>= _) = _
  rw [hb]
  change (pickUpDropped env takes removal (p.droppings i.toNat) N 0 (UInt64.ofNat b.current) m s >>= _) = _
  rw [hrun]
  rfl

end Droppings

variable (removal) in
theorem pickUpDroppings_spec {Q : σ → Prop} {N n : ℕ} {i : UInt64} {kept rest : List (List Drop)}
    (h : Owned env m r p) (hview : m.droppedOf p = kept ++ rest) (hi : i.toNat = kept.length)
    (hn : rest.length < n) (hN : ∀ drops ∈ rest, drops.length < N) (hs : Q s)
    (htakes : ∀ d ∈ rest.flatten, ∀ s, Q s → ∃ taken s', takes d s = .ok (taken, s') ∧ Q s') :
    ∃ m' s' tried left, pickUpDroppings env takes removal r N n i m s = .ok (m', s') ∧ Owned env m' r p ∧
      m'.batch = m.batch ∧ tried.Perm rest.flatten ∧ tryAll takes tried s = .ok (left.flatten, s') ∧
      m'.droppedOf p = kept ++ left := by
  induction n generalizing i kept rest m s with
  | zero => exact absurd hn (Nat.not_lt_zero _)
  | succ n ih =>
    have hcount : p.droppingCount = kept.length + rest.length := by
      rw [← List.length_append, ← hview, droppedOf, List.length_map, List.length_range]
    have hfew := h.lists.fewDropping
    cases rest with
    | nil =>
      have hend : ¬i.toNat < p.droppingCount := by
        rw [hi, hcount]
        exact lt_irrefl _
      exact ⟨m, s, [], [], pickUpDroppings_end h.lists.player hend, h, rfl, .refl _, rfl, hview⟩
    | cons drops rest =>
      rw [List.length_cons] at hcount hn
      obtain ⟨hNd, hNr⟩ := List.forall_mem_cons.1 hN
      have hlt : i.toNat < p.droppingCount := by omega
      obtain ⟨b, hb, hown⟩ := h.lists.droppings _ hlt
      have hdrops : b.drops.take b.current = drops := by
        have hget := getElem?_droppedOf (m := m) hlt
        rw [hview, hi, List.getElem?_append_right le_rfl, Nat.sub_self, ← hi, droppedIn_eq hb] at hget
        exact (Option.some.inj hget).symm
      obtain ⟨tried, left, s₁, hvisit, hs₁, hperm, htry⟩ := visit_spec
        (fun d hd => htakes d (List.mem_flatten.2 ⟨drops, List.mem_cons_self, hd⟩)) hs le_rfl
      have hlen : (UInt64.ofNat b.current).toNat = b.current :=
        UInt64.toNat_ofNat_of_lt (hown.current.trans_lt hown.few)
      have hstart : b.drops.take b.current = [] ++ drops := hdrops
      have hzero : (0 : UInt64).toNat = ([] : List Drop).length := rfl
      obtain ⟨m₁, hrun, h₁, hview₁, hbatch₁⟩ :=
        pickUpDropped_spec removal h hlt hb hstart hzero hlen hNd hvisit
      rw [List.nil_append] at hview₁
      have hview' : m₁.droppedOf p = (kept ++ [left]) ++ rest := by
        rw [hview₁, hview, hi, set_append_cons]
      have hi₁ : (i + 1).toNat = (kept ++ [left]).length := by
        rw [toNat_succ hi (by omega), List.length_append, List.length_singleton]
      obtain ⟨m', s', t, l, hrun', h', hbatch, hperm', htry', hleft⟩ := ih h₁ hview' hi₁ (by omega) hNr hs₁
        fun d hd => htakes d (List.mem_append_right _ hd)
      refine ⟨m', s', tried ++ t, left :: l, ?_, h', hbatch.trans hbatch₁, hperm.append hperm',
        tryAll_append htry htry', ?_⟩
      · rw [pickUpDroppings_next h.lists.player hlt h.lists.fits hb hrun, hrun']
      · rw [hleft, ← List.append_cons]

end Map

/-! ## All that lies there -/

theorem length_le_flatten {α : Type*} {l : List (List α)} {a : List α} (ha : a ∈ l) :
    a.length ≤ l.flatten.length := by
  obtain ⟨l₁, l₂, rfl⟩ := List.append_of_mem ha
  rw [List.flatten_append, List.flatten_cons, List.length_append, List.length_append]
  omega

/-- So many rounds are enough for all loops. -/
def Map.roundsFor (m : Map) (p : MapPlayer) : ℕ := (m.batchesOf p).length + (m.batchesOf p).flatten.length +
  (m.droppedOf p).length + (m.droppedOf p).flatten.length + 1

section All

variable {Q : σ → Prop} (h : Map.Owned env m r p) (hp : p.InList) (hs : Q s)
  (htakes : ∀ d ∈ m.lyingFor p, ∀ s, Q s → ∃ taken s', takes d s = .ok (taken, s') ∧ Q s') {n : ℕ}
  (hn : m.roundsFor p ≤ n)

include h hp hs htakes hn

/-- The first loop, from the start. -/
theorem pickUpBatches_all :
    (KeepsList takes removal p.dropCount 0 p.dropCapacity (m.batchesOf p) s →
      (Map.pickUpBatches env takes removal r n n 0 m s).Returns
        (Map.BatchesTried env takes Q r m p s [] (m.batchesOf p))) ∧
    (¬KeepsList takes removal p.dropCount 0 p.dropCapacity (m.batchesOf p) s →
      Exec.Ensures (Map.pickUpBatches env takes removal r n n 0 m s) (Map.ListLost env Q r m p)) := by
  rw [Map.roundsFor] at hn
  have hlen : (m.batchesOf p).length = p.dropCount := by
    rw [Map.batchesOf, List.length_map, List.length_range]
  rw [← hlen]
  refine Map.pickUpBatches_spec removal h hp (List.nil_append _).symm rfl (by omega) (fun b hb => ?_) hs
    fun d hd => htakes d (List.mem_append_left _ hd)
  have := length_le_flatten hb
  omega

variable (removal) in
omit h hp hs in
/-- The second loop, from its start. -/
theorem pickUpDroppings_all {m₁ : Map} {p₁ : MapPlayer} {s₁ : σ} (h₁ : Map.Owned env m₁ r p₁)
    (hdropped : m₁.droppedOf p₁ = m.droppedOf p) (hs₁ : Q s₁) :
    ∃ m' s' tried left, Map.pickUpDroppings env takes removal r n n 0 m₁ s₁ = .ok (m', s') ∧
      Map.Owned env m' r p₁ ∧ m'.batch = m₁.batch ∧ tried.Perm (m.droppedOf p).flatten ∧
      tryAll takes tried s₁ = .ok (left.flatten, s') ∧ m'.droppedOf p₁ = left := by
  rw [Map.roundsFor] at hn
  refine Map.pickUpDroppings_spec removal h₁ (hdropped.trans (List.nil_append _).symm) rfl (by omega)
    (fun b hb => ?_) hs₁ fun d hd => htakes d (List.mem_append_right _ hd)
  have := length_le_flatten hb
  omega

/-- When the list of the player is lost, the function does not return, or it leaves a list that is not in
    order. -/
theorem mapPickUpAll_lost (hno : ¬KeepsList takes removal p.dropCount 0 p.dropCapacity (m.batchesOf p) s) :
    ¬(mapPickUpAll env takes removal n m r s).Returns (TriedOnce env takes r p m s) := by
  intro hreturns
  obtain ⟨⟨m', s'⟩, hrun, p', tried, left, h', hp', -⟩ := Exec.returns_iff.1 hreturns
  obtain ⟨⟨m₁, s₁⟩, hrun₁, hrun₂⟩ := Exec.bind_eq_ok.1 hrun
  obtain ⟨p₁, h₁, hlost, hs₁, hdropped⟩ := (pickUpBatches_all h hp hs htakes hn).2 hno _ hrun₁
  -- The second loop leaves the player as he is, so that his list is not in order in the end.
  obtain ⟨m₂, s₂, -, -, hrun₃, h₂, -⟩ := pickUpDroppings_all removal htakes hn h₁ hdropped hs₁
  cases hrun₂.symm.trans hrun₃
  cases h'.lists.player.symm.trans h₂.lists.player
  exact hlost hp'

/-- When it is not, each drop is tried. -/
theorem mapPickUpAll_kept (hkeeps : KeepsList takes removal p.dropCount 0 p.dropCapacity (m.batchesOf p) s) :
    (mapPickUpAll env takes removal n m r s).Returns (TriedOnce env takes r p m s) := by
  obtain ⟨⟨m₁, s₁⟩, hrun, p₁, tried, left, h₁, hp₁, hs₁, hdropped, hperm, htry, hview⟩ :=
    Exec.returns_iff.1 ((pickUpBatches_all h hp hs htakes hn).1 hkeeps)
  obtain ⟨m', s', t, l, hrun', h', hbatch, hperm', htry', hview'⟩ :=
    pickUpDroppings_all removal htakes hn h₁ hdropped hs₁
  refine Exec.returns_iff.2 ⟨(m', s'), ?_, p₁, tried ++ t, left.flatten ++ l.flatten, h', hp₁,
    hperm.append hperm', tryAll_append htry htry', ?_⟩
  · rw [mapPickUpAll, hrun]
    exact hrun'
  · rw [Map.lyingFor, Map.batchesOf_congr hbatch, hview, hview', List.nil_append]

end All

/-- The function returns, and has tried each drop once and left those that have not been taken, if and only if
    the list of the player is never lost. -/
theorem mapPickUpAll_iff {Q : σ → Prop} (h : Map.Owned env m r p) (hp : p.InList) (hs : Q s)
    (htakes : ∀ d ∈ m.lyingFor p, ∀ s, Q s → ∃ taken s', takes d s = .ok (taken, s') ∧ Q s') :
    (∃ n₀, ∀ n ≥ n₀, (mapPickUpAll env takes removal n m r s).Returns (TriedOnce env takes r p m s)) ↔
      KeepsList takes removal p.dropCount 0 p.dropCapacity (m.batchesOf p) s := by
  constructor
  · rintro ⟨n₀, hall⟩
    by_contra hno
    exact mapPickUpAll_lost h hp hs htakes (le_max_right n₀ _) hno (hall _ (le_max_left ..))
  · exact fun hkeeps => ⟨m.roundsFor p, fun n hn => mapPickUpAll_kept h hp hs htakes hn hkeeps⟩

/-- With enough memory, the list is never lost. -/
theorem keepsList_of_alloc (halloc : ∀ oid, removal oid 1 = true) (n kept capacity : ℕ) (l : List (List Drop))
    (s : σ) : KeepsList takes removal n kept capacity l s := by
  induction n generalizing kept capacity l s with
  | zero => exact trivial
  | succ n ih =>
    cases l with
    | nil => exact trivial
    | cons drops rest =>
      intro tried left s' _
      split
      · exact ⟨fun d _ _ hno => absurd (halloc d.oid) (by simp [hno]), ih ..⟩
      · exact ih ..

/-! ### Two batches of mesos -/

/-- A player whose list of batches has been longer. -/
def hoarder : Map := { Map.empty [] with
  playerCapacity := 1
  playerCount := 1
  players := fun _ => { (default : MapPlayer) with charId := 1, dropCapacity := 8, dropSize := 8 }
  container := fun _ => some ⟨0, 0⟩ }

/-- Mesos that he has dropped. -/
def hoard : Exec Map := do
  let m ← mapAddPlayerDrop mesosEnv.toEnv (.ofAlloc fun _ => true) hoarder ⟨0, 0⟩ (.meso 10)
  mapAddPlayerDrop mesosEnv.toEnv (.ofAlloc fun _ => true) m ⟨0, 0⟩ (.meso 20)

/-- What there is after that. -/
structure Hoarded (m : Map) (p : MapPlayer) : Prop where
  owned : m.Owned mesosEnv.toEnv ⟨0, 0⟩ p
  inList : p.InList
  count : p.dropCount = 2
  capacity : p.dropCapacity = 8
  lying : ∃ d₁ d₂ amount₁ amount₂, m.batchesOf p = [[d₁], [d₂]] ∧ m.droppedOf p = [] ∧
    d₁.item = .meso amount₁ ∧ d₂.item = .meso amount₂

theorem exists_hoarded : ∃ m p, Hoarded m p := by
  have hplaced : Exec.Ensures hoard (Map.Placed mesosEnv.toEnv) :=
    (Map.mapAddPlayerDrop_spec (settled_empty _ _ _ _ _ _).placed _ _ _).bind fun _ hm =>
      (Map.mapAddPlayerDrop_spec hm.placed _ _ _).mono fun _ hm => hm.placed
  have hfacts : hoard.Returns fun m => (m.playersBlock = 0 ∧ m.playerCapacity = 1) ∧
      m.dropBatchEnd ≤ m.dropBatchCapacity ∧ m.droppingBatchCount ≤ m.droppingBatchCapacity ∧
      (m.players 0).dropCount = 2 ∧ (m.players 0).dropSize = 8 ∧ (m.players 0).dropCapacity = 8 ∧
      (m.players 0).droppingCount = 0 ∧
      ∀ i < 2, (m.timers i).isSome ∧
        ((m.batch ((m.players 0).drops i)).map fun b => (b.owner, b.indexInPlayer, b.timer)) =
          some (some ⟨0, 0⟩, i, some i) ∧
        (m.dropsIn ((m.players 0).drops i)).length = 1 ∧
        (m.dropsIn ((m.players 0).drops i)).all fun d => d.item matches .meso _ := by
    decide +kernel
  obtain ⟨m, hm, hblock, hroom, hdroppingRoom, hcount, hsize, hcapacity, hdropping, hbatches⟩ :=
    Exec.returns_iff.1 hfacts
  have hbatch (i : ℕ) (hi : i < 2) : ∃ b, m.batch ((m.players 0).drops i) = some b ∧
      Map.OwnBatch m.timers ⟨0, 0⟩ i b ∧ b.timer = some i := by
    obtain ⟨htimer, hb, hlen, -⟩ := hbatches i hi
    obtain ⟨b, hb, he⟩ := Option.map_eq_some_iff.1 hb
    obtain ⟨howner, hindex, ht⟩ : b.owner = some ⟨0, 0⟩ ∧ b.indexInPlayer = i ∧ b.timer = some i := by
      simpa using he
    rw [Map.dropsIn_eq hb] at hlen
    refine ⟨b, hb, ⟨howner, hindex, fun hnil => ?_, by rw [hlen]; decide, i, ht, ?_⟩, ht⟩
    · rw [hnil] at hlen
      cases hlen
    · exact Option.isSome_iff_ne_none.1 htimer
  have hmeso (i : ℕ) (hi : i < 2) :
      ∃ d amount, m.dropsIn ((m.players 0).drops i) = [d] ∧ d.item = .meso amount := by
    obtain ⟨-, -, hlen, hall⟩ := hbatches i hi
    obtain ⟨d, hd⟩ := List.length_eq_one_iff.1 hlen
    rw [hd, List.all_cons, List.all_nil, Bool.and_true] at hall
    obtain ⟨oid, item⟩ := d
    cases item with
    | meso amount => exact ⟨_, amount, hd, rfl⟩
    | item qid it => cases hall
    | equip e => cases hall
  refine ⟨m, m.players 0, ⟨hplaced m hm, hroom, Map.getPlayer_eq_ok.2 ⟨?_, rfl⟩, ?_, fun i hi => ?_,
    fun i hi j hj b b' hb hb' he => ?_, ?_, ?_, fun i hi => ?_, hdroppingRoom⟩, ⟨?_, fun _ => ?_⟩, hcount, hcapacity,
    ?_⟩
  · exact ⟨hblock.1.symm, by rw [hblock.2]; exact Nat.zero_lt_one⟩
  · rw [hcount]
    decide
  · obtain ⟨b, hb, hown, -⟩ := hbatch i (hcount ▸ hi)
    exact ⟨b, hb, hown⟩
  · obtain ⟨c, hc, -, ht⟩ := hbatch i (hcount ▸ hi)
    obtain ⟨c', hc', -, ht'⟩ := hbatch j (hcount ▸ hj)
    cases hc.symm.trans hb
    cases hc'.symm.trans hb'
    exact Option.some.inj (ht.symm.trans (he.trans ht'))
  · rw [hdropping]
    decide
  · rw [hdropping]
    exact Nat.zero_le _
  · rw [hdropping] at hi
    exact absurd hi (Nat.not_lt_zero i)
  · rw [hcount, hsize]
    decide
  · rw [hsize, hcapacity]
  · obtain ⟨d₁, amount₁, hd₁, hmeso₁⟩ := hmeso 0 (by decide)
    obtain ⟨d₂, amount₂, hd₂, hmeso₂⟩ := hmeso 1 (by decide)
    refine ⟨d₁, d₂, amount₁, amount₂, ?_, ?_, hmeso₁, hmeso₂⟩
    · rw [Map.batchesOf, hcount]
      change [m.dropsIn _, m.dropsIn _] = _
      rw [hd₁, hd₂]
    · rw [Map.droppedOf, hdropping]
      rfl

/-- A client that can gain anything. -/
def hoarderTakes : Drop → Client → Exec (Bool × Client) := clientTakes mesosEnv (fun _ => true) fun _ => 8

/-- Mesos are always taken. -/
theorem hoarderTakes_meso {d : Drop} {amount : Int32} (hd : d.item = .meso amount) (c : Client) :
    ∃ c', hoarderTakes d c = .ok (true, c') := by
  rw [hoarderTakes, clientTakes, hd]
  exact ⟨_, rfl⟩

theorem Hoarded.taken (h : Hoarded m p) :
    ∀ d ∈ m.lyingFor p, ∀ c, True → ∃ taken c', hoarderTakes d c = .ok (taken, c') ∧ True := by
  obtain ⟨d₁, d₂, amount₁, amount₂, hbatches, hdropped, hmeso₁, hmeso₂⟩ := h.lying
  intro d hd c _
  rw [Map.lyingFor, hbatches, hdropped] at hd
  obtain rfl | rfl : d = d₁ ∨ d = d₂ := by simpa using hd
  · obtain ⟨c', hc'⟩ := hoarderTakes_meso hmeso₁ c
    exact ⟨true, c', hc', trivial⟩
  · obtain ⟨c', hc'⟩ := hoarderTakes_meso hmeso₂ c
    exact ⟨true, c', hc', trivial⟩

/-- Both batches are tried. -/
theorem mapPickUpAll_hoard : ∃ m p, Hoarded m p ∧ ∃ n₀, ∀ n ≥ n₀,
    (mapPickUpAll mesosEnv.toEnv hoarderTakes (fun _ _ => true) n m ⟨0, 0⟩ (.new (onlyMesos 0))).Returns
      (TriedOnce mesosEnv.toEnv hoarderTakes ⟨0, 0⟩ p m (.new (onlyMesos 0))) := by
  obtain ⟨m, p, h⟩ := exists_hoarded
  exact ⟨m, p, h, (mapPickUpAll_iff (Q := fun _ => True) h.owned h.inList trivial h.taken).2
    (keepsList_of_alloc (fun _ => rfl) ..)⟩

/-- The list of the player cannot be made smaller when the first batch has gone. -/
theorem mapPickUpAll_fails : ∃ m p, Hoarded m p ∧ ¬∃ n₀, ∀ n ≥ n₀,
    (mapPickUpAll mesosEnv.toEnv hoarderTakes (fun _ i => i ≠ 1) n m ⟨0, 0⟩ (.new (onlyMesos 0))).Returns
      (TriedOnce mesosEnv.toEnv hoarderTakes ⟨0, 0⟩ p m (.new (onlyMesos 0))) := by
  obtain ⟨m, p, h⟩ := exists_hoarded
  refine ⟨m, p, h, fun ⟨n₀, hall⟩ => mapPickUpAll_lost (Q := fun _ => True) h.owned h.inList trivial h.taken
    (le_max_right n₀ _) (fun hkeeps => ?_) (hall _ (le_max_left ..))⟩
  obtain ⟨d₁, d₂, amount₁, amount₂, hbatches, -, hmeso₁, -⟩ := h.lying
  -- The first batch goes, one of eight places is in use, and there is another batch.
  obtain ⟨c', hc'⟩ := hoarderTakes_meso hmeso₁ (.new (onlyMesos 0))
  have hvisit : visit hoarderTakes [d₁].length [d₁] (.new (onlyMesos 0)) = .ok ([d₁], [], c') := by
    rw [List.length_singleton, visit, hc']
    rfl
  rw [h.count, h.capacity, hbatches, keepsList_cons hvisit, if_pos rfl] at hkeeps
  rw [List.length_singleton] at hkeeps
  exact absurd (hkeeps.1 d₁ rfl (by decide) rfl) (by decide)

end Syrup
