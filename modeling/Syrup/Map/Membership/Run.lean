import Syrup.Map.Membership

/-!
# Whoever is on a map has one entry

The entries of the players and the addresses that the clients have tell the same, and only a client that has
not begun to change its room has an address (`MapWorld.Placed`). That is kept as long as a client tells that
its transfer is complete only when it is not on the map and does not leave its room, and as long as
the packets for which its entry is used without being looked for come only while it has one
(`MapPacket.Timely`).
-/

namespace Syrup

open BackLinks

/-! ## What should hold -/

namespace MapWorld

/-- Everybody has at most one entry on at most one map, to which its address points; whoever has left the
    map, begun to change its room, or disconnected has none; and whatever happens, as long as it meets the
    condition `ok`, no entry is used that is not there or is not that of the client. -/
structure Consistent (w : MapWorld) (ok : WorldAction → MapWorld → Prop) : Prop where
  once : ∀ n r, (w.players r).count n ≤ 1
  one : ∀ n r r', n ∈ w.players r → n ∈ w.players r' → r = r'
  entry : ∀ n r i, (w.players r)[i]? = some n →
    ∃ s, w.client n = some s ∧ s.player = some (r, i) ∧ s.room = r
  left : ∀ n, (∀ s, w.client n = some s → s.player = none ∨ s.target ≠ none) → ∀ r, n ∉ w.players r
  returns : ∀ a, ok a w → ∃ w', a.step w = .ok w'

end MapWorld

/-- The entry is there when it is used, and the client has none, and stays in its room, when it joins. -/
def MapPacket.Timely (s : MapClient) : MapPacket → Prop
  | attack kicked alive => kicked = false → true ∈ alive → s.player ≠ none
  | chat (.autopickup enabled) => enabled = true → s.player ≠ none
  | chat (.killall alive) => alive = true → s.player ≠ none
  | itemMove drops => drops = true → s.player ≠ none
  | mesoDrop drops => drops = true → s.player ≠ none
  | pickup found => found = true → s.player ≠ none
  | reactorHit breaks _ => breaks = true → s.player ≠ none
  | mapTransferComplete none _ outcome _ =>
    outcome ≠ .noMemory ∧ (outcome = .joins → s.player = none ∧ s.target = none)
  | _ => True

/-- This is so of every packet. -/
def Timely : WorldAction → MapWorld → Prop
  | .packet n p, w => ∀ s ∈ w.client n, p.Timely s
  | _, _ => True

/-! ## What is kept -/

namespace MapWorld

/-- The addresses of the clients. -/
def back (w : MapWorld) (n : ℕ) : Option PlayerEntry := (w.client n).bind (·.player)

/-- What is at a place of an array. -/
def nth (l : List ℕ) (j : ℕ) : Option ℕ := l[j]?

/-- The arrays, of which there is one for every room. -/
def arrays (w : MapWorld) (r : ℕ) : Option (List ℕ) := some (w.players r)

/-- What is in the arrays. -/
def slot (w : MapWorld) : PlayerEntry → Option ℕ := held w.arrays nth

/-- All that is kept. -/
structure Placed (w : MapWorld) : Prop where
  linked : Linked w.back w.slot
  room : ∀ n s p, w.client n = some s → s.player = some p → p.1 = s.room ∧ s.target = none

section

variable {w w' : MapWorld} {n r i : ℕ} {s : MapClient} {p : PlayerEntry} {l : List ℕ}

theorem slot_eq (p : PlayerEntry) : w.slot p = (w.players p.1)[p.2]? := held_eq rfl p.2

theorem back_eq (hs : w.client n = some s) : w.back n = s.player :=
  congrArg (Option.bind · MapClient.player) hs

theorem back_update (f : Option MapClient) :
    back { w with client := Function.update w.client n f } =
      Function.update w.back n (f.bind (·.player)) := by
  funext m
  exact Function.apply_update (fun _ (o : Option MapClient) => o.bind (·.player)) w.client n f m

theorem arrays_update (r : ℕ) (l : List ℕ) :
    arrays { w with players := Function.update w.players r l } =
      Function.update w.arrays r (some l) := by
  funext r'
  exact Function.apply_update (fun _ (l : List ℕ) => some l) w.players r l r'

/-- An array is changed at one place. -/
theorem slot_set {o : Option ℕ} (hl : nth l = Function.update (nth (w.players r)) i o) :
    slot { w with players := Function.update w.players r l } = Function.update w.slot (r, i) o := by
  have hr : w.arrays r = some (w.players r) := rfl
  rw [slot, arrays_update]
  exact held_set hr hl

/-- An array is changed at two places. -/
theorem slot_set_set {j : ℕ} {o o' : Option ℕ}
    (hl : nth l = Function.update (Function.update (nth (w.players r)) i o) j o') :
    slot { w with players := Function.update w.players r l } =
      Function.update (Function.update w.slot (r, i) o) (r, j) o' := by
  have hr : w.arrays r = some (w.players r) := rfl
  rw [slot, arrays_update]
  exact held_set_set hr hl

theorem nth_push (l : List ℕ) (n : ℕ) :
    nth (l ++ [n]) = Function.update (nth l) l.length (some n) := by
  funext j
  rw [nth]
  rcases eq_or_ne j l.length with rfl | hne
  · rw [Function.update_self, List.getElem?_concat_length]
  · rw [Function.update_of_ne hne, nth]
    rcases lt_or_gt_of_ne hne with hlt | hgt
    · exact List.getElem?_append_left hlt
    · have hle : (l ++ [n]).length ≤ j := by
        rw [List.length_append, List.length_singleton]
        omega
      rw [List.getElem?_eq_none hle, List.getElem?_eq_none hgt.le]

theorem nth_pop (l : List ℕ) : nth l.dropLast = Function.update (nth l) (l.length - 1) none := by
  funext j
  rw [nth, List.getElem?_dropLast]
  rcases eq_or_ne j (l.length - 1) with rfl | hne
  · rw [Function.update_self, if_neg (lt_irrefl _)]
  · rw [Function.update_of_ne hne, nth]
    split
    · rfl
    · exact (List.getElem?_eq_none (by omega)).symm

/-- The last one takes the place of another. -/
theorem nth_fill {m : ℕ} (hi : i < l.length) :
    nth (l.set i m).dropLast =
      Function.update (Function.update (nth l) i (some m)) (l.length - 1) none := by
  rw [nth_pop, List.length_set]
  congr 1
  funext j
  rw [nth]
  rcases eq_or_ne j i with rfl | hne
  · rw [Function.update_self, List.getElem?_set_self hi]
  · rw [Function.update_of_ne hne, List.getElem?_set_ne hne.symm, nth]

/-! ## Leaving -/

theorem modify_eq (hs : w.client n = some s) (f : MapClient → MapClient) :
    w.modify n f = .ok { w with client := Function.update w.client n (some (f s)) } := by
  rw [modify, hs]
  rfl

theorem Placed.slot (h : w.Placed) (hs : w.client n = some s) (hp : s.player = some p) :
    (w.players p.1)[p.2]? = some n := by
  rw [← slot_eq]
  exact (h.linked n p).1 ((back_eq hs).trans hp)

/-- The entry of a client is there. -/
theorem Placed.entry_eq (h : w.Placed) (hs : w.client n = some s) (hp : s.player = some p) :
    w.entry n s.room s.player = .ok p.2 := by
  have hroom := (h.room n s p hs hp).1
  have hslot := h.slot hs hp
  rw [hroom] at hslot
  rw [entry, hp]
  exact if_pos ⟨hroom, hslot⟩

/-- Whose entry it is. -/
theorem Placed.exists_client (h : w.Placed) (hslot : (w.players r)[i]? = some n) :
    ∃ s, w.client n = some s ∧ s.player = some (r, i) :=
  Option.bind_eq_some_iff.1 ((h.linked n (r, i)).2 ((slot_eq (r, i)).trans hslot))

/-- A client has left the map, and its address is still what it was. -/
structure Left (w : MapWorld) (n : ℕ) (s : MapClient) (w' : MapWorld) : Prop where
  client : w'.client n = some s
  linked : Linked (Function.update w'.back n none) w'.slot
  room : ∀ m s' p, m ≠ n → w'.client m = some s' → s'.player = some p → p.1 = s'.room ∧ s'.target = none
  length : ∀ p, s.player = some p → (w'.players p.1).length = (w.players p.1).length - 1

theorem Placed.mapLeave (h : w.Placed) (hs : w.client n = some s) :
    ∃ w', w.mapLeave n s.room s.player = .ok w' ∧ Left w n s w' := by
  cases hp : s.player with
  | none =>
    refine ⟨w, rfl, hs, ?_, fun m s' p _ => h.room m s' p, fun p hp' => ?_⟩
    · have hback : w.back n = none := (back_eq hs).trans hp
      rw [← hback, Function.update_eq_self]
      exact h.linked
    · cases hp.symm.trans hp'
  | some p =>
    obtain ⟨r, i⟩ := p
    obtain ⟨rfl, -⟩ : r = s.room ∧ _ := h.room n s (r, i) hs hp
    have hslot : (w.players s.room)[i]? = some n := h.slot hs hp
    have hi : i < (w.players s.room).length := (List.getElem?_eq_some_iff.1 hslot).1
    have hback : w.back n = some (s.room, i) := (back_eq hs).trans hp
    have hentry := h.entry_eq hs hp
    rw [hp] at hentry
    have hlast : Exec.last (w.players s.room).length = .ok ((w.players s.room).length - 1) :=
      if_neg (by omega)
    rw [MapWorld.mapLeave]
    dsimp only
    rw [hentry, Exec.ok_bind, hlast, Exec.ok_bind]
    split
    · rename_i hne
      obtain ⟨m, hm⟩ : ∃ m, (w.players s.room)[(w.players s.room).length - 1]? = some m :=
        ⟨_, List.getElem?_eq_getElem (by omega)⟩
      obtain ⟨s', hs', hplayer⟩ := h.exists_client hm
      have hmn : m ≠ n := by
        rintro rfl
        rw [hs'] at hs
        obtain rfl := Option.some.inj hs
        rw [hp] at hplayer
        exact hne (Prod.mk.inj (Option.some.inj hplayer)).2
      rw [hm, Exec.deref_eq_ok.2 rfl, Exec.ok_bind, modify_eq (s := s') (by exact hs')]
      refine ⟨_, rfl, ?_, ?_, fun k s₁ p hk hs₁ hp₁ => ?_, fun p hp' => ?_⟩
      · change Function.update w.client m _ n = _
        rw [Function.update_of_ne hmn.symm]
        exact hs
      · have hfill := h.linked.fill hback ((back_eq hs').trans hplayer)
        rw [← slot_set_set (nth_fill hi)] at hfill
        rw [back_update]
        exact hfill
      · change Function.update w.client m _ k = some s₁ at hs₁
        rcases eq_or_ne k m with rfl | hkm
        · rw [Function.update_self] at hs₁
          cases hs₁
          cases hp₁
          have hroom := h.room k s' _ hs' hplayer
          exact hroom
        · rw [Function.update_of_ne hkm] at hs₁
          exact h.room k s₁ p hs₁ hp₁
      · obtain rfl := Option.some.inj (hp.symm.trans hp')
        change (Function.update w.players s.room _ s.room).length = _
        rw [Function.update_self, List.length_dropLast, List.length_set]
    · rename_i heq
      obtain rfl : i = (w.players s.room).length - 1 := not_not.1 heq
      refine ⟨_, rfl, hs, ?_, fun k s₁ p _ => h.room k s₁ p, fun p hp' => ?_⟩
      · rw [slot_set (nth_pop (w.players s.room))]
        exact h.linked.take hback
      · obtain rfl := Option.some.inj (hp.symm.trans hp')
        change (Function.update w.players s.room _ s.room).length = _
        rw [Function.update_self, List.length_dropLast]

/-- A client without an address. -/
theorem Left.put (h : Left w n s w') {target : Option ℕ} {room : ℕ} :
    Placed { w' with client := Function.update w'.client n (some ⟨room, target, none⟩) } := by
  refine ⟨?_, fun m s' p hs' hp => ?_⟩
  · rw [back_update]
    exact h.linked
  · change Function.update w'.client n _ m = some s' at hs'
    rcases eq_or_ne m n with rfl | hne
    · rw [Function.update_self] at hs'
      cases hs'
      cases hp
    · rw [Function.update_of_ne hne] at hs'
      exact h.room m s' p hne hs' hp

theorem Placed.clientWarp (h : w.Placed) (hs : w.client n = some s) (target : ℕ) :
    ∃ w', w.clientWarp n target = .ok w' ∧ w'.Placed ∧ (∃ s', w'.client n = some s') ∧
      ∀ p, s.player = some p → (w'.players p.1).length = (w.players p.1).length - 1 := by
  obtain ⟨w₁, hw₁, hleft⟩ := h.mapLeave hs
  rw [MapWorld.clientWarp, hs, Exec.deref_eq_ok.2 rfl, Exec.ok_bind, hw₁, Exec.ok_bind,
    modify_eq hleft.client]
  exact ⟨_, rfl, hleft.put, ⟨_, Function.update_self ..⟩, hleft.length⟩

theorem Placed.warps (h : w.Placed) (hs : w.client n = some s) (targets : List ℕ) :
    ∃ w', w.warps n targets = .ok w' ∧ w'.Placed := by
  induction targets generalizing w s with
  | nil => exact ⟨w, rfl, h⟩
  | cons target targets ih =>
    obtain ⟨w₁, hw₁, h₁, ⟨s₁, hs₁⟩, -⟩ := h.clientWarp hs target
    rw [MapWorld.warps, List.foldlM_cons, hw₁]
    exact ih h₁ hs₁

theorem Placed.logoutStart (h : w.Placed) (hs : w.client n = some s) :
    ∃ w', w.logoutStart n = .ok w' ∧ w'.Placed := by
  obtain ⟨w₁, hw₁, hleft⟩ := h.mapLeave hs
  rw [MapWorld.logoutStart, hs, Exec.deref_eq_ok.2 rfl, Exec.ok_bind, hw₁]
  refine ⟨_, rfl, ?_, fun m s' p hs' hp => ?_⟩
  · rw [back_update]
    exact hleft.linked
  · change Function.update w₁.client n none m = some s' at hs'
    rcases eq_or_ne m n with rfl | hne
    · rw [Function.update_self] at hs'
      cases hs'
    · rw [Function.update_of_ne hne] at hs'
      exact hleft.room m s' p hne hs' hp

/-- A ship takes everybody who is on the map. -/
theorem Placed.sail (h : w.Placed) (r target : ℕ) {k : ℕ} (hk : (w.players r).length = k) :
    ∃ w', MapWorld.sail r target k w = .ok w' ∧ w'.Placed := by
  induction k generalizing w with
  | zero =>
    rw [List.length_eq_zero_iff] at hk
    exact ⟨w, if_pos hk, h⟩
  | succ k ih =>
    rw [MapWorld.sail]
    cases hl : w.players r with
    | nil =>
      rw [hl] at hk
      cases hk
    | cons m l =>
      have hslot : (w.players r)[0]? = some m := by rw [hl]; rfl
      obtain ⟨s, hs, hp⟩ := h.exists_client hslot
      obtain ⟨w₁, hw₁, h₁, -, hlength⟩ := h.clientWarp hs target
      dsimp only
      rw [hw₁]
      refine ih h₁ ?_
      rw [hlength _ hp, hk]
      rfl

/-! ## Joining -/

/-- Everybody has been told his address already. -/
theorem Placed.readdress (h : w.Placed) (r : ℕ) : w.readdress r = .ok w := by
  rw [MapWorld.readdress]
  have hstep : ∀ i ∈ List.range (w.players r).length, (do
      let m ← Exec.deref (w.players r)[i]?
      w.modify m fun s => { s with player := some (r, i) }) = .ok w := by
    intro i hi
    obtain ⟨m, hslot⟩ : ∃ m, (w.players r)[i]? = some m :=
      ⟨_, List.getElem?_eq_getElem (List.mem_range.1 hi)⟩
    obtain ⟨s, hs, hp⟩ := h.exists_client hslot
    have hsame : Function.update w.client m (some s) = w.client := by
      rw [← hs]
      exact Function.update_eq_self _ w.client
    rw [hslot, Exec.deref_eq_ok.2 rfl, Exec.ok_bind, modify_eq hs, ← hp, hsame]
  generalize List.range (w.players r).length = l at hstep ⊢
  induction l with
  | nil => rfl
  | cons i l ih =>
    rw [List.foldlM_cons]
    have hfirst := hstep i List.mem_cons_self
    rw [hfirst]
    exact ih fun j hj => hstep j (List.mem_cons_of_mem _ hj)

theorem Placed.grow (h : w.Placed) (r : ℕ) (grows : Bool) : w.grow r grows = .ok w := by
  rw [MapWorld.grow]
  split
  · exact h.readdress r
  · rfl

theorem mapJoin_joins (grows : Bool) :
    w.mapJoin n r grows .joins = (do
      let w ← w.grow r grows
      let w ← w.modify n fun s => { s with player := some (r, (w.players r).length) }
      return { w with players := Function.update w.players r (w.players r ++ [n]) }) := rfl

theorem Placed.mapJoin (h : w.Placed) (hs : w.client n = some s) (grows : Bool)
    {outcome : JoinOutcome} (hmemory : outcome ≠ .noMemory)
    (hjoins : outcome = .joins → s.player = none ∧ s.target = none) :
    ∃ w', w.mapJoin n s.room grows outcome = .ok w' ∧ w'.Placed ∧ ∃ s', w'.client n = some s' := by
  cases outcome with
  | full => exact ⟨w, rfl, h, s, hs⟩
  | noMemory => exact absurd rfl hmemory
  | joins =>
    obtain ⟨hplayer, htarget⟩ := hjoins rfl
    rw [mapJoin_joins, h.grow, Exec.ok_bind, modify_eq hs, Exec.ok_bind]
    refine ⟨_, rfl, ⟨?_, fun m s' p hs' hp => ?_⟩, ⟨_, Function.update_self ..⟩⟩
    · have hback : w.back n = none := (back_eq hs).trans hplayer
      have hslot : w.slot (s.room, (w.players s.room).length) = none := by
        rw [slot_eq]
        exact List.getElem?_eq_none le_rfl
      have hput := h.linked.put hback hslot
      rw [← slot_set (nth_push (w.players s.room) n)] at hput
      rw [back_update (w := { w with players := _ })]
      exact hput
    · change Function.update w.client n _ m = some s' at hs'
      rcases eq_or_ne m n with rfl | hne
      · rw [Function.update_self] at hs'
        cases hs'
        cases hp
        exact ⟨rfl, htarget⟩
      · rw [Function.update_of_ne hne] at hs'
        exact h.room m s' p hs' hp

/-! ## Packets -/

/-- An entry is used of a client that has one. -/
theorem Placed.useEntry (h : w.Placed) (hs : w.client n = some s) {uses : Bool}
    (huses : uses = true → s.player ≠ none) : w.useEntry n s uses = .ok () := by
  rw [MapWorld.useEntry]
  split
  · rename_i hu
    obtain ⟨p, hp⟩ := Option.ne_none_iff_exists'.1 (huses hu)
    rw [h.entry_eq hs hp]
    rfl
  · rfl

/-- And so for every object that is hit. -/
theorem Placed.useEntries (h : w.Placed) (hs : w.client n = some s) {alive : List Bool}
    (huses : true ∈ alive → s.player ≠ none) : alive.forM (w.useEntry n s ·) = .ok () := by
  induction alive with
  | nil => rfl
  | cons b alive ih =>
    have hfirst : w.useEntry n s b = .ok () := h.useEntry hs fun hb => huses (hb ▸ List.mem_cons_self)
    change (do
      w.useEntry n s b
      alive.forM (w.useEntry n s ·)) = _
    rw [hfirst]
    exact ih fun hmem => huses (List.mem_cons_of_mem _ hmem)

theorem Placed.onClientPacket (h : w.Placed) (hs : w.client n = some s) {p : MapPacket}
    (hp : p.Timely s) : ∃ w', w.onClientPacket n s p = .ok w' ∧ w'.Placed := by
  have huse : ∀ uses : Bool, (uses = true → s.player ≠ none) →
      ∃ w', (do
        w.useEntry n s uses
        return w : Exec MapWorld) = .ok w' ∧ w'.Placed := fun uses huses =>
    ⟨w, by rw [h.useEntry hs huses]; rfl, h⟩
  cases p with
  | portal target => exact h.warps hs _
  | attack kicked alive =>
    cases kicked with
    | true => exact ⟨w, rfl, h⟩
    | false =>
      refine ⟨w, ?_, h⟩
      change (do
        alive.forM (w.useEntry n s ·)
        return w : Exec MapWorld) = _
      rw [h.useEntries hs (hp rfl)]
      rfl
  | chat command =>
    cases command with
    | autopickup enabled => exact huse enabled hp
    | killall alive => exact huse alive hp
    | map target => exact h.warps hs _
    | other => exact ⟨w, rfl, h⟩
  | npcTalk targets =>
    rw [MapWorld.onClientPacket]
    split
    · exact ⟨w, rfl, h⟩
    · exact h.warps hs _
  | script targets => exact h.warps hs _
  | itemMove drops => exact huse drops hp
  | mesoDrop drops => exact huse drops hp
  | pickup found => exact huse found hp
  | reactorHit breaks targets =>
    cases breaks with
    | false => exact ⟨w, rfl, h⟩
    | true =>
      change ∃ w', (do
        w.useEntry n s true
        w.warps n targets) = .ok w' ∧ _
      rw [h.useEntry hs hp]
      exact h.warps hs _
  | mapTransferComplete ship grows outcome targets =>
    cases ship with
    | some target =>
      obtain ⟨w₁, hw₁, h₁, -, -⟩ := h.clientWarp hs target
      exact ⟨w₁, hw₁, h₁⟩
    | none =>
      obtain ⟨w₁, hw₁, h₁, s₁, hs₁⟩ := h.mapJoin hs grows hp.1 hp.2
      change ∃ w', (do
        let w ← w.mapJoin n s.room grows outcome
        w.warps n targets) = .ok w' ∧ _
      rw [hw₁]
      exact h₁.warps hs₁ _
  | other => exact ⟨w, rfl, h⟩

/-! ## Whatever happens -/

theorem placed_start : start.Placed :=
  ⟨.empty, fun _ _ _ hs => nomatch hs⟩

/-- A client that is not on a map is changed, but for its address. -/
theorem Placed.put (h : w.Placed) (hback : w.back n = none) (room : ℕ) (target : Option ℕ) :
    Placed { w with client := Function.update w.client n (some ⟨room, target, none⟩) } := by
  refine ⟨?_, fun m s' p hs' hp => ?_⟩
  · rw [back_update]
    have hsame : Function.update w.back n none = w.back := by
      rw [← hback]
      exact Function.update_eq_self _ w.back
    change Linked (Function.update w.back n none) w.slot
    rw [hsame]
    exact h.linked
  · change Function.update w.client n _ m = some s' at hs'
    rcases eq_or_ne m n with rfl | hne
    · rw [Function.update_self] at hs'
      cases hs'
      cases hp
    · rw [Function.update_of_ne hne] at hs'
      exact h.room m s' p hs' hp

theorem Placed.step (h : w.Placed) {a : WorldAction} (hok : Timely a w) :
    ∃ w', a.step w = .ok w' ∧ w'.Placed := by
  cases a with
  | enter n r =>
    rw [WorldAction.step]
    cases hs : w.client n with
    | none =>
      have hback : w.back n = none := congrArg (Option.bind · MapClient.player) hs
      exact ⟨_, rfl, h.put hback r none⟩
    | some s => exact ⟨w, rfl, h⟩
  | packet n p =>
    rw [WorldAction.step]
    cases hs : w.client n with
    | none => exact ⟨w, rfl, h⟩
    | some s => exact h.onClientPacket hs (hok s hs)
  | arrive n =>
    rw [WorldAction.step]
    cases hs : w.client n with
    | none => exact ⟨w, rfl, h⟩
    | some s =>
      cases htarget : s.target with
      | none =>
        refine ⟨w, ?_, h⟩
        dsimp only
        rw [htarget]
        rfl
      | some target =>
        dsimp only
        rw [htarget]
        dsimp only
        rw [modify_eq hs]
        refine ⟨_, rfl, ?_⟩
        -- it has no entry, for it has begun to change its room
        have hplayer : s.player = none := by
          by_contra hne
          obtain ⟨p, hp⟩ := Option.ne_none_iff_exists'.1 hne
          cases (h.room n s p hs hp).2.symm.trans htarget
        rw [hplayer]
        exact h.put ((back_eq hs).trans hplayer) target none
  | notify n =>
    rw [WorldAction.step]
    cases hs : w.client n with
    | none => exact ⟨w, rfl, h⟩
    | some s => exact h.warps hs _
  | sail r target => exact h.sail r target rfl
  | disconnect n =>
    rw [WorldAction.step]
    cases hs : w.client n with
    | none => exact ⟨w, rfl, h⟩
    | some s => exact h.logoutStart hs

theorem Placed.consistent (h : w.Placed) : w.Consistent Timely := by
  -- whoever has an entry knows where it is
  have hentry : ∀ n r i, (w.players r)[i]? = some n → w.back n = some (r, i) := fun n r i hi =>
    (h.linked n (r, i)).2 ((slot_eq (r, i)).trans hi)
  refine ⟨fun n r => ?_, fun n r r' hr hr' => ?_, fun n r i hi => ?_, fun n hleft r hr => ?_,
    fun a hok => ?_⟩
  · refine List.nodup_iff_count_le_one.1 (List.nodup_iff_getElem?_ne_getElem?.2 fun i j hij hj heq => ?_) n
    obtain ⟨m, hm⟩ : ∃ m, (w.players r)[j]? = some m := ⟨_, List.getElem?_eq_getElem hj⟩
    have hsame := (hentry m r i (heq.trans hm)).symm.trans (hentry m r j hm)
    exact hij.ne (Prod.mk.inj (Option.some.inj hsame)).2
  · obtain ⟨i, hi⟩ := List.mem_iff_getElem?.1 hr
    obtain ⟨j, hj⟩ := List.mem_iff_getElem?.1 hr'
    have hsame := (hentry n r i hi).symm.trans (hentry n r' j hj)
    exact (Prod.mk.inj (Option.some.inj hsame)).1
  · obtain ⟨s, hs, hp⟩ := h.exists_client hi
    exact ⟨s, hs, hp, (h.room n s _ hs hp).1.symm⟩
  · obtain ⟨i, hi⟩ := List.mem_iff_getElem?.1 hr
    obtain ⟨s, hs, hp⟩ := h.exists_client hi
    rcases hleft s hs with hnone | htarget
    · cases hp.symm.trans hnone
    · exact htarget (h.room n s _ hs hp).2
  · obtain ⟨w', hw', -⟩ := h.step hok
    exact ⟨w', hw'⟩

end

end MapWorld

/-- In whatever order packets come, everybody is at most once on a map, and only while he has not left it, and
    no entry is used that is not there, as long as clients tell in time that their transfers are
    complete, and use their entries only when they have them. -/
theorem membership_run {w : MapWorld} (hrun : Machine.Run WorldAction.step Timely .start w) :
    w.Consistent Timely := by
  have hplaced : w.Placed := by
    refine hrun.invariant MapWorld.placed_start fun a w w' hw ha hstep => ?_
    obtain ⟨w₁, hw₁, h₁⟩ := hw.step ha
    obtain rfl := Except.ok.inj (hw₁.symm.trans hstep)
    exact h₁
  exact hplaced.consistent

instance (s : MapClient) (p : MapPacket) : Decidable (p.Timely s) :=
  match p with
  | .attack _ _ => inferInstanceAs (Decidable (_ → _ → _))
  | .chat (.autopickup _) | .chat (.killall _) | .itemMove _ | .mesoDrop _ | .pickup _
  | .reactorHit _ _ => inferInstanceAs (Decidable (_ → _))
  | .mapTransferComplete none _ _ _ => inferInstanceAs (Decidable (_ ∧ _))
  | .chat (.map _) | .chat .other | .portal _ | .npcTalk _ | .script _
  | .mapTransferComplete (some _) _ _ _ | .other => inferInstanceAs (Decidable True)

instance (a : WorldAction) (w : MapWorld) : Decidable (Timely a w) :=
  match a with
  | .packet n p => inferInstanceAs (Decidable (∀ s ∈ w.client n, p.Timely s))
  | .enter _ _ | .arrive _ | .notify _ | .sail _ _ | .disconnect _ => inferInstanceAs (Decidable True)

/-- The transfer is complete, and the client has been put onto the map. -/
def MapPacket.joins : MapPacket := .mapTransferComplete none false .joins []

/-- Two clients join a map, the first one attacks and leaves it for another one, and the second
    disconnects. -/
theorem membership_run_two : ∃ w : MapWorld, w.Consistent Timely ∧ w.players 1 = [] ∧
    w.players 2 = [0] ∧ w.client 0 = some ⟨2, none, some (2, 0)⟩ := by
  have hrun : ∃ w : MapWorld, [WorldAction.enter 0 1, .enter 1 1, .packet 0 .joins, .packet 1 .joins,
      .packet 0 (.attack false [true, false]), .packet 0 (.portal (some 2)), .packet 0 .other, .arrive 0,
      .packet 0 .joins, .disconnect 1].foldlM
        (Machine.checked WorldAction.step Timely Fault.assertion) .start = .ok w ∧
      w.players 1 = [] ∧ w.players 2 = [0] ∧ w.client 0 = some ⟨2, none, some (2, 0)⟩ := by
    rw [← Exec.returns_iff]
    decide +kernel
  obtain ⟨w, hw, hplaces⟩ := hrun
  exact ⟨w, membership_run (.of_checked hw), hplaces⟩

/-- It is not so in general. -/
def Inconsistent (w : MapWorld) : Prop :=
  Machine.Run WorldAction.step (fun _ _ => True) .start w ∧ ¬w.Consistent fun _ _ => True

theorem inconsistent_of_error {as : List WorldAction} {a : WorldAction} {w : MapWorld} {e : Fault}
    (h : as.foldlM (fun w a => a.step w) .start = .ok w) (herror : a.step w = .error e) :
    Inconsistent w := by
  refine ⟨.of_foldlM (fun _ _ _ => trivial) h, fun hw => ?_⟩
  obtain ⟨w', hw'⟩ := hw.returns a trivial
  cases hw'.symm.trans herror

/-- A client attacks before it has told that its transfer is complete; it tells it twice, and has two
    entries; and it tells it after it has been warped, and has an entry on a map that is not that of its
    room. -/
theorem membership_fails :
    (∃ w : MapWorld, Inconsistent w ∧
      WorldAction.step (.packet 0 (.attack false [true])) w = .error .nullPointer) ∧
    (∃ w : MapWorld, Inconsistent w ∧ w.players 1 = [0, 0]) ∧
    ∃ w : MapWorld, Inconsistent w ∧ w.client 0 = some ⟨2, none, some (1, 0)⟩ ∧ w.players 1 = [0] ∧
      WorldAction.step (.packet 0 (.pickup true)) w = .error .outOfBounds := by
  refine ⟨?_, ?_, ?_⟩
  · have hrun : ∃ w : MapWorld, [WorldAction.enter 0 1].foldlM (fun w a => a.step w) .start = .ok w ∧
        WorldAction.step (.packet 0 (.attack false [true])) w = .error .nullPointer :=
      ⟨_, rfl, rfl⟩
    obtain ⟨w, hw, hwrong⟩ := hrun
    exact ⟨w, inconsistent_of_error hw hwrong, hwrong⟩
  · have hrun : ∃ w : MapWorld, [WorldAction.enter 0 1, .packet 0 .joins, .packet 0 .joins].foldlM
        (fun w a => a.step w) .start = .ok w ∧ w.players 1 = [0, 0] := ⟨_, rfl, rfl⟩
    obtain ⟨w, hw, htwo⟩ := hrun
    refine ⟨w, ⟨.of_foldlM (fun _ _ _ => trivial) hw, fun h => ?_⟩, htwo⟩
    have hcount := h.once 0 1
    rw [htwo] at hcount
    exact absurd hcount (by decide)
  · have hrun : ∃ w : MapWorld, [WorldAction.enter 0 1, .packet 0 .joins, .packet 0 (.portal (some 2)),
        .packet 0 .joins, .arrive 0].foldlM (fun w a => a.step w) .start = .ok w ∧
        w.client 0 = some ⟨2, none, some (1, 0)⟩ ∧ w.players 1 = [0] ∧
        WorldAction.step (.packet 0 (.pickup true)) w = .error .outOfBounds := ⟨_, rfl, rfl, rfl, rfl⟩
    obtain ⟨w, hw, hclient, hplayers, hwrong⟩ := hrun
    exact ⟨w, inconsistent_of_error hw hwrong, hclient, hplayers, hwrong⟩

end Syrup
