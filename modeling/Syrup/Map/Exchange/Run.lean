import Syrup.Map.Exchange.Fair

/-!
# Nothing is duplicated

Whatever players drop and pick up, in whatever order, and whichever drops disappear: there is not more of
any item, and there are not more mesos, among what they have and what lies on the map; and an id of the
database is not in two places (`exchange_run`).
-/

namespace Syrup

open Slots Machine

/-- A room in which everything is in its place, and nothing is owed. -/
structure ExchangeRoom.Sound (env : Env) (s : ExchangeRoom) : Prop where
  settled : Map.Settled env s.map
  clients : ∀ c ∈ s.clients, c.Sound
  drops : ∀ d ∈ s.map.lying, d.Sound

variable {env : ExchangeEnv} {s s' : ExchangeRoom} {M : Type*} [AddCancelCommMonoid M]

section Sums

variable (w : Weight M)

/-- One element of a list is exchanged. -/
theorem sum_set_add {α : Type*} (f : α → M) {l : List α} {i : ℕ} {a : α} (ha : l[i]? = some a) (b : α) :
    ((l.set i b).map f).sum + f a = (l.map f).sum + f b := by
  obtain ⟨hi, rfl⟩ := List.getElem?_eq_some_iff.1 ha
  have hset := ((List.set_perm_cons_eraseIdx hi b).map f).sum_eq
  have hl := ((List.getElem_cons_eraseIdx_perm hi).map f).sum_eq
  rw [hset, ← hl, List.map_cons, List.map_cons, List.sum_cons, List.sum_cons]
  abel

theorem room_setClient {i : ℕ} {c : Client} (hc : s.clients[i]? = some c) (c' : Client) :
    w.room (s.setClient i c') + w.character c.character = w.room s + w.character c'.character := by
  have hset := sum_set_add (fun c => w.character c.character) hc c'
  change ((s.clients.set i c').map fun c => w.character c.character).sum +
    (s.map.lying.map w.drop).sum + _ = _
  rw [add_right_comm, hset, Weight.room, add_right_comm]

/-- What lies on the map is changed. -/
theorem room_setMap {m : Map} {d : DropItem} (h : m.lying + {d} = s.map.lying) :
    w.room { s with map := m } + w.drop d = w.room s := by
  change (s.clients.map fun c => w.character c.character).sum + (m.lying.map w.drop).sum + _ = _
  rw [Weight.room, ← h, Multiset.map_add, Multiset.sum_add, Multiset.map_singleton, Multiset.sum_singleton,
    add_assoc]

end Sums

variable [PartialOrder M] [IsOrderedCancelAddMonoid M] {w : Weight M}

/-- What lies on the map is less. -/
theorem room_setMap_le (hw : w.Fair) {m : Map} (hdrops : ∀ d ∈ s.map.lying, d.Sound)
    (h : m.lying ≤ s.map.lying) : w.room { s with map := m } ≤ w.room s := by
  obtain ⟨rest, hrest⟩ := Multiset.le_iff_exists_add.1 h
  change (s.clients.map fun c => w.character c.character).sum + (m.lying.map w.drop).sum ≤ _
  rw [Weight.room, hrest, Multiset.map_add, Multiset.sum_add]
  refine add_le_add_right (le_add_of_nonneg_right (Multiset.sum_nonneg fun x hx => ?_)) _
  obtain ⟨d, hd, rfl⟩ := Multiset.mem_map.1 hx
  exact hw.drop_nonneg d (hdrops d (hrest ▸ Multiset.mem_add.2 (.inr hd)))

/-- What a step has led to. -/
structure Exchanged (env : Env) (w : Weight M) (s s' : ExchangeRoom) : Prop where
  sound : s'.Sound env
  weigh : w.room s' ≤ w.room s

namespace ExchangeRoom.Sound

variable {e : Env}

theorem setClient (h : s.Sound e) {c : Client} (hc : c.Sound) (i : ℕ) : (s.setClient i c).Sound e :=
  ⟨h.settled, fun c' hc' => (List.mem_or_eq_of_mem_set hc').elim (h.clients c') fun he => he ▸ hc, h.drops⟩

theorem setMap (h : s.Sound e) {m : Map} (hm : Map.Settled e m) (hdrops : ∀ d ∈ m.lying, d.Sound) :
    ({ s with map := m } : ExchangeRoom).Sound e := ⟨hm, h.clients, hdrops⟩

theorem client (h : s.Sound e) {i : ℕ} {c : Client} (hc : s.clients[i]? = some c) : c.Sound :=
  h.clients c (List.mem_of_getElem? hc)

/-- What has been taken from a client is put onto the map. -/
theorem putDown (hw : w.Fair) (h : s.Sound e) (o : Outcomes) {i : ℕ} {c : Client}
    (hc : s.clients[i]? = some c) {x : Option DropItem × Client} (hx : PutDown w c x) :
    Exec.Ensures (s.putDown e o i x) (Exchanged e w s) := by
  have hset := room_setClient w hc x.2
  have hsound := h.setClient hx.sound i
  have hweigh := hx.weigh
  rw [ExchangeRoom.putDown]
  split
  · rename_i hnone
    rw [hnone, Option.elim_none, add_zero] at hweigh
    refine .pure ⟨hsound, le_of_add_le_add_right (a := w.character c.character) ?_⟩
    rw [hset]
    exact add_le_add_right hweigh _
  · rename_i item hitem
    rw [hitem, Option.elim_some] at hweigh
    refine .andThen fun player _ => ((Map.mapAddPlayerDrop_spec hsound.settled.placed o player item).and
      (Map.mapAddPlayerDrop_lying hsound.settled.placed o player item)).bind fun m hm => .pure ?_
    obtain ⟨hdrops, hlying⟩ := hm
    have hle : m.lying ≤ s.map.lying + {item} := by
      rcases hlying with hlying | hlying
      · exact hlying.le.trans (Multiset.le_add_right _ _)
      · exact hlying.le
    have hsound' : ∀ d ∈ s.map.lying + {item}, d.Sound := fun d hd =>
      (Multiset.mem_add.1 hd).elim (h.drops d) fun hd => Multiset.mem_singleton.1 hd ▸ hx.item _ hitem
    refine ⟨hsound.setMap (hsound.settled.of_dropsOnly hdrops) fun d hd =>
      hsound' d (Multiset.mem_of_le hle hd), ?_⟩
    obtain ⟨rest, hrest⟩ := Multiset.le_iff_exists_add.1 hle
    have hpos : 0 ≤ (rest.map w.drop).sum := Multiset.sum_nonneg fun y hy => by
      obtain ⟨d, hd, rfl⟩ := Multiset.mem_map.1 hy
      exact hw.drop_nonneg d (hsound' d (hrest ▸ Multiset.mem_add.2 (.inr hd)))
    have hsum := congrArg (fun l => (Multiset.map w.drop l).sum) hrest
    simp only [Multiset.map_add, Multiset.sum_add, Multiset.map_singleton, Multiset.sum_singleton] at hsum
    have hroom : w.room { (s.setClient i x.2) with map := m } + (rest.map w.drop).sum =
        w.room (s.setClient i x.2) + w.drop item := by
      change (_ + (m.lying.map w.drop).sum) + _ = (_ + (s.map.lying.map w.drop).sum) + _
      rw [add_assoc, ← hsum, add_assoc]
    refine le_of_add_le_add_right (a := w.character c.character) ?_
    calc _ ≤ _ := add_le_add_left (le_add_of_nonneg_right hpos) _
      _ = _ := congrArg (· + _) hroom
      _ = w.room s + (w.character x.2.character + w.drop item) := by
        rw [add_right_comm, hset, add_assoc]
      _ ≤ _ := add_le_add_right hweigh _

/-- A client picks up a drop of the map, which is then taken away if, and only if, the client has it. -/
theorem pickedUp (hw : w.Fair) (h : s.Sound e) {i : ℕ} {c c' : Client} (hc : s.clients[i]? = some c)
    (hc' : c'.Sound) {item : DropItem} {r : Option InventoryGainResult} (hx : PickedUpDrop w c item r c')
    {m : Map} (hm : Map.Settled e m) (hle : m.lying ≤ s.map.lying)
    (htaken : r = some .success → m.lying + {item} = s.map.lying) :
    Exchanged e w s { s.setClient i c' with map := m } := by
  have hset := room_setClient w hc c'
  have hsound := h.setClient hc' i
  refine ⟨hsound.setMap hm fun d hd => h.drops d (Multiset.mem_of_le hle hd), ?_⟩
  refine le_of_add_le_add_right (a := w.character c.character) ?_
  by_cases hr : r = some .success
  · have hroom := room_setMap w (s := s.setClient i c') (m := m) (d := item) (htaken hr)
    refine le_of_add_le_add_right (a := w.drop item) ?_
    rw [add_right_comm, hroom, hset, add_assoc]
    exact add_le_add_right (hx.success hr) _
  · rw [hx.failure hr] at hset
    exact (add_le_add_left (room_setMap_le (s := s.setClient i c') hw h.drops hle) _).trans_eq hset

theorem pickup {env : ExchangeEnv} (hw : w.Fair) (h : s.Sound env.toEnv) (alloc : Bool) (room : ℕ)
    (removal : ℕ → Bool) (i : ℕ) (oid : UInt32) :
    Exec.Ensures (s.pickup env alloc room removal i oid) (Exchanged env.toEnv w s) := by
  refine .bind (.deref fun c hc => hc) fun c hc => ?_
  split
  · exact .pure ⟨h, le_rfl⟩
  · rename_i hhas
    refine .bind (.deref fun object ho => ho) fun object ho => .bind (.deref fun d hd => hd) fun d hd =>
      .andThen fun player _ => .andThen fun allowed _ => ?_
    split
    · exact .pure ⟨h, le_rfl⟩
    · have hitem : d.item.Sound := h.drops _ (h.settled.placed.mem_lying_dropAt hd)
      refine ((pickUpDrop_sound (h.client hc) hitem).and (pickUpDrop_weigh hw (h.client hc) hitem)).bind
        fun x hx => ?_
      obtain ⟨r, c'⟩ := x
      obtain ⟨hc', hx⟩ := hx
      dsimp only
      split
      · rename_i hr
        have hplace : s.map.placeOf env.toEnv oid = some object.place := by
          rw [Map.placeOf, ho, Option.map_some]
        have htype : object.place.type = .drop ∨ object.place.type = .dropping := by
          rw [mapHasDrop, ho] at hhas
          have hdrop : ¬object.type = .drop → object.type = .dropping := by simpa using hhas
          exact or_iff_not_imp_left.2 hdrop
        refine ((Map.mapRemoveDrop_spec h.settled.placed removal hplace htype).and
          (Map.mapRemoveDrop_lying h.settled.placed removal oid)).bind fun m hm => .pure ?_
        obtain ⟨hdrops, object', d', ho', hd', hlying, -⟩ := hm
        obtain rfl := Option.some.inj (ho.symm.trans ho')
        obtain rfl := Option.some.inj (hd.symm.trans hd')
        exact pickedUp hw h hc hc' hx (h.settled.of_dropsOnly hdrops)
          (hlying ▸ Multiset.le_add_right _ _) fun _ => hlying
      · rename_i hr
        exact .pure (pickedUp hw h hc hc' hx h.settled le_rfl fun hr' => absurd hr' hr)

theorem nextDrop {env : ExchangeEnv} (hw : w.Fair) (h : s.Sound env.toEnv) (o : Outcomes) (alloc : Bool)
    (room : ℕ) (auto : Bool) (id : ℕ) :
    Exec.Ensures (s.nextDrop env o alloc room auto id) (Exchanged env.toEnv w s) := by
  refine .bind (.deref fun batch hb => hb) fun batch hb => .bind (.deref fun d hd => hd) fun d hd => ?_
  have hitem : d.item.Sound :=
    h.drops _ (h.settled.placed.mem_lying_dropping hb (List.mem_of_getElem? hd))
  have hnobody : Exec.Ensures (do
      let m ← onNextDrop env.toEnv { o with picksUp := false } s.map id
      return { s with map := m }) (Exchanged env.toEnv w s) := by
    refine ((Map.onNextDrop_spec h.settled _ id).and (Map.onNextDrop_lying h.settled _ hb hd)).bind
      fun m hm => .pure ?_
    exact ⟨h.setMap hm.1 fun d hd => h.drops d (Multiset.mem_of_le hm.2.1 hd),
      room_setMap_le hw h.drops hm.2.1⟩
  refine .andThen fun x hx => ?_
  rw [autoPickup] at hx
  split at hx
  · cases hx
    exact hnobody
  · rename_i r howner
    obtain ⟨reached, hreached, hx⟩ := Exec.bind_eq_ok.1 hx
    split at hx
    · rename_i hauto
      rw [Bool.and_eq_true] at hauto
      obtain ⟨player, -, hx⟩ := Exec.bind_eq_ok.1 hx
      obtain ⟨c, hc, hx⟩ := Exec.bind_eq_ok.1 hx
      rw [Exec.deref_eq_ok] at hc
      obtain ⟨⟨result, c'⟩, hpick, hx⟩ := Exec.bind_eq_ok.1 hx
      cases hx
      have hc' := pickUpDrop_sound (h.client hc) hitem _ hpick
      have hx := pickUpDrop_weigh hw (h.client hc) hitem _ hpick
      refine ((Map.onNextDrop_spec h.settled _ id).and (Map.onNextDrop_lying h.settled _ hb hd)).bind
        fun m hm => .pure ?_
      refine pickedUp hw h hc hc' hx hm.1 hm.2.1 fun hr => hm.2.2 (decide_eq_true hr) r howner ?_
      rw [hauto.2] at hreached
      exact hreached
    · cases hx
      exact hnobody

/-- Whatever happens, nothing has become more. -/
theorem step {env : ExchangeEnv} (hw : w.Fair) (h : s.Sound env.toEnv) (a : ExchangeAction) :
    Exec.Ensures (a.step env s) (Exchanged env.toEnv w s) := by
  cases a with
  | itemMove o alloc i inventory src quantity =>
    exact .bind (.deref fun c hc => hc) fun c hc =>
      (takeToDrop_spec hw (h.client hc) inventory src quantity).bind fun x hx => putDown hw h o hc hx
  | mesoDrop o i amount =>
    exact .bind (.deref fun c hc => hc) fun c hc =>
      putDown hw h o hc (takeMesos_spec hw (h.client hc) amount)
  | pickup alloc room removal i oid => exact pickup hw h alloc room removal i oid
  | timer o alloc room auto t =>
    rw [ExchangeAction.step]
    split
    · exact .pure ⟨h, le_rfl⟩
    · rename_i task _
      have hm := h.settled.setTimers (Function.update s.map.timers t none) s.map.nextTimer
      have h' : ({ s with map := { s.map with timers := Function.update s.map.timers t none } } :
          ExchangeRoom).Sound env.toEnv := ⟨hm, h.clients, h.drops⟩
      cases task with
      | nextDrop id => exact (nextDrop hw h' o alloc room auto id).mono fun s' hs' => ⟨hs'.sound, hs'.weigh⟩
      | exclusiveDropTimeExpired =>
        refine ((Map.onExclusiveDropTimeExpired_spec hm (o.alloc 0)).and
          (Map.onExclusiveDropTimeExpired_lying (o.alloc 0))).bind fun m' hm' => .pure ?_
        have hlying : m'.lying = s.map.lying := hm'.2
        exact ⟨h.setMap hm'.1 fun d hd => h.drops d (hlying ▸ hd), room_setMap_le hw h.drops hlying.le⟩
      | dropTimeExpired =>
        refine ((Map.onDropTimeExpired_spec hm o.alloc).and
          (Map.onDropTimeExpired_lying hm.placed o.alloc)).bind fun m' hm' => .pure ?_
        have hlying : m'.lying ≤ s.map.lying := hm'.2
        exact ⟨h.setMap hm'.1.1 fun d hd => h.drops d (Multiset.mem_of_le hlying hd),
          room_setMap_le hw h.drops hlying⟩

/-- Whatever has happened, nothing has become more. -/
theorem run {env : ExchangeEnv} (hw : w.Fair) (h : s.Sound env.toEnv)
    (hrun : Machine.Run (ExchangeAction.step env) (fun _ _ => True) s s') :
    Exchanged env.toEnv w s s' :=
  hrun.invariant (I := Exchanged env.toEnv w s) ⟨h, le_rfl⟩ fun a _ s₂ h₁ _ hstep =>
    have h₂ := step hw h₁.sound a s₂ hstep
    ⟨h₂.sound, h₂.weigh.trans h₁.weigh⟩

end ExchangeRoom.Sound

/-- Nothing is on an empty map. -/
theorem slot_noObjects {m : Map} (hmonsters : m.monsterCount = 0) (hnpcs : m.npcs = [])
    (hreactors : m.reactors = []) (hboss : m.boss.oid = 0xFFFFFFFF) (hdrops : m.dropBatchEnd = 0)
    (hdropping : m.droppingBatchCount = 0) (p : MapPlace) : m.slot p = none := by
  have hcell (i : ℕ) : m.cell i = none := if_neg fun h => by
    rw [hdrops] at h
    exact Nat.not_lt_zero _ h.2
  have hdroppingCell (i : ℕ) : m.droppingCell i = none := by
    rw [Map.droppingCell, hdropping, BackLinks.firsts_eq_none]
    exact Nat.zero_le i
  obtain ⟨type, i, j⟩ := p
  cases type with
  | monster =>
    change (if j = 0 then m.monsterAt i else none) = none
    rw [Map.monsterAt, hmonsters, BackLinks.firsts_eq_none.2 (Nat.zero_le i), ite_self]
  | npc =>
    change (if j = 0 then m.npcs[i]? else none) = none
    rw [hnpcs, List.getElem?_nil, ite_self]
  | reactor =>
    change (if j = 0 then m.reactors[i]?.map Reactor.oid else none) = none
    rw [hreactors, List.getElem?_nil, Option.map_none, ite_self]
  | boss =>
    change (if i = 0 ∧ j = 0 then m.bossOid else none) = none
    rw [Map.bossOid, if_pos hboss, ite_self]
  | drop =>
    change (m.batchAt i).bind _ = none
    rw [Map.batchAt, hcell]
    rfl
  | dropping =>
    change (m.droppingAt i).bind _ = none
    rw [Map.droppingAt, hdroppingCell]
    rfl

/-- Players on a map without anything on it. -/
theorem settled_empty (e : Env) (spawners : List UInt32) (capacity count : ℕ) (players : ℕ → MapPlayer)
    (container : ℕ → Option PlayerRef) : Map.Settled e { Map.empty spawners with
      playerCapacity := capacity, playerCount := count, players := players, container := container } := by
  have hget : objectListGet e objectListInit = fun _ => none := funext Tracks.init.get_eq
  refine ⟨⟨?_, fun x p => ?_, le_rfl, ⟨fun _ => none, fun x i => ?_, fun _ => iff_of_true rfl rfl⟩,
    fun i id h => ?_, fun _ _ => ⟨rfl, rfl⟩⟩, nofun, nofun, nofun⟩
  · change Tracks e objectListInit (objectListGet e objectListInit)
    rw [hget]
    exact Tracks.init
  · rw [slot_noObjects rfl rfl rfl rfl rfl rfl p]
    change (objectListGet e objectListInit x).map _ = some p ↔ _
    rw [hget]
    exact iff_of_false nofun nofun
  · exact iff_of_false nofun fun h => Nat.not_lt_zero i (Option.ite_none_right_eq_some.1 h).1.2
  · exact absurd (BackLinks.firsts_eq_some.1 h).1 (Nat.not_lt_zero i)

/-- An environment without items, and without monsters. -/
def mesosEnv : ExchangeEnv where
  toEnv := .ofLists [] [] [] []
  monsterHp _ := none
  dropInfo _ := none
  reactorDropInfo _ := none
  maxSpawnCount _ _ := 0
  maxSpawnCount_le _ _ := Nat.zero_le _
  consumeOnPickup _ := none

/-- A character who has only mesos. -/
def onlyMesos (mesos : Int32) : Character := { (default : Character) with mesos := mesos }

end Syrup
