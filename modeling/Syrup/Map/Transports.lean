import Syrup.Map.Membership.Run

/-!
# Boats, trains, genies and subways

Each line has an event with a property (`EVENT_*_PROPERTY_SAILING`), which a timer sets to `0` when it arrives,
to `1` when its gates are closed, and to `2` when it departs. The maps where passengers wait, and those on which
they travel, listen: when the property is `2` all who wait are taken aboard, and when it is `0` all who are
aboard are taken ashore. Between the write to the property and the call of a listener, which is on the thread of
its map, anything may happen; `map_join` of the maps of the boats therefore looks at the property too.

Where players are is what `MapWorld` says. Maps that only tell their players of the boat are left out, and so are
the airplane and the elevator, to which no map listens. A map that has not been made has no listener; here it
has one, which finds nobody there.
-/

namespace Syrup

/-! ## The model -/

/-- The events of transports: `EVENT_BOAT`, `EVENT_TRAIN`, `EVENT_GENIE` and `EVENT_SUBWAY`. -/
inductive TransportLine
  | boat
  | train
  | genie
  | subway
  deriving DecidableEq

/-- What the timer of an event calls: `*_arrive`, `*_close_gates` or `*_depart`. -/
inductive TransportPhase
  | arrive
  | closeGates
  | depart

/-- The value of the property that is set. -/
def TransportPhase.value : TransportPhase → Int32
  | arrive => 0
  | closeGates => 1
  | depart => 2

/-- What is scheduled. -/
def TransportPhase.next : TransportPhase → TransportPhase
  | arrive => closeGates
  | closeGates => depart
  | depart => arrive

/-- A listener of a map: `start_*` if passengers board from there, and else `end_*`, with where it warps all players
    of the map. -/
structure TransportListener where
  line : TransportLine
  boards : Bool
  target : ℕ

/-- The state of the line for which it waits. -/
def TransportListener.state (l : TransportListener) : Int32 := if l.boards then 2 else 0

/-- The listener of a map, as `map_create` chooses it, with the targets of `start_sailing`, `end_sailing` and
    their like. -/
def transportListener (id : ℕ) : Option TransportListener :=
  if id = 101000301 then some ⟨.boat, true, 200090010⟩
  else if id = 200000112 then some ⟨.boat, true, 200090000⟩
  else if id / 10 = 20009001 then some ⟨.boat, false, 200000100⟩
  else if id / 10 = 20009000 then some ⟨.boat, false, 101000300⟩
  else if id = 200000122 then some ⟨.train, true, 200090100⟩
  else if id = 220000111 then some ⟨.train, true, 200090110⟩
  else if id = 200090100 then some ⟨.train, false, 220000110⟩
  else if id = 200090110 then some ⟨.train, false, 200000100⟩
  else if id = 200000152 then some ⟨.genie, true, 200090400⟩
  else if id = 260000110 then some ⟨.genie, true, 200090410⟩
  else if id = 200090400 then some ⟨.genie, false, 260000100⟩
  else if id = 200090410 then some ⟨.genie, false, 200000100⟩
  else if id = 600010004 then some ⟨.subway, true, 600010005⟩
  else if id = 600010002 then some ⟨.subway, true, 600010003⟩
  else if id = 600010005 then some ⟨.subway, false, 600010001⟩
  else if id = 600010003 then some ⟨.subway, false, 103000100⟩
  else none

/-- The players on all maps, the property of each line and what its timer will call, and the maps the listeners
    of which have been triggered, and not called yet. -/
structure TransportWorld where
  world : MapWorld
  sailing : TransportLine → Int32
  scheduled : TransportLine → TransportPhase
  triggered : ℕ → Bool

/-- What happens: something on the maps, the timer of a line, or the listener of a map is called. -/
inductive TransportAction
  | world (a : WorldAction)
  | timer (line : TransportLine)
  | listener (id : ℕ)

namespace TransportWorld

/-- `event_*_init` has been called, and nobody is there. -/
def start : TransportWorld where
  world := .start
  sailing _ := TransportPhase.arrive.value
  scheduled _ := TransportPhase.arrive.next
  triggered _ := false

variable (s : TransportWorld)

/-- Where `map_join` takes a client instead of letting it join: it looks at the property of the boat only. -/
def mapJoinShip (id : ℕ) : Option ℕ :=
  match transportListener id with
  | some ⟨.boat, true, target⟩ => if s.sailing .boat = 2 then some target else none
  | some ⟨.boat, false, target⟩ => if s.sailing .boat ≠ 2 then some target else none
  | _ => none

/-- What happens on the maps, with what `map_join` makes of it. -/
def joining : WorldAction → WorldAction
  | .packet n (.mapTransferComplete _ grows outcome targets) =>
    .packet n (.mapTransferComplete ((s.world.client n).bind fun c => s.mapJoinShip c.room) grows outcome targets)
  | a => a

/-- `start_sailing`, `end_sailing` and their like. -/
def onTrigger (id : ℕ) : Exec MapWorld :=
  match transportListener id with
  | none => return s.world
  | some l =>
    if s.sailing l.line = l.state then s.world.sail id l.target (s.world.players id).length else return s.world

end TransportWorld

/-- The world after it. -/
def TransportAction.step (a : TransportAction) (s : TransportWorld) : Exec TransportWorld :=
  match a with
  | world a => do
    let w ← (s.joining a).step s.world
    return { s with world := w }
  | timer line =>
    -- `set_and_sched`, which triggers all listeners of the line.
    return { s with
      sailing := Function.update s.sailing line (s.scheduled line).value
      scheduled := Function.update s.scheduled line (s.scheduled line).next
      triggered := fun id => s.triggered id || (transportListener id).any (·.line = line) }
  | listener id =>
    if s.triggered id then do
      let w ← s.onTrigger id
      return { s with world := w, triggered := Function.update s.triggered id false }
    else return s

/-- Ships take players by their listeners only, transfers are told in time (`Timely`), and a line goes on only
    after those of its listeners have been called that have somebody on their maps. -/
def TransportAction.Meets : TransportAction → TransportWorld → Prop
  | world a, s => (∀ r target, s.joining a ≠ .sail r target) ∧ Timely (s.joining a) s.world
  | timer line, s => ∀ id l, transportListener id = some l → l.line = line → s.triggered id = true →
      s.world.players id = []
  | listener _, _ => True

/-! ## Nobody comes where nobody is -/

namespace MapWorld

variable {w w' : MapWorld} {n r : ℕ} {s : MapClient}

theorem modify_players (f : MapClient → MapClient) :
    Exec.Ensures (w.modify n f) fun w' => w'.players = w.players :=
  .andThen fun _ _ => .pure rfl

/-- Maps that were empty, but for some, are empty. -/
def KeepsEmpty (except : Option ℕ) (w w' : MapWorld) : Prop :=
  ∀ r, some r ≠ except → w.players r = [] → w'.players r = []

variable {except : Option ℕ}

theorem KeepsEmpty.refl (w : MapWorld) : KeepsEmpty except w w := fun _ _ hr => hr

theorem KeepsEmpty.of_eq (h : w'.players = w.players) : KeepsEmpty except w w' := fun _ _ hr => h ▸ hr

theorem KeepsEmpty.trans {w₁ : MapWorld} (h : KeepsEmpty except w w₁) (h' : KeepsEmpty except w₁ w') :
    KeepsEmpty except w w' := fun r hne hr => h' r hne (h r hne hr)

/-- An array is written to that was not empty, or is empty again. -/
theorem KeepsEmpty.update {l : List ℕ} (hl : some r ≠ except → w.players r = [] → l = []) :
    KeepsEmpty except w { w with players := Function.update w.players r l } := by
  intro r' hne hr'
  change Function.update w.players r l r' = []
  rcases eq_or_ne r' r with rfl | hrr
  · rw [Function.update_self, hl hne hr']
  · rw [Function.update_of_ne hrr, hr']

theorem mapLeave_keepsEmpty (player : Option PlayerEntry) :
    Exec.Ensures (w.mapLeave n r player) (KeepsEmpty except w) := by
  cases player with
  | none => exact .pure (.refl w)
  | some p =>
    refine .andThen fun i _ => .andThen fun last _ => ?_
    split
    · refine .andThen fun m _ => (modify_players _).mono fun w' hw' => ?_
      exact KeepsEmpty.trans (.update fun _ hr => by rw [hr]; rfl) (.of_eq hw')
    · exact .pure (.update fun _ hr => by rw [hr]; rfl)

theorem clientWarp_keepsEmpty (target : ℕ) : Exec.Ensures (w.clientWarp n target) (KeepsEmpty except w) :=
  .andThen fun s _ => (mapLeave_keepsEmpty s.player).bind fun _ h₁ =>
    (modify_players _).mono fun _ h₂ => h₁.trans (.of_eq h₂)

theorem warps_keepsEmpty (targets : List ℕ) : Exec.Ensures (w.warps n targets) (KeepsEmpty except w) :=
  .foldlM (.refl w) fun target _ _ h => (clientWarp_keepsEmpty target).mono fun _ h' => h.trans h'

/-- Whoever joins is on one map more. -/
theorem mapJoin_keepsEmpty (grows : Bool) (outcome : JoinOutcome) :
    Exec.Ensures (w.mapJoin n r grows outcome) (KeepsEmpty (some r) w) := by
  have hgrow : Exec.Ensures (w.grow r grows) (KeepsEmpty (some r) w) := by
    rw [MapWorld.grow]
    split
    · refine .foldlM (.refl w) fun i _ w₁ h₁ => .andThen fun m _ => ?_
      exact (modify_players _).mono fun _ h₂ => h₁.trans (.of_eq h₂)
    · exact .pure (.refl w)
  cases outcome with
  | full => exact .pure (.refl w)
  | noMemory => exact hgrow.bind fun w₁ h₁ => (modify_players _).bind fun w₂ h₂ => .pure (h₁.trans (.of_eq h₂))
  | joins =>
    refine hgrow.bind fun w₁ h₁ => (modify_players _).bind fun w₂ h₂ => .pure ?_
    exact (h₁.trans (.of_eq h₂)).trans (.update fun hne => absurd rfl hne)

/-- The map that a packet may put its client onto. -/
def joined (w : MapWorld) : WorldAction → Option ℕ
  | .packet n (.mapTransferComplete none _ _ _) => (w.client n).map MapClient.room
  | _ => none

theorem step_keepsEmpty (a : WorldAction) (hsail : ∀ r target, a ≠ .sail r target) :
    Exec.Ensures (a.step w) (KeepsEmpty (w.joined a) w) := by
  cases a with
  | sail r target => exact absurd rfl (hsail r target)
  | enter n r =>
    rw [WorldAction.step]
    split <;> exact .pure (.refl w)
  | arrive n =>
    rw [WorldAction.step]
    split
    · exact .pure (.refl w)
    · split
      · exact .pure (.refl w)
      · exact (modify_players _).mono fun _ h => .of_eq h
  | notify n =>
    rw [WorldAction.step]
    split
    · exact .pure (.refl w)
    · exact warps_keepsEmpty _
  | disconnect n =>
    rw [WorldAction.step]
    split
    · exact .pure (.refl w)
    · exact .andThen fun s _ => (mapLeave_keepsEmpty _).bind fun w₁ h₁ => .pure (h₁.trans (.of_eq rfl))
  | packet n p =>
    rw [WorldAction.step]
    split
    · exact .pure (.refl w)
    · rename_i s hs
      cases p with
      | portal _ | script _ => exact warps_keepsEmpty _
      | other => exact .pure (.refl w)
      | npcTalk targets =>
        rw [onClientPacket]
        split
        · exact .pure (.refl w)
        · exact warps_keepsEmpty _
      | attack kicked alive =>
        rw [onClientPacket]
        split
        · exact .pure (.refl w)
        · exact .andThen fun _ _ => .pure (.refl w)
      | chat command =>
        cases command with
        | autopickup _ | killall _ => exact .andThen fun _ _ => .pure (.refl w)
        | map target => exact warps_keepsEmpty _
        | other => exact .pure (.refl w)
      | itemMove _ | mesoDrop _ | pickup _ => exact .andThen fun _ _ => .pure (.refl w)
      | reactorHit breaks targets =>
        rw [onClientPacket]
        split
        · exact .andThen fun _ _ => warps_keepsEmpty _
        · exact .pure (.refl w)
      | mapTransferComplete ship grows outcome targets =>
        cases ship with
        | some target => exact clientWarp_keepsEmpty target
        | none =>
          have hjoined : w.joined (.packet n (.mapTransferComplete none grows outcome targets)) = some s.room := by
            rw [joined, hs, Option.map_some]
          rw [hjoined]
          exact (mapJoin_keepsEmpty grows outcome).bind fun w₁ h₁ =>
            (warps_keepsEmpty targets).mono fun _ h₂ => h₁.trans h₂

/-! ## Whoever is there is taken -/

/-- Where a client is being transferred to. -/
def targetOf (w : MapWorld) (m : ℕ) : Option (Option ℕ) := (w.client m).map MapClient.target

theorem modify_targetOf {f : MapClient → MapClient} (hf : ∀ s, (f s).target = s.target) :
    Exec.Ensures (w.modify n f) fun w' => w'.targetOf = w.targetOf := by
  refine Exec.Ensures.bind (.deref fun s hs => hs) fun s hs => .pure (funext fun m => ?_)
  rw [targetOf, targetOf]
  change (Function.update w.client n (some (f s)) m).map MapClient.target = _
  rcases eq_or_ne m n with rfl | hne
  · rw [Function.update_self, hs, Option.map_some, Option.map_some, hf]
  · rw [Function.update_of_ne hne]

theorem entry_spec (player : Option PlayerEntry) : Exec.Ensures (w.entry n r player) fun i =>
    player = some (r, i) ∧ (w.players r)[i]? = some n := by
  refine Exec.Ensures.bind (.deref fun p hp => hp) fun p hp => ?_
  split
  · rename_i h
    exact .pure ⟨by rw [hp, ← h.1], h.2⟩
  · exact .error

/-- Whoever else is on a map stays there. -/
theorem mapLeave_others (player : Option PlayerEntry) : Exec.Ensures (w.mapLeave n r player) fun w' =>
    w'.targetOf = w.targetOf ∧ ∀ r', ∀ m ∈ w.players r', m ≠ n → m ∈ w'.players r' := by
  have hupdate {l : List ℕ} (hl : ∀ m ∈ w.players r, m ≠ n → m ∈ l) (r' : ℕ) :
      ∀ m ∈ w.players r', m ≠ n → m ∈ Function.update w.players r l r' := by
    intro m hm hne
    rcases eq_or_ne r' r with rfl | hrr
    · rw [Function.update_self]
      exact hl m hm hne
    · rw [Function.update_of_ne hrr]
      exact hm
  cases player with
  | none => exact .pure ⟨rfl, fun _ _ hm _ => hm⟩
  | some p =>
    refine (entry_spec _).bind fun i hi => Exec.last_spec.bind fun last hlast => ?_
    obtain ⟨-, hi⟩ := hi
    obtain ⟨hpos, rfl⟩ := hlast
    split
    · rename_i hne
      refine .bind (.deref fun b hb => hb) fun b hb => ?_
      refine ((modify_players _).and (modify_targetOf ?_)).mono fun w' hw' => ⟨hw'.2, ?_⟩
      · intro s
        rfl
      rw [hw'.1]
      refine hupdate fun m hm hmn => ?_
      obtain ⟨j, hj⟩ := List.mem_iff_getElem?.1 hm
      have hfill := nth_fill (m := b) (List.getElem?_eq_some_iff.1 hi).1
      by_cases hlast : j = (w.players r).length - 1
      · -- The last one is in the place of who has left.
        rw [hlast, hb] at hj
        obtain rfl := Option.some.inj hj
        refine List.mem_of_getElem? (i := i) ((congrFun hfill i).trans ?_)
        rw [Function.update_of_ne hne, Function.update_self]
      · have hji : j ≠ i := by
          rintro rfl
          exact hmn (Option.some.inj (hj.symm.trans hi))
        refine List.mem_of_getElem? (i := j) ((congrFun hfill j).trans ?_)
        rw [Function.update_of_ne hlast, Function.update_of_ne hji]
        exact hj
    · rename_i heq
      refine .pure ⟨rfl, hupdate fun m hm hmn => ?_⟩
      obtain ⟨j, hj⟩ := List.mem_iff_getElem?.1 hm
      refine List.mem_of_getElem? (i := j) ((congrFun (nth_pop (w.players r)) j).trans ?_)
      rw [Function.update_of_ne]
      · exact hj
      · rintro rfl
        rw [not_not.1 heq, hj] at hi
        exact hmn (Option.some.inj hi)

theorem clientWarp_others (target : ℕ) : Exec.Ensures (w.clientWarp n target) fun w' =>
    w'.targetOf = Function.update w.targetOf n (some (some target)) ∧
      ∀ r, ∀ m ∈ w.players r, m ≠ n → m ∈ w'.players r := by
  refine .andThen fun s _ => (mapLeave_others s.player).bind fun w₁ h₁ => ?_
  refine Exec.Ensures.bind (.deref fun s hs => hs) fun s₁ _ => .pure ⟨?_, h₁.2⟩
  rw [← h₁.1]
  funext m
  exact Function.apply_update (fun _ (o : Option MapClient) => o.map MapClient.target) w₁.client n _ m

/-- The ship takes all who are on the map to its target. -/
theorem sail_takes (target : ℕ) {k : ℕ} : Exec.Ensures (MapWorld.sail r target k w) fun w' =>
    w'.players r = [] ∧ KeepsEmpty none w w' ∧
      ∀ m, m ∈ w.players r ∨ w.targetOf m = some (some target) → w'.targetOf m = some (some target) := by
  induction k generalizing w with
  | zero =>
    rw [MapWorld.sail]
    split
    · rename_i hnil
      refine .pure ⟨hnil, .refl w, fun m hm => hm.resolve_left ?_⟩
      rw [hnil]
      exact List.not_mem_nil
    · exact .error
  | succ k ih =>
    rw [MapWorld.sail]
    cases hl : w.players r with
    | nil => exact .pure ⟨hl, .refl w, fun m hm => hm.resolve_left List.not_mem_nil⟩
    | cons n l =>
      have hkeeps : Exec.Ensures (w.clientWarp n target) (KeepsEmpty none w) := clientWarp_keepsEmpty target
      refine (hkeeps.and (clientWarp_others target)).bind fun w₁ h₁ => ?_
      obtain ⟨hempty, htarget, hothers⟩ := h₁
      -- Who has been taken keeps his target, and all others are still there.
      refine ih.mono fun w' h' => ⟨h'.1, hempty.trans h'.2.1, fun m hm => h'.2.2 m ?_⟩
      rw [htarget]
      rcases eq_or_ne m n with rfl | hne
      · rw [Function.update_self]
        exact .inr rfl
      · rw [Function.update_of_ne hne]
        exact hm.imp_left fun hm => hothers r m (hl ▸ hm) hne

end MapWorld

/-! ## What should hold -/

namespace TransportWorld

variable {s s' : TransportWorld} {id : ℕ} {l : TransportListener}

/-- Nobody is to be on the map of a listener: the ship is away from who waits, or lies where who is aboard goes
    ashore. -/
def Closed (s : TransportWorld) (l : TransportListener) : Prop :=
  if l.boards then s.sailing l.line = 2 else s.sailing l.line ≠ 2

/-- Whoever is on the map of a boat when he should not be is about to be taken away by its listener; a listener that
    is called when its line is in the state for which it waits takes all who are on its map to its target; and whoever
    comes too late for a boat is taken to where it has taken the others, and does not join the map. -/
structure Punctual (s : TransportWorld) : Prop where
  closed : ∀ id l, transportListener id = some l → l.line = .boat → s.Closed l → s.world.players id ≠ [] →
    s.triggered id = true ∧ s.sailing .boat = l.state
  takes : ∀ id l, transportListener id = some l → s.triggered id = true → s.sailing l.line = l.state →
    ∃ s', TransportAction.step (.listener id) s = .ok s' ∧ s'.world.players id = [] ∧
      ∀ n ∈ s.world.players id, s'.world.targetOf n = some (some l.target)
  late : ∀ n c l, s.world.client n = some c → transportListener c.room = some l → l.line = .boat → s.Closed l →
    ∀ ship grows outcome targets, ∃ s', TransportAction.step
      (.world (.packet n (.mapTransferComplete ship grows outcome targets))) s = .ok s' ∧
        s'.world.targetOf n = some (some l.target) ∧ MapWorld.KeepsEmpty none s.world s'.world

/-- What is kept: the phases of a line follow each other, and nobody is on the map of a boat when he should not be, but
    for those whom its listener is about to take. -/
structure Kept (s : TransportWorld) : Prop where
  placed : s.world.Placed
  phase : ∀ line, ∃ p : TransportPhase, s.sailing line = p.value ∧ s.scheduled line = p.next
  closed : ∀ id l, transportListener id = some l → l.line = .boat → s.Closed l → s.world.players id = [] ∨
    s.triggered id = true ∧ s.sailing .boat = l.state

/-! ## What is kept -/

/-- Whoever comes to the map of a boat when it is closed is taken elsewhere. -/
theorem mapJoinShip_eq (h : transportListener id = some l) (hl : l.line = .boat) (hclosed : s.Closed l) :
    s.mapJoinShip id = some l.target := by
  obtain ⟨line, boards, target⟩ := l
  obtain rfl : line = .boat := hl
  rw [mapJoinShip, h]
  cases boards <;> exact if_pos hclosed

theorem kept_start : start.Kept :=
  ⟨MapWorld.placed_start, fun _ => ⟨.arrive, rfl, rfl⟩, fun _ _ _ _ _ => .inl rfl⟩

/-- What happens on the maps puts nobody where the gates are closed. -/
theorem Kept.world (h : s.Kept) {a : WorldAction} {w : MapWorld} (hm : TransportAction.Meets (.world a) s)
    (hw : (s.joining a).step s.world = .ok w) : Kept { s with world := w } := by
  obtain ⟨hsail, ht⟩ := hm
  obtain ⟨w', hw', hplaced⟩ := h.placed.step ht
  obtain rfl := Except.ok.inj (hw'.symm.trans hw)
  have hempty := MapWorld.step_keepsEmpty (s.joining a) hsail w' hw
  refine ⟨hplaced, h.phase, fun id l hid hl hclosed => ?_⟩
  have hclosed : s.Closed l := hclosed
  refine (h.closed id l hid hl hclosed).imp_left fun hnil => hempty id ?_ hnil
  -- Only who completes a transfer joins a map, and `map_join` sends him away from this one.
  intro hjoined
  unfold joining at hjoined
  split at hjoined
  · rename_i n _ _ _ _
    cases hc : s.world.client n with
    | none =>
      rw [hc, Option.bind_none, MapWorld.joined, hc] at hjoined
      cases hjoined
    | some c =>
      rw [hc, Option.bind_some] at hjoined
      cases hship : s.mapJoinShip c.room with
      | some target =>
        rw [hship] at hjoined
        cases hjoined
      | none =>
        rw [hship, MapWorld.joined, hc, Option.map_some] at hjoined
        rw [← Option.some.inj hjoined, mapJoinShip_eq hid hl hclosed] at hship
        cases hship
  · rename_i hother
    rw [MapWorld.joined] at hjoined
    · cases hjoined
    · exact fun n grows outcome targets => hother n none grows outcome targets

/-- The timer of a line sets the next phase. -/
theorem Kept.timer (h : s.Kept) {line : TransportLine} (hm : TransportAction.Meets (.timer line) s)
    (hs : TransportAction.step (.timer line) s = .ok s') : s'.Kept := by
  obtain rfl := Except.ok.inj hs
  refine ⟨h.placed, fun line' => ?_, fun id l hid hl => ?_⟩
  · rcases eq_or_ne line' line with rfl | hne
    · exact ⟨s.scheduled line', Function.update_self .., Function.update_self ..⟩
    · obtain ⟨p, hp, hnext⟩ := h.phase line'
      exact ⟨p, (Function.update_of_ne hne ..).trans hp, (Function.update_of_ne hne ..).trans hnext⟩
  have hbefore := h.closed id l hid hl
  rw [Closed, hl] at hbefore ⊢
  dsimp only
  rcases eq_or_ne line .boat with rfl | hne
  · obtain ⟨p, hp, hnext⟩ := h.phase .boat
    have htriggered : (s.triggered id || (transportListener id).any (·.line = .boat)) = true := by
      simp [hid, hl]
    rw [Function.update_self, hnext]
    rw [hp] at hbefore
    rw [TransportListener.state] at hbefore ⊢
    -- The map is closed from now on if the boat departs from it, or arrives with who is aboard; its listener waits
    -- for just that, and has been triggered.
    cases hboards : l.boards with
    | true => exact fun hclosed => .inr ⟨htriggered, hclosed⟩
    | false =>
      rw [hboards] at hbefore
      cases p with
      | depart => exact fun _ => .inr ⟨htriggered, rfl⟩
      | closeGates => exact fun hclosed => absurd rfl hclosed
      | arrive =>
        -- The ship has lain there before, and its listener has been called.
        refine fun _ => .inl ((hbefore (by decide)).elim (fun hnil => hnil) fun htrig => ?_)
        exact hm id l hid hl htrig.1
  · rw [Function.update_of_ne hne.symm]
    refine fun hclosed => (hbefore hclosed).imp_right fun htrig => ⟨?_, htrig.2⟩
    exact Bool.or_eq_true_iff.2 (.inl htrig.1)

/-- A listener that has been triggered is called. -/
theorem listener_spec (h : s.Kept) (htriggered : s.triggered id = true) : ∃ w,
    TransportAction.step (.listener id) s =
      .ok { s with world := w, triggered := Function.update s.triggered id false } ∧ w.Placed ∧
    MapWorld.KeepsEmpty none s.world w ∧ ∀ l, transportListener id = some l → s.sailing l.line = l.state →
      w.players id = [] ∧ ∀ n ∈ s.world.players id, w.targetOf n = some (some l.target) := by
  rw [TransportAction.step, if_pos htriggered, onTrigger]
  cases hid : transportListener id with
  | none => exact ⟨s.world, rfl, h.placed, .refl _, fun l hl => nomatch hl⟩
  | some l =>
    dsimp only
    split
    · obtain ⟨w, hw, hplaced⟩ := h.placed.sail id l.target rfl
      obtain ⟨hnil, hempty, htaken⟩ := MapWorld.sail_takes l.target w hw
      refine ⟨w, by rw [hw]; rfl, hplaced, hempty, fun l' hl' _ => ?_⟩
      obtain rfl := Option.some.inj hl'
      exact ⟨hnil, fun n hn => htaken n (.inl hn)⟩
    · -- The line is not in the state for which it waits (any more).
      rename_i hstate
      refine ⟨s.world, rfl, h.placed, .refl _, fun l' hl' hs => ?_⟩
      obtain rfl := Option.some.inj hl'
      exact absurd hs hstate

theorem Kept.listener (h : s.Kept) (hs : TransportAction.step (.listener id) s = .ok s') : s'.Kept := by
  cases htriggered : s.triggered id with
  | false =>
    rw [TransportAction.step, htriggered] at hs
    cases hs
    exact h
  | true =>
    obtain ⟨w, hstep, hplaced, hempty, htaken⟩ := listener_spec h htriggered
    obtain rfl := Except.ok.inj (hstep.symm.trans hs)
    refine ⟨hplaced, h.phase, fun id' l hid hl hclosed => ?_⟩
    rcases h.closed id' l hid hl hclosed with hnil | ⟨htrig, hstate⟩
    · exact .inl (hempty id' nofun hnil)
    · -- Those whom this listener has not taken are still to be taken by theirs.
      rcases eq_or_ne id' id with rfl | hne
      · exact .inl (htaken l hid (by rw [hl, hstate])).1
      · exact .inr ⟨(Function.update_of_ne hne ..).trans htrig, hstate⟩

theorem Kept.step (h : s.Kept) {a : TransportAction} (hm : a.Meets s) (hs : a.step s = .ok s') : s'.Kept := by
  cases a with
  | world a =>
    obtain ⟨w, hw, hs⟩ := Exec.bind_eq_ok.1 hs
    cases hs
    exact h.world hm hw
  | timer line => exact h.timer hm hs
  | listener id => exact h.listener hs

theorem Kept.punctual (h : s.Kept) : s.Punctual := by
  refine ⟨fun id l hid hl hclosed hne => (h.closed id l hid hl hclosed).resolve_left hne,
    fun id l hid htriggered hstate => ?_, fun n c l hc hid hl hclosed ship grows outcome targets => ?_⟩
  · obtain ⟨w, hstep, -, -, htaken⟩ := listener_spec h htriggered
    exact ⟨_, hstep, htaken l hid hstate⟩
  · obtain ⟨w, hw, -⟩ := h.placed.clientWarp hc l.target
    have hstep : (s.joining (.packet n (.mapTransferComplete ship grows outcome targets))).step s.world = .ok w := by
      rw [joining, hc, Option.bind_some, mapJoinShip_eq hid hl hclosed, WorldAction.step, hc]
      exact hw
    refine ⟨{ s with world := w }, ?_, ?_, MapWorld.clientWarp_keepsEmpty l.target w hw⟩
    · rw [TransportAction.step, hstep]
      rfl
    · rw [(MapWorld.clientWarp_others l.target w hw).1, Function.update_self]

end TransportWorld

/-- In every run, nobody is left behind on a boat that lies, nor on a landing stage when the boat has gone. -/
theorem transports_run {s : TransportWorld}
    (hrun : Machine.Run TransportAction.step TransportAction.Meets .start s) : s.Punctual :=
  (hrun.invariant TransportWorld.kept_start fun _ _ _ h hm hs => h.step hm hs).punctual

/-- Somebody waits for the boat, and is taken when it departs. -/
theorem transports_run_boat : ∃ s, TransportWorld.Punctual s ∧ s.sailing .boat = 2 ∧
    s.world.players 101000301 = [] ∧ s.world.targetOf 0 = some (some 200090010) := by
  have hgates : Machine.Run TransportAction.step TransportAction.Meets .start _ :=
    .step (.timer .boat) (.step (.world (.enter 0 101000301)) .start ⟨by rintro r target ⟨⟩, trivial⟩ rfl)
      (by rintro id l - - ⟨⟩) rfl
  have hjoined : Machine.Run TransportAction.step TransportAction.Meets .start _ :=
    .step (.listener 101000301) (.step (.world (.packet 0 .joins)) hgates
      ⟨by rintro r target ⟨⟩, by rintro c ⟨⟩; exact ⟨by decide, fun _ => ⟨rfl, rfl⟩⟩⟩ rfl) trivial rfl
  have hdeparted : Machine.Run TransportAction.step TransportAction.Meets .start _ :=
    .step (.timer .boat) hjoined (by
      intro id l hid hl htriggered
      have hne : id ≠ 101000301 := by
        rintro rfl
        cases htriggered
      exact Function.update_of_ne hne ..) rfl
  exact ⟨_, transports_run (.step (.listener 101000301) hdeparted trivial rfl), rfl, rfl, rfl⟩

end Syrup
