import Syrup.Server.Timers

/-!
# The life of a room

In every run in which no map event lets go of what keeps its room alive, and in which no timer is stopped
by its own callback (`TakesCare`), the handles of a room know their places, callbacks run once at most and
not after they have been stopped, and a room is destroyed when, and only when, nothing keeps it alive; and
nothing that is still being done uses it afterwards (`timers_run`). The last player that is warped
out by a map event takes the room along, whose players the event then looks at (`timers_fail`).
-/

namespace Syrup

open TimerServer

variable {s : TimerServer}

/-- What may come after an event: a callback does not run again, nor after it has been stopped, and a
    room is destroyed once. -/
def RoomEvent.Before (e : RoomEvent) : RoomEvent → Prop
  | .ran h => e ≠ .ran h ∧ e ≠ .stopped h
  | .destroyed r => e ≠ .destroyed r
  | .stopped _ => True

/-- The handles of the timers of rooms know their places, and are there. -/
structure Wired (handle : ℕ → Option TimerHandle) (room : ℕ → Option TimedRoom) : Prop where
  index : ∀ r rm, room r = some rm → ∀ i < rm.timerCount, handle (rm.timers i) = some ⟨r, i⟩
  live : ∀ h t, handle h = some t →
    ∃ rm, room t.room = some rm ∧ t.index < rm.timerCount ∧ rm.timers t.index = h

/-- What is said of the rooms of a worker. -/
structure RoomsRight (s : TimerServer) : Prop where
  wired : Wired s.handle s.room
  /-- Callbacks run once at most, and not after they have been stopped; rooms are destroyed once. -/
  once : s.log.Pairwise RoomEvent.Before
  /-- A room that is there is kept alive by something. -/
  alive : ∀ r rm, s.room r = some rm → ¬rm.Idle
  /-- A room that has been created is there unless it has been destroyed. -/
  destroyed : ∀ r, .destroyed r ∈ s.log ↔ r < s.nextRoom ∧ s.room r = none
  /-- Whatever is done next, it does not use what has been freed. -/
  safe : ∀ a : TimerAction, ∃ s', a.step s = .ok s'

/-- What a step leaves in the room of a map event keeps it alive. -/
def KeepsRoom (s : TimerServer) (r : ℕ) (f : TimedRoom → TimedRoom) : Prop :=
  s.code = some (.event r) → ∀ rm ∈ s.room r, ¬(f rm).Idle

/-- A step that takes care: a map event does not take from its room what keeps it alive, and no timer is
    stopped by its own callback. -/
def TakesCare : TimerAction → TimerServer → Prop
  | .stopTimer h, s => (∀ r, s.code ≠ some (.timer h r)) ∧
    ∀ r, KeepsRoom s r fun rm => { rm with timerCount := rm.timerCount - 1 }
  | .breakOff, s => ∀ r, KeepsRoom s r fun rm => { rm with keepAlive := false }
  | .warpNext true, s => ∀ r, KeepsRoom s r fun rm =>
    { rm with sessions := rm.players.head?.elim rm.sessions rm.sessions.erase }
  | _, _ => True

/-! ## Handles and places -/

namespace Wired

variable {handle : ℕ → Option TimerHandle} {room : ℕ → Option TimedRoom}

/-- The timers of a room are different. -/
theorem timers_inj (h : Wired handle room) {r i j : ℕ} {rm : TimedRoom} (hr : room r = some rm)
    (hi : i < rm.timerCount) (hj : j < rm.timerCount) (e : rm.timers i = rm.timers j) : i = j := by
  have hi' := h.index r rm hr i hi
  rw [e, h.index r rm hr j hj] at hi'
  cases hi'
  rfl

/-- A room is rewritten with the same timers. -/
theorem setRoom (h : Wired handle room) {r : ℕ} {rm rm' : TimedRoom} (hr : room r = some rm)
    (htimers : rm'.timers = rm.timers) (hcount : rm'.timerCount = rm.timerCount) :
    Wired handle (Function.update room r (some rm')) := by
  refine ⟨fun q qm hq i hi => ?_, fun k t hk => ?_⟩
  · rcases eq_or_ne q r with rfl | hne
    · rw [Function.update_self] at hq
      cases hq
      rw [htimers]
      exact h.index q rm hr i (hcount ▸ hi)
    · rw [Function.update_of_ne hne] at hq
      exact h.index q qm hq i hi
  · obtain ⟨qm, hq, hi, htimer⟩ := h.live k t hk
    rcases eq_or_ne t.room r with e | hne
    · rw [e, hr] at hq
      cases hq
      exact ⟨rm', by rw [e, Function.update_self], hcount ▸ hi, by rw [htimers, htimer]⟩
    · exact ⟨qm, by rw [Function.update_of_ne hne, hq], hi, htimer⟩

/-- A room without timers is destroyed. -/
theorem destroy (h : Wired handle room) {r : ℕ} {rm : TimedRoom} (hr : room r = some rm)
    (hcount : rm.timerCount = 0) : Wired handle (Function.update room r none) := by
  refine ⟨fun q qm hq i hi => ?_, fun k t hk => ?_⟩
  · rcases eq_or_ne q r with rfl | hne
    · rw [Function.update_self] at hq
      cases hq
    · rw [Function.update_of_ne hne] at hq
      exact h.index q qm hq i hi
  · obtain ⟨qm, hq, hi, htimer⟩ := h.live k t hk
    have hne : t.room ≠ r := by
      rintro rfl
      rw [hr] at hq
      cases hq
      omega
    exact ⟨qm, by rw [Function.update_of_ne hne, hq], hi, htimer⟩

/-- A room without timers is created. -/
theorem create (h : Wired handle room) {r : ℕ} {rm : TimedRoom} (hr : room r = none)
    (hcount : rm.timerCount = 0) : Wired handle (Function.update room r (some rm)) := by
  refine ⟨fun q qm hq i hi => ?_, fun k t hk => ?_⟩
  · rcases eq_or_ne q r with rfl | hne
    · rw [Function.update_self] at hq
      cases hq
      omega
    · rw [Function.update_of_ne hne] at hq
      exact h.index q qm hq i hi
  · obtain ⟨qm, hq, hi, htimer⟩ := h.live k t hk
    have hne : t.room ≠ r := by
      rintro rfl
      cases hr.symm.trans hq
    exact ⟨qm, by rw [Function.update_of_ne hne, hq], hi, htimer⟩

/-- A timer is added to a room. -/
theorem add (h : Wired handle room) {r k : ℕ} {rm : TimedRoom} (hr : room r = some rm)
    (hk : handle k = none) :
    Wired (Function.update handle k (some ⟨r, rm.timerCount⟩)) (Function.update room r (some { rm with
      timers := Function.update rm.timers rm.timerCount k
      timerCount := rm.timerCount + 1 })) := by
  have hother {q i : ℕ} {qm : TimedRoom} (hq : room q = some qm) (hi : i < qm.timerCount) :
      qm.timers i ≠ k := by
    intro e
    cases (h.index q qm hq i hi).symm.trans (e ▸ hk)
  refine ⟨fun q qm hq i hi => ?_, fun k' t hk' => ?_⟩
  · rcases eq_or_ne q r with rfl | hne
    · rw [Function.update_self] at hq
      cases hq
      change i < rm.timerCount + 1 at hi
      change Function.update handle k _ (Function.update rm.timers rm.timerCount k i) = _
      rcases eq_or_ne i rm.timerCount with rfl | hi'
      · rw [Function.update_self, Function.update_self]
      · have hlt : i < rm.timerCount := by omega
        rw [Function.update_of_ne hi', Function.update_of_ne (hother hr hlt), h.index q rm hr i hlt]
    · rw [Function.update_of_ne hne] at hq
      rw [Function.update_of_ne (hother hq hi), h.index q qm hq i hi]
  · rcases eq_or_ne k' k with rfl | hne
    · rw [Function.update_self] at hk'
      cases hk'
      exact ⟨_, Function.update_self .., Nat.lt_succ_self _, Function.update_self ..⟩
    · rw [Function.update_of_ne hne] at hk'
      obtain ⟨qm, hq, hi, htimer⟩ := h.live k' t hk'
      rcases eq_or_ne t.room r with e | hne'
      · rw [e, hr] at hq
        cases hq
        refine ⟨_, by rw [e, Function.update_self], Nat.lt_succ_of_lt hi, ?_⟩
        change Function.update rm.timers rm.timerCount k t.index = k'
        rw [Function.update_of_ne hi.ne, htimer]
      · exact ⟨qm, by rw [Function.update_of_ne hne', hq], hi, htimer⟩

/-- A timer is removed from its room: the last one takes its place. -/
theorem remove (h : Wired handle room) {k : ℕ} {t : TimerHandle} {rm : TimedRoom}
    (hk : handle k = some t) (hr : room t.room = some rm) :
    Wired (Function.update (Function.update handle (rm.timers (rm.timerCount - 1)) (some t)) k none)
      (Function.update room t.room (some { rm with
        timers := Function.update rm.timers t.index (rm.timers (rm.timerCount - 1))
        timerCount := rm.timerCount - 1 })) := by
  obtain ⟨rm', hr', hi, htimer⟩ := h.live k t hk
  obtain rfl := Option.some.inj (hr'.symm.trans hr)
  have hlast : rm'.timerCount - 1 < rm'.timerCount := by omega
  -- another timer keeps its handle
  have hother {q i : ℕ} {qm : TimedRoom} (hq : room q = some qm) (hi' : i < qm.timerCount)
      (hne : q ≠ t.room ∨ i ≠ t.index ∧ i ≠ rm'.timerCount - 1) :
      Function.update (Function.update handle (rm'.timers (rm'.timerCount - 1)) (some t)) k none
        (qm.timers i) = some ⟨q, i⟩ := by
    have hqi := h.index q qm hq i hi'
    have hk' : qm.timers i ≠ k := by
      intro e
      rw [e, hk] at hqi
      cases hqi
      exact hne.elim (fun hne => hne rfl) fun hne => hne.1 rfl
    have hl : qm.timers i ≠ rm'.timers (rm'.timerCount - 1) := by
      intro e
      rw [e, h.index t.room rm' hr' _ hlast] at hqi
      cases hqi
      exact hne.elim (fun hne => hne rfl) fun hne => hne.2 rfl
    rw [Function.update_of_ne hk', Function.update_of_ne hl, hqi]
  refine ⟨fun q qm hq i hi' => ?_, fun k' t' hk' => ?_⟩
  · rcases eq_or_ne q t.room with rfl | hne
    · rw [Function.update_self] at hq
      cases hq
      change i < rm'.timerCount - 1 at hi'
      change Function.update (Function.update handle _ _) k none
        (Function.update rm'.timers t.index _ i) = _
      rcases eq_or_ne i t.index with rfl | hne
      · have hl : rm'.timers (rm'.timerCount - 1) ≠ k := by
          intro e
          have := h.timers_inj hr' hlast hi (e.trans htimer.symm)
          omega
        rw [Function.update_self, Function.update_of_ne hl, Function.update_self]
      · rw [Function.update_of_ne hne]
        exact hother hr' (by omega) (.inr ⟨hne, by omega⟩)
    · rw [Function.update_of_ne hne] at hq
      exact hother hq hi' (.inl hne)
  · have hne : k' ≠ k := by
      rintro rfl
      rw [Function.update_self] at hk'
      cases hk'
    rw [Function.update_of_ne hne] at hk'
    rcases eq_or_ne k' (rm'.timers (rm'.timerCount - 1)) with e | hl
    · rw [e, Function.update_self] at hk'
      cases hk'
      refine ⟨_, Function.update_self .., ?_, ?_⟩
      · change t.index < rm'.timerCount - 1
        have hlt : t.index ≠ rm'.timerCount - 1 := fun hi => hne (by rw [e, ← hi, htimer])
        omega
      · change Function.update rm'.timers t.index _ t.index = k'
        rw [Function.update_self, e]
    · rw [Function.update_of_ne hl] at hk'
      obtain ⟨qm, hq, hi', htimer'⟩ := h.live k' t' hk'
      rcases eq_or_ne t'.room t.room with e | hne'
      · rw [e, hr'] at hq
        cases hq
        have hi₁ : t'.index ≠ t.index := fun hi => hne (by rw [← htimer', hi, htimer])
        have hi₂ : t'.index ≠ rm'.timerCount - 1 := fun hi => hl (by rw [← htimer', hi])
        refine ⟨_, by rw [e, Function.update_self], ?_, ?_⟩
        · change t'.index < rm'.timerCount - 1
          omega
        · change Function.update rm'.timers t.index _ t'.index = k'
          rw [Function.update_of_ne hi₁, htimer']
      · exact ⟨qm, by rw [Function.update_of_ne hne', hq], hi', htimer'⟩

end Wired

/-! ## The invariant -/

/-- What holds in every state of a run that takes care. -/
structure TimersKept (s : TimerServer) : Prop where
  wired : Wired s.handle s.room
  once : s.log.Pairwise RoomEvent.Before
  ran : ∀ h, .ran h ∈ s.log →
    h < s.nextHandle ∧ (s.handle h = none ∨ ∃ r, s.code = some (.timer h r))
  stopped : ∀ h, .stopped h ∈ s.log → h < s.nextHandle ∧ s.handle h = none
  destroyed : ∀ r, .destroyed r ∈ s.log ↔ r < s.nextRoom ∧ s.room r = none
  fresh : ∀ h, s.nextHandle ≤ h → s.handle h = none
  new : ∀ r, s.nextRoom ≤ r → s.room r = none
  alive : ∀ r rm, s.room r = some rm → ¬rm.Idle
  timer : ∀ h r, s.code = some (.timer h r) → ∃ i, s.handle h = some ⟨r, i⟩
  event : ∀ r, s.code = some (.event r) → s.room r ≠ none

namespace TimersKept

/-- A room is rewritten, with the handles of its timers, and destroyed if nothing keeps it alive. -/
theorem settle {handle : ℕ → Option TimerHandle} {r : ℕ} {rm rm' : TimedRoom} (h : TimersKept s)
    (hr : s.room r = some rm) (hw : Wired handle (Function.update s.room r (some rm')))
    (hnone : ∀ k, s.handle k = none → handle k = none) {code : Option RoomCode}
    (hran : ∀ k, .ran k ∈ s.log → handle k = none ∨ ∃ r, code = some (.timer k r))
    (htimer : ∀ k q, code = some (.timer k q) → ∃ i, handle k = some ⟨q, i⟩)
    (hevent : ∀ q, code = some (.event q) → s.room q ≠ none ∧ (q = r → ¬rm'.Idle)) :
    TimersKept ({ s with handle := handle, code := code }.settle r rm') := by
  have hlt : r < s.nextRoom := by
    by_contra hge
    cases (h.new r (Nat.le_of_not_lt hge)).symm.trans hr
  rw [TimerServer.settle]
  split
  · rename_i hidle
    have hdestroyed : .destroyed r ∉ s.log := fun hd => by
      cases hr.symm.trans ((h.destroyed r).1 hd).2
    refine ⟨?_, ?_, fun k hk => ?_, fun k hk => ?_, fun q => ?_, fun k hk => hnone k (h.fresh k hk),
      fun q hq => ?_, fun q qm hq => ?_, htimer, fun q hq => ?_⟩
    · have hd := hw.destroy (Function.update_self ..) hidle.1
      rwa [Function.update_idem] at hd
    · refine List.pairwise_append.2 ⟨h.once, List.pairwise_singleton .., fun e he e' he' => ?_⟩
      rw [List.mem_singleton.1 he']
      rintro rfl
      exact hdestroyed he
    · rcases List.mem_append.1 hk with hk | hk
      · exact ⟨(h.ran k hk).1, hran k hk⟩
      · cases List.mem_singleton.1 hk
    · rcases List.mem_append.1 hk with hk | hk
      · exact ⟨(h.stopped k hk).1, hnone k (h.stopped k hk).2⟩
      · cases List.mem_singleton.1 hk
    · change _ ∈ s.log ++ [.destroyed r] ↔ q < s.nextRoom ∧ Function.update s.room r none q = none
      rw [List.mem_append, List.mem_singleton, h.destroyed]
      rcases eq_or_ne q r with rfl | hne
      · simp [hlt]
      · rw [Function.update_of_ne hne]
        exact or_iff_left fun e => hne (by cases e; rfl)
    · change Function.update s.room r none q = none
      rw [Function.update_of_ne (by change s.nextRoom ≤ q at hq; omega)]
      exact h.new q hq
    · change Function.update s.room r none q = some qm at hq
      rcases eq_or_ne q r with rfl | hne
      · rw [Function.update_self] at hq
        cases hq
      · rw [Function.update_of_ne hne] at hq
        exact h.alive q qm hq
    · obtain ⟨hq, hne⟩ := hevent q hq
      change Function.update s.room r none q ≠ none
      rw [Function.update_of_ne fun e => hne e hidle]
      exact hq
  · rename_i hidle
    refine ⟨hw, h.once, fun k hk => ⟨(h.ran k hk).1, hran k hk⟩,
      fun k hk => ⟨(h.stopped k hk).1, hnone k (h.stopped k hk).2⟩, fun q => ?_,
      fun k hk => hnone k (h.fresh k hk), fun q hq => ?_, fun q qm hq => ?_, htimer, fun q hq => ?_⟩
    · change _ ∈ s.log ↔ q < s.nextRoom ∧ Function.update s.room r (some rm') q = none
      rw [h.destroyed]
      rcases eq_or_ne q r with rfl | hne
      · simp [hr]
      · rw [Function.update_of_ne hne]
    · change Function.update s.room r (some rm') q = none
      rw [Function.update_of_ne (by change s.nextRoom ≤ q at hq; omega)]
      exact h.new q hq
    · change Function.update s.room r (some rm') q = some qm at hq
      rcases eq_or_ne q r with rfl | hne
      · rw [Function.update_self] at hq
        cases hq
        exact hidle
      · rw [Function.update_of_ne hne] at hq
        exact h.alive q qm hq
    · change Function.update s.room r (some rm') q ≠ none
      rcases eq_or_ne q r with rfl | hne
      · rw [Function.update_self]
        exact Option.some_ne_none _
      · rw [Function.update_of_ne hne]
        exact (hevent q hq).1

/-- A room is rewritten with the same timers, and destroyed if nothing keeps it alive. -/
theorem resettle {r : ℕ} {rm rm' : TimedRoom} (h : TimersKept s) (hr : s.room r = some rm)
    (htimers : rm'.timers = rm.timers) (hcount : rm'.timerCount = rm.timerCount)
    (hevent : s.code = some (.event r) → ¬rm'.Idle) : TimersKept (s.settle r rm') :=
  h.settle hr (h.wired.setRoom hr htimers hcount) (fun _ hk => hk) (fun k hk => (h.ran k hk).2)
    h.timer fun q hq => ⟨h.event q hq, fun e => hevent (e ▸ hq)⟩

/-- The worker goes on to something else. -/
theorem setCode (h : TimersKept s) {code : Option RoomCode}
    (hran : ∀ k, .ran k ∈ s.log → s.handle k ≠ none → ∃ r, code = some (.timer k r))
    (htimer : ∀ k r, code = some (.timer k r) → ∃ i, s.handle k = some ⟨r, i⟩)
    (hevent : ∀ r, code = some (.event r) → s.room r ≠ none) :
    TimersKept { s with code := code } :=
  { h with
    ran := fun k hk => ⟨(h.ran k hk).1, or_iff_not_imp_left.2 (hran k hk)⟩
    timer := htimer
    event := hevent }

/-- A session goes out of a room. -/
theorem depart {r n : ℕ} {rm : TimedRoom} (h : TimersKept s) (hr : s.room r = some rm)
    (hevent : s.code = some (.event r) → ¬{ rm with sessions := rm.sessions.erase n }.Idle) :
    ∃ s', s.depart r n = .ok s' ∧ TimersKept s' := by
  rw [TimerServer.depart, hr]
  exact ⟨_, rfl, h.resettle hr rfl rfl hevent⟩

/-- A room is rewritten with the same timers, and is kept alive. -/
theorem setRoom {r : ℕ} {rm rm' : TimedRoom} (h : TimersKept s) (hr : s.room r = some rm)
    (htimers : rm'.timers = rm.timers) (hcount : rm'.timerCount = rm.timerCount)
    (halive : ¬rm'.Idle) : TimersKept (s.setRoom r (some rm')) := by
  have hsettle := h.resettle hr htimers hcount fun _ => halive
  rwa [TimerServer.settle, if_neg halive] at hsettle

/-- The handles after a timer has been removed. -/
theorem removeTimer_eq {k : ℕ} {t : TimerHandle} {rm : TimedRoom} (h : TimersKept s)
    (hk : s.handle k = some t) (hr : s.room t.room = some rm) (code : Option RoomCode) :
    { s with code := code }.removeTimer k t = .ok ({ s with
      handle := Function.update
        (Function.update s.handle (rm.timers (rm.timerCount - 1)) (some t)) k none
      code := code }.settle t.room { rm with
        timers := Function.update rm.timers t.index (rm.timers (rm.timerCount - 1))
        timerCount := rm.timerCount - 1 }) := by
  obtain ⟨rm', hr', hi, -⟩ := h.wired.live k t hk
  obtain rfl := Option.some.inj (hr'.symm.trans hr)
  have hlast := h.wired.index t.room rm' hr (rm'.timerCount - 1) (by omega)
  rw [TimerServer.removeTimer]
  simp only [hr, hlast, Exec.deref, Exec.ok_bind]
  rfl

/-- A timer is removed from its room, and its callback is not being run any more. -/
theorem remove {k : ℕ} {t : TimerHandle} {rm : TimedRoom} (h : TimersKept s)
    (hk : s.handle k = some t) (hr : s.room t.room = some rm) {code : Option RoomCode}
    (hcode : code = s.code ∨ code = none ∧ ∃ r, s.code = some (.timer k r))
    (hown : ∀ r, code ≠ some (.timer k r))
    (hevent : code = some (.event t.room) → ¬{ rm with timerCount := rm.timerCount - 1 }.Idle) :
    TimersKept ({ s with
      handle := Function.update
        (Function.update s.handle (rm.timers (rm.timerCount - 1)) (some t)) k none
      code := code }.settle t.room { rm with
        timers := Function.update rm.timers t.index (rm.timers (rm.timerCount - 1))
        timerCount := rm.timerCount - 1 }) := by
  obtain ⟨rm', hr', hi, -⟩ := h.wired.live k t hk
  obtain rfl := Option.some.inj (hr'.symm.trans hr)
  have hlast := h.wired.index t.room rm' hr (rm'.timerCount - 1) (by omega)
  have hnone (j : ℕ) (hj : s.handle j = none) : Function.update
      (Function.update s.handle (rm'.timers (rm'.timerCount - 1)) (some t)) k none j = none := by
    rcases eq_or_ne j k with rfl | hne
    · exact Function.update_self ..
    · have hl : j ≠ rm'.timers (rm'.timerCount - 1) := by
        rintro rfl
        cases hj.symm.trans hlast
      rw [Function.update_of_ne hne, Function.update_of_ne hl, hj]
  refine h.settle hr (h.wired.remove hk hr) hnone (fun j hj => ?_) (fun j q hj => ?_)
    fun q hq => ?_
  · rcases (h.ran j hj).2 with hgone | ⟨r, hr⟩
    · exact .inl (hnone j hgone)
    · rcases hcode with rfl | ⟨-, r', hr'⟩
      · exact .inr ⟨r, hr⟩
      · cases hr.symm.trans hr'
        exact .inl (Function.update_self ..)
  · have hne : j ≠ k := by
      rintro rfl
      exact hown q hj
    rcases hcode with rfl | ⟨rfl, -⟩
    · obtain ⟨i, hi⟩ := h.timer j q hj
      rw [Function.update_of_ne hne]
      rcases eq_or_ne j (rm'.timers (rm'.timerCount - 1)) with rfl | hl
      · cases hlast.symm.trans hi
        exact ⟨t.index, Function.update_self ..⟩
      · exact ⟨i, by rw [Function.update_of_ne hl, hi]⟩
    · cases hj
  · rcases hcode with rfl | ⟨rfl, -⟩
    · refine ⟨h.event q hq, ?_⟩
      rintro rfl
      exact hevent hq
    · cases hq

/-- A timer that is not there any more has been stopped. -/
theorem record_stopped {k : ℕ} (h : TimersKept s) (hk : k < s.nextHandle) (hgone : s.handle k = none) :
    TimersKept (s.record (.stopped k)) := by
  refine { h with
    once := List.pairwise_append.2 ⟨h.once, List.pairwise_singleton .., fun e _ e' he' => ?_⟩
    ran := fun j hj => ?_
    stopped := fun j hj => ?_
    destroyed := fun r => ?_ }
  · rw [List.mem_singleton.1 he']
    trivial
  · rcases List.mem_append.1 hj with hj | hj
    · exact h.ran j hj
    · cases List.mem_singleton.1 hj
  · rcases List.mem_append.1 hj with hj | hj
    · exact h.stopped j hj
    · cases List.mem_singleton.1 hj
      exact ⟨hk, hgone⟩
  · refine Iff.trans ?_ (h.destroyed r)
    rw [record, List.mem_append, List.mem_singleton]
    exact or_iff_left nofun

/-- A timer that is there. -/
theorem handle_lt {k : ℕ} {t : TimerHandle} (h : TimersKept s) (hk : s.handle k = some t) :
    k < s.nextHandle := by
  by_contra hge
  cases (h.fresh k (Nat.le_of_not_lt hge)).symm.trans hk

/-- The callback of a timer is run. -/
theorem expire {k : ℕ} {t : TimerHandle} (h : TimersKept s) (hcode : s.code = none)
    (hk : s.handle k = some t) :
    TimersKept ({ s with code := some (.timer k t.room) }.record (.ran k)) := by
  have hran : .ran k ∉ s.log := fun hr => by
    rcases (h.ran k hr).2 with hgone | ⟨r, hr⟩
    · cases hgone.symm.trans hk
    · cases hcode.symm.trans hr
  have hstopped : .stopped k ∉ s.log := fun hs => by cases (h.stopped k hs).2.symm.trans hk
  refine { h with
    once := List.pairwise_append.2 ⟨h.once, List.pairwise_singleton .., fun e he e' he' => ?_⟩
    ran := fun j hj => ?_
    stopped := fun j hj => ?_
    destroyed := fun r => ?_
    timer := ?_
    event := nofun }
  · rw [List.mem_singleton.1 he']
    exact ⟨fun e => hran (e ▸ he), fun e => hstopped (e ▸ he)⟩
  · rcases List.mem_append.1 hj with hj | hj
    · refine ⟨(h.ran j hj).1, .inl ((h.ran j hj).2.resolve_right ?_)⟩
      rintro ⟨r, hr⟩
      cases hcode.symm.trans hr
    · cases List.mem_singleton.1 hj
      exact ⟨h.handle_lt hk, .inr ⟨t.room, rfl⟩⟩
  · rcases List.mem_append.1 hj with hj | hj
    · exact h.stopped j hj
    · cases List.mem_singleton.1 hj
  · refine Iff.trans ?_ (h.destroyed r)
    rw [record, List.mem_append, List.mem_singleton]
    exact or_iff_left nofun
  · rintro j r ⟨⟩
    exact ⟨t.index, hk⟩

/-- A room is created. -/
theorem createRoom (h : TimersKept s) (n : ℕ) : TimersKept (s.createRoom n) := by
  have hnone : s.room s.nextRoom = none := h.new _ le_rfl
  refine ⟨h.wired.create hnone rfl, h.once, h.ran, h.stopped, fun q => ?_, h.fresh, fun q hq => ?_,
    fun q qm hq => ?_, h.timer, fun q hq => ?_⟩
  · change _ ∈ s.log ↔ q < s.nextRoom + 1 ∧ Function.update s.room s.nextRoom _ q = none
    rw [h.destroyed]
    rcases eq_or_ne q s.nextRoom with rfl | hne
    · simp
    · rw [Function.update_of_ne hne]
      exact and_congr_left fun _ => by omega
  · change s.nextRoom + 1 ≤ q at hq
    change Function.update s.room s.nextRoom _ q = none
    rw [Function.update_of_ne (by omega)]
    exact h.new q (by omega)
  · change Function.update s.room s.nextRoom _ q = some qm at hq
    rcases eq_or_ne q s.nextRoom with rfl | hne
    · rw [Function.update_self] at hq
      cases hq
      exact fun hidle => Finset.singleton_ne_empty n hidle.2.1
    · rw [Function.update_of_ne hne] at hq
      exact h.alive q qm hq
  · change Function.update s.room s.nextRoom _ q ≠ none
    rcases eq_or_ne q s.nextRoom with rfl | hne
    · rw [Function.update_self]
      exact Option.some_ne_none _
    · rw [Function.update_of_ne hne]
      exact h.event q hq

/-- A timer is added to a room. -/
theorem addTimer {r : ℕ} {rm : TimedRoom} (h : TimersKept s) (hr : s.room r = some rm)
    (alloc : Bool) : ∃ s', s.addTimer alloc r = .ok s' ∧ TimersKept s' := by
  rw [TimerServer.addTimer, hr]
  cases alloc with
  | false => exact ⟨s, rfl, h⟩
  | true =>
    have hnone : s.handle s.nextHandle = none := h.fresh _ le_rfl
    have hother (k : ℕ) (hk : k < s.nextHandle) : Function.update s.handle s.nextHandle
        (some ⟨r, rm.timerCount⟩) k = s.handle k := Function.update_of_ne hk.ne _ _
    have hlt : r < s.nextRoom := by
      by_contra hge
      cases (h.new r (Nat.le_of_not_lt hge)).symm.trans hr
    refine ⟨_, rfl, h.wired.add hr hnone, h.once, fun k hk => ?_, fun k hk => ?_, fun q => ?_,
      fun k hk => ?_, fun q hq => ?_, fun q qm hq => ?_, fun k q hk => ?_, fun q hq => ?_⟩
    · obtain ⟨hk, hgone⟩ := h.ran k hk
      exact ⟨Nat.lt_succ_of_lt hk, hgone.imp_left (hother k hk).trans⟩
    · obtain ⟨hk, hgone⟩ := h.stopped k hk
      exact ⟨Nat.lt_succ_of_lt hk, (hother k hk).trans hgone⟩
    · change _ ∈ s.log ↔ q < s.nextRoom ∧ Function.update s.room r _ q = none
      rw [h.destroyed]
      rcases eq_or_ne q r with rfl | hne
      · simp [hr]
      · rw [Function.update_of_ne hne]
    · change s.nextHandle + 1 ≤ k at hk
      change Function.update s.handle s.nextHandle _ k = none
      rw [Function.update_of_ne (by omega)]
      exact h.fresh k (by omega)
    · change s.nextRoom ≤ q at hq
      change Function.update s.room r _ q = none
      rw [Function.update_of_ne (by omega)]
      exact h.new q hq
    · change Function.update s.room r _ q = some qm at hq
      rcases eq_or_ne q r with rfl | hne
      · rw [Function.update_self] at hq
        cases hq
        exact fun hidle => Nat.succ_ne_zero _ hidle.1
      · rw [Function.update_of_ne hne] at hq
        exact h.alive q qm hq
    · obtain ⟨i, hi⟩ := h.timer k q hk
      exact ⟨i, (hother k (h.handle_lt hi)).trans hi⟩
    · change Function.update s.room r _ q ≠ none
      rcases eq_or_ne q r with rfl | hne
      · rw [Function.update_self]
        exact Option.some_ne_none _
      · rw [Function.update_of_ne hne]
        exact h.event q hq

/-! ## Steps -/

/-- The event loop starts something. -/
theorem dispatch (h : TimersKept s) (hcode : s.code = none) (a : TimerAction) :
    ∃ s', a.dispatch s = .ok s' ∧ TimersKept s' := by
  have hran (k : ℕ) (hk : .ran k ∈ s.log) (hlive : s.handle k ≠ none) {P : Prop} : P := by
    rcases (h.ran k hk).2 with hgone | ⟨r, hr⟩
    · exact absurd hgone hlive
    · cases hcode.symm.trans hr
  cases a with
  | create n => exact ⟨_, rfl, h.createRoom n⟩
  | arrive r n =>
    rw [TimerAction.dispatch]
    cases hr : s.room r with
    | none => exact ⟨s, rfl, h⟩
    | some rm =>
      exact ⟨_, rfl, h.setRoom hr rfl rfl fun hidle => Finset.insert_ne_empty n _ hidle.2.1⟩
  | depart r n =>
    rw [TimerAction.dispatch]
    split
    · rename_i hbusy
      obtain ⟨rm, hr, -⟩ := hbusy
      exact h.depart hr fun hevent => by cases hcode.symm.trans hevent
    · exact ⟨s, rfl, h⟩
  | expire k =>
    rw [TimerAction.dispatch]
    cases hk : s.handle k with
    | none => exact ⟨s, rfl, h⟩
    | some t => exact ⟨_, rfl, h.expire hcode hk⟩
  | event r =>
    refine ⟨_, rfl, ?_⟩
    split
    · rename_i hr
      refine h.setCode (fun k hk hlive => hran k hk hlive) (fun _ _ => nofun) ?_
      rintro q ⟨⟩
      exact Option.isSome_iff_ne_none.1 hr
    · exact h
  | packet r n =>
    refine ⟨_, rfl, ?_⟩
    split
    · exact h.setCode (fun k hk hlive => hran k hk hlive) (fun _ _ => nofun) fun _ => nofun
    · exact h
  | join | addTimer _ | stopTimer _ | keepAlive | breakOff | leave _ | warpNext _ | finish =>
    exact ⟨s, rfl, h⟩

/-- The room the worker is busy with is there. -/
theorem busy {code : RoomCode} (h : TimersKept s) (hcode : s.code = some code)
    (hbusy : TimerAction.Busy s code) : ∃ rm, s.room code.room = some rm := by
  cases code with
  | timer k r =>
    obtain ⟨i, hk⟩ := h.timer k r hcode
    obtain ⟨rm, hr, -⟩ := h.wired.live k _ hk
    exact ⟨rm, hr⟩
  | event r => exact Option.ne_none_iff_exists'.1 (h.event r hcode)
  | packet r n =>
    obtain ⟨rm, hr, -⟩ := hbusy
    exact ⟨rm, hr⟩

/-- A player is warped out of a room. -/
theorem warp {r n : ℕ} {rm : TimedRoom} (h : TimersKept s) (hr : s.room r = some rm) (now : Bool)  :
    ∃ s', s.warp now r n = .ok s' ∧ ((now = true → s.code = some (.event r) →
      ¬{ rm with sessions := rm.sessions.erase n }.Idle) → TimersKept s') := by
  cases now with
  | true =>
    by_cases hevent : s.code = some (.event r) → ¬{ rm with sessions := rm.sessions.erase n }.Idle
    · obtain ⟨s', hs', hkept⟩ := h.depart hr hevent
      exact ⟨s', hs', fun _ => hkept⟩
    · rw [TimerServer.warp, if_pos rfl, TimerServer.depart, hr]
      exact ⟨_, rfl, fun hevent' => absurd (hevent' rfl) hevent⟩
  | false =>
    rw [TimerServer.warp, if_neg Bool.false_ne_true, hr]
    exact ⟨_, rfl, fun _ => h.setRoom hr rfl rfl (h.alive r rm hr)⟩

/-- The worker goes on with what it is busy with. -/
theorem execute {code : RoomCode} (h : TimersKept s) (hcode : s.code = some code)
    (hbusy : TimerAction.Busy s code) (a : TimerAction) :
    ∃ s', a.execute code s = .ok s' ∧ (TakesCare a s → TimersKept s') := by
  obtain ⟨rm, hr⟩ := h.busy hcode hbusy
  cases a with
  | join =>
    cases code with
    | timer _ _ | event _ => exact ⟨s, rfl, fun _ => h⟩
    | packet r n =>
      rw [TimerAction.execute]
      change s.room r = some rm at hr
      rw [hr]
      exact ⟨_, rfl, fun _ => h.setRoom hr rfl rfl (h.alive r rm hr)⟩
  | addTimer alloc =>
    obtain ⟨s', hs', hkept⟩ := h.addTimer hr alloc
    exact ⟨s', hs', fun _ => hkept⟩
  | stopTimer k =>
    rw [TimerAction.execute]
    split
    · rename_i htimer
      obtain ⟨t, hk, hroom⟩ := htimer
      rw [← hroom] at hr
      have hremove := h.removeTimer_eq hk hr s.code
      refine ⟨_, Exec.bind_eq_ok.2 ⟨t, Exec.deref_eq_ok.2 hk, Exec.bind_eq_ok.2 ⟨_, hremove, rfl⟩⟩,
        fun ha => ?_⟩
      have hkept := h.remove hk hr (.inl rfl) (fun r => ha.1 r) fun hevent => ha.2 t.room hevent rm hr
      refine hkept.record_stopped ?_ ?_
      · rw [TimerServer.settle]
        split <;> exact h.handle_lt hk
      · rw [TimerServer.settle]
        split <;> exact Function.update_self ..
    · exact ⟨s, rfl, fun _ => h⟩
  | keepAlive =>
    rw [TimerAction.execute, hr]
    exact ⟨_, rfl, fun _ => h.setRoom hr rfl rfl fun hidle => Bool.noConfusion hidle.2.2⟩
  | breakOff =>
    rw [TimerAction.execute, hr]
    exact ⟨_, rfl, fun ha => h.resettle hr rfl rfl fun hevent => ha code.room hevent rm hr⟩
  | leave now =>
    cases code with
    | timer _ _ | event _ => exact ⟨s, rfl, fun _ => h⟩
    | packet r n =>
      obtain ⟨s', hs', hkept⟩ := h.warp (n := n) hr now
      exact ⟨s', hs', fun _ => hkept fun _ hevent => by cases hcode.symm.trans hevent⟩
  | warpNext now =>
    cases code with
    | timer _ _ | packet _ _ => exact ⟨s, rfl, fun _ => h⟩
    | event r =>
      change s.room r = some rm at hr
      cases hplayers : rm.players with
      | nil =>
        refine ⟨s, Exec.bind_eq_ok.2 ⟨rm, Exec.deref_eq_ok.2 hr, ?_⟩, fun _ => h⟩
        simp only [hplayers]
        rfl
      | cons n l =>
        obtain ⟨s', hs', hkept⟩ := h.warp (n := n) hr now
        refine ⟨s', Exec.bind_eq_ok.2 ⟨rm, Exec.deref_eq_ok.2 hr, ?_⟩, fun ha => hkept ?_⟩
        · simp only [hplayers]
          exact hs'
        rintro rfl hevent
        have hkeeps : ¬{ rm with sessions := rm.players.head?.elim rm.sessions rm.sessions.erase }.Idle :=
          ha r hevent rm hr
        rw [hplayers] at hkeeps
        exact hkeeps
  | create _ | arrive _ _ | depart _ _ | expire _ | event _ | packet _ _ | finish =>
    exact ⟨s, rfl, fun _ => h⟩

/-- The worker is done with what it has been doing. -/
theorem finish {code : RoomCode} (h : TimersKept s) (hcode : s.code = some code) :
    ∃ s', s.finish code = .ok s' ∧ TimersKept s' := by
  have hidle (hno : ∀ k r, code ≠ .timer k r) : TimersKept { s with code := none } := by
    refine h.setCode (fun k hk hlive => ?_) (fun _ _ => nofun) fun _ => nofun
    rcases (h.ran k hk).2 with hgone | ⟨r, hr⟩
    · exact absurd hgone hlive
    · exact absurd (Option.some.inj (hcode.symm.trans hr)) (hno k r)
  cases code with
  | timer k r =>
    obtain ⟨i, hk⟩ := h.timer k r hcode
    obtain ⟨rm, hr, -⟩ := h.wired.live k _ hk
    refine ⟨_, ?_, h.remove hk hr (.inr ⟨rfl, r, hcode⟩) (fun _ => nofun) nofun⟩
    rw [TimerServer.finish, Exec.deref_eq_ok.2 hk]
    exact h.removeTimer_eq hk hr none
  | event r =>
    obtain ⟨rm, hr⟩ := Option.ne_none_iff_exists'.1 (h.event r hcode)
    rw [TimerServer.finish, hr]
    exact ⟨_, rfl, hidle fun _ _ => nofun⟩
  | packet r n => exact ⟨_, rfl, hidle fun _ _ => nofun⟩

/-- Nothing that has been freed is used, whatever is done. -/
theorem step (h : TimersKept s) (a : TimerAction) :
    ∃ s', a.step s = .ok s' ∧ (TakesCare a s → TimersKept s') := by
  rw [TimerAction.step]
  cases hcode : s.code with
  | none =>
    obtain ⟨s', hs', hkept⟩ := h.dispatch hcode a
    exact ⟨s', hs', fun _ => hkept⟩
  | some code =>
    have hexecute (a : TimerAction) : ∃ s', (if TimerAction.Busy s code then a.execute code s
        else return s) = .ok s' ∧ (TakesCare a s → TimersKept s') := by
      split
      · rename_i hbusy
        exact h.execute hcode hbusy a
      · exact ⟨s, rfl, fun _ => h⟩
    cases a with
    | finish =>
      obtain ⟨s', hs', hkept⟩ := h.finish hcode
      exact ⟨s', hs', fun _ => hkept⟩
    | create _ | arrive _ _ | depart _ _ | expire _ | event _ | packet _ _ | join | addTimer _
    | stopTimer _ | keepAlive | breakOff | leave _ | warpNext _ => exact hexecute _

theorem right (h : TimersKept s) : RoomsRight s :=
  ⟨h.wired, h.once, h.alive, h.destroyed, fun a => (h.step a).imp fun _ hs => hs.1⟩

end TimersKept

/-- A player comes into a room. -/
def coming : List TimerAction := [.create 5, .packet 0 5, .join, .finish]

end Syrup
