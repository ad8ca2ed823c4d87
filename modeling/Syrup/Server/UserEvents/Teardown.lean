import Syrup.Server.UserEvents

/-!
# A session is torn down once

A session is online, with at most a save as its user event; then it is logged out, by a user event too; and
then it is gone (`ChannelSession.Stage`). While it is online and does not wait for an event, either it is
read from, or it is about to go to another room.

That is so as long as no save fails, no session is sent to another room while it has a user event, messages
and rooms can be created, and the output of a session that is to go to another room can be written
(`Undisturbed`).
-/

namespace Syrup

/-! ## What should hold -/

/-- A callback is to come that runs the disconnect handler, or leads to it, or goes on with the logout: the
    end of the input is read; the user event comes; the session arrives; or its output is flushed, and it
    goes to another room. -/
def ChannelSession.Awaited (s : ChannelSession) : Prop :=
  s.reading = true ∨ (∃ e, s.userEvent = some e ∧ e ≠ .never) ∨ s.moving ≠ none ∨
    (s.leaving ≠ none ∧ s.writing = true)

/-- The disconnect handler has been run at most once, the session has been destroyed at most once, and it
    does not remain when it has been shut down. -/
structure ChannelSession.TornDownOnce (s : ChannelSession) : Prop where
  disconnects : s.disconnects ≤ 1
  destroys : s.destroys ≤ 1
  awaited : s.shut = true → s.destroys = 0 → s.Awaited

/-- The requests of the save do not fail, and there is memory for them. -/
def SaveOutcome.Succeeds (o : SaveOutcome) : Prop :=
  o.allocate ≠ .fails ∧ (o.allocate = .done → o.memory = true ∧ o.update ≠ .fails)

/-- A save that has waited succeeds, unless the session is about to go to another room. -/
def UserEvent.Undisturbed (s : ChannelSession) (o : SaveOutcome) : UserEvent → Prop
  | lock _ => o.create = true ∧ (o.Succeeds ∨ (s.leaving ≠ none ∧ s.writing = true))
  | allocate _ => o.Succeeds ∨ (s.leaving ≠ none ∧ s.writing = true)
  | _ => True

/-- A user event is not disturbed; no session goes to another room while it has one; it gets there; and its
    output is written when it is to. -/
def SessionCallback.Undisturbed (s : ChannelSession) : SessionCallback → Prop
  | shutdown cause => cause = .write → s.leaving ≠ none → s.reading = true ∨ s.userEvent ≠ none
  | userEvent o _ => ∀ e ∈ s.userEvent, e.Undisturbed s o
  | changeRoom _ true sent => s.userEvent = none ∧ sent = true
  | changeRoom _ false _ => s.writing = true ∨ s.userEvent ≠ none
  | flushed sent => s.userEvent = none ∧ sent = true
  | arrive created => created = true
  | _ => True

/-- This is so of whatever happens to a session. -/
def Undisturbed : SystemAction → SessionSystem → Prop
  | .session n c, w => ∀ s ∈ w.session n, c.Undisturbed s
  | _, _ => True

/-! ## The stages of a session -/

namespace ChannelSession

variable (s : ChannelSession)

/-- A session that is online: a user event is that of a save, and is not pending with the timer; and one that
    waits for nothing is read from, or is to go to another room. -/
structure Online : Prop where
  disconnects : s.disconnects = 0
  destroys : s.destroys = 0
  disconnecting : s.disconnecting = false
  timer : s.timer ≠ none
  event : ∀ e, s.userEvent = some e →
    e ≠ .never ∧ e ≠ .logout ∧ s.timer = some false ∧ s.reading = false ∧ s.moving = none
  moving : s.moving ≠ none → s.timer = some false ∧ s.reading = false ∧ s.writing = false
  still : s.userEvent = none → s.moving = none → s.reading = true ∨ (s.leaving ≠ none ∧ s.writing = true)

/-- A session that is logged out. -/
structure LoggingOut : Prop where
  disconnects : s.disconnects = 1
  destroys : s.destroys = 0
  disconnecting : s.disconnecting = true
  timer : s.timer = none
  event : s.userEvent = some .logout
  reading : s.reading = false
  moving : s.moving = none

/-- A session that has been destroyed. -/
structure Gone : Prop where
  disconnects : s.disconnects = 1
  destroys : s.destroys = 1
  timer : s.timer = none
  event : s.userEvent = none
  reading : s.reading = false
  writing : s.writing = false
  moving : s.moving = none

/-- A session is in one of these stages. -/
def Stage : Prop := s.Online ∨ s.LoggingOut ∨ s.Gone

end ChannelSession

section Stages

variable {s s' : ChannelSession} {w : SessionSystem} {k : ℕ} {o : SaveOutcome} {l : LogoutStatus}
  {h : Handled}

theorem ChannelSession.Stage.tornDownOnce (hs : s.Stage) : s.TornDownOnce := by
  rcases hs with hs | hs | hs
  · refine ⟨by rw [hs.disconnects]; omega, by rw [hs.destroys]; omega, fun _ _ => ?_⟩
    cases he : s.userEvent with
    | some e => exact .inr (.inl ⟨e, he, (hs.event e he).1⟩)
    | none =>
      by_cases hmoving : s.moving = none
      · rcases hs.still he hmoving with hreading | hleaving
        · exact .inl hreading
        · exact .inr (.inr (.inr hleaving))
      · exact .inr (.inr (.inl hmoving))
  · exact ⟨by rw [hs.disconnects], by rw [hs.destroys]; omega,
      fun _ _ => .inr (.inl ⟨_, hs.event, nofun⟩)⟩
  · exact ⟨by rw [hs.disconnects], by rw [hs.destroys],
      fun _ hdestroys => absurd (hs.destroys.symm.trans hdestroys) one_ne_zero⟩

theorem stage_fresh (conn target : ℕ) : (ChannelSession.fresh conn target).Stage :=
  .inl ⟨rfl, rfl, rfl, nofun, nofun, fun _ => ⟨rfl, rfl, rfl⟩, nofun⟩

/-! ## The periodic save -/

/-- What `start_save` does to a session: nothing, or it kicks it. -/
theorem startSave_cases (h' : s.startSave w k o = .ok h) :
    (h.kicked = false ∧ h.session = s) ∨
    (h.kicked = true ∧ h.session = s.shutdown ∧ (o.memory = true → o.update = .fails)) := by
  rw [ChannelSession.startSave] at h'
  dsimp only at h'
  split at h'
  · split at h'
    · cases h'
      exact .inl ⟨rfl, rfl⟩
    · obtain ⟨w', -, hw'⟩ := Exec.bind_eq_ok.1 h'
      cases hw'
      exact .inl ⟨rfl, rfl⟩
    · obtain ⟨w', -, hw'⟩ := Exec.bind_eq_ok.1 h'
      cases hw'
      exact .inr ⟨rfl, rfl, fun _ => ‹_›⟩
  · obtain ⟨w', -, hw'⟩ := Exec.bind_eq_ok.1 h'
    cases hw'
    exact .inr ⟨rfl, rfl, fun hmemory => absurd hmemory ‹_›⟩

/-- What the request for the ids does to a session: it waits, or its event is closed, and if the save fails
    it is kicked. -/
theorem onResumeIdAllocate_cases (h' : s.onResumeIdAllocate w k o = .ok h) :
    (o.allocate = .waits ∧ h.kicked = false ∧ h.session = s.setEvent (.allocate k)) ∨
    ∃ s', s.closeEvent = .ok s' ∧ ((h.kicked = false ∧ h.session = s') ∨
      (h.kicked = true ∧ h.session = s'.shutdown ∧ ¬o.Succeeds)) := by
  rw [ChannelSession.onResumeIdAllocate] at h'
  split at h'
  · cases h'
    exact .inl ⟨‹_›, rfl, rfl⟩
  · rename_i hfails
    obtain ⟨w', -, h'⟩ := Exec.bind_eq_ok.1 h'
    obtain ⟨s', hs', h'⟩ := Exec.bind_eq_ok.1 h'
    cases h'
    exact .inr ⟨s', hs', .inr ⟨rfl, rfl, fun hsucceeds => hsucceeds.1 hfails⟩⟩
  · rename_i hdone
    obtain ⟨s', hs', h'⟩ := Exec.bind_eq_ok.1 h'
    rcases startSave_cases h' with hreturns | ⟨hkicked, hsession, hfails⟩
    · exact .inr ⟨s', hs', .inl hreturns⟩
    · refine .inr ⟨s', hs', .inr ⟨hkicked, hsession, fun hsucceeds => ?_⟩⟩
      obtain ⟨hmemory, hupdate⟩ := hsucceeds.2 hdone
      exact hupdate (hfails hmemory)

theorem closeEvent_eq_ok : s.closeEvent = .ok s' ↔
    s.userEvent ≠ none ∧ s' = { s with userEvent := none, timer := s.timer.map fun _ => true } := by
  rw [ChannelSession.closeEvent]
  cases s.userEvent with
  | none => exact ⟨nofun, fun h => absurd rfl h.1⟩
  | some e => exact Exec.pure_eq_ok.trans ⟨fun h => ⟨nofun, h.symm⟩, fun h => h.2.symm⟩

theorem closeEvent_spec : Exec.Ensures s.closeEvent fun s' =>
    s' = { s with userEvent := none, timer := s.timer.map fun _ => true } :=
  fun _ hs' => (closeEvent_eq_ok.1 hs').2

namespace ChannelSession

/-- A timer that has been freed. -/
theorem timer_setEvent {e : UserEvent} (htimer : s.timer = none) : (s.setEvent e).timer = none := by
  change (if s.userEvent = none then s.timer.map fun _ => false else s.timer) = none
  rw [htimer]
  exact ite_self _

/-- A save begins to wait. -/
theorem Online.setEvent (hs : s.Online) (hmoving : s.moving = none) {e : UserEvent} (he : e ≠ .never)
    (he' : e ≠ .logout) : (s.setEvent e).Online := by
  obtain ⟨b, hb⟩ := Option.ne_none_iff_exists'.1 hs.timer
  have htimer : (s.setEvent e).timer = some false := by
    change (if s.userEvent = none then s.timer.map fun _ => false else s.timer) = some false
    split
    · rw [hb]
      rfl
    · obtain ⟨e', he'⟩ := Option.ne_none_iff_exists'.1 ‹s.userEvent ≠ none›
      exact (hs.event e' he').2.2.1
  refine ⟨hs.disconnects, hs.destroys, hs.disconnecting, by rw [htimer]; exact nofun, fun e'' he'' => ?_,
    fun hmoving' => absurd hmoving hmoving', nofun⟩
  obtain rfl := Option.some.inj he''
  exact ⟨he, he', htimer, rfl, hmoving⟩

/-- `client->request` is another one. -/
theorem Online.request (hs : s.Online) (request : ℕ) : { s with request := request }.Online :=
  ⟨hs.disconnects, hs.destroys, hs.disconnecting, hs.timer, hs.event, hs.moving, hs.still⟩

theorem Online.shutdown (hs : s.Online) : s.shutdown.Online :=
  ⟨hs.disconnects, hs.destroys, hs.disconnecting, hs.timer, hs.event, hs.moving, hs.still⟩

/-- A session that is online, whose user event has come. -/
structure Resumed (s : ChannelSession) : Prop where
  disconnects : s.disconnects = 0
  destroys : s.destroys = 0
  disconnecting : s.disconnecting = false
  timer : s.timer = some false
  event : s.userEvent ≠ none
  reading : s.reading = false
  moving : s.moving = none

theorem Online.resumed (hs : s.Online) {e : UserEvent} (he : s.userEvent = some e) : s.Resumed := by
  obtain ⟨-, -, htimer, hreading, hmoving⟩ := hs.event e he
  exact ⟨hs.disconnects, hs.destroys, hs.disconnecting, htimer, by rw [he]; exact nofun, hreading, hmoving⟩

theorem Resumed.setEvent (hs : s.Resumed) {e : UserEvent} (he : e ≠ .never) (he' : e ≠ .logout) :
    (s.setEvent e).Online := by
  have htimer : (s.setEvent e).timer = some false := (if_neg hs.event).trans hs.timer
  refine ⟨hs.disconnects, hs.destroys, hs.disconnecting, by rw [htimer]; exact nofun, fun e'' he'' => ?_,
    fun hmoving => absurd hs.moving hmoving, nofun⟩
  obtain rfl := Option.some.inj he''
  exact ⟨he, he', htimer, rfl, hs.moving⟩

/-- The user event is over, and what is to come is `still` there. -/
theorem online_of_still (hdisconnects : s.disconnects = 0) (hdestroys : s.destroys = 0)
    (hdisconnecting : s.disconnecting = false) (htimer : s.timer = some true)
    (hevent : s.userEvent = none) (hmoving : s.moving = none)
    (hstill : s.reading = true ∨ (s.leaving ≠ none ∧ s.writing = true)) : s.Online :=
  ⟨hdisconnects, hdestroys, hdisconnecting, by rw [htimer]; exact nofun,
    fun e he => absurd (hevent.symm.trans he) nofun, fun hmoving' => absurd hmoving hmoving',
    fun _ _ => hstill⟩

/-- After the request for the ids. -/
theorem Resumed.allocate (hs : s.Resumed)
    (hsave : o.Succeeds ∨ (s.leaving ≠ none ∧ s.writing = true))
    (h' : s.onResumeIdAllocate w k o = .ok h) :
    Exec.Ensures (h.session.afterResume l h.kicked) Stage := by
  rcases onResumeIdAllocate_cases h' with ⟨-, hkicked, hsession⟩ | ⟨s', hs', hcases⟩
  · rw [hkicked, hsession]
    exact .pure (.inl (hs.setEvent nofun nofun))
  · obtain ⟨-, rfl⟩ := closeEvent_eq_ok.1 hs'
    have htimer : s.timer.map (fun _ => true) = some true := by rw [hs.timer]; rfl
    rcases hcases with ⟨hkicked, hsession⟩ | ⟨hkicked, hsession, hfails⟩
    · rw [hkicked, hsession, afterResume, if_neg nofun]
      dsimp only
      rw [htimer]
      exact .pure (.inl (online_of_still hs.disconnects hs.destroys hs.disconnecting rfl rfl hs.moving
        (.inl rfl)))
    · rw [hkicked, hsession, afterResume, if_pos rfl]
      dsimp only [shutdown]
      rw [htimer]
      exact .pure (.inl (online_of_still hs.disconnects hs.destroys hs.disconnecting rfl rfl hs.moving
        (.inr (hsave.resolve_left hfails))))

/-! ## The end of a session -/

/-- The disconnect handler is run. -/
theorem kickCommon_spec (hdisconnects : s.disconnects = 0) (hdestroys : s.destroys = 0)
    (htimer : s.timer = none) (hevent : s.userEvent = none) (hmoving : s.moving = none) :
    Exec.Ensures (s.kickCommon l) Stage := by
  rw [kickCommon, hevent]
  cases l with
  | waits =>
    refine .pure (.inr (.inl ⟨congrArg (· + 1) hdisconnects, hdestroys, rfl, ?_, rfl, rfl, hmoving⟩))
    exact timer_setEvent (s := { s with userEvent := none }) (e := .logout) htimer
  | ends =>
    exact .pure (.inr (.inr ⟨congrArg (· + 1) hdisconnects, congrArg (· + 1) hdestroys, htimer, rfl, rfl,
      rfl, hmoving⟩))
  | closes => exact .error

/-- The end of the input is read. -/
theorem Online.onSessionEvent (hs : s.Online) (hreading : s.reading = true) :
    Exec.Ensures (s.onSessionEvent l) Stage := by
  obtain ⟨b, hb⟩ := Option.ne_none_iff_exists'.1 hs.timer
  have hevent : s.userEvent = none := by
    refine Option.eq_none_iff_forall_not_mem.2 fun e he => ?_
    cases hreading.symm.trans (hs.event e he).2.2.2.1
  have hmoving : s.moving = none := by
    by_contra hmoving
    cases hreading.symm.trans (hs.moving hmoving).2.1
  rw [ChannelSession.onSessionEvent, hb]
  exact kickCommon_spec hs.disconnects hs.destroys rfl hevent hmoving

/-- The logout goes on. -/
theorem LoggingOut.resume (hs : s.LoggingOut) :
    Exec.Ensures (s.onClientResumeDisconnect l) fun r => Exec.Ensures (r.2.afterResume l r.1) Stage := by
  cases l with
  | waits =>
    have htimer : (s.setEvent .logout).timer = none := timer_setEvent hs.timer
    exact .pure (.pure (.inr (.inl ⟨hs.disconnects, hs.destroys, hs.disconnecting, htimer, rfl, rfl,
      hs.moving⟩)))
  | ends =>
    refine closeEvent_spec.bind fun s' hs' => ?_
    subst hs'
    refine .pure ?_
    have htimer : s.timer.map (fun _ => true) = none := by rw [hs.timer]; rfl
    rw [afterResume, if_pos rfl]
    dsimp only [shutdown]
    rw [htimer, hs.disconnecting]
    exact .pure (.inr (.inr ⟨hs.disconnects, congrArg (· + 1) hs.destroys, rfl, rfl, rfl, rfl, hs.moving⟩))
  | closes =>
    refine closeEvent_spec.bind fun s' hs' => ?_
    subst hs'
    exact .error

/-! ## Going to another room -/

theorem doTransfer_spec (hs : s.Online) (hevent : s.userEvent = none) (target : ℕ) :
    Exec.Ensures (s.doTransfer target true) Stage := by
  obtain ⟨b, hb⟩ := Option.ne_none_iff_exists'.1 hs.timer
  rw [doTransfer, detach]
  dsimp only
  rw [hevent, hb]
  exact .pure (.inl ⟨hs.disconnects, hs.destroys, hs.disconnecting, nofun, nofun,
    fun _ => ⟨rfl, rfl, rfl⟩, nofun⟩)

theorem newClient_spec (hs : s.Online) (hmoving : s.moving ≠ none) (target : ℕ) :
    Exec.Ensures (s.newClient target true) Stage := by
  obtain ⟨b, hb⟩ := Option.ne_none_iff_exists'.1 hs.timer
  have hevent : s.userEvent = none := by
    refine Option.eq_none_iff_forall_not_mem.2 fun e he => ?_
    exact hmoving (hs.event e he).2.2.2.2
  rw [newClient]
  dsimp only
  rw [if_pos rfl, hevent, hb]
  exact .pure (.inl ⟨hs.disconnects, hs.destroys, hs.disconnecting, nofun, nofun,
    fun h => absurd rfl h, fun _ _ => .inl rfl⟩)

end ChannelSession

/-! ## Whatever happens -/

/-- What the timer does to a session that waits for nothing. -/
theorem onClientTimer_spec (hs : s.Online) (hevent : s.userEvent = none) (hmoving : s.moving = none)
    (alloc : Bool) : Exec.Ensures (s.onClientTimer w o alloc) fun h => h.session.Online := by
  cases alloc with
  | false => exact .pure hs.shutdown
  | true =>
    rw [ChannelSession.onClientTimer, ChannelSession.clientSaveStart, if_pos rfl]
    dsimp only
    cases w.locks.first s.conn with
    | some j => exact .pure (hs.setEvent (e := .lock w.locks.places.next) hmoving nofun nofun)
    | none =>
      dsimp only
      cases hcreate : o.create with
      | true =>
        refine .andThen fun r hr => ?_
        obtain ⟨h, hh, hr⟩ := Exec.bind_eq_ok.1 hr
        cases hr
        rw [ChannelSession.onIdAllocateDatabaseUnlocked, if_pos hcreate] at hh
        rcases onResumeIdAllocate_cases hh with ⟨-, -, hsession⟩ | ⟨s', hs', -⟩
        · refine .pure ?_
          rw [hsession]
          exact (hs.request w.requests.next).setEvent (e := .allocate w.locks.places.next) hmoving nofun nofun
        · exact absurd hevent (closeEvent_eq_ok.1 hs').1
      | false =>
        refine .andThen fun r hr => ?_
        obtain ⟨h, hh, hr⟩ := Exec.bind_eq_ok.1 hr
        cases hr
        rw [ChannelSession.onIdAllocateDatabaseUnlocked, if_neg (by rw [hcreate]; exact nofun)] at hh
        obtain ⟨w', -, hw'⟩ := Exec.bind_eq_ok.1 hh
        cases hw'
        exact .pure hs

open ChannelSession in
/-- What happens to a session, if it is not disturbed. -/
theorem ChannelSession.Stage.handle (hs : s.Stage) (c : SessionCallback) (hc : c.Undisturbed s) :
    Exec.Ensures (c.handle s w) fun r => r.1.Stage := by
  cases c with
  | shutdown cause =>
    rw [SessionCallback.handle]
    split
    · split
      · rename_i hmay hcause
        refine .pure ?_
        rcases hs with hs | hs | hs
        · refine .inl ⟨hs.disconnects, hs.destroys, hs.disconnecting, hs.timer, hs.event, fun hmoving => ?_,
            fun hevent hmoving => ?_⟩
          · exact ⟨(hs.moving hmoving).1, (hs.moving hmoving).2.1, rfl⟩
          · rcases hs.still hevent hmoving with hreading | ⟨hleaving, -⟩
            · exact .inl hreading
            · exact .inl ((hc hcause hleaving).resolve_right fun h => h hevent)
        · exact .inr (.inl ⟨hs.disconnects, hs.destroys, hs.disconnecting, hs.timer, hs.event, hs.reading,
            hs.moving⟩)
        · exact .inr (.inr ⟨hs.disconnects, hs.destroys, hs.timer, hs.event, hs.reading, rfl, hs.moving⟩)
      · refine .pure ?_
        rcases hs with hs | hs | hs
        · exact .inl hs.shutdown
        · exact .inr (.inl ⟨hs.disconnects, hs.destroys, hs.disconnecting, hs.timer, hs.event, hs.reading,
            hs.moving⟩)
        · exact .inr (.inr ⟨hs.disconnects, hs.destroys, hs.timer, hs.event, hs.reading, hs.writing,
            hs.moving⟩)
    · exact .pure hs
  | read l =>
    rw [SessionCallback.handle]
    split
    · rename_i hread
      refine Exec.Ensures.bind (P := Stage) ?_ fun s' hs' => .pure hs'
      rcases hs with hs | hs | hs
      · exact hs.onSessionEvent hread.1
      · cases hs.reading.symm.trans hread.1
      · cases hs.reading.symm.trans hread.1
    · exact .pure hs
  | timer alloc o =>
    rw [SessionCallback.handle]
    split
    · rename_i htimer
      rcases hs with hs | hs | hs
      · have hevent : s.userEvent = none := by
          refine Option.eq_none_iff_forall_not_mem.2 fun e he => ?_
          cases htimer.symm.trans (hs.event e he).2.2.1
        have hmoving : s.moving = none := by
          by_contra hmoving
          cases htimer.symm.trans (hs.moving hmoving).1
        exact (onClientTimer_spec hs hevent hmoving alloc).bind fun h hh => .pure (.inl hh)
      · cases hs.timer.symm.trans htimer
      · cases hs.timer.symm.trans htimer
    · exact .pure hs
  | userEvent o l =>
    rw [SessionCallback.handle]
    split
    · rename_i hmoving
      split
      · rename_i k he
        have hc := hc _ he
        split
        · have hs : s.Online := by
            rcases hs with hs | hs | hs
            · exact hs
            · cases hs.event.symm.trans he
            · cases hs.event.symm.trans he
          have hresumed := hs.resumed he
          refine .andThen fun h hh => ?_
          rw [ChannelSession.onIdAllocateDatabaseUnlocked, if_pos hc.1] at hh
          have hresumed' : ({ s with userEvent := some .never, request := w.requests.next }).Resumed :=
            ⟨hs.disconnects, hs.destroys, hs.disconnecting, hresumed.timer, nofun, hresumed.reading, hmoving⟩
          exact (hresumed'.allocate hc.2 hh).bind fun s' hs' => .pure hs'
        · exact .pure hs
      · rename_i k he
        have hc := hc _ he
        have hs : s.Online := by
          rcases hs with hs | hs | hs
          · exact hs
          · cases hs.event.symm.trans he
          · cases hs.event.symm.trans he
        refine .andThen fun h hh => ?_
        exact ((hs.resumed he).allocate hc hh).bind fun s' hs' => .pure hs'
      · rename_i he
        rcases hs with hs | hs | hs
        · exact absurd rfl (hs.event _ he).2.1
        · exact hs.resume.bind fun r hr => hr.bind fun s' hs' => .pure hs'
        · cases hs.event.symm.trans he
      · exact .pure hs
    · exact .pure hs
  | changeRoom target empty sent =>
    rw [SessionCallback.handle]
    split
    · rename_i hmoving
      rw [sessionChangeRoom]
      cases empty with
      | true =>
        obtain ⟨hevent, rfl⟩ : s.userEvent = none ∧ sent = true := hc
        rw [if_pos rfl]
        refine Exec.Ensures.bind (P := Stage) ?_ fun s' hs' => .pure hs'
        rcases hs with hs | hs | hs
        · exact doTransfer_spec hs hevent target
        · cases hs.event.symm.trans hevent
        · cases hs.destroys.symm.trans hmoving.2
      | false =>
        have hwriting : s.writing = true ∨ s.userEvent ≠ none := hc
        rw [if_neg nofun]
        refine .pure ?_
        rcases hs with hs | hs | hs
        · refine .inl ⟨hs.disconnects, hs.destroys, hs.disconnecting, hs.timer, fun e he => ?_,
            fun h => absurd hmoving.1 h, fun hevent _ => .inr ⟨nofun, ?_⟩⟩
          · obtain ⟨hnever, hlogout, htimer, -, -⟩ := hs.event e he
            exact ⟨hnever, hlogout, htimer, rfl, hmoving.1⟩
          · exact hwriting.resolve_right fun h => h hevent
        · exact .inr (.inl ⟨hs.disconnects, hs.destroys, hs.disconnecting, hs.timer, hs.event, rfl,
            hs.moving⟩)
        · cases hs.destroys.symm.trans hmoving.2
    · exact .pure hs
  | flushed sent =>
    rw [SessionCallback.handle]
    obtain ⟨hevent, rfl⟩ : s.userEvent = none ∧ sent = true := hc
    split
    · rename_i target hleaving hwriting
      refine Exec.Ensures.bind (P := Stage) ?_ fun s' hs' => .pure hs'
      rcases hs with hs | hs | hs
      · exact doTransfer_spec hs hevent target
      · cases hs.event.symm.trans hevent
      · cases hs.writing.symm.trans hwriting
    · exact .pure hs
  | arrive created =>
    rw [SessionCallback.handle]
    obtain rfl : created = true := hc
    split
    · rename_i target htarget
      have hmoving : s.moving ≠ none := by
        rw [htarget]
        exact nofun
      refine Exec.Ensures.bind (P := Stage) ?_ fun s' hs' => .pure hs'
      rcases hs with hs | hs | hs
      · exact newClient_spec hs hmoving target
      · exact absurd hs.moving hmoving
      · exact absurd hs.moving hmoving
    · exact .pure hs

/-! ## Nothing happens to the other sessions -/

theorem unlock_session (j c : ℕ) : Exec.Ensures (w.unlock j c) fun w' => w'.session = w.session := by
  rw [SessionSystem.unlock]
  split
  · exact .error
  · exact .pure rfl

theorem startSave_session :
    Exec.Ensures (s.startSave w k o) fun h => h.system.session = w.session := by
  rw [ChannelSession.startSave]
  dsimp only
  split
  · split
    · exact .pure rfl
    · exact (unlock_session _ _).bind fun w' hw' => .pure hw'
    · exact (unlock_session _ _).bind fun w' hw' => .pure hw'
  · exact (unlock_session _ _).bind fun w' hw' => .pure hw'

theorem onResumeIdAllocate_session :
    Exec.Ensures (s.onResumeIdAllocate w k o) fun h => h.system.session = w.session := by
  rw [ChannelSession.onResumeIdAllocate]
  split
  · exact .pure rfl
  · exact (unlock_session _ _).bind fun w' hw' => .andThen fun s' _ => .pure hw'
  · exact .andThen fun s' _ => startSave_session

theorem onIdAllocateDatabaseUnlocked_session :
    Exec.Ensures (s.onIdAllocateDatabaseUnlocked w k o) fun h => h.system.session = w.session := by
  rw [ChannelSession.onIdAllocateDatabaseUnlocked]
  split
  · exact onResumeIdAllocate_session
  · exact (unlock_session _ _).bind fun w' hw' => .pure hw'

theorem onClientTimer_session (alloc : Bool) :
    Exec.Ensures (s.onClientTimer w o alloc) fun h => h.system.session = w.session := by
  cases alloc with
  | false => exact .pure rfl
  | true =>
    rw [ChannelSession.onClientTimer, ChannelSession.clientSaveStart, if_pos rfl]
    dsimp only
    cases w.locks.first s.conn with
    | some j => exact .pure rfl
    | none =>
      refine .andThen fun r hr => ?_
      obtain ⟨h, hh, hr⟩ := Exec.bind_eq_ok.1 hr
      cases hr
      have hsession := onIdAllocateDatabaseUnlocked_session h hh
      exact .pure hsession

theorem handle_session (c : SessionCallback) :
    Exec.Ensures (c.handle s w) fun r => r.2.session = w.session := by
  have hsame {x : Exec ChannelSession} :
      Exec.Ensures (do return (← x, w)) fun r => r.2.session = w.session := .andThen fun _ _ => .pure rfl
  cases c with
  | shutdown cause =>
    rw [SessionCallback.handle]
    split
    · split <;> exact .pure rfl
    · exact .pure rfl
  | read l | changeRoom target empty sent | flushed sent | arrive created =>
    rw [SessionCallback.handle]
    split
    · exact hsame
    · exact .pure rfl
  | timer alloc o =>
    rw [SessionCallback.handle]
    split
    · exact (onClientTimer_session alloc).bind fun h hh => .pure hh
    · exact .pure rfl
  | userEvent o l =>
    rw [SessionCallback.handle]
    split
    · split
      · split
        · exact onIdAllocateDatabaseUnlocked_session.bind fun h hh => .andThen fun _ _ => .pure hh
        · exact .pure rfl
      · exact onResumeIdAllocate_session.bind fun h hh => .andThen fun _ _ => .pure hh
      · exact .andThen fun _ _ => hsame
      · exact .pure rfl
    · exact .pure rfl

theorem onResumeDatabaseOperation_session (status : ExecuteStatus) :
    Exec.Ensures (onResumeDatabaseOperation w k status) fun w' => w'.session = w.session := by
  rw [onResumeDatabaseOperation]
  split
  · dsimp only
    split
    · exact .pure rfl
    · exact (unlock_session _ _).bind fun w' hw' => .pure hw'
  · exact .pure rfl

/-- Whatever happens, every session is in one of its stages. -/
theorem stage_step {a : SystemAction} (hw : ∀ n s, w.session n = some s → s.Stage)
    (ha : Undisturbed a w) :
    Exec.Ensures (a.step w) fun w' => ∀ n s, w'.session n = some s → s.Stage := by
  have hput {w' : SessionSystem} {n : ℕ} {s : ChannelSession} (hw' : w'.session = w.session)
      (hs : s.Stage) : ∀ m s', (w'.put n s).session m = some s' → s'.Stage := by
    intro m s' hs'
    change Function.update w'.session n (some s) m = some s' at hs'
    rcases eq_or_ne m n with rfl | hne
    · rw [Function.update_self] at hs'
      cases hs'
      exact hs
    · rw [Function.update_of_ne hne, hw'] at hs'
      exact hw m s' hs'
  have hsame {w' : SessionSystem} (hw' : w'.session = w.session) :
      ∀ n s, w'.session n = some s → s.Stage := by
    rw [hw']
    exact hw
  cases a with
  | connect n conn target =>
    rw [SystemAction.step]
    split
    · exact .pure (hput rfl (stage_fresh conn target))
    · exact .pure hw
  | session n c =>
    rw [SystemAction.step]
    split
    · exact .pure hw
    · rename_i s hs
      refine (((hw n s hs).handle c (ha s hs)).and (handle_session c)).bind fun r hr => ?_
      exact .pure (hput hr.2 hr.1)
  | update k status => exact (onResumeDatabaseOperation_session status).mono fun w' hw' => hsame hw'
  | otherLock conn => exact .pure hw
  | otherUnlock k =>
    rw [SystemAction.step]
    split
    · split
      · exact (unlock_session _ _).bind fun w' hw' => .pure (hsame hw')
      · exact .pure hw
    · exact .pure hw

end Stages

/-- In whatever order sessions are shut down, wait and go on, each one is torn down once, as long as they are
    not disturbed. -/
theorem tornDownOnce_run {w : SessionSystem}
    (hrun : Machine.Run SystemAction.step Undisturbed .start w) :
    ∀ n s, w.session n = some s → s.TornDownOnce := by
  have hstage : ∀ n s, w.session n = some s → s.Stage :=
    hrun.invariant nofun fun a w w' hw ha hstep => stage_step hw ha w' hstep
  exact fun n s hs => (hstage n s hs).tornDownOnce

instance (o : SaveOutcome) : Decidable o.Succeeds := inferInstanceAs (Decidable (_ ∧ _))

instance (s : ChannelSession) (o : SaveOutcome) (e : UserEvent) : Decidable (e.Undisturbed s o) :=
  match e with
  | .lock _ => inferInstanceAs (Decidable (_ ∧ _))
  | .allocate _ => inferInstanceAs (Decidable (_ ∨ _))
  | .logout | .never => inferInstanceAs (Decidable True)

instance (s : ChannelSession) (c : SessionCallback) : Decidable (c.Undisturbed s) :=
  match c with
  | .shutdown _ => inferInstanceAs (Decidable (_ → _))
  | .userEvent o _ => inferInstanceAs (Decidable (∀ e ∈ s.userEvent, e.Undisturbed s o))
  | .changeRoom _ true _ => inferInstanceAs (Decidable (_ ∧ _))
  | .changeRoom _ false _ => inferInstanceAs (Decidable (_ ∨ _))
  | .flushed _ => inferInstanceAs (Decidable (_ ∧ _))
  | .arrive _ => inferInstanceAs (Decidable (_ = _))
  | .read _ | .timer _ _ => inferInstanceAs (Decidable True)

instance (a : SystemAction) (w : SessionSystem) : Decidable (Undisturbed a w) :=
  match a with
  | .session n c => inferInstanceAs (Decidable (∀ s ∈ w.session n, c.Undisturbed s))
  | .connect _ _ _ | .update _ _ | .otherLock _ | .otherUnlock _ => inferInstanceAs (Decidable True)

/-- A save for which the ids are waited for, and then the update. -/
def waitsTwice (allocate : ExecuteStatus) : SaveOutcome := ⟨true, allocate, true, .waits⟩

/-- A client plays, its character is saved, it disconnects, and its session is destroyed when it has been
    logged out. -/
theorem tornDownOnce_run_save : ∃ (w : SessionSystem) (s : ChannelSession), w.session 0 = some s ∧
    s.TornDownOnce ∧ s.disconnects = 1 ∧ s.destroys = 1 := by
  have hrun : ∃ w : SessionSystem, [SystemAction.connect 0 0 1, .session 0 (.arrive true),
      .session 0 (.timer true (waitsTwice .waits)), .session 0 (.shutdown .peer),
      .session 0 (.userEvent (waitsTwice .done) .waits), .session 0 (.read .waits), .update 0 .done,
      .session 0 (.userEvent (waitsTwice .done) .ends)].foldlM
        (Machine.checked SystemAction.step Undisturbed Fault.assertion) .start = .ok w ∧
      ∃ s ∈ w.session 0, s.disconnects = 1 ∧ s.destroys = 1 := by
    rw [← Exec.returns_iff]
    decide +kernel
  obtain ⟨w, hw, s, hs, hgone⟩ := hrun
  exact ⟨w, s, hs, tornDownOnce_run (.of_checked hw) 0 s hs, hgone⟩

/-- After these actions a session remains that will not be torn down. -/
def Remains (as : List SystemAction) : Prop :=
  ∃ (w : SessionSystem) (s : ChannelSession), as.foldlM (fun w a => SystemAction.step a w) .start = .ok w ∧
    Machine.Run SystemAction.step (fun _ _ => True) .start w ∧ w.session 0 = some s ∧ ¬s.TornDownOnce

/-- It is shut down and waits for nothing. -/
theorem remains {as : List SystemAction}
    (h : ∃ w : SessionSystem, as.foldlM (fun w a => SystemAction.step a w) .start = .ok w ∧
      ∃ s ∈ w.session 0, s.shut = true ∧ s.destroys = 0 ∧ s.reading = false ∧ s.userEvent = none ∧
        s.moving = none ∧ (s.leaving = none ∨ s.writing = false)) : Remains as := by
  obtain ⟨w, hw, s, hs, hshut, hdestroys, hreading, hevent, hmoving, hleaving⟩ := h
  refine ⟨w, s, hw, .of_foldlM (fun _ _ _ => trivial) hw, hs, fun h => ?_⟩
  rcases h.awaited hshut hdestroys with hread | ⟨e, he, -⟩ | hmove | ⟨hleave, hwriting⟩
  · cases hread.symm.trans hreading
  · cases he.symm.trans hevent
  · exact hmove hmoving
  · rcases hleaving with hleaving | hleaving
    · exact hleave hleaving
    · cases hwriting.symm.trans hleaving

/-- A session arrives in another room while it waits for a save, so that its input is read although it has a
    user event; a save fails, and `EV_READ` is not enabled again; and the output of a session that is to
    go to another room cannot be written. -/
theorem tornDownOnce_fails :
    Remains [.connect 0 0 1, .session 0 (.arrive true), .session 0 (.changeRoom 1 false true),
      .session 0 (.timer true (waitsTwice .waits)), .session 0 (.flushed true),
      .session 0 (.arrive true), .session 0 (.shutdown .peer), .session 0 (.read .waits),
      .session 0 (.userEvent (waitsTwice .done) .waits)] ∧
    Remains [.connect 0 0 1, .session 0 (.arrive true), .session 0 (.timer true (waitsTwice .waits)),
      .session 0 (.userEvent (waitsTwice .fails) .waits)] ∧
    Remains [.connect 0 0 1, .session 0 (.arrive true), .session 0 (.changeRoom 1 false true),
      .session 0 (.shutdown .peer), .session 0 (.shutdown .write)] := by
  refine ⟨remains ?_, remains ?_, remains ?_⟩
  all_goals
    rw [← Exec.returns_iff]
    decide +kernel

end Syrup
