import Syrup.Server.UserEvents

/-!
# Saves release the locks that they take

Every place in the queue for a lock is that of a session that waits for a save, of a save that updates its
character, or of somebody else; and so is every request (`SessionSystem.Sound`). While something happens to
one of them, all this is said of the other ones (`AroundUse`), and what that one has is said apart.

That is so as long as a save that has the lock at once does wait for the ids, and no session arrives in another
worker while it waits for a save (`OnOneConnection`).
-/

namespace Syrup

/-! ## What should hold -/

/-- The place of a save whose event this is. -/
def UserEvent.place : UserEvent → Option ℕ
  | lock k => some k
  | allocate k => some k
  | _ => none

/-- The place of the save that a session waits for. -/
def ChannelSession.place (s : ChannelSession) : Option ℕ := s.userEvent.bind UserEvent.place

/-- The request that a session waits for. -/
def ChannelSession.held (s : ChannelSession) : Option ℕ :=
  match s.userEvent with
  | some (.allocate _) => some s.request
  | _ => none

namespace BackgroundUse

/-- The connection whose lock is held, or waited for. -/
def conn : BackgroundUse → ℕ
  | update conn _ => conn
  | other conn => conn

/-- The request. -/
def held : BackgroundUse → Option ℕ
  | update _ request => some request
  | other _ => none

end BackgroundUse

/-- A save that has the lock at once waits for the ids. While a session waits for a save, it is not lost on its
    way to another room, and does not arrive in another worker. -/
def SessionCallback.OnOneConnection (s : ChannelSession) (w : SessionSystem) : SessionCallback → Prop
  | timer _ o => w.locks.first s.conn = none → o.create = true → o.allocate = .waits
  | changeRoom _ true sent => s.place ≠ none → sent = true
  | flushed sent => s.place ≠ none → sent = true
  | arrive created => s.place ≠ none → created = true ∧ s.moving = some s.conn
  | _ => True

/-- This is so of whatever happens to a session. -/
def OnOneConnection : SystemAction → SessionSystem → Prop
  | .session n c, w => ∀ s ∈ w.session n, c.OnOneConnection s w
  | _, _ => True

namespace SessionSystem

variable (w : SessionSystem)

/-- Every place that has been taken has been given up once, by whom it belonged to, or is in a queue, and
    belongs to somebody who still waits for the lock, or holds it; whoever has the lock is told so; a request
    is executed by whom has the lock of its connection; and every request has been destroyed once, or belongs
    to somebody who still waits for it. -/
structure SavesRelease : Prop where
  places : w.locks.places.Kept
  given : w.locks.places.gone = w.unlocks.map Prod.snd
  unlocks : ∀ p ∈ w.unlocks, p.1 = p.2
  queued : ∀ c k, k ∈ w.locks.queue c →
    (∃ n s, w.session n = some s ∧ s.place = some k ∧ s.conn = c) ∨
    ∃ b, w.background k = some b ∧ b.conn = c
  woken : ∀ n s k, w.session n = some s → s.userEvent = some (.lock k) →
    w.locks.first s.conn = some k → k ∈ w.locks.woken
  executes : ∀ p ∈ w.executes, p.2 = some p.1
  requests : w.requests.Kept ∧ ∀ r ∈ w.requests.live,
    (∃ n s, w.session n = some s ∧ s.held = some r) ∨ ∃ k b, w.background k = some b ∧ b.held = some r

/-- The handlers of a save do not fault, if they start in a condition `ok`: `session_close_event` is called
    while there is a user event, and `database_connection_unlock` while the queue is not empty. -/
structure SavesReturn (ok : SystemAction → SessionSystem → Prop) : Prop where
  timer : ∀ n s alloc o, w.session n = some s → s.timer = some true →
    ok (.session n (.timer alloc o)) w → ∃ r, s.clientSaveStart w o alloc = .ok r
  lock : ∀ n s k o, w.session n = some s → s.userEvent = some (.lock k) → k ∈ w.locks.woken →
    ∃ h, { s with userEvent := some .never }.onIdAllocateDatabaseUnlocked w k o = .ok h
  allocate : ∀ n s k o, w.session n = some s → s.userEvent = some (.allocate k) →
    ∃ h, s.onResumeIdAllocate w k o = .ok h
  update : ∀ k status, ∃ w', onResumeDatabaseOperation w k status = .ok w'

end SessionSystem

/-! ## What is kept -/

/-- The lock that a session waits for, or holds, is that of its connection, for which its request is; and while
    it has a user event, the timer is not pending. -/
structure ChannelSession.Fits (s : ChannelSession) (locks : LockQueues) (connOf : ℕ → ℕ) : Prop where
  place : match s.userEvent with
    | some (.lock k) => locks.Waits s.conn k
    | some (.allocate k) => locks.Holds s.conn k ∧ connOf s.request = s.conn
    | _ => True
  timer : s.userEvent ≠ none → s.timer ≠ some true

/-- A save that updates its character holds the lock of the connection for which its request is. -/
def BackgroundUse.Fits (k : ℕ) (locks : LockQueues) (connOf : ℕ → ℕ) : BackgroundUse → Prop
  | update conn request => locks.Holds conn k ∧ connOf request = conn
  | other conn => k ∈ locks.queue conn

namespace SessionSystem

variable (w : SessionSystem)

/-- What the sessions have, and those in the background. -/
def own (f : ChannelSession → Option ℕ) (g : ℕ → BackgroundUse → Option ℕ) : ℕ ⊕ ℕ → Option ℕ
  | .inl n => (w.session n).bind f
  | .inr k => (w.background k).bind (g k)

/-- Who has which place. -/
def placeOf : ℕ ⊕ ℕ → Option ℕ := w.own ChannelSession.place fun k _ => some k

/-- Who has which request. -/
def heldOf : ℕ ⊕ ℕ → Option ℕ := w.own ChannelSession.held fun _ b => b.held

/-- Somebody in the background is written back. -/
def putBackground (k : ℕ) (o : Option BackgroundUse) : SessionSystem :=
  { w with background := Function.update w.background k o }

/-- What is kept of the locks and the requests. -/
structure Books : Prop where
  locks : w.locks.Ok
  requests : w.requests.Kept
  given : w.locks.places.gone = w.unlocks.map Prod.snd
  unlocks : ∀ p ∈ w.unlocks, p.1 = p.2
  executes : ∀ p ∈ w.executes, p.2 = some p.1

/-- All that is kept. -/
structure Sound : Prop extends w.Books where
  places : Owned w.placeOf w.locks.places.live
  owned : Owned w.heldOf w.requests.live
  session : ∀ n s, w.session n = some s → s.Fits w.locks w.connOf
  background : ∀ k b, w.background k = some b → b.Fits k w.locks w.connOf

end SessionSystem

/-- All that is kept of the others, when one has this place and this request. -/
structure AroundUse (w : SessionSystem) (x : ℕ ⊕ ℕ) (place request : Option ℕ) : Prop
    extends w.Books where
  places : Owned (Function.update w.placeOf x place) w.locks.places.live
  owned : Owned (Function.update w.heldOf x request) w.requests.live
  session : ∀ n s, .inl n ≠ x → w.session n = some s → s.Fits w.locks w.connOf
  background : ∀ k b, .inr k ≠ x → w.background k = some b → b.Fits k w.locks w.connOf

section Around

variable {w w' : SessionSystem} {x : ℕ ⊕ ℕ} {n k : ℕ} {s : ChannelSession} {place request : Option ℕ}
  {b : BackgroundUse}

theorem placeOf_session (hs : w.session n = some s) : w.placeOf (.inl n) = s.place :=
  congrArg (Option.bind · ChannelSession.place) hs

theorem heldOf_session (hs : w.session n = some s) : w.heldOf (.inl n) = s.held :=
  congrArg (Option.bind · ChannelSession.held) hs

theorem placeOf_background (hb : w.background k = some b) : w.placeOf (.inr k) = some k :=
  congrArg (Option.bind · fun _ => some k) hb

theorem heldOf_background (hb : w.background k = some b) : w.heldOf (.inr k) = b.held :=
  congrArg (Option.bind · BackgroundUse.held) hb

theorem SessionSystem.Sound.around_session (h : w.Sound) (hs : w.session n = some s) :
    AroundUse w (.inl n) s.place s.held := by
  refine ⟨h.toBooks, ?_, ?_, fun m s' _ => h.session m s', fun j b _ => h.background j b⟩
  · rw [← placeOf_session hs, Function.update_eq_self]
    exact h.places
  · rw [← heldOf_session hs, Function.update_eq_self]
    exact h.owned

theorem SessionSystem.Sound.around_background (h : w.Sound) (k : ℕ) :
    AroundUse w (.inr k) ((w.background k).bind fun _ => some k)
      ((w.background k).bind BackgroundUse.held) := by
  refine ⟨h.toBooks, ?_, ?_, fun m s' _ => h.session m s', fun j b _ => h.background j b⟩
  · exact (Function.update_eq_self (Sum.inr k) w.placeOf).symm ▸ h.places
  · exact (Function.update_eq_self (Sum.inr k) w.heldOf).symm ▸ h.owned

theorem own_put (f : ChannelSession → Option ℕ) (g : ℕ → BackgroundUse → Option ℕ) :
    (w.put n s).own f g = Function.update (w.own f g) (.inl n) (f s) := by
  funext x
  cases x with
  | inl m =>
    change (Function.update w.session n (some s) m).bind f = _
    rcases eq_or_ne m n with rfl | hne
    · rw [Function.update_self, Function.update_self]
      rfl
    · rw [Function.update_of_ne hne, Function.update_of_ne fun heq => hne (Sum.inl.inj heq)]
      rfl
  | inr k => rfl

theorem own_putBackground (f : ChannelSession → Option ℕ) (g : ℕ → BackgroundUse → Option ℕ)
    (o : Option BackgroundUse) :
    (w.putBackground k o).own f g = Function.update (w.own f g) (.inr k) (o.bind (g k)) := by
  funext x
  cases x with
  | inl m => rfl
  | inr j =>
    change (Function.update w.background k o j).bind (g j) = _
    rcases eq_or_ne j k with rfl | hne
    · rw [Function.update_self, Function.update_self]
    · rw [Function.update_of_ne hne, Function.update_of_ne fun heq => hne (Sum.inr.inj heq)]
      rfl

/-- What has happened to a session is written back. -/
theorem AroundUse.put (h : AroundUse w (.inl n) s.place s.held) (hfits : s.Fits w.locks w.connOf) :
    (w.put n s).Sound := by
  refine ⟨⟨h.locks, h.requests, h.given, h.unlocks, h.executes⟩, ?_, ?_, fun m s' hs' => ?_,
    fun j b => h.background j b nofun⟩
  · rw [SessionSystem.placeOf, own_put]
    exact h.places
  · rw [SessionSystem.heldOf, own_put]
    exact h.owned
  · change Function.update w.session n (some s) m = some s' at hs'
    rcases eq_or_ne m n with rfl | hne
    · rw [Function.update_self] at hs'
      obtain rfl := Option.some.inj hs'
      exact hfits
    · rw [Function.update_of_ne hne] at hs'
      exact h.session m s' (fun heq => hne (Sum.inl.inj heq)) hs'

/-- What has happened in the background is written back. -/
theorem AroundUse.putBackground {o : Option BackgroundUse}
    (h : AroundUse w (.inr k) (o.bind fun _ => some k) (o.bind BackgroundUse.held))
    (hfits : ∀ b, o = some b → b.Fits k w.locks w.connOf) : (w.putBackground k o).Sound := by
  refine ⟨⟨h.locks, h.requests, h.given, h.unlocks, h.executes⟩, ?_, ?_, fun m s => h.session m s nofun,
    fun j b hb => ?_⟩
  · rw [SessionSystem.placeOf, own_putBackground]
    exact h.places
  · rw [SessionSystem.heldOf, own_putBackground]
    exact h.owned
  · change Function.update w.background k o j = some b at hb
    rcases eq_or_ne j k with rfl | hne
    · rw [Function.update_self] at hb
      exact hfits b hb
    · rw [Function.update_of_ne hne] at hb
      exact h.background j b (fun heq => hne (Sum.inr.inj heq)) hb

/-! ### The locks -/

/-- A place is taken. -/
theorem AroundUse.lock (h : AroundUse w x none request) (c : ℕ) :
    AroundUse { w with locks := w.locks.lock c } x (some w.locks.places.next) request := by
  refine ⟨⟨h.locks.lock, h.requests, h.given, h.unlocks, fun p hp => h.executes p hp⟩, ?_, h.owned,
    fun m s hne hs => ?_, fun j b hne hb => ?_⟩
  · have := h.places.take (Function.update_self ..) h.locks.kept.next_not_mem
    rwa [Function.update_idem] at this
  · obtain ⟨hplace, htimer⟩ := h.session m s hne hs
    refine ⟨?_, htimer⟩
    split at hplace
    · exact hplace.lock
    · exact ⟨hplace.1.lock, hplace.2⟩
    · trivial
  · have hfits := h.background j b hne hb
    cases b with
    | update conn r => exact ⟨hfits.1.lock, hfits.2⟩
    | other conn => exact LockQueues.mem_lock.2 (.inl hfits)

/-- Whoever has a place has another one than `x`. -/
theorem AroundUse.place_ne (h : AroundUse w x (some k) request) {y : ℕ ⊕ ℕ} {j : ℕ} (hne : y ≠ x)
    (hy : w.placeOf y = some j) : j ≠ k := by
  rintro rfl
  have hx : Function.update w.placeOf x (some j) x = some j := Function.update_self ..
  have hy' : Function.update w.placeOf x (some j) y = some j := by rwa [Function.update_of_ne hne]
  exact hne (h.places.ext y x j hy' hx)

/-- Whoever holds the lock gives it back. -/
theorem AroundUse.unlock (h : AroundUse w x (some k) request) {c : ℕ} (hk : w.locks.Holds c k) :
    ∃ w', w.unlock k c = .ok w' ∧ AroundUse w' x none request := by
  obtain ⟨locks, hlocks⟩ := hk.exists_unlock
  rw [SessionSystem.unlock, hlocks]
  have hlive := h.locks.mem_live hk.mem
  have hplaces := LockQueues.unlock_places hlocks
  refine ⟨_, rfl, ⟨⟨h.locks.unlock hlocks, h.requests, ?_, ?_, h.executes⟩, ?_, h.owned,
    fun m s hne hs => ?_, fun j b hne hb => ?_⟩⟩
  · change locks.places.gone = k :: w.unlocks.map Prod.snd
    rw [hplaces, ← h.given]
    rfl
  · intro p hp
    rcases List.mem_cons.1 hp with rfl | hp
    · rfl
    · exact h.unlocks p hp
  · change Owned _ locks.places.live
    rw [hplaces]
    have := h.places.give h.locks.kept.nodup (Function.update_self ..)
    rwa [Function.update_idem] at this
  · obtain ⟨hplace, htimer⟩ := h.session m s hne hs
    have hother (j : ℕ) (hj : s.place = some j) : j ≠ k :=
      h.place_ne hne ((placeOf_session (w := w) hs).trans hj)
    refine ⟨?_, htimer⟩
    split at hplace
    · exact hplace.unlock h.locks (hother _ (by rw [ChannelSession.place, ‹s.userEvent = _›]; rfl)) hlocks
    · exact ⟨hplace.1.unlock (hother _ (by rw [ChannelSession.place, ‹s.userEvent = _›]; rfl)) hlocks,
        hplace.2⟩
    · trivial
  · have hfits := h.background j b hne hb
    have hother : j ≠ k := h.place_ne hne (placeOf_background (w := w) hb)
    cases b with
    | update conn r => exact ⟨hfits.1.unlock hother hlocks, hfits.2⟩
    | other conn => exact (h.locks.mem_unlock hlocks).2 ⟨hfits, hother⟩

/-! ### The requests -/

/-- A request is created. -/
theorem AroundUse.create (h : AroundUse w x place none) (c : ℕ) :
    AroundUse (w.create c) x place (some w.requests.next) := by
  have hconn {r : ℕ} (hr : r ∈ w.requests.live) : (w.create c).connOf r = w.connOf r :=
    Function.update_of_ne (h.requests.lt hr).ne _ _
  have hlive {y : ℕ ⊕ ℕ} {r : ℕ} (hne : y ≠ x) (hy : w.heldOf y = some r) : r ∈ w.requests.live :=
    (h.owned.mem r).2 ⟨y, by rwa [Function.update_of_ne hne]⟩
  refine ⟨⟨h.locks, h.requests.alloc, h.given, h.unlocks, h.executes⟩, h.places, ?_, fun m s hne hs => ?_,
    fun j b hne hb => ?_⟩
  · have := h.owned.take (Function.update_self ..) h.requests.next_not_mem
    rwa [Function.update_idem] at this
  · obtain ⟨hplace, htimer⟩ := h.session m s hne hs
    refine ⟨?_, htimer⟩
    split at hplace
    · exact hplace
    · refine ⟨hplace.1, (hconn (hlive hne ((heldOf_session (w := w) hs).trans ?_))).trans hplace.2⟩
      rw [ChannelSession.held, ‹s.userEvent = _›]
    · trivial
  · have hfits := h.background j b hne hb
    cases b with
    | update conn r =>
      exact ⟨hfits.1, (hconn (hlive hne (heldOf_background (w := w) hb))).trans hfits.2⟩
    | other conn => exact hfits

/-- A request is executed. -/
theorem AroundUse.execute (h : AroundUse w x place request) {r : ℕ} (hk : w.locks.Holds (w.connOf r) k) :
    AroundUse (w.execute k r) x place request := by
  refine ⟨⟨h.locks, h.requests, h.given, h.unlocks, fun p hp => ?_⟩, h.places, h.owned, h.session,
    h.background⟩
  rcases List.mem_cons.1 hp with rfl | hp
  · exact hk
  · exact h.executes p hp

/-- A request is destroyed. -/
theorem AroundUse.destroy {r : ℕ} (h : AroundUse w x place (some r)) :
    AroundUse (w.destroy r) x place none := by
  have hx : Function.update w.heldOf x (some r) x = some r := Function.update_self ..
  refine ⟨⟨h.locks, h.requests.release ((h.owned.mem r).2 ⟨x, hx⟩), h.given, h.unlocks, h.executes⟩,
    h.places, ?_, h.session, h.background⟩
  have := h.owned.give h.requests.nodup hx
  rwa [Function.update_idem] at this

/-- A session hands its place and its request over to the background. -/
theorem AroundUse.handOver {r c : ℕ} (h : AroundUse w (.inl n) (some k) (some r))
    (hk : w.locks.Holds c k) (hr : w.connOf r = c) :
    AroundUse (w.putBackground k (some (.update c r))) (.inl n) none none := by
  have hnone : w.background k = none := by
    refine Option.eq_none_iff_forall_not_mem.2 fun b hb => ?_
    exact h.place_ne (y := .inr k) nofun (placeOf_background hb) rfl
  have hne : (Sum.inr k : ℕ ⊕ ℕ) ≠ .inl n := nofun
  have hplace : Function.update w.placeOf (.inl n) (some k) (.inr k) = none := by
    rw [Function.update_of_ne hne]
    exact congrArg (Option.bind · fun _ => some k) hnone
  have hheld : Function.update w.heldOf (.inl n) (some r) (.inr k) = none := by
    rw [Function.update_of_ne hne]
    exact congrArg (Option.bind · BackgroundUse.held) hnone
  refine ⟨⟨h.locks, h.requests, h.given, h.unlocks, h.executes⟩, ?_, ?_, h.session, fun j b _ hb => ?_⟩
  · rw [SessionSystem.placeOf, own_putBackground]
    have := h.places.move h.locks.kept.nodup (Function.update_self ..) hplace
    rwa [Function.update_comm hne, Function.update_idem, Function.update_comm hne.symm] at this
  · rw [SessionSystem.heldOf, own_putBackground]
    have := h.owned.move h.requests.nodup (Function.update_self ..) hheld
    rwa [Function.update_comm hne, Function.update_idem, Function.update_comm hne.symm] at this
  · change Function.update w.background k (some (.update c r)) j = some b at hb
    rcases eq_or_ne j k with rfl | hjk
    · rw [Function.update_self] at hb
      obtain rfl := Option.some.inj hb
      exact ⟨hk, hr⟩
    · rw [Function.update_of_ne hjk] at hb
      exact h.background j b nofun hb

end Around

/-! ## The periodic save -/

/-- All is kept, the session is as it says, and the rest is as it is kept of the others. -/
def KeepsUse (n : ℕ) (s : ChannelSession) (w : SessionSystem) : Prop :=
  AroundUse w (.inl n) s.place s.held ∧ s.Fits w.locks w.connOf

section Save

variable {s s' : ChannelSession} {w : SessionSystem} {n k : ℕ} {o : SaveOutcome} {l : LogoutStatus}

theorem held_of_place (hplace : s.place = none) : s.held = none := by
  rw [ChannelSession.held]
  split
  · rw [ChannelSession.place, ‹s.userEvent = _›] at hplace
    cases hplace
  · rfl

/-- A session that does not wait for a save. -/
theorem keeps_of_place (h : AroundUse w (.inl n) none none) (hplace : s.place = none)
    (htimer : s.userEvent ≠ none → s.timer ≠ some true) : KeepsUse n s w := by
  refine ⟨?_, ?_, htimer⟩
  · rwa [held_of_place hplace, hplace]
  · split
    · rw [ChannelSession.place, ‹s.userEvent = _›] at hplace
      cases hplace
    · rw [ChannelSession.place, ‹s.userEvent = _›] at hplace
      cases hplace
    · trivial

/-- A session without a user event. -/
theorem keeps_of_none (h : AroundUse w (.inl n) none none) (hevent : s.userEvent = none) :
    KeepsUse n s w :=
  keeps_of_place h (by rw [ChannelSession.place, hevent]; rfl) fun h => absurd hevent h

theorem startSave_spec (h : AroundUse w (.inl n) (some k) (some s.request)) (hk : w.locks.Holds s.conn k)
    (hevent : s.userEvent = none) :
    ∃ r, s.startSave w k o = .ok r ∧ KeepsUse n r.session r.system := by
  have hdestroyed := h.destroy
  rw [ChannelSession.startSave]
  dsimp only
  split
  · have hcreated := hdestroyed.create s.conn
    have hconn : ((w.destroy s.request).create s.conn).connOf (w.destroy s.request).requests.next =
        s.conn := Function.update_self ..
    have hexecuted := hcreated.execute (k := k) (r := (w.destroy s.request).requests.next)
      (by rw [hconn]; exact hk)
    cases o.update with
    | waits => exact ⟨_, rfl, keeps_of_none (hexecuted.handOver hk hconn) hevent⟩
    | done =>
      obtain ⟨w', hw', hunlocked⟩ := hexecuted.destroy.unlock hk
      dsimp only
      rw [hw']
      exact ⟨_, rfl, keeps_of_none hunlocked hevent⟩
    | fails =>
      obtain ⟨w', hw', hunlocked⟩ := hexecuted.destroy.unlock hk
      dsimp only
      rw [hw']
      exact ⟨_, rfl, keeps_of_none hunlocked hevent⟩
  · obtain ⟨w', hw', hunlocked⟩ := hdestroyed.unlock hk
    rw [hw']
    exact ⟨_, rfl, keeps_of_none hunlocked hevent⟩

theorem closeEvent_of_ne (hevent : s.userEvent ≠ none) : ∃ s', s.closeEvent = .ok s' ∧
    s'.userEvent = none ∧ s'.conn = s.conn ∧ s'.request = s.request := by
  obtain ⟨e, he⟩ := Option.ne_none_iff_exists'.1 hevent
  rw [ChannelSession.closeEvent, he]
  exact ⟨_, rfl, rfl, rfl, rfl⟩

theorem onResumeIdAllocate_spec (h : AroundUse w (.inl n) (some k) (some s.request))
    (hk : w.locks.Holds s.conn k) (hr : w.connOf s.request = s.conn)
    (hevent : s.userEvent ≠ none ∨ o.allocate = .waits)
    (htimer : s.userEvent ≠ none → s.timer ≠ some true) :
    ∃ r, s.onResumeIdAllocate w k o = .ok r ∧ KeepsUse n r.session r.system := by
  have hexecuted := h.execute (k := k) (r := s.request) (by rw [hr]; exact hk)
  rw [ChannelSession.onResumeIdAllocate]
  cases hallocate : o.allocate with
  | waits =>
    refine ⟨_, rfl, hexecuted, ⟨hk, hr⟩, fun _ => ?_⟩
    change (if s.userEvent = none then s.timer.map fun _ => false else s.timer) ≠ some true
    split
    · cases s.timer with
      | none => exact nofun
      | some b => exact nofun
    · exact htimer ‹_›
  | fails =>
    obtain ⟨w', hw', hunlocked⟩ := hexecuted.destroy.unlock hk
    obtain ⟨s', hs', hevent', -⟩ := closeEvent_of_ne (hevent.resolve_right (by rw [hallocate]; exact nofun))
    dsimp only
    rw [hw', hs']
    exact ⟨_, rfl, keeps_of_none hunlocked hevent'⟩
  | done =>
    obtain ⟨s', hs', hevent', hconn, hrequest⟩ :=
      closeEvent_of_ne (hevent.resolve_right (by rw [hallocate]; exact nofun))
    dsimp only
    rw [hs']
    exact startSave_spec (by rw [hrequest]; exact hexecuted) (by rw [hconn]; exact hk) hevent'

theorem onIdAllocateDatabaseUnlocked_spec (h : AroundUse w (.inl n) (some k) none)
    (hk : w.locks.Holds s.conn k) (hplace : s.place = none)
    (hevent : o.create = true → s.userEvent ≠ none ∨ o.allocate = .waits)
    (htimer : s.userEvent ≠ none → s.timer ≠ some true) :
    ∃ r, s.onIdAllocateDatabaseUnlocked w k o = .ok r ∧ KeepsUse n r.session r.system := by
  rw [ChannelSession.onIdAllocateDatabaseUnlocked]
  split
  · exact onResumeIdAllocate_spec (h.create s.conn) hk (Function.update_self ..) (hevent ‹_›) htimer
  · obtain ⟨w', hw', hunlocked⟩ := h.unlock hk
    rw [hw']
    exact ⟨_, rfl, keeps_of_place hunlocked hplace htimer⟩

theorem clientSaveStart_spec (h : AroundUse w (.inl n) none none) (hevent : s.userEvent = none)
    (hgranted : w.locks.first s.conn = none → o.create = true → o.allocate = .waits) (alloc : Bool) :
    ∃ r, s.clientSaveStart w o alloc = .ok r ∧ ∀ h ∈ r, KeepsUse n h.session h.system := by
  rw [ChannelSession.clientSaveStart]
  split
  · have hlocked := h.lock s.conn
    dsimp only
    cases hfirst : w.locks.first s.conn with
    | none =>
      obtain ⟨r, hr, hkeeps⟩ := onIdAllocateDatabaseUnlocked_spec hlocked
        (LockQueues.holds_lock hfirst) (by rw [ChannelSession.place, hevent]; rfl)
        (fun hcreate => .inr (hgranted hfirst hcreate)) fun h => absurd hevent h
      dsimp only
      rw [hr]
      refine ⟨_, rfl, fun h hh => ?_⟩
      cases hh
      exact hkeeps
    | some j =>
      refine ⟨_, rfl, fun h' hh => ?_⟩
      cases hh
      refine ⟨hlocked, h.locks.waits_lock hfirst, fun _ => ?_⟩
      change (if s.userEvent = none then s.timer.map fun _ => false else s.timer) ≠ some true
      rw [if_pos hevent]
      cases s.timer with
      | none => exact nofun
      | some b => exact nofun
  · exact ⟨_, rfl, fun _ hh => absurd hh (Option.not_mem_none _)⟩

theorem onResumeDatabaseOperation_spec (h : w.Sound) (status : ExecuteStatus) :
    ∃ w', onResumeDatabaseOperation w k status = .ok w' ∧ w'.Sound := by
  rw [onResumeDatabaseOperation]
  split
  · rename_i conn r hb
    have haround := h.around_background k
    rw [hb] at haround
    obtain ⟨hk, hr⟩ := h.background k _ hb
    have hexecuted := haround.execute (k := k) (r := r) (by rw [hr]; exact hk)
    have hdone : ∃ w', (do
        let w ← ((w.execute k r).destroy r).unlock k conn
        return w.putBackground k none) = Except.ok w' ∧ w'.Sound := by
      obtain ⟨w', hw', hunlocked⟩ := AroundUse.unlock (AroundUse.destroy hexecuted) hk
      rw [hw']
      exact ⟨_, rfl, hunlocked.putBackground nofun⟩
    cases status with
    | waits =>
      have hput : (w.execute k r).putBackground k (some (.update conn r)) = w.execute k r := by
        rw [SessionSystem.putBackground]
        have : Function.update (w.execute k r).background k (some (.update conn r)) =
            (w.execute k r).background := by
          rw [← hb]
          exact Function.update_eq_self k w.background
        rw [this]
      refine ⟨_, rfl, ?_⟩
      rw [← hput]
      refine AroundUse.putBackground hexecuted fun b hb' => ?_
      cases hb'
      exact ⟨hk, hr⟩
    | done => exact hdone
    | fails => exact hdone
  · exact ⟨w, rfl, h⟩

/-! ## Whatever happens -/

/-- What a session waits for is the same. -/
theorem KeepsUse.congr (h : KeepsUse n s w) (hevent : s'.userEvent = s.userEvent)
    (hconn : s'.conn = s.conn) (hrequest : s'.request = s.request)
    (htimer : s.userEvent ≠ none → s'.timer = s.timer) : KeepsUse n s' w := by
  obtain ⟨haround, hplace, htimer'⟩ := h
  refine ⟨?_, ?_, fun hne => ?_⟩
  · rwa [ChannelSession.place, ChannelSession.held, hevent, hrequest]
  · rwa [hevent, hconn, hrequest]
  · rw [hevent] at hne
    rw [htimer hne]
    exact htimer' hne

theorem KeepsUse.around (h : KeepsUse n s w) (hplace : s.place = none) :
    AroundUse w (.inl n) none none := by
  have := h.1
  rwa [held_of_place hplace, hplace] at this

theorem place_of_none (hevent : s.userEvent = none) : s.place = none := by
  rw [ChannelSession.place, hevent]
  rfl

/-- A session begins to log out. -/
theorem keeps_setEvent_logout (h : AroundUse w (.inl n) none none)
    (htimer : s.userEvent ≠ none → s.timer ≠ some true) : KeepsUse n (s.setEvent .logout) w := by
  refine keeps_of_place h rfl fun _ => ?_
  change (if s.userEvent = none then s.timer.map fun _ => false else s.timer) ≠ some true
  split
  · cases s.timer with
    | none => exact nofun
    | some b => exact nofun
  · exact htimer ‹_›

theorem kickCommon_keeps (h : KeepsUse n s w) :
    Exec.Ensures (s.kickCommon l) fun s' => KeepsUse n s' w := by
  rw [ChannelSession.kickCommon]
  split
  · exact .pure h
  · have haround := h.around (place_of_none ‹_›)
    cases l with
    | waits =>
      have hlogout := keeps_setEvent_logout
        (s := { s with disconnecting := true, disconnects := s.disconnects + 1 }) haround h.2.timer
      exact .pure (hlogout.congr rfl rfl rfl fun _ => rfl)
    | ends => exact .pure (keeps_of_none haround ‹_›)
    | closes =>
      refine .andThen fun r hr => ?_
      obtain ⟨s', hs', -⟩ := Exec.bind_eq_ok.1 hr
      rw [ChannelSession.closeEvent] at hs'
      dsimp only at hs'
      rw [‹s.userEvent = none›] at hs'
      cases hs'

theorem afterResume_keeps (h : KeepsUse n s w) (kicked : Bool) :
    Exec.Ensures (s.afterResume l kicked) fun s' => KeepsUse n s' w := by
  rw [ChannelSession.afterResume]
  split
  · split
    · split
      · exact .pure (h.congr rfl rfl rfl fun _ => rfl)
      · exact kickCommon_keeps h
    · exact .pure h
  · split
    · exact .pure (keeps_of_none (h.around (place_of_none ‹_›)) ‹_›)
    · exact .pure h

theorem closeEvent_keeps (h : AroundUse w (.inl n) none none) :
    Exec.Ensures s.closeEvent fun s' => KeepsUse n s' w := by
  intro s' hs'
  rw [ChannelSession.closeEvent] at hs'
  split at hs'
  · cases hs'
  · cases hs'
    exact keeps_of_none h rfl

theorem onClientResumeDisconnect_keeps (h : KeepsUse n s w) (hplace : s.place = none) :
    Exec.Ensures (s.onClientResumeDisconnect l) fun r => KeepsUse n r.2 w := by
  have haround := h.around hplace
  cases l with
  | waits => exact .pure (keeps_setEvent_logout haround h.2.timer)
  | ends =>
    exact (closeEvent_keeps haround).bind fun s' hs' => .pure (hs'.congr rfl rfl rfl fun _ => rfl)
  | closes =>
    refine (closeEvent_keeps haround).bind fun s' hs' => ?_
    refine .andThen fun s'' hs'' => ?_
    have hclosed := closeEvent_keeps haround s'' hs''
    exact .pure (hclosed.congr rfl rfl rfl fun _ => rfl)

/-- An event that does not come is nobody's. -/
theorem deleted_keeps (h : KeepsUse n s w) (hplace : s.place = none) :
    KeepsUse n s.deleted.shutdown w := by
  refine keeps_of_place (h.around hplace) ?_ fun hne => ?_
  · change (s.userEvent.map fun _ => UserEvent.never).bind UserEvent.place = none
    cases s.userEvent <;> rfl
  · refine h.2.timer fun hnone => hne ?_
    change s.userEvent.map (fun _ => UserEvent.never) = none
    rw [hnone]
    rfl

theorem doTransfer_keeps (h : KeepsUse n s w) (target : ℕ) {sent : Bool}
    (hsent : s.place ≠ none → sent = true) :
    Exec.Ensures (s.doTransfer target sent) fun s' => KeepsUse n s' w := by
  rw [ChannelSession.doTransfer]
  refine Exec.Ensures.bind (P := fun s' => KeepsUse n s' w ∧ s'.place = s.place) ?_ fun s' hs' => ?_
  · rw [ChannelSession.detach]
    split
    · exact .pure ⟨h.congr rfl rfl rfl fun _ => rfl, rfl⟩
    · exact .error
    · exact .pure ⟨h.congr rfl rfl rfl fun hne => absurd ‹_› hne, rfl⟩
  · cases sent with
    | true => exact .pure (hs'.1.congr rfl rfl rfl fun _ => rfl)
    | false =>
      have hplace : s.place = none := by
        by_contra hplace
        cases hsent hplace
      exact .pure (deleted_keeps hs'.1 (hs'.2.trans hplace))

theorem newClient_keeps (h : KeepsUse n s w) {target : ℕ} {created : Bool}
    (hcreated : s.place ≠ none → created = true ∧ target = s.conn) :
    Exec.Ensures (s.newClient target created) fun s' => KeepsUse n s' w := by
  rw [ChannelSession.newClient]
  dsimp only
  by_cases hplace : s.place = none
  · have haround := h.around hplace
    split
    · split
      · exact .pure (keeps_of_place haround hplace h.2.timer)
      · exact .error
      · exact .pure (keeps_of_none haround ‹_›)
    · have hmoved : KeepsUse n { s with moving := none } w := h.congr rfl rfl rfl fun _ => rfl
      exact .pure (deleted_keeps hmoved hplace)
  · obtain ⟨rfl, rfl⟩ := hcreated hplace
    rw [if_pos rfl]
    split
    · exact .pure (h.congr rfl rfl rfl fun _ => rfl)
    · exact .error
    · exact absurd (place_of_none ‹_›) hplace

/-- What happens to a session. -/
theorem handle_keeps (h : w.Sound) (hs : w.session n = some s) (c : SessionCallback)
    (hc : c.OnOneConnection s w) : Exec.Ensures (c.handle s w) fun r => KeepsUse n r.1 r.2 := by
  have hkeeps : KeepsUse n s w := ⟨h.around_session hs, h.session n s hs⟩
  cases c with
  | shutdown cause =>
    rw [SessionCallback.handle]
    split
    · split <;> exact .pure (hkeeps.congr rfl rfl rfl fun _ => rfl)
    · exact .pure hkeeps
  | read l =>
    rw [SessionCallback.handle]
    split
    · rw [ChannelSession.onSessionEvent]
      refine Exec.Ensures.bind (P := fun s' => KeepsUse n s' w) ?_ fun s' hs' => .pure hs'
      split
      · exact .error
      · refine kickCommon_keeps ⟨hkeeps.1, hkeeps.2.place, fun _ => ?_⟩
        exact nofun
    · exact .pure hkeeps
  | timer alloc o =>
    rw [SessionCallback.handle]
    split
    · rename_i htimer
      have hevent : s.userEvent = none := by
        by_contra hevent
        exact hkeeps.2.timer hevent htimer
      obtain ⟨r, hr, hstarted⟩ :=
        clientSaveStart_spec (hkeeps.around (place_of_none hevent)) hevent hc alloc
      rw [ChannelSession.onClientTimer, hr]
      cases r with
      | none => exact .pure (hkeeps.congr rfl rfl rfl fun _ => rfl)
      | some h' => exact .pure (hstarted h' rfl)
    · exact .pure hkeeps
  | userEvent o l =>
    rw [SessionCallback.handle]
    split
    · split
      · rename_i k hevent
        split
        · rename_i hwoken
          obtain ⟨hplace, htimer⟩ := hkeeps.2
          rw [hevent] at hplace
          have haround := hkeeps.1
          rw [ChannelSession.place, ChannelSession.held, hevent] at haround
          obtain ⟨h', hh', hkeeps'⟩ := onIdAllocateDatabaseUnlocked_spec (o := o)
            (s := { s with userEvent := some .never }) haround (hplace.2.1 hwoken) rfl
            (fun _ => .inl nofun) fun _ => htimer (by rw [hevent]; exact nofun)
          rw [hh']
          exact (afterResume_keeps hkeeps' _).bind fun s' hs' => .pure hs'
        · exact .pure hkeeps
      · rename_i k hevent
        obtain ⟨hplace, htimer⟩ := hkeeps.2
        rw [hevent] at hplace
        have haround := hkeeps.1
        rw [ChannelSession.place, ChannelSession.held, hevent] at haround
        obtain ⟨h', hh', hkeeps'⟩ := onResumeIdAllocate_spec (o := o) haround hplace.1 hplace.2
          (.inl (by rw [hevent]; exact nofun)) htimer
        rw [hh']
        exact (afterResume_keeps hkeeps' _).bind fun s' hs' => .pure hs'
      · have hplace : s.place = none := by
          rw [ChannelSession.place, ‹s.userEvent = _›]
          rfl
        refine (onClientResumeDisconnect_keeps hkeeps hplace).bind fun r hr => ?_
        exact (afterResume_keeps hr _).bind fun s' hs' => .pure hs'
      · exact .pure hkeeps
    · exact .pure hkeeps
  | changeRoom target empty sent =>
    rw [SessionCallback.handle]
    split
    · rw [ChannelSession.sessionChangeRoom]
      refine Exec.Ensures.bind (P := fun s' => KeepsUse n s' w) ?_ fun s' hs' => .pure hs'
      cases empty with
      | true => exact doTransfer_keeps hkeeps target hc
      | false => exact .pure (hkeeps.congr rfl rfl rfl fun _ => rfl)
    · exact .pure hkeeps
  | flushed sent =>
    rw [SessionCallback.handle]
    split
    · exact (doTransfer_keeps hkeeps _ hc).bind fun s' hs' => .pure hs'
    · exact .pure hkeeps
  | arrive created =>
    rw [SessionCallback.handle]
    split
    · rename_i target hmoving
      refine (newClient_keeps hkeeps fun hplace => ?_).bind fun s' hs' => .pure hs'
      obtain ⟨hcreated, hconn⟩ := hc hplace
      exact ⟨hcreated, Option.some.inj (hmoving.symm.trans hconn)⟩
    · exact .pure hkeeps

/-- Whatever happens. -/
theorem SessionSystem.Sound.step (h : w.Sound) {a : SystemAction} (ha : OnOneConnection a w) :
    Exec.Ensures (a.step w) SessionSystem.Sound := by
  cases a with
  | connect n conn target =>
    rw [SystemAction.step]
    split
    · rename_i hnone
      have haround : AroundUse w (.inl n) none none := by
        have hplace : w.placeOf (.inl n) = none := congrArg (Option.bind · ChannelSession.place) hnone
        have hheld : w.heldOf (.inl n) = none := congrArg (Option.bind · ChannelSession.held) hnone
        refine ⟨h.toBooks, ?_, ?_, fun m s _ => h.session m s, fun j b _ => h.background j b⟩
        · rw [← hplace, Function.update_eq_self]
          exact h.places
        · rw [← hheld, Function.update_eq_self]
          exact h.owned
      exact .pure (AroundUse.put (s := .fresh conn target) haround ⟨trivial, nofun⟩)
    · exact .pure h
  | session n c =>
    rw [SystemAction.step]
    split
    · exact .pure h
    · rename_i s hs
      exact (handle_keeps h hs c (ha s hs)).bind fun r hr => .pure (hr.1.put hr.2)
  | update k status =>
    obtain ⟨w', hw', hsound⟩ := onResumeDatabaseOperation_spec (k := k) h status
    rw [SystemAction.step, hw']
    exact .ok hsound
  | otherLock conn =>
    have hnone : w.background w.locks.places.next = none := by
      refine Option.eq_none_iff_forall_not_mem.2 fun b hb => ?_
      exact h.locks.kept.next_not_mem ((h.places.mem _).2 ⟨_, placeOf_background hb⟩)
    have haround := h.around_background w.locks.places.next
    rw [hnone] at haround
    refine .pure (AroundUse.putBackground (o := some (.other conn)) (AroundUse.lock haround conn)
      fun b hb => ?_)
    cases hb
    exact LockQueues.mem_lock.2 (.inr ⟨rfl, rfl⟩)
  | otherUnlock k =>
    rw [SystemAction.step]
    split
    · rename_i conn hb
      split
      · rename_i hfirst
        have haround := h.around_background k
        rw [hb] at haround
        obtain ⟨w', hw', hunlocked⟩ := AroundUse.unlock haround hfirst
        rw [hw']
        exact .pure (hunlocked.putBackground nofun)
      · exact .pure h
    · exact .pure h

theorem SessionSystem.sound_start : SessionSystem.start.Sound :=
  ⟨⟨LockQueues.ok_empty, Arena.kept_empty, rfl, nofun, nofun⟩, ⟨fun _ => ⟨nofun, by
      rintro ⟨x, hx⟩
      cases x <;> cases hx⟩, by
      intro x _ _ hx
      cases x <;> cases hx⟩, ⟨fun _ => ⟨nofun, by
      rintro ⟨x, hx⟩
      cases x <;> cases hx⟩, by
      intro x _ _ hx
      cases x <;> cases hx⟩, nofun, nofun⟩

/-- Where all this is kept, every lock is released by whom took it. -/
theorem SessionSystem.Sound.savesRelease (h : w.Sound) : w.SavesRelease := by
  refine ⟨h.locks.kept, h.given, h.unlocks, fun c k hk => ?_, fun n s k hs hevent hfirst => ?_, h.executes,
    h.requests, fun r hr => ?_⟩
  · obtain ⟨x, hx⟩ := (h.places.mem k).1 (h.locks.mem_live hk)
    cases x with
    | inl n =>
      obtain ⟨s, hs, hplace⟩ := Option.bind_eq_some_iff.1 hx
      refine .inl ⟨n, s, hs, hplace, h.locks.unique k _ _ ?_ hk⟩
      have hfits := (h.session n s hs).place
      split at hfits
      · rw [ChannelSession.place, ‹s.userEvent = _›] at hplace
        obtain rfl := Option.some.inj hplace
        exact hfits.1
      · rw [ChannelSession.place, ‹s.userEvent = _›] at hplace
        obtain rfl := Option.some.inj hplace
        exact hfits.1.mem
      · obtain ⟨e, he, hek⟩ := Option.bind_eq_some_iff.1 hplace
        cases e with
        | lock j => exact absurd he (‹∀ k, s.userEvent = some (.lock k) → False› j)
        | allocate j => exact absurd he (‹∀ k, s.userEvent = some (.allocate k) → False› j)
        | logout | never => cases hek
    | inr j =>
      obtain ⟨b, hb, hj⟩ := Option.bind_eq_some_iff.1 hx
      obtain rfl := Option.some.inj hj
      refine .inr ⟨b, hb, h.locks.unique j _ _ ?_ hk⟩
      have hfits := h.background j b hb
      cases b with
      | update conn r => exact hfits.1.mem
      | other conn => exact hfits
  · have hfits := (h.session n s hs).place
    rw [hevent] at hfits
    exact hfits.2.2 hfirst
  · obtain ⟨x, hx⟩ := (h.owned.mem r).1 hr
    cases x with
    | inl n =>
      obtain ⟨s, hs, hheld⟩ := Option.bind_eq_some_iff.1 hx
      exact .inl ⟨n, s, hs, hheld⟩
    | inr k =>
      obtain ⟨b, hb, hheld⟩ := Option.bind_eq_some_iff.1 hx
      exact .inr ⟨k, b, hb, hheld⟩

/-- Nor does a handler of a save fault. -/
theorem SessionSystem.Sound.savesReturn (h : w.Sound) : w.SavesReturn OnOneConnection := by
  refine ⟨fun n s alloc o hs htimer hok => ?_, fun n s k o hs hevent hwoken => ?_,
    fun n s k o hs hevent => ?_, fun k status => ?_⟩
  · have hevent : s.userEvent = none := by
      by_contra hevent
      exact (h.session n s hs).timer hevent htimer
    have hkeeps : KeepsUse n s w := ⟨h.around_session hs, h.session n s hs⟩
    obtain ⟨r, hr, -⟩ :=
      clientSaveStart_spec (hkeeps.around (place_of_none hevent)) hevent (hok s hs) alloc
    exact ⟨r, hr⟩
  · obtain ⟨hplace, htimer⟩ := h.session n s hs
    have haround := h.around_session hs
    rw [hevent] at hplace
    rw [ChannelSession.place, ChannelSession.held, hevent] at haround
    obtain ⟨r, hr, -⟩ := onIdAllocateDatabaseUnlocked_spec (o := o)
      (s := { s with userEvent := some .never }) haround (hplace.2.1 hwoken) rfl
      (fun _ => .inl nofun) fun _ => htimer (by rw [hevent]; exact nofun)
    exact ⟨r, hr⟩
  · obtain ⟨hplace, htimer⟩ := h.session n s hs
    have haround := h.around_session hs
    rw [hevent] at hplace
    rw [ChannelSession.place, ChannelSession.held, hevent] at haround
    obtain ⟨r, hr, -⟩ := onResumeIdAllocate_spec (o := o) haround hplace.1 hplace.2
      (.inl (by rw [hevent]; exact nofun)) htimer
    exact ⟨r, hr⟩
  · obtain ⟨w', hw', -⟩ := onResumeDatabaseOperation_spec (k := k) h status
    exact ⟨w', hw'⟩

end Save

/-- In whatever order characters are saved, every lock is released by the save that took it, as long as a
    save that has it at once waits for the ids, and no session arrives in another worker while it waits. -/
theorem saves_run {w : SessionSystem} (hrun : Machine.Run SystemAction.step OnOneConnection .start w) :
    w.SavesRelease ∧ w.SavesReturn OnOneConnection := by
  have hsound : w.Sound := hrun.invariant SessionSystem.sound_start fun a w w' hw ha hstep => hw.step ha w' hstep
  exact ⟨hsound.savesRelease, hsound.savesReturn⟩

instance (s : ChannelSession) (w : SessionSystem) (c : SessionCallback) :
    Decidable (c.OnOneConnection s w) :=
  match c with
  | .timer _ _ => inferInstanceAs (Decidable (_ → _))
  | .changeRoom _ true _ => inferInstanceAs (Decidable (_ → _))
  | .flushed _ => inferInstanceAs (Decidable (_ → _))
  | .arrive _ => inferInstanceAs (Decidable (_ → _))
  | .shutdown _ | .read _ | .userEvent _ _ | .changeRoom _ false _ => inferInstanceAs (Decidable True)

instance (a : SystemAction) (w : SessionSystem) : Decidable (OnOneConnection a w) :=
  match a with
  | .session n c => inferInstanceAs (Decidable (∀ s ∈ w.session n, c.OnOneConnection s w))
  | .connect _ _ _ | .update _ _ | .otherLock _ | .otherUnlock _ => inferInstanceAs (Decidable True)

/-- A save for which the ids and the update are waited for, if the former `waits`. -/
def saveOf (allocate : ExecuteStatus) : SaveOutcome := ⟨true, allocate, true, .waits⟩

/-- Two characters are saved one after the other, and the first client disconnects meanwhile. -/
theorem saves_run_two : ∃ w : SessionSystem, (w.SavesRelease ∧ w.SavesReturn OnOneConnection) ∧
    w.unlocks = [(1, 1), (0, 0)] ∧ w.locks.queue 1 = [] ∧ w.requests.live = [] := by
  have hrun : ∃ w : SessionSystem, [SystemAction.connect 0 0 1, .connect 1 0 1, .session 0 (.arrive true),
      .session 1 (.arrive true), .session 0 (.timer true (saveOf .waits)),
      .session 1 (.timer true (saveOf .waits)), .session 0 (.userEvent (saveOf .done) .waits),
      .session 0 (.shutdown .peer), .session 0 (.read .ends), .update 0 .waits, .update 0 .done,
      .session 1 (.userEvent (saveOf .done) .waits), .update 1 .fails].foldlM
        (Machine.checked SystemAction.step OnOneConnection Fault.assertion) .start = .ok w ∧
      w.unlocks = [(1, 1), (0, 0)] ∧ w.locks.queue 1 = [] ∧ w.requests.live = [] := by
    rw [← Exec.returns_iff]
    decide +kernel
  obtain ⟨w, hw, hreleased⟩ := hrun
  exact ⟨w, saves_run (.of_checked hw), hreleased⟩

/-- After these actions a lock has been released by another save than that which took it, or a request has
    been executed without the lock. -/
def Mixes (as : List SystemAction) : Prop :=
  ∃ w : SessionSystem, as.foldlM (fun w a => SystemAction.step a w) .start = .ok w ∧
    Machine.Run SystemAction.step (fun _ _ => True) .start w ∧ ¬w.SavesRelease

theorem mixes {as : List SystemAction}
    (h : ∃ w : SessionSystem, as.foldlM (fun w a => SystemAction.step a w) .start = .ok w ∧
      ((∃ p ∈ w.unlocks, p.1 ≠ p.2) ∨ ∃ p ∈ w.executes, p.2 ≠ some p.1)) : Mixes as := by
  obtain ⟨w, hw, hwrong⟩ := h
  refine ⟨w, hw, .of_foldlM (fun _ _ _ => trivial) hw, fun h => ?_⟩
  rcases hwrong with ⟨p, hp, hne⟩ | ⟨p, hp, hne⟩
  · exact hne (h.unlocks p hp)
  · exact hne (h.executes p hp)

/-- The session arrives in another worker while it waits for the lock, and its request is executed on the
    connection of that one; it does so while it waits for the ids, and the lock of another save is released;
    and a save has the lock at once, and the ids too, and `session_close_event` is called without a user
    event. -/
theorem saves_mixed :
    Mixes [.connect 0 0 1, .session 0 (.arrive true), .otherLock 1,
      .session 0 (.timer true (saveOf .waits)), .session 0 (.changeRoom 2 true true),
      .session 0 (.arrive true), .otherUnlock 0, .session 0 (.userEvent (saveOf .waits) .waits)] ∧
    Mixes [.connect 0 0 1, .session 0 (.arrive true), .connect 1 0 2, .session 1 (.arrive true),
      .session 0 (.timer true (saveOf .waits)), .session 1 (.timer true (saveOf .waits)),
      .session 0 (.changeRoom 2 true true), .session 0 (.arrive true),
      .session 0 (.userEvent (saveOf .fails) .waits)] ∧
    ∃ w : SessionSystem, Machine.Run SystemAction.step (fun _ _ => True) .start w ∧
      ¬w.SavesReturn fun _ _ => True := by
  refine ⟨mixes ?_, mixes ?_, ?_⟩
  · rw [← Exec.returns_iff]
    decide +kernel
  · rw [← Exec.returns_iff]
    decide +kernel
  · have hrun : ∃ w : SessionSystem, [SystemAction.connect 0 0 1, .session 0 (.arrive true)].foldlM
        (fun w a => SystemAction.step a w) .start = .ok w ∧ ∃ s ∈ w.session 0, s.timer = some true ∧
          s.userEvent = none ∧ w.locks.first s.conn = none := by
      rw [← Exec.returns_iff]
      decide +kernel
    obtain ⟨w, hw, s, hs, htimer, hevent, hfirst⟩ := hrun
    refine ⟨w, .of_foldlM (fun _ _ _ => trivial) hw, fun h => ?_⟩
    obtain ⟨r, hr⟩ := h.timer 0 s true (saveOf .done) hs htimer trivial
    rw [ChannelSession.clientSaveStart, if_pos rfl] at hr
    dsimp only at hr
    rw [hfirst] at hr
    obtain ⟨h', hh', -⟩ := Exec.bind_eq_ok.1 hr
    obtain ⟨s', hs', -⟩ := Exec.bind_eq_ok.1
      (hh' : (do (← ChannelSession.closeEvent _).startSave _ _ _) = _)
    rw [ChannelSession.closeEvent] at hs'
    dsimp only at hs'
    rw [hevent] at hs'
    cases hs'

end Syrup
