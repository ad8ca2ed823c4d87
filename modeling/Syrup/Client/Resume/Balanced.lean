import Syrup.Client.Resume
import Syrup.Exec
import Syrup.Lib.Run

/-!
# What logging in and out does with the lock and the requests

Logging in forgets the lock where a request fails, and executes a request that has not been created.
Logging out takes the result of a request that is destroyed already where the ids are
allocated at once, and forgets the lock where the character cannot be saved.

The calls keep the books (`Books`) apart from that: as long as none of it happens, the lock and
every request are acquired, used and released in this order, and nothing is held after a final
status (`resume_run`).
-/

namespace Syrup

open Lifecycle

namespace Resumption

/-- Requests are executed, looked at and destroyed only while they exist, the lock is only released
    while it is held, and at the end everything has been released once. -/
structure Balanced (s : Resumption) : Prop where
  used : ∀ pre op post, s.trace = pre ++ op :: post → op.needs = .held →
    .acquire op.resource ∈ pre ∧ .release op.resource ∉ pre
  released : s.Over → ∀ r, .acquire r ∈ s.trace → s.trace.count (.release r) = 1

/-! ## The books -/

/-- The lock and the request of a client are in these phases, and nothing else is held. -/
structure Books (s : Resumption) (lock request : Phase) : Prop where
  proper : Proper s.trace
  lock : phase s.trace .lock = lock
  request : phase s.trace (.request s.request) = request
  others : ∀ r, r ≠ s.request → phase s.trace (.request r) ≠ .held
  fresh : ∀ n, s.created ≤ n → phase s.trace (.request (some n)) = .fresh
  null : phase s.trace (.request none) = .fresh

section Books

variable {s : Resumption} {l p : Phase}

theorem Books.start (handlerType : HandlerType) (hasRoom : Bool) :
    (Resumption.start handlerType hasRoom).Books .fresh .fresh :=
  ⟨trivial, rfl, rfl, fun _ _ => nofun, fun _ _ => rfl, rfl⟩

/-- What is done has to be admissible. -/
theorem proper_log (h : Proper s.trace) {op : Op Resource}
    (hop : phase s.trace op.resource = op.needs) : Proper (s.log op).trace :=
  proper_append.2 ⟨h, hop, trivial⟩

/-- Something is done with the lock. -/
theorem Books.logLock (h : s.Books l p) {op : Op Resource} (hop : op.resource = .lock)
    (hl : l = op.needs) : (s.log op).Books (op.after l) p := by
  have hne (r : Option ℕ) : phase (s.log op).trace (.request r) = phase s.trace (.request r) := by
    refine (phase_concat ..).trans (if_neg ?_)
    rw [hop]
    exact nofun
  refine ⟨proper_log h.proper (by rw [hop, h.lock, hl]), ?_, (hne _).trans h.request,
    fun r hr => ?_, fun n hn => (hne _).trans (h.fresh n hn), (hne _).trans h.null⟩
  · exact (phase_concat ..).trans (by rw [if_pos hop, h.lock])
  · rw [hne]
    exact h.others r hr

/-- Something is done with the request, which is held. -/
theorem Books.logRequest (h : s.Books l .held) {op : Op Resource}
    (hop : op.resource = .request s.request) (hp : op.needs = .held) :
    (s.log op).Books l (op.after .held) := by
  have hne {r : Resource} (hr : r ≠ .request s.request) :
      phase (s.log op).trace r = phase s.trace r :=
    (phase_concat ..).trans (if_neg fun e => hr (e.symm.trans hop))
  have hfresh {r : Resource} (hr : phase s.trace r = .fresh) : r ≠ .request s.request := by
    rintro rfl
    rw [h.request] at hr
    cases hr
  refine ⟨proper_log h.proper (by rw [hop, h.request, hp]),
    (@hne .lock nofun).trans h.lock, ?_, fun r hr => ?_, fun n hn => ?_, ?_⟩
  · refine (phase_concat ..).trans ((if_pos hop).trans ?_)
    exact congrArg op.after h.request
  · rw [hne fun e => hr (Resource.request.inj e)]
    exact h.others r hr
  · exact (hne (hfresh (h.fresh n hn))).trans (h.fresh n hn)
  · exact (hne (hfresh h.null)).trans h.null

theorem Books.lock' (h : s.Books .fresh p) : s.lock.Books .held p := h.logLock rfl rfl

theorem Books.unlock (h : s.Books .held p) : s.unlock.Books .released p := h.logLock rfl rfl

theorem Books.use (h : s.Books l .held) : s.use.Books l .held := h.logRequest rfl rfl

theorem Books.destroy (h : s.Books l .held) : s.destroy.Books l .released := h.logRequest rfl rfl

/-- A request is created where the last one is not held any more. -/
theorem Books.create (h : s.Books l p) (hp : p ≠ .held) : (s.create true).Books l .held := by
  have hn : phase s.trace (.request (some s.created)) = .fresh := h.fresh _ le_rfl
  have hne {r : Resource} (hr : .request (some s.created) ≠ r) :
      phase (s.create true).trace r = phase s.trace r := (phase_concat ..).trans (if_neg hr)
  refine ⟨proper_append.2 ⟨h.proper, hn, trivial⟩, (@hne .lock nofun).trans h.lock, ?_,
    fun r hr => ?_, fun n hn => ?_, (@hne (.request none) nofun).trans h.null⟩
  · refine (phase_concat ..).trans ((if_pos rfl).trans ?_)
    exact congrArg (Op.after (.acquire _)) hn
  · rw [hne fun e => hr (Resource.request.inj e).symm]
    by_cases hr' : r = s.request
    · rw [hr', h.request]
      exact hp
    · exact h.others r hr'
  · have hlt : s.created + 1 ≤ n := hn
    rw [hne fun e => by have := Option.some.inj (Resource.request.inj e); omega]
    exact h.fresh n (by omega)

/-- Where no request is created, there is none. -/
theorem Books.createNull (h : s.Books l p) (hp : p ≠ .held) : (s.create false).Books l .fresh := by
  refine ⟨h.proper, h.lock, h.null, fun r _ => ?_, h.fresh, h.null⟩
  by_cases hr : r = s.request
  · exact fun e => hp (h.request.symm.trans (hr ▸ e))
  · exact h.others r hr

/-- The books do not depend on the state, or on the status. -/
theorem Books.congr {s' : Resumption} (h : s.Books l p) (htrace : s'.trace = s.trace)
    (hrequest : s'.request = s.request) (hcreated : s'.created = s.created) : s'.Books l p := by
  obtain ⟨h₁, h₂, h₃, h₄, h₅, h₆⟩ := h
  rw [← htrace] at h₁ h₂ h₃ h₄ h₅ h₆
  rw [← hrequest] at h₃ h₄
  rw [← hcreated] at h₅
  exact ⟨h₁, h₂, h₃, h₄, h₅, h₆⟩

theorem Books.goto (h : s.Books l p) (n : ℕ) : (s.goto n).Books l p := h.congr rfl rfl rfl

theorem Books.ret (h : s.Books l p) (status : Int32) : (s.ret status).Books l p :=
  h.congr rfl rfl rfl

end Books

/-! ## Balanced and not -/

section Balanced

variable {s : Resumption} {l p : Phase}

/-- Books in which nothing is held are balanced. -/
theorem Books.balanced (h : s.Books l p) (hheld : s.Over → l ≠ .held ∧ p ≠ .held) : s.Balanced := by
  refine ⟨fun pre op post ht hop => h.proper.held ht hop, fun hover r hr => ?_⟩
  obtain ⟨hl, hp⟩ := hheld hover
  refine Settled.count (fun r => ?_) h.proper hr
  cases r with
  | lock =>
    rw [h.lock]
    exact hl
  | request r =>
    by_cases hr : r = s.request
    · rw [hr, h.request]
      exact hp
    · exact h.others r hr

/-- Nothing is balanced that ends while the lock is held. -/
theorem Books.not_balanced (h : s.Books .held p) (hover : s.Over) : ¬ s.Balanced := by
  intro hb
  obtain ⟨hmem, hno⟩ := phase_eq_held.1 h.lock
  have hone := hb.released hover _ hmem
  rw [List.count_eq_zero.2 hno] at hone
  cases hone

/-- Nothing is balanced that goes on with the use of a request that is not held. -/
theorem Books.not_balanced_of_use {s' : Resumption} (h : s.Books l p) (hp : p ≠ .held)
    (hs : s.use.trace <+: s'.trace) : ¬ s'.Balanced := by
  intro hb
  obtain ⟨post, hs⟩ := hs
  have hheld := hb.used s.trace (.use (.request s.request)) post
    (by rw [← hs, Resumption.use, log, List.append_assoc]; rfl) rfl
  exact hp (h.request.symm.trans (phase_eq_held.2 hheld))

/-- What has been done is not undone. -/
theorem log_extends (s : Resumption) (op : Op Resource) : s.trace <+: (s.log op).trace :=
  List.prefix_append ..

/-- Nothing that is waiting for events is over. -/
theorem not_over_ret {status : Int32} (h : 0 < status) : ¬ (s.ret status).Over := by
  rintro ⟨_, hs, hle⟩
  cases hs
  exact absurd h (Int32.not_lt.2 hle)

theorem over_ret {status : Int32} (h : status ≤ 0) : (s.ret status).Over := ⟨status, rfl, h⟩

end Balanced

/-! ## The calls -/

/-- What is held between two calls: nothing at first, then the lock, and then a request too. -/
inductive Waiting (s : Resumption) : Prop
  | start : s.databaseState = 0 → s.Books .fresh .fresh → Waiting s
  | locked : s.databaseState = 1 → s.Books .held .fresh → Waiting s
  | pending : s.databaseState = 2 ∨ s.databaseState = 4 ∧ s.handlerType = .logout →
      s.Books .held .held → Waiting s

/-- What a call leaves is balanced if and only if `ok`, and if it is, the client is waiting for the
    next call. -/
structure Leaves (ok : Prop) (s : Resumption) : Prop where
  good : ok → s.Balanced ∧ (¬ s.Over → s.Waiting)
  bad : ¬ ok → ¬ s.Balanced

section Calls

variable {s : Resumption} {l p : Phase} {reply : Reply}

/-- Everything has been released. -/
theorem Books.over (h : s.Books .released p) (hp : p ≠ .held) {status : Int32} (hs : status ≤ 0) :
    Leaves True (s.ret status) :=
  ⟨fun _ => ⟨(h.ret status).balanced fun _ => ⟨nofun, hp⟩, fun hn => absurd (over_ret hs) hn⟩,
    fun hn => absurd trivial hn⟩

/-- The lock has been forgotten. -/
theorem Books.forgotten (h : s.Books .held p) {status : Int32} (hs : status ≤ 0) :
    Leaves False (s.ret status) :=
  ⟨False.elim, fun _ => (h.ret status).not_balanced (over_ret hs)⟩

/-- A request is waited for. -/
theorem Books.pending (h : s.Books .held .held)
    (hstate : s.databaseState = 2 ∨ s.databaseState = 4 ∧ s.handlerType = .logout)
    {status : Int32} (hs : 0 < status) : Leaves True (s.ret status) :=
  ⟨fun _ => ⟨(h.ret status).balanced fun hover => absurd hover (not_over_ret hs),
    fun _ => .pending hstate (h.ret status)⟩, fun hn => absurd trivial hn⟩

/-- The lock is waited for. -/
theorem Books.locked (h : s.Books .held .fresh) : Leaves True ((s.goto 1).ret pollIn) :=
  ⟨fun _ => ⟨((h.goto 1).ret pollIn).balanced fun hover => absurd hover (not_over_ret (by decide)),
    fun _ => .locked rfl ((h.goto 1).ret pollIn)⟩, fun hn => absurd trivial hn⟩

/-- Nothing has been acquired. -/
theorem Books.idle (h : s.Books .fresh .fresh) {status : Int32} (hs : status ≤ 0) :
    Leaves True (s.ret status) :=
  ⟨fun _ => ⟨(h.ret status).balanced fun _ => ⟨nofun, nofun⟩, fun hn => absurd (over_ret hs) hn⟩,
    fun hn => absurd trivial hn⟩

theorem Leaves.congr {ok ok' : Prop} (h : Leaves ok s) (hok : ok' ↔ ok) : Leaves ok' s :=
  ⟨fun h' => h.good (hok.1 h'), fun h' => h.bad fun h'' => h' (hok.2 h'')⟩

theorem load_leaves (h : s.Books .held .held) : Leaves True (load s reply) := by
  refine Books.over (p := .released) ((h.goto 4).use.destroy.unlock) nofun ?_
  cases reply.memory <;> decide

theorem fetch_leaves (h : s.Books .held .held) (hstate : s.databaseState = 2) :
    Leaves (0 ≤ reply.execute) (fetch s reply) := by
  rw [fetch]
  split
  · rename_i hneg
    exact (Books.forgotten h.destroy (by decide)).congr
      ⟨fun hle => absurd hneg (Int32.not_lt.2 hle), False.elim⟩
  · rename_i hneg
    rw [Int32.not_lt] at hneg
    split
    · rename_i hpos
      exact (h.pending (.inl hstate) hpos).congr (iff_true_intro hneg)
    · exact (load_leaves (h.goto 3)).congr (iff_true_intro hneg)

theorem fetch_extends (s : Resumption) (reply : Reply) : s.trace <+: (fetch s reply).trace := by
  rw [fetch]
  split
  · exact log_extends s _
  · split
    · exact List.prefix_refl _
    · have hused := log_extends s (.use (.request s.request))
      exact (hused.trans (log_extends _ (.release (.request s.request)))).trans (log_extends _ _)

theorem requestCharacter_leaves (h : s.Books .held .fresh) :
    Leaves (reply.create = true ∧ 0 ≤ reply.execute) (requestCharacter s reply) := by
  rw [requestCharacter]
  cases hcreate : reply.create with
  | true => exact (fetch_leaves ((h.create nofun).goto 2).use rfl).congr (by simp)
  | false =>
    exact ⟨fun hok => absurd hok.1 Bool.false_ne_true,
      fun _ => ((h.createNull nofun).goto 2).not_balanced_of_use nofun (fetch_extends _ reply)⟩

theorem finish_leaves (h : s.Books .held .held) (hstate : s.databaseState = 4)
    (hlogout : s.handlerType = .logout) (status : Int32) : Leaves True (finish s status) := by
  rw [finish]
  split
  · rename_i hle
    exact h.destroy.unlock.over nofun hle
  · rename_i hpos
    exact h.pending (.inr ⟨hstate, hlogout⟩) (Int32.not_le.1 hpos)

theorem save_leaves (h : s.Books .held .held) (hlogout : s.handlerType = .logout) :
    Leaves (reply.memory = true ∧ reply.createUpdate = true) (save s reply) := by
  rw [save]
  have hd := h.use.use.destroy
  cases reply.memory with
  | false => exact (hd.forgotten (by decide)).congr (by simp)
  | true =>
    cases reply.createUpdate with
    | false => exact ((hd.createNull nofun).forgotten (by decide)).congr (by simp)
    | true => exact (finish_leaves ((hd.create nofun).use.goto 4) rfl hlogout _).congr (by simp)

theorem save_extends (s : Resumption) (reply : Reply) : s.use.trace <+: (save s reply).trace := by
  have hd : s.use.trace <+: s.use.use.destroy.trace :=
    (log_extends s.use (.use (.request s.request))).trans (log_extends _ _)
  rw [save]
  cases reply.memory with
  | false => exact hd
  | true =>
    cases reply.createUpdate with
    | false => exact hd
    | true =>
      have hcreate : s.use.use.destroy.trace <+: (s.use.use.destroy.create true).trace :=
        List.prefix_append ..
      have hc : s.use.trace <+: (s.use.use.destroy.create true).use.trace :=
        (hd.trans hcreate).trans (log_extends _ _)
      change _ <+: (finish _ _).trace
      rw [finish]
      split
      · exact (hc.trans (log_extends _ (.release (.request (some s.created))))).trans (log_extends _ _)
      · exact hc

theorem awaitIds_leaves (h : s.Books .held .held) (hstate : s.databaseState = 2)
    (hlogout : s.handlerType = .logout) :
    Leaves (reply.execute = 0 → reply.memory = true ∧ reply.createUpdate = true)
      (awaitIds s reply) := by
  rw [awaitIds]
  split
  · rename_i hpos
    refine (h.use.pending (.inl hstate) hpos).congr (iff_true_intro fun h0 => ?_)
    rw [h0] at hpos
    exact absurd hpos (Int32.lt_irrefl)
  · rename_i hpos
    split
    · rename_i hneg
      refine (Books.over h.use.destroy.unlock nofun (by decide)).congr (iff_true_intro fun h0 => ?_)
      rw [h0] at hneg
      exact absurd hneg (Int32.lt_irrefl)
    · rename_i hneg
      have hzero : reply.execute = 0 :=
        Int32.le_antisymm (Int32.not_lt.1 hpos) (Int32.not_lt.1 hneg)
      exact (save_leaves (h.use.goto 3) hlogout).congr (by simp [hzero])

theorem requestIds_leaves (h : s.Books .held .fresh) :
    Leaves (reply.create = true → reply.execute ≠ 0) (requestIds s reply) := by
  rw [requestIds]
  cases reply.create with
  | false =>
    exact ((h.createNull nofun).unlock.over nofun (by decide)).congr (by simp)
  | true =>
    have hc := ((h.create nofun).use.goto 2)
    simp only
    rw [if_neg (by simp [create])]
    split
    · rename_i hpos
      refine (hc.pending (.inl rfl) hpos).congr (iff_true_intro fun _ h0 => ?_)
      rw [h0] at hpos
      exact absurd hpos (Int32.lt_irrefl)
    · rename_i hpos
      split
      · rename_i hneg
        refine (hc.destroy.unlock.over nofun (by decide)).congr (iff_true_intro fun _ h0 => ?_)
        rw [h0] at hneg
        exact absurd hneg (Int32.lt_irrefl)
      · rename_i hneg
        have hzero : reply.execute = 0 :=
          Int32.le_antisymm (Int32.not_lt.1 hpos) (Int32.not_lt.1 hneg)
        exact ⟨fun hok => absurd hzero (hok trivial), fun _ =>
          (hc.destroy.unlock.goto 3).not_balanced_of_use nofun (save_extends _ reply)⟩

theorem awaitUpdate_leaves (h : s.Books .held .held) (hstate : s.databaseState = 4)
    (hlogout : s.handlerType = .logout) : Leaves True (awaitUpdate s reply) := by
  rw [awaitUpdate]
  split
  · exact finish_leaves h.use.use hstate hlogout _
  · rename_i hpos
    exact h.use.pending (.inr ⟨hstate, hlogout⟩) (Int32.not_le.1 hpos)

end Calls

/-! ## Runs -/

/-- The call creates the first request. -/
def Creates (s : Resumption) (reply : Reply) : Prop :=
  s.databaseState = 1 ∨ s.databaseState = 0 ∧ reply.lock = -2 ∧
    (s.handlerType = .logout → s.hasRoom = true)

instance (s : Resumption) (reply : Reply) : Decidable (s.Creates reply) :=
  inferInstanceAs (Decidable (_ ∨ _))

/-- Logging in, a request is created and does not fail; logging out, the ids are not allocated
    at once, and where they have been allocated the character can be saved. -/
def Safe (reply : Reply) (s : Resumption) : Prop :=
  (s.handlerType = .login → (s.Creates reply → reply.create = true ∧ 0 ≤ reply.execute) ∧
      (s.databaseState = 2 → 0 ≤ reply.execute)) ∧
    (s.handlerType = .logout → (s.Creates reply → reply.create = true → reply.execute ≠ 0) ∧
      (s.databaseState = 2 → reply.execute = 0 →
        reply.memory = true ∧ reply.createUpdate = true))

instance (s : Resumption) (reply : Reply) : Decidable (s.Safe reply) :=
  inferInstanceAs (Decidable (_ ∧ _))

theorem lockLogin_leaves {s : Resumption} {reply : Reply} (h : s.Books .fresh .fresh) :
    Leaves (reply.lock = -2 → reply.create = true ∧ 0 ≤ reply.execute) (lockLogin s reply) := by
  rw [lockLogin]
  split
  · rename_i hlock
    exact (requestCharacter_leaves (h.lock'.goto 1)).congr (by simp [hlock])
  · rename_i hlock
    split
    · exact (h.idle (by decide)).congr (by simp [hlock])
    · exact (h.lock'.locked).congr (by simp [hlock])

theorem lockLogout_leaves {s : Resumption} {reply : Reply} (h : s.Books .fresh .fresh) :
    Leaves (s.hasRoom = true → reply.lock = -2 → reply.create = true → reply.execute ≠ 0)
      (lockLogout s reply) := by
  rw [lockLogout]
  split
  · rename_i hroom
    exact (h.idle (by decide)).congr (by simp_all)
  · rename_i hroom
    split
    · rename_i hlock
      exact (requestIds_leaves (h.lock'.goto 1)).congr (by simp_all)
    · rename_i hlock
      split
      · exact (h.idle (by decide)).congr (by simp [hlock])
      · exact (h.lock'.locked).congr (by simp [hlock])

/-- What a call leaves is balanced if and only if the call is safe. -/
theorem resume_leaves {s : Resumption} (h : s.Waiting) (reply : Reply) :
    Leaves (s.Safe reply) (s.resume reply) := by
  cases h with
  | start hstate h =>
    cases htype : s.handlerType with
    | login =>
      simp only [resume, htype, resumeLogin, hstate]
      exact (lockLogin_leaves h).congr (by simp [Safe, htype, Creates, hstate])
    | logout =>
      simp only [resume, htype, resumeLogout, hstate]
      exact (lockLogout_leaves h).congr (by simp [Safe, htype, Creates, hstate]; tauto)
  | locked hstate h =>
    cases htype : s.handlerType with
    | login =>
      simp only [resume, htype, resumeLogin, hstate]
      exact (requestCharacter_leaves h).congr (by simp [Safe, htype, Creates, hstate])
    | logout =>
      simp only [resume, htype, resumeLogout, hstate]
      exact (requestIds_leaves h).congr (by simp [Safe, htype, Creates, hstate])
  | pending hstate h =>
    obtain hstate | ⟨hstate, htype⟩ := hstate
    · cases htype : s.handlerType with
      | login =>
        simp only [resume, htype, resumeLogin, hstate]
        exact (fetch_leaves h.use hstate).congr (by simp [Safe, htype, Creates, hstate])
      | logout =>
        simp only [resume, htype, resumeLogout, hstate]
        exact (awaitIds_leaves h hstate htype).congr (by simp [Safe, htype, Creates, hstate])
    · simp only [resume, htype, resumeLogout, hstate]
      exact (awaitUpdate_leaves h hstate htype).congr (by simp [Safe, htype, Creates, hstate])

end Resumption

/-- The calls of `client_resume` of a client: it is called until it returns a final status. In
    every run of calls that are safe, what has been done is balanced; and what a further call
    does is balanced if and only if that is safe too. -/
theorem resume_run {handlerType : HandlerType} {hasRoom : Bool} {s : Resumption}
    (hrun : Machine.Run (fun reply s => (.ok (s.resume reply) : Exec Resumption))
      (fun reply s => ¬ s.Over ∧ s.Safe reply) (.start handlerType hasRoom) s) :
    s.Balanced ∧ (¬ s.Over → ∀ reply, (s.resume reply).Balanced ↔ s.Safe reply) := by
  have hstart := Resumption.Books.start handlerType hasRoom
  have hinv : s.Balanced ∧ (¬ s.Over → s.Waiting) := by
    refine hrun.invariant (I := fun s => s.Balanced ∧ (¬ s.Over → s.Waiting))
      ⟨hstart.balanced fun _ => ⟨nofun, nofun⟩, fun _ => .start rfl hstart⟩ ?_
    rintro reply s _ hs ⟨hover, hsafe⟩ h
    cases h
    exact (Resumption.resume_leaves (hs.2 hover) reply).good hsafe
  refine ⟨hinv.1, fun hover reply => ?_⟩
  have h := Resumption.resume_leaves (hinv.2 hover) reply
  exact ⟨fun hb => by_contra fun hn => h.bad hn hb, fun hsafe => (h.good hsafe).1⟩

/-! ### Replies -/

/-- A reply in which everything that is created is created. -/
def replyOf (lock execute executeUpdate : Int32) : Reply where
  lock := lock
  create := true
  execute := execute
  memory := true
  createUpdate := true
  executeUpdate := executeUpdate

/-- The request for the character fails, and the ids are allocated at once. -/
theorem resume_not_balanced :
    ¬ ((Resumption.start .login false).resume (replyOf (-2) (-1) 0)).Balanced ∧
      ¬ ((Resumption.start .logout true).resume (replyOf (-2) 0 0)).Balanced := by
  constructor
  · intro h
    have hone := h.released (by decide) .lock (by decide)
    revert hone
    decide
  · intro h
    have hheld := h.used [.acquire .lock, .acquire (.request (some 0)), .use (.request (some 0)),
      .release (.request (some 0)), .release .lock] (.use (.request (some 0))) _ rfl rfl
    revert hheld
    decide

/-- A client logs out: it waits for the lock, for the ids, and for the update. -/
theorem resume_run_logout :
    (((((Resumption.start .logout true).resume (replyOf 7 0 0)).resume (replyOf 0 1 0)).resume
      (replyOf 0 0 4)).resume (replyOf 0 0 0)).Balanced :=
  (@resume_run .logout true _ (.step (replyOf 0 0 0) (.step (replyOf 0 0 4) (.step (replyOf 0 1 0)
    (.step (replyOf 7 0 0) .start (by decide) rfl) (by decide) rfl) (by decide) rfl)
    (by decide) rfl)).1

end Syrup
