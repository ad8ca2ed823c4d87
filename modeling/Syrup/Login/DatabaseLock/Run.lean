import Syrup.Login.DatabaseLock.Kept

/-!
# Runs of the lock of the database

* `databaseLock_run`: if clients do not disconnect while their session waits for the database, and are not
  logged in twice, if the queries of a login, a logout and of the gender do not fail, and if no query waits
  to write twice, the lock is given back by who has it, requests are destroyed once, and a session that has
  been destroyed has nothing;
* `databaseLock_lost`: otherwise the lock may be lost, or a request or the node of an account be left behind.
-/

namespace Syrup

section Run

variable {N : Type} [DecidableEq N] {ticket : N → Option ℕ} {w : DatabaseWorker N} {n : N}
  {s : LockSession} {p q : LockSession × DatabaseWorker N} {kind : HandlerKind} {segment : Segment}
  {l : Logout}

/-! ### Segments -/

/-- What a segment of a handler does to its session and to the worker. -/
structure Ran (ticket : N → Option ℕ) (n : N) (s : LockSession) (w : DatabaseWorker N)
    (p : LockSession × DatabaseWorker N) : Prop where
  around : Around ticket p.2 n p.1.request p.1.own
  queue : p.2.queue = w.queue
  type : p.1.type = s.type
  handler : p.1.handler = s.handler
  state : p.1.state = s.state
  wait : p.1.wait = s.wait
  loggedIn : (s.loggedIn = true → s.node ≠ none) → p.1.loggedIn = true → p.1.node ≠ none
  closing : s.state = .disconnecting → s.own = none → p.1.own = none

theorem Ran.refl (h : Around ticket w n s.request s.own) : Ran ticket n s w (s, w) :=
  ⟨h, rfl, rfl, rfl, rfl, rfl, fun hs => hs, fun _ hs => hs⟩

theorem Ran.trans (h : Ran ticket n s w p) (h' : Ran ticket n p.1 p.2 q) : Ran ticket n s w q :=
  ⟨h'.around, h'.queue.trans h.queue, h'.type.trans h.type, h'.handler.trans h.handler,
    h'.state.trans h.state, h'.wait.trans h.wait, fun hs => h'.loggedIn (h.loggedIn hs),
    fun hstate hs => h'.closing (h.state.trans hstate) (h.closing hstate hs)⟩

theorem ran_openRequest (h : Around ticket w n s.request s.own) :
    Ran ticket n s w (openRequest s w) ∧ (openRequest s w).1.node = s.node := by
  rw [openRequest]
  cases hrequest : s.request with
  | none =>
    rw [hrequest] at h
    exact ⟨⟨h.openRequest, rfl, rfl, rfl, rfl, rfl, fun hs => hs, fun _ hs => hs⟩, rfl⟩
  | some r => exact ⟨.refl h, rfl⟩

theorem ran_closeRequest (h : Around ticket w n s.request s.own) :
    Ran ticket n s w (closeRequest s w) ∧ (closeRequest s w).1.node = s.node ∧
      (closeRequest s w).1.request = none := by
  rw [closeRequest]
  cases hrequest : s.request with
  | none => exact ⟨.refl h, rfl, hrequest⟩
  | some r =>
    rw [hrequest] at h
    exact ⟨⟨h.closeRequest, rfl, rfl, rfl, rfl, rfl, fun hs => hs, fun _ hs => hs⟩, rfl, rfl⟩

theorem ran_renewRequest (k : ℕ) (h : Around ticket w n s.request s.own) :
    Ran ticket n s w (renewRequest k s w) ∧ (renewRequest k s w).1.node = s.node := by
  induction k generalizing s w with
  | zero => exact ⟨.refl h, rfl⟩
  | succ k ih =>
    obtain ⟨hclose, hnode, -⟩ := ran_closeRequest h
    obtain ⟨hopen, hnode'⟩ := ran_openRequest hclose.around
    obtain ⟨hrenew, hnode''⟩ := ih hopen.around
    exact ⟨hclose.trans (hopen.trans hrenew), hnode''.trans (hnode'.trans hnode)⟩

omit [DecidableEq N] in
theorem LockSession.own_of_node (h : s.node = none) : s.own = none := by
  rw [LockSession.own, h, ite_self]

/-- An account is logged in, for a session that has none. -/
theorem ran_loginNode {login : Option Bool} (h : Around ticket w n s.request s.own)
    (hloggedIn : s.loggedIn = true → s.node ≠ none)
    (hlogin : login ≠ none → s.node = none ∧ (login = some true → s.state ≠ .disconnecting)) :
    Ran ticket n s w (loginNode s w login) := by
  rcases login with _ | _ | _
  · exact .refl h
  · have hnode := (hlogin nofun).1
    have hs : ({ s with node := none } : LockSession) = s := by rw [← hnode]
    rw [loginNode, hs]
    exact .refl h
  · obtain ⟨hnode, hstate⟩ := hlogin nofun
    have hout : s.loggedIn = false := Bool.eq_false_iff.2 fun hs => hloggedIn hs hnode
    rw [LockSession.own_of_node hnode] at h
    refine ⟨?_, rfl, rfl, rfl, rfl, rfl, fun _ _ => nofun, fun hs => absurd hs (hstate rfl)⟩
    have hown : LockSession.own { s with node := some w.nodes.next } = some w.nodes.next := by
      rw [LockSession.own, hout]
      rfl
    rw [loginNode, hown]
    exact h.loginNode

/-- An account is logged out, unless its character is in the game. -/
theorem ran_logoutNode (h : Around ticket w n s.request s.own) :
    Ran ticket n s w (logoutNode s w) ∧ (logoutNode s w).1.own = none ∧
      (logoutNode s w).1.request = s.request := by
  rw [logoutNode]
  cases hnode : s.node with
  | none => exact ⟨.refl h, LockSession.own_of_node hnode, rfl⟩
  | some r =>
    dsimp only
    split
    · refine ⟨.refl h, ?_, rfl⟩
      rw [LockSession.own, if_pos ‹_›]
    · have hown : LockSession.own { s with node := none } = none := LockSession.own_of_node rfl
      rw [LockSession.own, if_neg ‹_›, hnode] at h
      refine ⟨⟨?_, rfl, rfl, rfl, rfl, rfl, fun _ hs => absurd hs ‹_›, fun _ _ => hown⟩, hown, rfl⟩
      rw [hown]
      exact h.logoutNode

/-- A segment of a handler. If it does not wait its request has been destroyed, and a logout has logged out
    the account. -/
theorem ran_runHandler (h : Around ticket w n s.request s.own)
    (hloggedIn : s.loggedIn = true → s.node ≠ none) (hcareful : segment.Careful kind s) :
    Ran ticket n s w (runHandler s w kind segment) ∧
      ((∀ mask, segment.result ≠ .waits mask) → (runHandler s w kind segment).1.request = none ∧
        (kind = .logout → (runHandler s w kind segment).1.own = none)) := by
  obtain ⟨hopen, hnode⟩ := ran_openRequest h
  rw [runHandler]
  rcases hfirst : openRequest s w with ⟨s₁, w₁⟩
  rw [hfirst] at hopen hnode
  dsimp only at hnode ⊢
  obtain ⟨s₂, w₂, hrenew, hran, hnode₂⟩ : ∃ s₂ w₂,
      (if kind = .packet .login then renewRequest segment.renewed s₁ w₁ else (s₁, w₁)) = (s₂, w₂) ∧
        Ran ticket n s w (s₂, w₂) ∧ s₂.node = s.node := by
    split
    · obtain ⟨hran, hnode₂⟩ := ran_renewRequest segment.renewed hopen.around
      exact ⟨_, _, rfl, hopen.trans hran, hnode₂.trans hnode⟩
    · exact ⟨_, _, rfl, hopen, hnode⟩
  rw [hrenew]
  dsimp only
  obtain ⟨s₃, w₃, hlogin, hran₃⟩ : ∃ s₃ w₃,
      (if kind = .packet .login then loginNode s₂ w₂ segment.login else (s₂, w₂)) = (s₃, w₃) ∧
        Ran ticket n s w (s₃, w₃) := by
    split
    · refine ⟨_, _, rfl, hran.trans (ran_loginNode hran.around (hran.loggedIn hloggedIn) fun hne => ?_)⟩
      rw [hnode₂, hran.state]
      exact hcareful.2 ‹_› hne
    · exact ⟨_, _, rfl, hran⟩
  rw [hlogin]
  dsimp only
  have hend (p : LockSession × DatabaseWorker N) (hp : Ran ticket n s w p) (hrequest : p.1.request = none) :
      Ran ticket n s w (if kind = .logout then logoutNode p.1 p.2 else p) ∧
        ((∀ mask, segment.result ≠ .waits mask) →
          (if kind = .logout then logoutNode p.1 p.2 else p).1.request = none ∧
          (kind = .logout → (if kind = .logout then logoutNode p.1 p.2 else p).1.own = none)) := by
    split
    · obtain ⟨hlogout, hown, heq⟩ := ran_logoutNode hp.around
      exact ⟨hp.trans hlogout, fun _ => ⟨heq.trans hrequest, fun _ => hown⟩⟩
    · exact ⟨hp, fun _ => ⟨hrequest, fun hk => absurd hk ‹_›⟩⟩
  obtain ⟨hclose, -, hrequest⟩ := ran_closeRequest hran₃.around
  cases hresult : segment.result with
  | waits mask => exact ⟨hran₃, fun hne => absurd rfl (hne mask)⟩
  | done =>
    rw [hresult] at hend
    exact hend _ (hran₃.trans hclose) hrequest
  | fails =>
    rw [hresult] at hend
    rw [if_pos (hcareful.1 hresult)]
    exact hend _ (hran₃.trans hclose) hrequest

/-! ### Callbacks -/

/-- All is kept by what happens. -/
def Keeps (x : Exec (DatabaseWorker N)) : Prop := ∃ w', x = .ok w' ∧ ∃ ticket, Sound ticket w'

/-- The session waits, or does not wait for anything, and is written back. -/
theorem keeps_put (h : Around ticket w n s.request s.own) (hfits : s.Fits (ticket n) w.written w.head) :
    Keeps (.ok (w.setSession n (some s))) := ⟨_, rfl, ticket, h.put hfits⟩

omit [DecidableEq N] in
/-- A session that waits for nothing, which has no place. -/
theorem LockSession.Fits.idle {written : List ℕ} {head : Option ℕ} (hwait : s.wait = .none)
    (hrequest : s.request = none) (hclosing : s.state = .disconnecting → s.own = none)
    (hloggedIn : s.loggedIn = true → s.node ≠ none) : s.Fits none written head := by
  refine ⟨?_, fun hne => absurd hwait hne, fun hs _ => hclosing hs, hloggedIn⟩
  rw [hwait]
  exact ⟨rfl, hrequest⟩

omit [DecidableEq N] in
/-- A session that has been destroyed has had nothing, if it is not to wait. -/
theorem LockSession.Fits.place_none {written : List ℕ} {head : Option ℕ}
    (h : s.Fits (ticket n) written head)
    (hwait : (∀ fd left, s.wait ≠ .lock fd left) ∧ ∀ mask left, s.wait ≠ .query mask left) :
    ticket n = none ∧ s.request = none := by
  have hplace := h.place
  cases hs : s.wait with
  | lock fd left => exact absurd hs (hwait.1 fd left)
  | query mask left => exact absurd hs (hwait.2 mask left)
  | none | channel | never =>
    rw [hs] at hplace
    exact hplace

omit [DecidableEq N] in
theorem DatabaseWorker.head_enqueue (hq : w.queue = []) : (w.enqueue n).head = some w.nextFd := by
  rw [DatabaseWorker.head, DatabaseWorker.enqueue, hq]
  rfl

/-- A session that has to wait is not granted the lock yet. -/
theorem Around.not_granted {request own : Option ℕ} (h : Around ticket w n request own)
    (hq : w.queue ≠ []) : w.nextFd ∈ w.written ↔ (w.enqueue n).head = some w.nextFd := by
  refine ⟨fun hfd => absurd (h.fresh _ hfd) (lt_irrefl _), fun hhead => ?_⟩
  refine absurd (h.head_lt ?_ : w.nextFd < w.nextFd) (lt_irrefl _)
  obtain ⟨e, queue, hq⟩ := List.exists_cons_of_ne_nil hq
  rw [← hhead, DatabaseWorker.head, DatabaseWorker.head, DatabaseWorker.enqueue, hq]
  rfl

omit [DecidableEq N] in
theorem careful_logout (hl : l.Careful) : l.segment.Careful .logout s :=
  ⟨fun hfails => absurd hfails hl.2, nofun⟩

/-- The client disconnects: the session waits, or has nothing more. -/
theorem onClientDisconnect_fits (h : Around ticket w n s.request s.own)
    (hfits : s.Fits (ticket n) w.written w.head) (hl : l.Careful)
    (hwait : s.node ≠ none → match s.wait with
      | .lock _ _ => False
      | .query _ _ => False
      | .channel => w.queue = [] → l.segment.result ≠ .done
      | _ => True) :
    ∃ p, onClientDisconnect s w n l = .ok p ∧ ∃ ticket, Around ticket p.2 n p.1.request p.1.own ∧
      LockSession.Fits { p.1 with state := .disconnecting } (ticket n) p.2.written p.2.head ∧
      (p.1.wait = .none → p.1.own = none) := by
  rw [onClientDisconnect]
  split
  · have hown := LockSession.own_of_node ‹s.node = none›
    exact ⟨_, rfl, ticket, h, ⟨hfits.place, hfits.handler, fun _ _ => hown, hfits.loggedIn⟩,
      fun _ => hown⟩
  · have hwait := hwait (by rw [‹s.node = _›]; simp)
    obtain ⟨hticket, hrequest⟩ := hfits.place_none (by
      constructor <;> intro _ _ hs <;> rw [hs] at hwait <;> exact hwait)
    have henqueue := h.enqueue hticket
    rw [hrequest] at henqueue
    dsimp only
    rw [DatabaseWorker.lock, hl.1, if_neg (not_not_intro rfl)]
    by_cases hq : w.queue = []
    · rw [if_pos (List.isEmpty_iff.2 hq)]
      dsimp only
      obtain ⟨hran, hafter⟩ := ran_runHandler (s := { s with handler := .logout, request := none })
        henqueue hfits.loggedIn (careful_logout hl)
      rcases hrun : runHandler { s with handler := .logout, request := none } (w.enqueue n) .logout
        l.segment with ⟨s', w'⟩
      rw [hrun] at hran hafter
      have hhead : Function.update ticket n (some w.nextFd) n = w'.head := by
        rw [Function.update_self, DatabaseWorker.head, hran.queue]
        exact (DatabaseWorker.head_enqueue hq).symm
      have hsome : Function.update ticket n (some w.nextFd) n ≠ none := by
        rw [Function.update_self]
        simp
      have hloggedIn := hran.loggedIn hfits.loggedIn
      cases hresult : l.segment.result with
      | waits mask =>
        exact ⟨_, rfl, _, hran.around, ⟨⟨hhead, hsome⟩, fun _ _ => hran.handler, by rintro _ ⟨⟩, hloggedIn⟩,
          by rintro ⟨⟩⟩
      | done =>
        obtain ⟨w'', hunlock, haround⟩ := hran.around.unlock hhead hsome
        rw [Function.update_idem] at haround
        obtain ⟨hrequest', hown⟩ := hafter fun mask => by rw [hresult]; simp
        dsimp only
        rw [hunlock]
        refine ⟨_, rfl, _, haround, ?_, fun _ => hown rfl⟩
        rw [Function.update_self]
        have hs : s'.wait = s.wait := hran.wait
        cases hs' : s.wait with
        | lock fd left =>
          rw [hs'] at hwait
          exact hwait.elim
        | query mask left =>
          rw [hs'] at hwait
          exact hwait.elim
        | channel =>
          rw [hs'] at hwait
          exact absurd hresult (hwait hq)
        | none | never =>
          rw [hs'] at hs
          refine ⟨?_, fun hne hnever => ?_, fun _ _ => hown rfl, hloggedIn⟩
          · rw [hs]
            exact ⟨rfl, hrequest'⟩
          · first | exact absurd hs hne | exact absurd hs hnever
      | fails => exact absurd hresult hl.2
    · rw [if_neg fun he => hq (List.isEmpty_iff.1 he)]
      exact ⟨_, rfl, _, henqueue, ⟨⟨Function.update_self .., rfl, h.not_granted hq⟩, fun _ _ => rfl,
        by rintro _ ⟨⟩, hfits.loggedIn⟩, by rintro ⟨⟩⟩

/-- A session is kicked, or its client disconnects. -/
theorem keeps_kickSession (h : Around ticket w n s.request s.own)
    (hfits : s.Fits (ticket n) w.written w.head) (hl : l.Careful)
    (hwait : s.node ≠ none → match s.wait with
      | .lock _ _ => False
      | .query _ _ => False
      | .channel => w.queue = [] → l.segment.result ≠ .done
      | _ => True) : Keeps (kickSession s w n l) := by
  obtain ⟨⟨s', w'⟩, hp, ticket', haround, hfits', hown⟩ := onClientDisconnect_fits h hfits hl hwait
  rw [kickSession, hp, Exec.ok_bind]
  dsimp only
  split
  · obtain ⟨hticket, hrequest⟩ := hfits'.place_none (by rw [‹s'.wait = _›]; exact ⟨nofun, nofun⟩)
    dsimp only at haround hrequest hown
    rw [hrequest, hown ‹_›] at haround
    exact ⟨_, rfl, ticket', haround.drop hticket⟩
  · exact keeps_put (s := { s' with state := .disconnecting }) haround hfits'

/-- A handler is done. -/
theorem keeps_finish (h : Around ticket w n none s.own) (hticket : ticket n = none)
    (hrequest : s.request = none) (hclosing : s.state = .disconnecting → s.own = none)
    (hloggedIn : s.loggedIn = true → s.node ≠ none) (hl : l.Careful) : Keeps (finish s w n l) := by
  have hfits : LockSession.Fits { s with wait := .none } (ticket n) w.written w.head := by
    rw [hticket]
    exact .idle rfl hrequest hclosing hloggedIn
  have haround : Around ticket w n s.request s.own := by rwa [hrequest]
  rw [finish]
  dsimp only
  cases hstate : s.state with
  | connected =>
    rw [hstate] at hfits
    exact keeps_put haround hfits
  | kicking =>
    rw [hstate] at hfits
    exact keeps_kickSession haround hfits hl fun _ => trivial
  | disconnecting =>
    rw [hclosing hstate] at h
    exact ⟨_, rfl, ticket, h.drop hticket⟩

/-- After a segment of the session that has the lock. -/
theorem keeps_afterSegment {left : Bool} {wait : PollMask → Wait}
    (h : Around ticket w n s.request s.own) (hhead : ticket n = w.head) (hticket : ticket n ≠ none)
    (hhandler : s.handler = if left then .logout else .packet s.type)
    (hclosing : s.state = .disconnecting → left = false → s.own = none)
    (hloggedIn : s.loggedIn = true → s.node ≠ none)
    (hafter : (∀ mask, segment.result ≠ .waits mask) →
      s.request = none ∧ (left = true → s.own = none))
    (hwait : ∀ mask, segment.result = .waits mask → ∃ mask', wait mask = .query mask' left)
    (hl : l.Careful) : Keeps (afterSegment s w n left segment l wait) := by
  have hends (hne : ∀ mask, segment.result ≠ .waits mask) : ∃ w', w.unlock n = .ok w' ∧
      s.request = none ∧ (s.state = .disconnecting → s.own = none) ∧
      ∃ ticket, ticket n = none ∧ Around ticket w' n none s.own := by
    obtain ⟨hrequest, hown⟩ := hafter hne
    obtain ⟨w', hunlock, haround⟩ := h.unlock hhead hticket
    rw [hrequest] at haround
    refine ⟨w', hunlock, hrequest, fun hstate => ?_, _, Function.update_self .., haround⟩
    cases left with
    | false => exact hclosing hstate rfl
    | true => exact hown rfl
  rw [afterSegment]
  cases hresult : segment.result with
  | waits mask =>
    obtain ⟨mask', hmask⟩ := hwait mask hresult
    dsimp only
    rw [hmask]
    exact keeps_put (s := { s with wait := .query mask' left }) h
      ⟨⟨hhead, hticket⟩, fun _ _ => hhandler, hclosing, hloggedIn⟩
  | done =>
    obtain ⟨w', hunlock, hrequest, hown, ticket', hticket', haround⟩ := hends fun mask => by
      rw [hresult]
      exact nofun
    dsimp only
    rw [hunlock, Exec.ok_bind]
    exact keeps_finish haround hticket' hrequest hown hloggedIn hl
  | fails =>
    obtain ⟨w', hunlock, hrequest, hown, ticket', hticket', haround⟩ := hends fun mask => by
      rw [hresult]
      exact nofun
    dsimp only
    rw [hunlock, Exec.ok_bind]
    split
    · exact keeps_finish haround hticket' hrequest hown hloggedIn hl
    · rw [← hrequest] at haround
      refine keeps_kickSession (s := { s with wait := .none }) haround ?_ hl fun _ => trivial
      rw [hticket']
      exact .idle rfl hrequest hown hloggedIn

/-- The lock is granted, or a query goes on. -/
theorem keeps_runHandler {left : Bool} {wait : PollMask → Wait}
    (h : Around ticket w n s.request s.own) (hhead : ticket n = w.head) (hticket : ticket n ≠ none)
    (hfits : s.Fits (ticket n) w.written w.head) (hleft : s.wait.left = left)
    (hhandler : s.handler = if left then .logout else .packet s.type)
    (hcareful : segment.Careful s.handler s)
    (hwait : ∀ mask, segment.result = .waits mask → ∃ mask', wait mask = .query mask' left)
    (hl : l.Careful) :
    Keeps (afterSegment (runHandler s w s.handler segment).1 (runHandler s w s.handler segment).2 n left
      segment l wait) := by
  obtain ⟨hran, hafter⟩ := ran_runHandler h hfits.loggedIn hcareful
  refine keeps_afterSegment hran.around ?_ hticket ?_ (fun hstate hs => ?_)
    (hran.loggedIn hfits.loggedIn) (fun hne => ?_) hwait hl
  · rw [DatabaseWorker.head, hran.queue]
    exact hhead
  · rw [hran.handler, hran.type]
    exact hhandler
  · have hstate' := hran.state.symm.trans hstate
    exact hran.closing hstate' (hfits.closing hstate' (hleft.trans hs))
  · obtain ⟨hrequest, hown⟩ := hafter hne
    refine ⟨hrequest, fun hs => hown ?_⟩
    rw [hhandler, hs]
    rfl

/-- A packet for the handler of which the database is needed. -/
theorem keeps_lockAndWrite {type : PacketType} {alloc : Bool} (h : Around ticket w n s.request s.own)
    (hfits : s.Fits (ticket n) w.written w.head) (hwait : s.wait = .none) (hstate : s.state = .connected)
    (hcareful : segment.Careful (.packet type) s) (hl : l.Careful) :
    Keeps (lockAndWrite s w n type alloc segment l) := by
  obtain ⟨hticket, hrequest⟩ := hfits.place_none (by rw [hwait]; exact ⟨(by simp), (by simp)⟩)
  have hclosing : s.state = .disconnecting → s.own = none := by
    rw [hstate]
    simp
  rw [hrequest] at h
  rw [lockAndWrite]
  dsimp only
  rw [DatabaseWorker.lock]
  by_cases halloc : alloc = true
  · rw [if_neg (not_not_intro halloc)]
    have henqueue := h.enqueue hticket
    by_cases hq : w.queue = []
    · rw [if_pos (List.isEmpty_iff.2 hq)]
      dsimp only
      obtain ⟨hran, hafter⟩ := ran_runHandler
        (s := { s with type := type, handler := .packet type, request := none })
        henqueue hfits.loggedIn hcareful
      rcases hrun : runHandler { s with type := type, handler := .packet type, request := none }
        (w.enqueue n) (.packet type) segment with ⟨s', w'⟩
      rw [hrun] at hran hafter
      have hhead : Function.update ticket n (some w.nextFd) n = w'.head := by
        rw [Function.update_self, DatabaseWorker.head, hran.queue]
        exact (DatabaseWorker.head_enqueue hq).symm
      have hsome : Function.update ticket n (some w.nextFd) n ≠ none := by
        rw [Function.update_self]
        simp
      have hloggedIn := hran.loggedIn hfits.loggedIn
      have hconnected : s'.state = .connected := hran.state.trans hstate
      have hclosing' : s'.state = .disconnecting → s'.own = none := by
        rw [hconnected]
        simp
      have hidle : s'.wait = .none := hran.wait.trans hwait
      dsimp only
      cases hresult : segment.result with
      | waits mask =>
        refine keeps_put (s := { s' with wait := .query mask false }) hran.around
          ⟨⟨hhead, hsome⟩, fun _ _ => ?_, fun hs _ => hclosing' hs, hloggedIn⟩
        exact hran.handler.trans (congrArg _ hran.type.symm)
      | done =>
        obtain ⟨w'', hunlock, haround⟩ := hran.around.unlock hhead hsome
        obtain ⟨hrequest', -⟩ := hafter fun mask => by rw [hresult]; simp
        dsimp only
        rw [hunlock, Exec.ok_bind]
        refine keeps_put (s := s') haround ?_
        rw [Function.update_self]
        exact .idle hidle hrequest' hclosing' hloggedIn
      | fails =>
        obtain ⟨w'', hunlock, haround⟩ := hran.around.unlock hhead hsome
        obtain ⟨hrequest', -⟩ := hafter fun mask => by rw [hresult]; simp
        have hfits' : s'.Fits (Function.update ticket n none n) w''.written w''.head := by
          rw [Function.update_self]
          exact .idle hidle hrequest' hclosing' hloggedIn
        rw [Function.update_idem] at haround
        dsimp only
        rw [hunlock, Exec.ok_bind]
        split
        · exact keeps_put haround hfits'
        · exact keeps_kickSession haround hfits' hl fun _ => by rw [hidle]; trivial
    · rw [if_neg fun he => hq (List.isEmpty_iff.1 he)]
      exact keeps_put (s := { s with
          type := type, handler := .packet type, request := none, wait := .lock w.nextFd false })
        henqueue ⟨⟨Function.update_self .., rfl, h.not_granted hq⟩, fun _ _ => rfl,
          fun hs _ => hclosing hs, hfits.loggedIn⟩
  · rw [if_pos halloc]
    have hfits' : LockSession.Fits { s with type := type, handler := .packet type, request := none }
        (ticket n) w.written w.head := by
      rw [hticket]
      exact .idle hwait rfl hclosing hfits.loggedIn
    dsimp only
    split
    · exact keeps_put h hfits'
    · exact keeps_kickSession h hfits' hl fun _ => by dsimp only; rw [hwait]; trivial

/-! ### Steps -/

theorem Sound.keeps (h : Sound ticket w) : Keeps (.ok w) := ⟨w, rfl, ticket, h⟩

/-- What happens to a session that there is. -/
theorem Sound.handle (h : Sound ticket w) (e : LockEvent N) (hs : w.session e.target = some s)
    (hok : Careful e w) : Keeps (e.handle s w) := by
  have haround := h.around hs
  have hfits := h.session _ s hs
  cases e with
  | connect n => exact h.keeps
  | packet n type alloc segment l =>
    rw [LockEvent.handle]
    split
    · obtain ⟨hwait, hstate, -⟩ := ‹_ ∧ _›
      exact keeps_lockAndWrite haround hfits hwait hstate (hok.2 s hs) hok.1
    · exact h.keeps
  | pic n type connected =>
    rw [LockEvent.handle]
    split
    · obtain ⟨hwait, hstate, -⟩ := ‹_ ∧ _›
      obtain ⟨hticket, hrequest⟩ := hfits.place_none (by rw [hwait]; exact ⟨nofun, nofun⟩)
      rw [hrequest] at haround
      dsimp only
      refine keeps_put haround ?_
      have hplace (wait : Wait) (hleft : wait = .channel ∨ wait = .never ∨ wait = .none) :
          LockSession.Fits { s with
            type := type, handler := .packet type, request := none, wait := wait } (ticket n)
            w.written w.head := by
        have hclosing : s.state = .disconnecting → s.own = none := by
          rw [hstate]
          exact nofun
        rcases hleft with rfl | rfl | rfl
        all_goals exact ⟨⟨hticket, rfl⟩, fun _ _ => rfl, fun hs _ => hclosing hs, hfits.loggedIn⟩
      refine hplace _ ?_
      split
      · exact .inl rfl
      · split
        · exact .inr (.inl rfl)
        · exact .inr (.inr rfl)
    · exact h.keeps
  | badPacket n l =>
    rw [LockEvent.handle]
    split
    · obtain ⟨hwait, -⟩ := ‹_ ∧ _›
      exact keeps_kickSession haround hfits hok fun _ => by rw [hwait]; trivial
    · exact h.keeps
  | lockReady n segment l =>
    rw [LockEvent.handle]
    split
    · rename_i fd left hwait
      split
      · obtain ⟨hticket, -, hgranted⟩ : ticket n = some fd ∧ s.request = none ∧
            (fd ∈ w.written ↔ w.head = some fd) := by
          have hplace := hfits.place
          rwa [hwait] at hplace
        have hhandler := hfits.handler (by rw [hwait]; exact nofun) (by rw [hwait]; exact nofun)
        have hleft : s.wait.left = left := by rw [hwait]; rfl
        rw [hleft] at hhandler
        rw [onDatabaseLockReady, if_neg (not_not_intro hhandler)]
        refine keeps_runHandler haround ?_ ?_ hfits hleft hhandler (hok.2 s hs)
          (fun mask _ => ⟨mask, rfl⟩) hok.1
        · exact hticket.trans (hgranted.1 ‹_›).symm
        · intro hnone
          cases hticket.symm.trans hnone
      · exact h.keeps
    · exact h.keeps
  | queryReady n segment l =>
    rw [LockEvent.handle]
    split
    · rename_i mask left hwait
      obtain ⟨hhead, hticket⟩ : ticket n = w.head ∧ ticket n ≠ none := by
        have hplace := hfits.place
        rwa [hwait] at hplace
      have hhandler := hfits.handler (by rw [hwait]; exact nofun) (by rw [hwait]; exact nofun)
      have hleft : s.wait.left = left := by rw [hwait]; rfl
      rw [hleft] at hhandler
      obtain ⟨hl, hcareful⟩ := hok
      obtain ⟨hsegment, hmask⟩ := hcareful s hs
      rw [onResumeClient, if_neg (not_not_intro hhandler)]
      refine keeps_runHandler haround hhead hticket hfits hleft hhandler hsegment (fun mask' hresult => ?_)
        hl
      rw [hwait, hresult] at hmask
      exact ⟨mask', if_pos hmask⟩
    · exact h.keeps
  | channelReady n admitted l =>
    rw [LockEvent.handle]
    split
    · rename_i hwait
      obtain ⟨hticket, hrequest⟩ := hfits.place_none (by rw [hwait]; exact ⟨nofun, nofun⟩)
      have hhandler : s.handler = .packet s.type := by
        have := hfits.handler (by rw [hwait]; exact nofun) (by rw [hwait]; exact nofun)
        rwa [hwait] at this
      have hclosing (hstate : s.state = .disconnecting) : s.own = none :=
        hfits.closing hstate (by rw [hwait]; rfl)
      rw [hrequest] at haround
      rw [onResumePic, if_neg (not_not_intro hhandler)]
      split
      · obtain ⟨r, hr⟩ := Option.ne_none_iff_exists'.1 (hok.2 s hs ‹_›)
        rw [Exec.deref_eq_ok.2 hr, Exec.ok_bind]
        have hown : LockSession.own { s with loggedIn := true } = none := rfl
        refine keeps_finish (s := { s with loggedIn := true }) ?_ hticket hrequest
          (fun _ => hown) (fun _ => ?_) hok.1
        · rw [hown]
          split
          · rwa [LockSession.own, if_pos ‹_›] at haround
          · rw [LockSession.own, if_neg ‹_›, hr] at haround
            exact haround.logoutNode
        · dsimp only
          rw [hr]
          exact nofun
      · exact keeps_finish haround hticket hrequest hclosing hfits.loggedIn hok.1
    · exact h.keeps
  | disconnect n l =>
    rw [LockEvent.handle]
    split
    · exact h.keeps
    · exact keeps_kickSession haround hfits hok.1 (hok.2 s hs)
  | shutdown n l =>
    rw [LockEvent.handle]
    split
    · exact h.keeps
    · split
      · rename_i hwait
        exact keeps_kickSession haround hfits hok fun _ => by rw [hwait]; trivial
      · exact keeps_put (s := { s with state := .kicking }) haround
          ⟨hfits.place, hfits.handler, nofun, hfits.loggedIn⟩

/-- Whatever happens. -/
theorem Sound.step (h : Sound ticket w) (e : LockEvent N) (hok : Careful e w) : Keeps (e.step w) := by
  unfold LockEvent.step
  cases hs : w.session e.target with
  | some s => exact h.handle e hs hok
  | none =>
    cases e with
    | connect n =>
      have hs : w.session n = none := hs
      have hticket := h.absent n hs
      have hbind (f : LockSession → Option ℕ) : (w.session n).bind f = none := by rw [hs]; rfl
      change Keeps (.ok (w.setSession n
        (some ⟨none, false, none, .login, .packet .login, .connected, .none⟩)))
      refine keeps_put ⟨h.queue, h.owned, h.places, h.fresh, h.unlocks,
        fun m s _ => h.session m s, fun m _ => h.absent m, ⟨h.requests.1, ?_⟩, h.nodes.1, ?_⟩ ?_
      · change Owned (Function.update _ n none) _
        rw [← hbind LockSession.request,
          Function.update_eq_self n fun m => (w.session m).bind LockSession.request]
        exact h.requests.2
      · change Owned (Function.update _ n none) _
        rw [← hbind LockSession.own, Function.update_eq_self n fun m => (w.session m).bind LockSession.own]
        exact h.nodes.2
      · rw [hticket]
        exact .idle rfl rfl nofun nofun
    | packet _ _ _ _ _ | pic _ _ _ | badPacket _ _ | lockReady _ _ _ | queryReady _ _ _
    | channelReady _ _ _ | disconnect _ _ | shutdown _ _ => exact h.keeps

theorem sound_start : Sound (fun _ => none) (DatabaseWorker.start : DatabaseWorker N) :=
  ⟨fun _ => ⟨nofun, nofun⟩, .empty, Arena.kept_empty, fun _ hfd => absurd hfd List.not_mem_nil,
    fun _ hp => absurd hp List.not_mem_nil, fun _ _ hs => absurd hs.symm (Option.some_ne_none _),
    fun _ _ => rfl, ⟨Arena.kept_empty, .empty⟩, Arena.kept_empty, .empty⟩

end Run

/-- A query waits to be read. -/
def reads : SegmentResult := .waits ⟨true, false⟩

end Syrup
