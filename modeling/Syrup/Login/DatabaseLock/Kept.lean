import Syrup.Login.DatabaseLock

/-!
# The lock is not lost

Every place in the queue for the lock is that of one session, which waits for the lock or for a query, and
the first one has the lock (`Sound`). While something happens to a session, all this is said of the other
ones (`Around`), and what the session has is said apart.
-/

namespace Syrup

/-! ## What should hold -/

/-- What a session has of the nodes that belong to sessions. -/
def LockSession.own (s : LockSession) : Option ℕ := if s.loggedIn then none else s.node

namespace DatabaseWorker

variable {N : Type} (w : DatabaseWorker N)

/-- The place of the session that has the lock. -/
def head : Option ℕ := w.queue.head?.map (·.fd)

/-- Those who wait for the lock, those who have it, and who have given it back. -/
def places : Arena := ⟨w.queue.map (·.fd), w.released, w.nextFd⟩

end DatabaseWorker

/-- If a handler fails, it destroys its request; and a login gets a node for a session that has none and is
    not to be destroyed. -/
def Segment.Careful (segment : Segment) (kind : HandlerKind) (s : LockSession) : Prop :=
  (segment.result = .fails → kind.cleansUp = true) ∧
    (kind = .packet .login → segment.login ≠ none →
      s.node = none ∧ (segment.login = some true → s.state ≠ .disconnecting))

/-- There is memory to wait for the lock, and the query of the logout does not fail. -/
def Logout.Careful (l : Logout) : Prop := l.alloc = true ∧ l.segment.result ≠ .fails

/-- The handler that there is, or will be, is careful. A client that is logged in does not disconnect while
    its session waits for the database, nor so that it is logged out at once while its session waits for a
    channel; a channel only admits the character of a session that is logged in; and an event in which a
    query waits is not the one that `session_get_event_disposition` takes it for. -/
def Careful {N : Type} : LockEvent N → DatabaseWorker N → Prop
  | .packet n type _ segment l, w => l.Careful ∧
    ∀ s ∈ w.session n, segment.Careful (.packet type) s
  | .badPacket _ l, _ => l.Careful
  | .lockReady n segment l, w => l.Careful ∧ ∀ s ∈ w.session n, segment.Careful s.handler s
  | .queryReady n segment l, w => l.Careful ∧ ∀ s ∈ w.session n, segment.Careful s.handler s ∧
    match s.wait, segment.result with
    | .query mask _, .waits mask' => mask' ≠ mask.disposition
    | _, _ => True
  | .channelReady n admitted l, w => l.Careful ∧
    ∀ s ∈ w.session n, admitted = true → s.node ≠ none
  | .disconnect n l, w => l.Careful ∧ ∀ s ∈ w.session n, s.node ≠ none →
    match s.wait with
    | .lock _ _ => False
    | .query _ _ => False
    | .channel => w.queue = [] → l.segment.result ≠ .done
    | _ => True
  | .shutdown _ l, _ => l.Careful
  | _, _ => True

instance (segment : Segment) (kind : HandlerKind) (s : LockSession) :
    Decidable (segment.Careful kind s) := inferInstanceAs (Decidable (_ ∧ _))

instance (l : Logout) : Decidable l.Careful := inferInstanceAs (Decidable (_ ∧ _))

instance {N : Type} (e : LockEvent N) (w : DatabaseWorker N) : Decidable (Careful e w) :=
  match e with
  | .packet n type _ segment l =>
    inferInstanceAs (Decidable (l.Careful ∧ ∀ s ∈ w.session n, segment.Careful (.packet type) s))
  | .lockReady n segment l =>
    inferInstanceAs (Decidable (l.Careful ∧ ∀ s ∈ w.session n, segment.Careful s.handler s))
  | .queryReady n segment l =>
    have (s : LockSession) : Decidable (match s.wait, segment.result with
        | .query mask _, .waits mask' => mask' ≠ mask.disposition
        | _, _ => True) := by split <;> infer_instance
    inferInstanceAs (Decidable (l.Careful ∧ ∀ s ∈ w.session n, segment.Careful s.handler s ∧ _))
  | .channelReady n admitted l =>
    inferInstanceAs (Decidable (l.Careful ∧ ∀ s ∈ w.session n, admitted = true → s.node ≠ none))
  | .disconnect n l =>
    have (s : LockSession) : Decidable (match s.wait with
        | .lock _ _ => False
        | .query _ _ => False
        | .channel => w.queue = [] → l.segment.result ≠ .done
        | _ => True) := by split <;> infer_instance
    inferInstanceAs (Decidable (l.Careful ∧ ∀ s ∈ w.session n, s.node ≠ none → _))
  | .badPacket _ l | .shutdown _ l => inferInstanceAs (Decidable l.Careful)
  | .connect _ | .pic _ _ _ => inferInstanceAs (Decidable True)

/-! ## What is kept -/

/-- A handler is run in this wait, because the client has left or not. -/
def Wait.left : Wait → Bool
  | lock _ left => left
  | query _ left => left
  | _ => false

/-- What a session is like that has this place in the queue, when these `eventfd`s have been written to
    and that is the first place. -/
structure LockSession.Fits (s : LockSession) (ticket : Option ℕ) (written : List ℕ)
    (head : Option ℕ) : Prop where
  place : match s.wait with
    | .lock fd _ => ticket = some fd ∧ s.request = none ∧ (fd ∈ written ↔ head = some fd)
    | .query _ _ => ticket = head ∧ ticket ≠ none
    | _ => ticket = none ∧ s.request = none
  handler : s.wait ≠ .none → s.wait ≠ .never →
    s.handler = if s.wait.left then .logout else .packet s.type
  closing : s.state = .disconnecting → s.wait.left = false → s.own = none
  loggedIn : s.loggedIn = true → s.node ≠ none

/-- All that is kept of the sessions other than one, when that one has this request and this node. -/
structure Around {N : Type} [DecidableEq N] (ticket : N → Option ℕ) (w : DatabaseWorker N) (n : N)
    (request own : Option ℕ) : Prop where
  queue : ∀ e, e ∈ w.queue ↔ ticket e.owner = some e.fd
  owned : Owned ticket (w.queue.map (·.fd))
  places : w.places.Kept
  fresh : ∀ fd ∈ w.written, fd < w.nextFd
  unlocks : ∀ p ∈ w.unlocks, p.1 = p.2
  session : ∀ m s, m ≠ n → w.session m = some s → s.Fits (ticket m) w.written w.head
  absent : ∀ m, m ≠ n → w.session m = none → ticket m = none
  requests : w.requests.Kept ∧ Owned
    (Function.update (fun m => (w.session m).bind LockSession.request) n request) w.requests.live
  nodes : w.nodes.Kept ∧ Owned
    (Function.update (fun m => (w.session m).bind LockSession.own) n own) w.nodes.live

/-- All that is kept. -/
structure Sound {N : Type} [DecidableEq N] (ticket : N → Option ℕ) (w : DatabaseWorker N) : Prop where
  queue : ∀ e, e ∈ w.queue ↔ ticket e.owner = some e.fd
  owned : Owned ticket (w.queue.map (·.fd))
  places : w.places.Kept
  fresh : ∀ fd ∈ w.written, fd < w.nextFd
  unlocks : ∀ p ∈ w.unlocks, p.1 = p.2
  session : ∀ m s, w.session m = some s → s.Fits (ticket m) w.written w.head
  absent : ∀ m, w.session m = none → ticket m = none
  requests : w.requests.Kept ∧ Owned (fun m => (w.session m).bind LockSession.request) w.requests.live
  nodes : w.nodes.Kept ∧ Owned (fun m => (w.session m).bind LockSession.own) w.nodes.live

section Around

variable {N : Type} [DecidableEq N] {ticket : N → Option ℕ} {w : DatabaseWorker N} {n : N}
  {s : LockSession} {request own : Option ℕ}

theorem Sound.around (h : Sound ticket w) (hs : w.session n = some s) :
    Around ticket w n s.request s.own := by
  have hrequest : (w.session n).bind LockSession.request = s.request := by rw [hs]; rfl
  have hown : (w.session n).bind LockSession.own = s.own := by rw [hs]; rfl
  refine ⟨h.queue, h.owned, h.places, h.fresh, h.unlocks, fun m s _ => h.session m s,
    fun m _ => h.absent m, ⟨h.requests.1, ?_⟩, h.nodes.1, ?_⟩
  · rw [← hrequest, Function.update_eq_self n fun m => (w.session m).bind LockSession.request]
    exact h.requests.2
  · rw [← hown, Function.update_eq_self n fun m => (w.session m).bind LockSession.own]
    exact h.nodes.2

/-- What has happened to the session is written back. -/
theorem Around.put (h : Around ticket w n s.request s.own)
    (hfits : s.Fits (ticket n) w.written w.head) : Sound ticket (w.setSession n (some s)) := by
  have hbind (f : LockSession → Option ℕ) : (fun m => ((w.setSession n (some s)).session m).bind f) =
      Function.update (fun m => (w.session m).bind f) n (f s) := by
    funext m
    exact Function.apply_update (fun _ (o : Option LockSession) => o.bind f) w.session n (some s) m
  refine ⟨h.queue, h.owned, h.places, h.fresh, h.unlocks, fun m s' hs' => ?_, fun m hm => ?_,
    ⟨h.requests.1, ?_⟩, h.nodes.1, ?_⟩
  · change Function.update w.session n (some s) m = some s' at hs'
    rcases eq_or_ne m n with rfl | hne
    · rw [Function.update_self] at hs'
      obtain rfl := Option.some.inj hs'
      exact hfits
    · rw [Function.update_of_ne hne] at hs'
      exact h.session m s' hne hs'
  · change Function.update w.session n (some s) m = none at hm
    rcases eq_or_ne m n with rfl | hne
    · rw [Function.update_self] at hm
      cases hm
    · rw [Function.update_of_ne hne] at hm
      exact h.absent m hne hm
  · rw [hbind]
    exact h.requests.2
  · rw [hbind]
    exact h.nodes.2

/-- The session is destroyed. -/
theorem Around.drop (h : Around ticket w n none none) (hticket : ticket n = none) :
    Sound ticket (w.setSession n none) := by
  have hbind (f : LockSession → Option ℕ) : (fun m => ((w.setSession n none).session m).bind f) =
      Function.update (fun m => (w.session m).bind f) n none := by
    funext m
    exact Function.apply_update (fun _ (o : Option LockSession) => o.bind f) w.session n none m
  refine ⟨h.queue, h.owned, h.places, h.fresh, h.unlocks, fun m s' hs' => ?_, fun m hm => ?_,
    ⟨h.requests.1, ?_⟩, h.nodes.1, ?_⟩
  · change Function.update w.session n none m = some s' at hs'
    rcases eq_or_ne m n with rfl | hne
    · rw [Function.update_self] at hs'
      cases hs'
    · rw [Function.update_of_ne hne] at hs'
      exact h.session m s' hne hs'
  · change Function.update w.session n none m = none at hm
    rcases eq_or_ne m n with rfl | hne
    · exact hticket
    · rw [Function.update_of_ne hne] at hm
      exact h.absent m hne hm
  · rw [hbind]
    exact h.requests.2
  · rw [hbind]
    exact h.nodes.2

/-! ### The lock -/

omit [DecidableEq N] in
/-- A session without a place does not care who has the lock. -/
theorem LockSession.Fits.of_none {written written' : List ℕ} {head head' : Option ℕ}
    (h : s.Fits none written head) : s.Fits none written' head' := by
  refine ⟨?_, h.handler, h.closing, h.loggedIn⟩
  have hplace := h.place
  split
  · rw [‹s.wait = _›] at hplace
    cases hplace.1
  · rw [‹s.wait = _›] at hplace
    exact absurd rfl hplace.2
  · split at hplace
    · exact absurd ‹s.wait = _› (‹∀ fd left, s.wait = .lock fd left → False› _ _)
    · exact absurd ‹s.wait = _› (‹∀ mask left, s.wait = .query mask left → False› _ _)
    · exact hplace

theorem Around.head_lt (h : Around ticket w n request own) {fd : ℕ} (hhead : w.head = some fd) :
    fd < w.nextFd := by
  obtain ⟨e, he, rfl⟩ := Option.map_eq_some_iff.1 hhead
  exact h.places.lt (List.mem_map_of_mem (List.mem_of_mem_head? he))

/-- The session gets a place. -/
theorem Around.enqueue (h : Around ticket w n request own) (hticket : ticket n = none) :
    Around (Function.update ticket n (some w.nextFd)) (w.enqueue n) n request own := by
  have hperm : ((w.enqueue n).queue.map (·.fd)).Perm (w.nextFd :: w.queue.map (·.fd)) := by
    rw [DatabaseWorker.enqueue, List.map_append]
    exact List.perm_append_singleton _ _
  have hnew : w.nextFd ∉ w.queue.map (·.fd) := h.places.next_not_mem
  refine ⟨fun e => ?_, (h.owned.take hticket hnew).perm hperm, h.places.alloc.perm hperm,
    fun fd hfd => Nat.lt_succ_of_lt (h.fresh fd hfd), h.unlocks, fun m s hne hs => ?_,
    fun m hne hs => ?_, h.requests, h.nodes⟩
  · rw [DatabaseWorker.enqueue, List.mem_append, List.mem_singleton, h.queue]
    rcases eq_or_ne e.owner n with hn | hne
    · rw [hn, Function.update_self, hticket]
      refine ⟨fun he => ?_, fun he => .inr ?_⟩
      · rcases he with he | rfl
        · cases he
        · rfl
      · obtain ⟨owner, fd⟩ := e
        obtain rfl := Option.some.inj he
        obtain rfl := hn
        rfl
    · rw [Function.update_of_ne hne]
      refine ⟨fun he => ?_, .inl⟩
      rcases he with he | rfl
      · exact he
      · exact absurd rfl hne
  · have hfits := h.session m s hne hs
    rw [Function.update_of_ne hne]
    cases hq : w.queue with
    | nil =>
      have hnone : ticket m = none := by
        refine Option.eq_none_iff_forall_not_mem.2 fun fd hfd => ?_
        have hmem := (h.owned.mem fd).2 ⟨m, hfd⟩
        rw [hq] at hmem
        cases hmem
      rw [hnone] at hfits ⊢
      exact hfits.of_none
    | cons e queue =>
      have hhead : (w.enqueue n).head = w.head := by
        rw [DatabaseWorker.head, DatabaseWorker.head, DatabaseWorker.enqueue, hq]
        rfl
      rw [hhead]
      exact hfits
  · rw [Function.update_of_ne hne]
    exact h.absent m hne hs

/-- The session has the lock, and gives it back. -/
theorem Around.unlock (h : Around ticket w n request own) (hhead : ticket n = w.head)
    (hticket : ticket n ≠ none) :
    ∃ w', w.unlock n = .ok w' ∧ Around (Function.update ticket n none) w' n request own := by
  cases hq : w.queue with
  | nil =>
    rw [DatabaseWorker.head, hq] at hhead
    exact absurd hhead hticket
  | cons e queue =>
    have hn : ticket n = some e.fd := by
      rw [hhead, DatabaseWorker.head, hq]
      rfl
    have howner : e.owner = n :=
      h.owned.ext _ _ e.fd ((h.queue e).1 (by rw [hq]; exact List.mem_cons_self)) hn
    have hlive : w.queue.map (·.fd) = e.fd :: queue.map (·.fd) := by rw [hq, List.map_cons]
    have herase : (w.queue.map (·.fd)).erase e.fd = queue.map (·.fd) := by
      rw [hlive, List.erase_cons_head]
    have hnodup : e.fd ∉ queue.map (·.fd) := by
      have := h.places.nodup
      rw [DatabaseWorker.places, hlive] at this
      exact (List.nodup_cons.1 this).1
    rw [DatabaseWorker.unlock, hq]
    refine ⟨_, rfl, fun e' => ?_, ?_, ?_, fun fd hfd => ?_, fun p hp => ?_, fun m s hne hs => ?_,
      fun m hne hs => ?_, h.requests, h.nodes⟩
    · have hqueue := h.queue e'
      rw [hq, List.mem_cons] at hqueue
      rcases eq_or_ne e'.owner n with hn' | hne
      · rw [hn', hn] at hqueue
        rw [hn', Function.update_self]
        refine ⟨fun he' => ?_, nofun⟩
        have hfd := hqueue.1 (.inr he')
        rw [Option.some.inj hfd] at hnodup
        exact absurd (List.mem_map_of_mem he') hnodup
      · rw [Function.update_of_ne hne, ← hqueue]
        refine ⟨.inr, fun he' => ?_⟩
        rcases he' with rfl | he'
        · exact absurd howner hne
        · exact he'
    · have := h.owned.give h.places.nodup hn
      rwa [herase] at this
    · have hmem : e.fd ∈ w.queue.map (·.fd) := by
        rw [hlive]
        exact List.mem_cons_self
      have := h.places.release hmem
      rwa [Arena.release, DatabaseWorker.places, herase] at this
    · rcases List.mem_append.1 hfd with hfd | hfd
      · have hmem := List.mem_of_mem_head? (Option.mem_toList.1 hfd)
        refine h.places.lt ?_
        rw [DatabaseWorker.places, hlive]
        exact List.mem_cons_of_mem _ hmem
      · exact h.fresh fd hfd
    · rcases List.mem_cons.1 hp with rfl | hp
      · exact howner.symm
      · exact h.unlocks p hp
    · have hfits := h.session m s hne hs
      rw [Function.update_of_ne hne]
      cases hm : ticket m with
      | none =>
        rw [hm] at hfits
        exact hfits.of_none
      | some fd =>
        have hother : w.head ≠ some fd := by
          rintro hfd
          exact hne (h.owned.ext m n fd hm (hhead.trans hfd))
        rw [hm] at hfits
        refine ⟨?_, hfits.handler, hfits.closing, hfits.loggedIn⟩
        have hplace := hfits.place
        cases hwait : s.wait with
        | lock fd' left =>
          rw [hwait] at hplace
          obtain ⟨rfl⟩ := Option.some.inj hplace.1
          refine ⟨rfl, hplace.2.1, ?_⟩
          rw [List.mem_append, Option.mem_toList]
          have hnot : fd ∉ w.written := fun hfd => hother (hplace.2.2.1 hfd)
          rw [or_iff_left hnot]
          exact Iff.of_eq (congrArg (· = some fd) List.head?_map)
        | query mask left =>
          rw [hwait] at hplace
          exact absurd hplace.1.symm hother
        | none | channel | never =>
          rw [hwait] at hplace
          cases hplace.1
    · rw [Function.update_of_ne hne]
      exact h.absent m hne hs

/-! ### Requests and nodes -/

theorem Around.openRequest (h : Around ticket w n none own) :
    Around ticket { w with requests := w.requests.alloc } n (some w.requests.next) own := by
  refine ⟨h.queue, h.owned, h.places, h.fresh, h.unlocks, h.session, h.absent,
    ⟨h.requests.1.alloc, ?_⟩, h.nodes⟩
  have := h.requests.2.take (Function.update_self ..) h.requests.1.next_not_mem
  rwa [Function.update_idem] at this

theorem Around.closeRequest {r : ℕ} (h : Around ticket w n (some r) own) :
    Around ticket { w with requests := w.requests.release r } n none own := by
  have hn : Function.update (fun m => (w.session m).bind LockSession.request) n (some r) n = some r :=
    Function.update_self ..
  refine ⟨h.queue, h.owned, h.places, h.fresh, h.unlocks, h.session, h.absent,
    ⟨h.requests.1.release ((h.requests.2.mem r).2 ⟨n, hn⟩), ?_⟩, h.nodes⟩
  have := h.requests.2.give h.requests.1.nodup hn
  rwa [Function.update_idem] at this

theorem Around.loginNode (h : Around ticket w n request none) :
    Around ticket { w with nodes := w.nodes.alloc } n request (some w.nodes.next) := by
  refine ⟨h.queue, h.owned, h.places, h.fresh, h.unlocks, h.session, h.absent, h.requests,
    h.nodes.1.alloc, ?_⟩
  have := h.nodes.2.take (Function.update_self ..) h.nodes.1.next_not_mem
  rwa [Function.update_idem] at this

theorem Around.logoutNode {r : ℕ} (h : Around ticket w n request (some r)) :
    Around ticket { w with nodes := w.nodes.release r } n request none := by
  have hn : Function.update (fun m => (w.session m).bind LockSession.own) n (some r) n = some r :=
    Function.update_self ..
  refine ⟨h.queue, h.owned, h.places, h.fresh, h.unlocks, h.session, h.absent, h.requests,
    h.nodes.1.release ((h.nodes.2.mem r).2 ⟨n, hn⟩), ?_⟩
  have := h.nodes.2.give h.nodes.1.nodup hn
  rwa [Function.update_idem] at this

end Around

end Syrup
