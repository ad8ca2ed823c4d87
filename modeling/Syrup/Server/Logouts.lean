import Syrup.Exec
import Syrup.Lib.Run

/-!
# Logouts

The part of `server.c` that tells the login server which sessions have ended. What has been told while
the login server is not there goes into a list of tokens, which is sent when it comes back and has
answered the handshake.

The callbacks of the connection, and the workers, take turns: the list and `connected` are locked.
`on_login_server_write` is called when all has been sent that has been written to the connection, the
handshake included; it clears the list, whatever has been written of it.

A session that has ended has a number, by which its node in the list is known. What has been written
to the present connection, and to any, and which nodes have been freed and whether they had been
written to the present connection, is kept for the statements.
-/

namespace Syrup

/-- `struct LoggedOutNode`, with the number of the session that has ended. -/
structure LoggedOutNode where
  session : ℕ
  token : UInt32
  deriving DecidableEq

/-- What a channel server knows about the login server; `login` tells if there is a connection. -/
structure LoginLink where
  first : UInt8
  connected : Bool
  login : Bool
  head : List LoggedOutNode
  ended : ℕ
  written : List ℕ
  reported : List ℕ
  freed : List (ℕ × Bool)

namespace LoginLink

/-- A server that has been started. -/
def start : LoginLink where
  first := 0
  connected := false
  login := false
  head := []
  ended := 0
  written := []
  reported := []
  freed := []

variable (l : LoginLink)

/-- `bufferevent_write` of a logout, if it succeeds. -/
def report (ok : Bool) (session : ℕ) : LoginLink :=
  if ok then { l with written := l.written ++ [session], reported := l.reported ++ [session] } else l

/-- Frees the first node of the list. -/
def freeHead : LoginLink :=
  match l.head with
  | [] => l
  | node :: head =>
    { l with head := head, freed := l.freed ++ [(node.session, decide (node.session ∈ l.written))] }

/-- `on_login_server_connect`. It is only listened for the login server if it is not there; and the
    connection may not be `created`. -/
def onLoginServerConnect (created : Bool) : LoginLink :=
  if l.login ∨ ¬created then l
  else
    { l with
      login := true
      written := []
      first := 1
      connected := if l.first = 0 then true else l.connected }

/-- The loop of `on_login_server_read` that sends the list, `ok` being the outcomes of the writes. -/
def flush (ok : ℕ → Bool) : List LoggedOutNode → LoginLink → LoginLink
  | [], l => l
  | node :: nodes, l => flush ok nodes ((l.report (ok node.session) node.session).freeHead)

/-- `on_login_server_read`. The first byte is the answer to the handshake; if the login server has been
    reset, all sessions are kicked. (The characters that are announced later do not matter here.) -/
def onLoginServerRead (reset : UInt8) (ok : ℕ → Bool) : LoginLink :=
  if ¬l.login then l
  else if ¬l.connected then
    if reset = 1 then { l with connected := true }
    else { flush ok l.head l with connected := true }
  else l

/-- The loop of `on_login_server_write`. -/
def clear : List LoggedOutNode → LoginLink → LoginLink
  | [], l => l
  | _ :: nodes, l => clear nodes l.freeHead

/-- `on_login_server_write`. -/
def onLoginServerWrite : LoginLink := if l.login then clear l.head l else l

/-- `on_login_server_event`: the login server has gone. -/
def onLoginServerEvent : LoginLink :=
  if l.login then { l with connected := false, login := false } else l

/-- A node for the session that ends is put into the list. -/
def push (token : UInt32) : LoginLink := { l with head := ⟨l.ended, token⟩ :: l.head }

/-- `destroy_pending_session`, of a session with an id. -/
def destroyPendingSession (alloc ok : Bool) (token : UInt32) : Exec LoginLink :=
  if alloc then
    let l := l.push token
    let l := if l.connected then l.report ok l.ended else l
    return { l with ended := l.ended + 1 }
  else .error .nullPointer

/-- `destroy_session`, of a session with an id. -/
def destroySession (alloc ok : Bool) (token : UInt32) : LoginLink :=
  let l :=
    if l.connected ∧ ok then l.report true l.ended
    else if alloc then l.push token
    else l
  { l with ended := l.ended + 1 }

end LoginLink

/-- What happens. -/
inductive LoginEvent
  | connect (created : Bool)
  | read (reset : UInt8) (ok : ℕ → Bool)
  | drained
  | gone
  | pendingEnds (alloc ok : Bool) (token : UInt32)
  | sessionEnds (alloc ok : Bool) (token : UInt32)

/-- The server after it. -/
def LoginEvent.step : LoginEvent → LoginLink → Exec LoginLink
  | connect created, l => return l.onLoginServerConnect created
  | read reset ok, l => return l.onLoginServerRead reset ok
  | drained, l => return l.onLoginServerWrite
  | gone, l => return l.onLoginServerEvent
  | pendingEnds alloc ok token, l => l.destroyPendingSession alloc ok token
  | sessionEnds alloc ok token, l => return l.destroySession alloc ok token

/-! ## Logouts that are reported -/

/-- No logout is lost: a node has only been freed after it had been written to the connection that
    was up then, and who has ended is in the list, or has been reported. -/
structure NoneLost (l : LoginLink) : Prop where
  freed : ∀ f ∈ l.freed, f.2 = true
  kept : ∀ session < l.ended, (∃ node ∈ l.head, node.session = session) ∨ session ∈ l.reported

/-- What the callbacks must leave alone for that: the list is sent in the answer to the handshake, and
    until then nothing is to be cleared. Nobody is to be in the list if the login server comes for the
    first time, or has been reset; and all writes and allocations succeed. -/
def ReportSafe : LoginEvent → LoginLink → Prop
  | .connect created, l => l.login = false → created = true → l.first = 0 → l.head = []
  | .read reset ok, l => l.login = true → l.connected = false →
    (reset = 1 → l.head = []) ∧ ∀ node ∈ l.head, ok node.session = true
  | .drained, l => l.login = true → l.connected = false → l.head = []
  | .pendingEnds _ ok _, l => l.connected = true → ok = true
  | .sessionEnds alloc ok _, l => (l.connected = true → ok = true) ∧ (l.connected = false → alloc = true)
  | .gone, _ => True

/-- While the login server is connected, all that is in the list has been written to it. -/
structure InOrder (l : LoginLink) : Prop extends NoneLost l where
  connected : l.connected = true → ∀ node ∈ l.head, node.session ∈ l.written
  login : l.connected = true → l.login = true
  written : ∀ session ∈ l.written, session ∈ l.reported

theorem inOrder_start : InOrder .start := ⟨⟨nofun, nofun⟩, nofun, nofun, nofun⟩

namespace InOrder

variable {l l' : LoginLink}

/-- The first node is freed, which has been written. -/
theorem freeHead {node : LoggedOutNode} {nodes : List LoggedOutNode} (h : NoneLost l)
    (hhead : l.head = node :: nodes) (hwritten : node.session ∈ l.written)
    (hreported : ∀ session ∈ l.written, session ∈ l.reported) : NoneLost l.freeHead := by
  rw [LoginLink.freeHead, hhead]
  refine ⟨fun f hf => ?_, fun session hs => ?_⟩
  · rcases List.mem_append.1 hf with hf | hf
    · exact h.freed f hf
    · rw [List.mem_singleton.1 hf]
      exact decide_eq_true hwritten
  · rcases h.kept session hs with ⟨node', hnode', rfl⟩ | hr
    · rw [hhead] at hnode'
      rcases List.mem_cons.1 hnode' with rfl | hnode'
      · exact .inr (hreported _ hwritten)
      · exact .inl ⟨node', hnode', rfl⟩
    · exact .inr hr

/-- The list is cleared, all of which has been written. -/
theorem clear {nodes : List LoggedOutNode} (h : NoneLost l) (hhead : l.head = nodes)
    (hwritten : ∀ node ∈ nodes, node.session ∈ l.written)
    (hreported : ∀ session ∈ l.written, session ∈ l.reported) :
    NoneLost (LoginLink.clear nodes l) ∧ (LoginLink.clear nodes l).head = [] ∧
      (LoginLink.clear nodes l).written = l.written ∧
      (LoginLink.clear nodes l).reported = l.reported ∧
      (LoginLink.clear nodes l).login = l.login := by
  induction nodes generalizing l with
  | nil => exact ⟨h, hhead, rfl, rfl, rfl⟩
  | cons node nodes ih =>
    have hfree := freeHead h hhead (hwritten node List.mem_cons_self) hreported
    have hstep : l.freeHead.head = nodes ∧ l.freeHead.written = l.written ∧
        l.freeHead.reported = l.reported ∧ l.freeHead.login = l.login := by
      rw [LoginLink.freeHead, hhead]
      exact ⟨rfl, rfl, rfl, rfl⟩
    obtain ⟨hnodes, hw, hr, hlogin⟩ := hstep
    obtain ⟨hlost, hempty, hw', hr', hlogin'⟩ := ih hfree hnodes
      (fun node' hn => hw ▸ hwritten node' (List.mem_cons_of_mem _ hn)) (by rwa [hw, hr])
    exact ⟨hlost, hempty, hw'.trans hw, hr'.trans hr, hlogin'.trans hlogin⟩

/-- The list is sent. -/
theorem flush {ok : ℕ → Bool} {nodes : List LoggedOutNode} (h : NoneLost l) (hhead : l.head = nodes)
    (hok : ∀ node ∈ nodes, ok node.session = true)
    (hreported : ∀ session ∈ l.written, session ∈ l.reported) :
    NoneLost (LoginLink.flush ok nodes l) ∧ (LoginLink.flush ok nodes l).head = [] ∧
      (LoginLink.flush ok nodes l).login = l.login ∧
      ∀ session ∈ (LoginLink.flush ok nodes l).written,
        session ∈ (LoginLink.flush ok nodes l).reported := by
  induction nodes generalizing l with
  | nil => exact ⟨h, hhead, rfl, hreported⟩
  | cons node nodes ih =>
    rw [LoginLink.flush, hok node List.mem_cons_self, LoginLink.report, if_pos rfl]
    have hwrite : NoneLost { l with
        written := l.written ++ [node.session], reported := l.reported ++ [node.session] } :=
      ⟨h.freed, fun session hs => (h.kept session hs).imp_right (List.mem_append_left _)⟩
    have hreported' : ∀ session ∈ l.written ++ [node.session],
        session ∈ l.reported ++ [node.session] := by
      intro session hs
      rcases List.mem_append.1 hs with hs | hs
      · exact List.mem_append_left _ (hreported session hs)
      · exact List.mem_append_right _ hs
    have hfree := freeHead hwrite hhead (List.mem_append_right _ (List.mem_singleton_self _))
      hreported'
    rw [LoginLink.freeHead, hhead] at hfree ⊢
    exact ih hfree rfl (fun node' hn => hok node' (List.mem_cons_of_mem _ hn)) hreported'

/-- What is known of who has ended, after one more has. -/
theorem ended {head : List LoggedOutNode} {reported : List ℕ} (h : NoneLost l)
    (hhead : ∀ node ∈ l.head, node ∈ head) (hreported : ∀ session ∈ l.reported, session ∈ reported)
    (hnew : (∃ node ∈ head, node.session = l.ended) ∨ l.ended ∈ reported) (session : ℕ)
    (hs : session < l.ended + 1) : (∃ node ∈ head, node.session = session) ∨ session ∈ reported := by
  rcases Nat.lt_succ_iff_lt_or_eq.1 hs with hs | rfl
  · exact (h.kept session hs).imp (fun ⟨node, hnode, e⟩ => ⟨node, hhead node hnode, e⟩)
      (hreported session)
  · exact hnew

/-- A session that ends is written to the connection. -/
theorem report (h : InOrder l) (head : List LoggedOutNode)
    (hhead : head = l.head ∨ ∃ token, head = ⟨l.ended, token⟩ :: l.head) :
    InOrder { l with
      head := head, ended := l.ended + 1, written := l.written ++ [l.ended],
      reported := l.reported ++ [l.ended] } := by
  have hsub : ∀ node ∈ l.head, node ∈ head := by
    rcases hhead with rfl | ⟨token, rfl⟩
    · exact fun _ hnode => hnode
    · exact fun _ hnode => List.mem_cons_of_mem _ hnode
  refine ⟨⟨h.freed, ended h.toNoneLost hsub (fun _ => List.mem_append_left _)
    (.inr (List.mem_append_right _ (List.mem_singleton_self _)))⟩, fun hc node hnode => ?_, h.login,
    fun session hs => ?_⟩
  · rcases hhead with rfl | ⟨token, rfl⟩
    · exact List.mem_append_left _ (h.connected hc node hnode)
    · rcases List.mem_cons.1 hnode with rfl | hnode
      · exact List.mem_append_right _ (List.mem_singleton_self _)
      · exact List.mem_append_left _ (h.connected hc node hnode)
  · rcases List.mem_append.1 hs with hs | hs
    · exact List.mem_append_left _ (h.written session hs)
    · exact List.mem_append_right _ hs

/-- A session that ends while the login server is not there is put into the list. -/
theorem push {token : UInt32} (h : InOrder l) (hc : l.connected = false) :
    InOrder { l with head := ⟨l.ended, token⟩ :: l.head, ended := l.ended + 1 } := by
  refine ⟨⟨h.freed, ended h.toNoneLost (fun _ => List.mem_cons_of_mem _) (fun _ hs => hs)
    (.inl ⟨_, List.mem_cons_self, rfl⟩)⟩, fun hc' => ?_, h.login, h.written⟩
  cases hc.symm.trans hc'

theorem step {e : LoginEvent} (h : InOrder l) (hsafe : ReportSafe e l) (hcall : e.step l = .ok l') :
    InOrder l' := by
  cases e with
  | connect created =>
    cases hcall
    rw [LoginLink.onLoginServerConnect]
    split
    · exact h
    · rename_i hnew
      rw [not_or, not_not, Bool.not_eq_true] at hnew
      refine ⟨⟨h.freed, h.kept⟩, fun hc node hnode => ?_, fun _ => rfl, nofun⟩
      change (if l.first = 0 then true else l.connected) = true at hc
      split at hc
      · rename_i hfirst
        rw [hsafe hnew.1 hnew.2 hfirst] at hnode
        cases hnode
      · cases hnew.1.symm.trans (h.login hc)
  | read reset ok =>
    cases hcall
    rw [LoginLink.onLoginServerRead]
    split
    · exact h
    · rename_i hlogin
      rw [not_not] at hlogin
      split
      · rename_i hc
        rw [Bool.not_eq_true] at hc
        obtain ⟨hreset, hok⟩ := hsafe hlogin hc
        split
        · rename_i hone
          refine ⟨⟨h.freed, h.kept⟩, fun _ node hnode => ?_, fun _ => hlogin, h.written⟩
          rw [hreset hone] at hnode
          cases hnode
        · obtain ⟨hlost, hempty, hlogin', hwritten⟩ := flush h.toNoneLost rfl hok h.written
          refine ⟨⟨hlost.freed, hlost.kept⟩, fun _ node hnode => ?_, fun _ => ?_, hwritten⟩
          · rw [hempty] at hnode
            cases hnode
          · exact hlogin'.trans hlogin
      · exact h
  | drained =>
    cases hcall
    rw [LoginLink.onLoginServerWrite]
    split
    · rename_i hlogin
      have hall : ∀ node ∈ l.head, node.session ∈ l.written := by
        cases hc : l.connected with
        | true => exact h.connected hc
        | false =>
          rw [hsafe hlogin hc]
          exact nofun
      obtain ⟨hlost, hempty, hwritten, hreported, hlogin'⟩ :=
        clear h.toNoneLost rfl hall h.written
      refine ⟨hlost, fun _ node hnode => ?_, fun _ => hlogin'.trans hlogin, ?_⟩
      · rw [hempty] at hnode
        cases hnode
      · rw [hwritten, hreported]
        exact h.written
    · exact h
  | gone =>
    cases hcall
    rw [LoginLink.onLoginServerEvent]
    split
    · exact ⟨⟨h.freed, h.kept⟩, nofun, nofun, h.written⟩
    · exact h
  | pendingEnds alloc ok token =>
    change l.destroyPendingSession alloc ok token = .ok l' at hcall
    rw [LoginLink.destroyPendingSession] at hcall
    split at hcall
    · cases hcall
      cases hc : l.connected with
      | true =>
        rw [LoginLink.push, if_pos hc, LoginLink.report, hsafe hc]
        exact h.report _ (.inr ⟨token, rfl⟩)
      | false =>
        rw [LoginLink.push, if_neg (by simp [hc])]
        exact h.push hc
    · cases hcall
  | sessionEnds alloc ok token =>
    cases hcall
    rw [LoginLink.destroySession]
    cases hc : l.connected with
    | true =>
      rw [if_pos ⟨rfl, hsafe.1 hc⟩, LoginLink.report, if_pos rfl]
      exact h.report _ (.inl rfl)
    | false =>
      rw [if_neg (by simp), if_pos (hsafe.2 hc)]
      exact h.push hc

end InOrder

/-- No logout is lost in a run in which the list is not cleared before it has been sent. -/
theorem logouts_run {l : LoginLink} (hrun : Machine.Run LoginEvent.step ReportSafe .start l) :
    NoneLost l :=
  (hrun.invariant (I := InOrder) inOrder_start fun _ _ _ => InOrder.step).toNoneLost

/-- A session ends while the login server is away; it is told when the login server is back. -/
theorem logouts_run_back : ∃ l, NoneLost l ∧ l.head = [] ∧ 0 ∈ l.reported := by
  let away : LoginLink := { LoginLink.start with first := 1, head := [⟨0, 5⟩], ended := 1 }
  have haway : Machine.Run LoginEvent.step ReportSafe .start away := by
    refine .step (.sessionEnds true true 5) (.step .gone (.step (.connect true) .start ?_ rfl)
      trivial rfl) ?_ rfl
    · exact fun _ _ _ => rfl
    · exact ⟨nofun, fun _ => rfl⟩
  have hback : Machine.Run LoginEvent.step ReportSafe .start (away.onLoginServerConnect true) :=
    haway.step (.connect true) (fun _ _ h => absurd h (by decide)) rfl
  exact ⟨_, logouts_run (hback.step (.read 0 fun _ => true)
    (fun _ _ => ⟨fun h => absurd h (by decide), fun _ _ => rfl⟩) rfl), rfl, List.mem_singleton_self _⟩

/-- The handshake has been sent, but not answered, when the list is cleared. -/
theorem logouts_lost : ∃ l,
    Machine.Run LoginEvent.step (fun _ _ => True) .start l ∧ ¬NoneLost l := by
  let es : List LoginEvent :=
    [.connect true, .gone, .sessionEnds true true 5, .connect true, .drained]
  have hlost : (es.foldlM (fun l e => LoginEvent.step e l) LoginLink.start).Returns
      fun l => ((0, false) : ℕ × Bool) ∈ l.freed := by
    decide +kernel
  obtain ⟨l, hrun, hfreed⟩ := Exec.returns_iff.1 hlost
  exact ⟨l, .of_foldlM (fun _ _ _ => trivial) hrun, fun h => absurd (h.freed _ hfreed) (by decide)⟩

end Syrup
