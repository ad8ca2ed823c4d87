import Syrup.Login.Handover

/-!
# The phases of an account

An account is in one phase at a time (`AccountPhase`), and the phase tells which node it has, which session
is authenticated as it, and which character has been assigned (`InPhases`). A step changes the phase of one
account, or of none (`InPhases.change`).
-/

namespace Syrup

/-! ## The phases of an account -/

/-- The phases of an account: nobody is logged in; a session is; it waits for the channel to admit a
    character; the character has been admitted, and the session is still there; or it is not any more. -/
inductive AccountPhase (N : Type)
  | free
  | held (ref : ℕ) (n : N)
  | waiting (ref : ℕ) (n : N) (cid : UInt32) (fd : ℕ) (acked : Bool)
  | admitted (ref : ℕ) (n : N) (cid : UInt32)
  | playing (ref : ℕ) (cid : UInt32)

namespace AccountPhase

variable {N : Type}

/-- The node of the account in this phase. -/
def node (id : ℕ) : AccountPhase N → Option AccountNode
  | free => none
  | held ref _ => some ⟨ref, id, 0⟩
  | waiting ref _ _ _ _ => some ⟨ref, id, 0⟩
  | admitted ref _ cid => some ⟨ref, id, cid⟩
  | playing ref cid => some ⟨ref, id, cid⟩

/-- The session that is authenticated as the account. -/
def holder : AccountPhase N → Option N
  | held _ n => some n
  | waiting _ n _ _ _ => some n
  | admitted _ n _ => some n
  | _ => none

/-- The character that has been assigned to a channel. -/
def character : AccountPhase N → Option UInt32
  | waiting _ _ cid _ _ => some cid
  | admitted _ _ cid => some cid
  | playing _ cid => some cid
  | _ => none

/-- A session that does not wait for a channel, and is logged out if its client has disconnected. -/
def Free (session : AccountSession) : Prop :=
  match session.task with
  | .waiting _ _ _ => False
  | .loggingOut _ => True
  | _ => session.closing = false

/-- What a session is like that is authenticated as the account. -/
def Holds (n : N) (session : AccountSession) : AccountPhase N → Prop
  | held ref m => m = n ∧ session.node = some ref ∧ session.loggedIn = false ∧ Free session
  | waiting ref m cid fd acked => m = n ∧ session.node = some ref ∧ session.loggedIn = false ∧
    session.closing = false ∧ session.task = .waiting cid fd acked
  | admitted ref m _ => m = n ∧ session.node = some ref ∧ session.loggedIn = true ∧ Free session
  | _ => False

/-- What an assigned character is like. -/
def Admits (t : Token) : AccountPhase N → Prop
  | waiting _ _ cid fd acked => t.cid = cid ∧ t.fd = fd ∧ t.stage.acked = acked
  | admitted _ _ cid => t.cid = cid ∧ t.stage.acked = true
  | playing _ cid => t.cid = cid ∧ t.stage.acked = true
  | _ => False

end AccountPhase

/-- A session that is not logged in. -/
structure AccountSession.LoggedOut (session : AccountSession) : Prop where
  node : session.node = none
  account : session.account = none
  loggedIn : session.loggedIn = false
  task : session.task = .idle ∨ session.task = .loggingIn

/-- The accounts are in these phases. -/
structure InPhases {N : Type} (owner : UInt32 → Option ℕ) (phase : ℕ → AccountPhase N)
    (s : AccountServer N) : Prop where
  nodes : ∀ node, node ∈ s.accounts.nodes ↔ (phase node.id).node node.id = some node
  kept : s.accounts.Kept
  session : ∀ n session, s.session n = some session →
    session.LoggedOut ∨ ∃ id, session.account = some id ∧ (phase id).Holds n session
  holder : ∀ id n, (phase id).holder = some n →
    ∃ session, s.session n = some session ∧ session.account = some id
  token : ∀ t ∈ s.tokens, ∃ id, t.account = some id ∧ owner t.cid = some id ∧ t.cid ≠ 0 ∧
    (phase id).Admits t
  character : ∀ id, (phase id).character ≠ none → ∃ t ∈ s.tokens, t.account = some id
  same : ∀ t ∈ s.tokens, ∀ t' ∈ s.tokens, t.account = t'.account ∨ t.fd = t'.fd → t = t'
  fd : ∀ t ∈ s.tokens, t.fd < s.nextFd

section InPhases

variable {N : Type} {owner : UInt32 → Option ℕ} {phase : ℕ → AccountPhase N}
  {s s' : AccountServer N}

/-- What has to be shown when the phase of one account changes: what the account has, and that the others
    keep what they have. -/
structure InPhases.Changes (owner : UInt32 → Option ℕ) (s s' : AccountServer N) (id : ℕ)
    (p : AccountPhase N) : Prop where
  nodes : ∀ node, node ∈ s'.accounts.nodes ↔
    if node.id = id then p.node id = some node else node ∈ s.accounts.nodes
  kept : s'.accounts.Kept
  session : ∀ n session, s'.session n = some session → session.LoggedOut ∨
    (session.account = some id ∧ p.Holds n session) ∨
    (session.account ≠ some id ∧ s.session n = some session)
  holder : ∀ n, p.holder = some n → ∃ session, s'.session n = some session ∧ session.account = some id
  others : ∀ n session id', s.session n = some session → session.account = some id' → id' ≠ id →
    s'.session n = some session
  token : ∀ t ∈ s'.tokens,
    (t.account = some id ∧ owner t.cid = some id ∧ t.cid ≠ 0 ∧ p.Admits t) ∨
    (t.account ≠ some id ∧ t ∈ s.tokens)
  character : p.character ≠ none → ∃ t ∈ s'.tokens, t.account = some id
  tokens : ∀ t ∈ s.tokens, t.account ≠ some id → t ∈ s'.tokens
  same : ∀ t ∈ s'.tokens, ∀ t' ∈ s'.tokens, t.account = t'.account ∨ t.fd = t'.fd → t = t'
  fd : ∀ t ∈ s'.tokens, t.fd < s'.nextFd

/-- The phase of one account changes. -/
theorem InPhases.change (h : InPhases owner phase s) {id : ℕ} {p : AccountPhase N}
    (hc : InPhases.Changes owner s s' id p) : InPhases owner (Function.update phase id p) s' where
  nodes node := by
    rw [hc.nodes]
    split
    · rename_i hid
      rw [hid, Function.update_self]
    · rename_i hid
      rw [Function.update_of_ne hid]
      exact h.nodes node
  kept := hc.kept
  session n session hsession := by
    rcases hc.session n session hsession with hout | ⟨haccount, hholds⟩ | ⟨haccount, hsame⟩
    · exact .inl hout
    · exact .inr ⟨id, haccount, by rwa [Function.update_self]⟩
    · rcases h.session n session hsame with hout | ⟨id', hid', hholds⟩
      · exact .inl hout
      · refine .inr ⟨id', hid', ?_⟩
        rwa [Function.update_of_ne]
        rintro rfl
        exact haccount hid'
  holder id' n hholder := by
    rcases eq_or_ne id' id with rfl | hne
    · rw [Function.update_self] at hholder
      exact hc.holder n hholder
    · rw [Function.update_of_ne hne] at hholder
      obtain ⟨session, hsession, haccount⟩ := h.holder id' n hholder
      exact ⟨session, hc.others n session id' hsession haccount hne, haccount⟩
  token t ht := by
    rcases hc.token t ht with ⟨haccount, howner, hzero, hadmits⟩ | ⟨haccount, ht⟩
    · exact ⟨id, haccount, howner, hzero, by rwa [Function.update_self]⟩
    · obtain ⟨id', hid', howner, hzero, hadmits⟩ := h.token t ht
      refine ⟨id', hid', howner, hzero, ?_⟩
      rwa [Function.update_of_ne]
      rintro rfl
      exact haccount hid'
  character id' hcharacter := by
    rcases eq_or_ne id' id with rfl | hne
    · rw [Function.update_self] at hcharacter
      exact hc.character hcharacter
    · rw [Function.update_of_ne hne] at hcharacter
      obtain ⟨t, ht, haccount⟩ := h.character id' hcharacter
      refine ⟨t, hc.tokens t ht ?_, haccount⟩
      rw [haccount]
      exact fun heq => hne (Option.some.inj heq)
  same := hc.same
  fd := hc.fd

theorem AccountPhase.Holds.holder_eq {p : AccountPhase N} {n : N} {session : AccountSession}
    (h : p.Holds n session) : p.holder = some n := by
  cases p with
  | free | playing => exact h.elim
  | held | waiting | admitted => exact congrArg some h.1

/-- The session that is authenticated as an account. -/
theorem InPhases.holds (h : InPhases owner phase s) {n : N} {session : AccountSession} {id : ℕ}
    (hsession : s.session n = some session) (haccount : session.account = some id) :
    (phase id).Holds n session := by
  rcases h.session n session hsession with hout | ⟨id', hid', hholds⟩
  · cases hout.account.symm.trans haccount
  · obtain rfl := Option.some.inj (hid'.symm.trans haccount)
    exact hholds

theorem AccountPhase.node_id {p : AccountPhase N} {id : ℕ} {node : AccountNode}
    (h : p.node id = some node) : node.id = id := by
  cases p with
  | free => cases h
  | held | waiting | admitted | playing =>
    cases h
    rfl

/-- The node of an account. -/
theorem InPhases.mem_nodes (h : InPhases owner phase s) {id : ℕ} {node : AccountNode}
    (hnode : (phase id).node id = some node) : node ∈ s.accounts.nodes :=
  (h.nodes node).2 (by rwa [AccountPhase.node_id hnode])

/-- There is none while nobody is logged in. -/
theorem InPhases.free_of (h : InPhases owner phase s) {id : ℕ}
    (hid : ∀ node ∈ s.accounts.nodes, node.id ≠ id) : phase id = .free := by
  have hnone : (phase id).node id = none := by
    by_contra hne
    obtain ⟨node, hnode⟩ := Option.ne_none_iff_exists'.1 hne
    exact hid node (h.mem_nodes hnode) (AccountPhase.node_id hnode)
  cases hp : phase id with
  | free => rfl
  | held | waiting | admitted | playing =>
    rw [hp] at hnone
    cases hnone

section Sessions

variable [DecidableEq N]

theorem session_setSession {n m : N} {o : Option AccountSession} {session : AccountSession} :
    (s.setSession n o).session m = some session ↔
      (m = n ∧ o = some session) ∨ (m ≠ n ∧ s.session m = some session) := by
  rw [AccountServer.setSession]
  rcases eq_or_ne m n with rfl | hne
  · simp
  · simp [hne]

/-- A session that is not logged in is written back, or destroyed. -/
theorem InPhases.setSession_loggedOut (h : InPhases owner phase s) {n : N}
    {o : Option AccountSession} (hold : ∀ session ∈ s.session n, session.account = none)
    (ho : ∀ session ∈ o, session.LoggedOut) : InPhases owner phase (s.setSession n o) := by
  refine ⟨h.nodes, h.kept, fun m session hsession => ?_, fun id m hholder => ?_, h.token,
    h.character, h.same, h.fd⟩
  · rcases session_setSession.1 hsession with ⟨rfl, heq⟩ | ⟨-, hsession⟩
    · exact .inl (ho session heq)
    · exact h.session m session hsession
  · obtain ⟨session, hsession, haccount⟩ := h.holder id m hholder
    refine ⟨session, session_setSession.2 (.inr ⟨?_, hsession⟩), haccount⟩
    rintro rfl
    cases (hold session hsession).symm.trans haccount

/-- A session that is logged in is written back. -/
theorem InPhases.setSession_holds (h : InPhases owner phase s) {n : N}
    {session session' : AccountSession} {id : ℕ} (hsession : s.session n = some session)
    (haccount : session.account = some id) (haccount' : session'.account = some id)
    (hholds : (phase id).Holds n session') : InPhases owner phase (s.setSession n (some session')) := by
  refine ⟨h.nodes, h.kept, fun m session'' hsession'' => ?_, fun id' m hholder => ?_, h.token,
    h.character, h.same, h.fd⟩
  · rcases session_setSession.1 hsession'' with ⟨rfl, heq⟩ | ⟨-, hsession''⟩
    · obtain rfl := Option.some.inj heq
      exact .inr ⟨id, haccount', hholds⟩
    · exact h.session m session'' hsession''
  · obtain ⟨session'', hsession'', haccount''⟩ := h.holder id' m hholder
    rcases eq_or_ne m n with rfl | hne
    · obtain rfl := Option.some.inj (hsession.symm.trans hsession'')
      obtain rfl := Option.some.inj (haccount.symm.trans haccount'')
      exact ⟨session', session_setSession.2 (.inl ⟨rfl, rfl⟩), haccount'⟩
    · exact ⟨session'', session_setSession.2 (.inr ⟨hne, hsession''⟩), haccount''⟩

/-- The session of the account, or a session that is not logged in, is written back, and the account has a
    new phase: what this means for the sessions. -/
theorem InPhases.session_changes (h : InPhases owner phase s) {n : N} {id : ℕ} {p : AccountPhase N}
    {o : Option AccountSession}
    (hold : ∀ session ∈ s.session n, session.account = none ∨ session.account = some id)
    (hheld : ∀ m, (phase id).holder = some m → m = n)
    (ho : ∀ session ∈ o, session.LoggedOut ∨ (session.account = some id ∧ p.Holds n session))
    (m : N) (session : AccountSession) (hsession : (s.setSession n o).session m = some session) :
    session.LoggedOut ∨ (session.account = some id ∧ p.Holds m session) ∨
      (session.account ≠ some id ∧ s.session m = some session) := by
  rcases session_setSession.1 hsession with ⟨rfl, heq⟩ | ⟨hne, hsession⟩
  · exact (ho session heq).imp_right .inl
  · exact .inr (.inr ⟨fun haccount => hne (hheld m (h.holds hsession haccount).holder_eq), hsession⟩)

/-- And that the sessions of other accounts are as before. -/
theorem others_setSession {n : N} {id : ℕ} {o : Option AccountSession}
    (hold : ∀ session ∈ s.session n, session.account = none ∨ session.account = some id)
    (m : N) (session : AccountSession) (id' : ℕ) (hsession : s.session m = some session)
    (haccount : session.account = some id') (hne : id' ≠ id) :
    (s.setSession n o).session m = some session := by
  refine session_setSession.2 (.inr ⟨?_, hsession⟩)
  rintro rfl
  rcases hold session hsession with hnone | hid
  · cases hnone.symm.trans haccount
  · exact hne (Option.some.inj (haccount.symm.trans hid))

/-! ### What happens to a session that is not logged in -/

theorem AccountSession.LoggedOut.finish {session : AccountSession} (h : session.LoggedOut) :
    ∀ session' ∈ session.finish, session'.LoggedOut := by
  intro session' hsession'
  rw [AccountSession.finish] at hsession'
  split at hsession'
  · cases hsession'
  · cases hsession'
    exact ⟨h.node, h.account, h.loggedIn, .inl rfl⟩

theorem AccountSession.LoggedOut.disconnect {session : AccountSession} (h : session.LoggedOut)
    (locked : Bool) : ∀ session' ∈ session.disconnect locked, session'.LoggedOut := by
  intro session' hsession'
  rw [AccountSession.disconnect, if_neg (fun hnot => hnot.1 h.node)] at hsession'
  split at hsession'
  · cases hsession'
  · cases hsession'
    exact ⟨h.node, h.account, h.loggedIn, h.task⟩

/-! ### A login -/

/-- A session gets the node of an account. -/
theorem InPhases.hold (h : InPhases owner phase s) {n : N} {session session' : AccountSession} {id : ℕ}
    (hsession : s.session n = some session) (hnone : session.account = none)
    (hid : ∀ node ∈ s.accounts.nodes, node.id ≠ id) (haccount : session'.account = some id)
    (hholds : (AccountPhase.held s.accounts.next n : AccountPhase N).Holds n session') :
    InPhases owner (Function.update phase id (.held s.accounts.next n))
      ({ s with accounts := { s.accounts with
        nodes := ⟨s.accounts.next, id, 0⟩ :: s.accounts.nodes, next := s.accounts.next + 1 } }.setSession n
        (some session')) := by
  have hfree := h.free_of hid
  have hold : ∀ session ∈ s.session n, session.account = none ∨ session.account = some id := by
    intro session'' hsession''
    obtain rfl := Option.some.inj (hsession.symm.trans hsession'')
    exact .inl hnone
  have htokens : ∀ t ∈ s.tokens, t.account ≠ some id := by
    intro t ht heq
    obtain ⟨id', hid', -, -, hadmits⟩ := h.token t ht
    obtain rfl := Option.some.inj (heq.symm.trans hid')
    rw [hfree] at hadmits
    exact hadmits
  refine h.change ⟨fun node => ?_, h.kept.push id, ?_, fun m hm => ?_, ?_,
    fun t ht => .inr ⟨htokens t ht, ht⟩, fun hne => absurd rfl hne, fun t ht _ => ht, h.same, h.fd⟩
  · change node ∈ AccountNode.mk s.accounts.next id 0 :: s.accounts.nodes ↔ _
    rw [List.mem_cons]
    split
    · rename_i heq
      refine ⟨fun hnode => ?_, fun hnode => .inl (Option.some.inj hnode).symm⟩
      rcases hnode with rfl | hnode
      · rfl
      · exact absurd heq (hid node hnode)
    · rename_i hne
      exact ⟨fun hnode => hnode.resolve_left fun heq => hne (heq ▸ rfl), .inr⟩
  · refine h.session_changes hold (fun m hm => ?_) ?_
    · rw [hfree] at hm
      cases hm
    · intro session'' hsession''
      cases hsession''
      exact .inr ⟨haccount, hholds⟩
  · cases hm
    exact ⟨session', session_setSession.2 (.inl ⟨rfl, rfl⟩), haccount⟩
  · exact others_setSession hold

/-! ### A character is assigned -/

theorem InPhases.assign (h : InPhases owner phase s) {n : N} {session : AccountSession} {id ref : ℕ}
    {cid : UInt32} (hsession : s.session n = some session) (haccount : session.account = some id)
    (hp : phase id = .held ref n) (howner : owner cid = some id) (hzero : cid ≠ 0)
    (hclosing : session.closing = false) :
    InPhases owner (Function.update phase id (.waiting ref n cid s.nextFd false))
      ({ s with
        tokens := ⟨cid, s.nextFd, session.account, .requested⟩ :: s.tokens
        nextFd := s.nextFd + 1 }.setSession n
        (some { session with task := .waiting cid s.nextFd false })) := by
  have hholds := h.holds hsession haccount
  rw [hp] at hholds
  have hold : ∀ session ∈ s.session n, session.account = none ∨ session.account = some id := by
    intro session'' hsession''
    obtain rfl := Option.some.inj (hsession.symm.trans hsession'')
    exact .inr haccount
  have htokens : ∀ t ∈ s.tokens, t.account ≠ some id := by
    intro t ht heq
    obtain ⟨id', hid', -, -, hadmits⟩ := h.token t ht
    obtain rfl := Option.some.inj (heq.symm.trans hid')
    rw [hp] at hadmits
    exact hadmits
  refine h.change ⟨fun node => ?_, h.kept, ?_, fun m hm => ?_, ?_, ?_, fun _ =>
    ⟨_, List.mem_cons_self, haccount⟩, fun t ht _ => List.mem_cons_of_mem _ ht, ?_, ?_⟩
  · change node ∈ s.accounts.nodes ↔ _
    split
    · rename_i heq
      rw [h.nodes, heq, hp]
      rfl
    · rfl
  · refine h.session_changes hold (fun m hm => ?_) ?_
    · rw [hp] at hm
      cases hm
      rfl
    · intro session'' hsession''
      cases hsession''
      exact .inr ⟨haccount, rfl, hholds.2.1, hholds.2.2.1, hclosing, rfl⟩
  · cases hm
    exact ⟨_, session_setSession.2 (.inl ⟨rfl, rfl⟩), haccount⟩
  · exact others_setSession hold
  · intro t ht
    rcases List.mem_cons.1 ht with rfl | ht
    · exact .inl ⟨haccount, howner, hzero, rfl, rfl, rfl⟩
    · exact .inr ⟨htokens t ht, ht⟩
  · intro t ht t' ht' heq
    rcases List.mem_cons.1 ht with rfl | ht <;> rcases List.mem_cons.1 ht' with rfl | ht'
    · rfl
    · rcases heq with heq | heq
      · exact absurd (heq.symm.trans haccount) (htokens t' ht')
      · exact absurd heq.symm (Nat.ne_of_lt (h.fd t' ht'))
    · rcases heq with heq | heq
      · exact absurd (heq.trans haccount) (htokens t ht)
      · exact absurd heq (Nat.ne_of_lt (h.fd t ht))
    · exact h.same t ht t' ht' heq
  · intro t ht
    rcases List.mem_cons.1 ht with rfl | ht
    · exact Nat.lt_succ_self _
    · exact Nat.lt_succ_of_lt (h.fd t ht)

/-! ### The channel answers -/

omit [DecidableEq N] in
/-- What happens to the characters that leaves the acknowledgements as they are. -/
theorem InPhases.advance (h : InPhases owner phase s) (cid : UInt32) {f : TokenStage → TokenStage}
    (hf : ∀ stage, (f stage).acked = stage.acked) : InPhases owner phase (s.advance cid f) := by
  have htoken : ∀ t' ∈ (s.advance cid f).tokens, ∃ t ∈ s.tokens, t' =
      if t.cid = cid then { t with stage := f t.stage } else t := by
    intro t' ht'
    obtain ⟨t, ht, rfl⟩ := List.mem_map.1 ht'
    exact ⟨t, ht, rfl⟩
  refine ⟨h.nodes, h.kept, h.session, h.holder, fun t' ht' => ?_, fun id hid => ?_, ?_, ?_⟩
  · obtain ⟨t, ht, rfl⟩ := htoken t' ht'
    obtain ⟨id, hid, howner, hzero, hadmits⟩ := h.token t ht
    split
    · refine ⟨id, hid, howner, hzero, ?_⟩
      cases hp : phase id with
      | free | held =>
        rw [hp] at hadmits
        exact hadmits
      | waiting =>
        rw [hp] at hadmits
        exact ⟨hadmits.1, hadmits.2.1, (hf t.stage).trans hadmits.2.2⟩
      | admitted | playing =>
        rw [hp] at hadmits
        exact ⟨hadmits.1, (hf t.stage).trans hadmits.2⟩
    · exact ⟨id, hid, howner, hzero, hadmits⟩
  · obtain ⟨t, ht, haccount⟩ := h.character id hid
    refine ⟨_, List.mem_map_of_mem ht, ?_⟩
    split <;> exact haccount
  · intro t₁ ht₁ t₂ ht₂ heq
    obtain ⟨t, ht, rfl⟩ := htoken t₁ ht₁
    obtain ⟨t', ht', rfl⟩ := htoken t₂ ht₂
    have hkeeps (t : Token) : (if t.cid = cid then { t with stage := f t.stage } else t).account =
        t.account ∧ (if t.cid = cid then { t with stage := f t.stage } else t).fd = t.fd := by
      split <;> exact ⟨rfl, rfl⟩
    rw [(hkeeps t).1, (hkeeps t).2, (hkeeps t').1, (hkeeps t').2] at heq
    rw [h.same t ht t' ht' heq]
  · intro t₁ ht₁
    obtain ⟨t, ht, rfl⟩ := htoken t₁ ht₁
    split <;> exact h.fd t ht

theorem AccountSession.answer_of_ne {session : AccountSession} {fd : ℕ}
    (h : ∀ cid answered, session.task ≠ .waiting cid fd answered) : session.answer fd = session := by
  rw [AccountSession.answer.eq_def]
  split
  · rename_i cid fd' answered htask
    rw [if_neg]
    rintro rfl
    exact h cid answered htask
  · rfl

theorem AccountSession.answer_account {session : AccountSession} {fd : ℕ} :
    (session.answer fd).account = session.account := by
  rw [AccountSession.answer.eq_def]
  split
  · split <;> rfl
  · rfl

omit [DecidableEq N] in
/-- Only the session that has assigned a character waits for its `eventfd`. -/
theorem InPhases.answer_other (h : InPhases owner phase s) {t : Token} (ht : t ∈ s.tokens) {n : N}
    {session : AccountSession} (hsession : s.session n = some session)
    (hother : session.account ≠ t.account) : session.answer t.fd = session := by
  refine AccountSession.answer_of_ne fun cid answered htask => ?_
  rcases h.session n session hsession with hout | ⟨id, hid, hholds⟩
  · rcases hout.task with htask' | htask' <;> cases htask.symm.trans htask'
  · cases hp : phase id with
    | free | playing =>
      rw [hp] at hholds
      exact hholds
    | held | admitted =>
      rw [hp] at hholds
      have hfree := hholds.2.2.2
      rw [AccountPhase.Free, htask] at hfree
      exact hfree
    | waiting ref m cid' fd' acked =>
      rw [hp] at hholds
      cases htask.symm.trans hholds.2.2.2.2
      obtain ⟨t', ht', haccount'⟩ := h.character id (by rw [hp]; exact Option.some_ne_none _)
      obtain ⟨id', hid', -, -, hadmits⟩ := h.token t' ht'
      obtain rfl := Option.some.inj (haccount'.symm.trans hid')
      rw [hp] at hadmits
      obtain rfl := h.same t' ht' t ht (.inr hadmits.2.1)
      exact hother (hid.trans haccount'.symm)

/-- The phase of an account when the channel has answered. -/
def AccountPhase.answered : AccountPhase N → AccountPhase N
  | waiting ref n cid fd _ => waiting ref n cid fd true
  | p => p

omit [DecidableEq N] in
theorem AccountPhase.Holds.answer {p : AccountPhase N} {n : N} {session : AccountSession} {t : Token}
    (h : p.Holds n session) (hadmits : p.Admits t) : p.answered.Holds n (session.answer t.fd) := by
  cases p with
  | free | playing => exact h
  | held => exact hadmits.elim
  | admitted =>
    rw [AccountSession.answer_of_ne]
    · exact h
    · intro cid answered htask
      have hfree := h.2.2.2
      rw [AccountPhase.Free, htask] at hfree
      exact hfree
  | waiting ref m cid fd acked =>
    obtain ⟨rfl, hnode, hlogged, hclosing, htask⟩ := h
    rw [AccountSession.answer.eq_def, htask, hadmits.2.1]
    dsimp only
    rw [if_pos rfl]
    exact ⟨rfl, hnode, hlogged, hclosing, rfl⟩

/-- What the acknowledgement of a channel server does to a token. -/
def TokenStage.acknowledge : TokenStage → TokenStage
  | .requested => .requested
  | .online _ => .online true
  | .left _ => .left true

omit [DecidableEq N] in
theorem InPhases.ack (h : InPhases owner phase s) (cid : UInt32) :
    ∃ phase', InPhases owner phase' (s.ack cid) := by
  rw [AccountServer.ack]
  split
  · exact ⟨phase, h⟩
  split
  · exact ⟨phase, h⟩
  rename_i t hfind hstage
  have ht : t ∈ s.tokens := List.mem_of_find?_eq_some hfind
  have hcid : t.cid = cid := of_decide_eq_true (List.find?_some hfind :)
  obtain ⟨id, haccount, howner, hzero, hadmits⟩ := h.token t ht
  have hsame : ∀ t' ∈ s.tokens, t'.cid = cid ∨ t'.account = some id → t' = t := by
    intro t' ht' hor
    refine h.same t' ht' t ht (.inl ?_)
    rcases hor with hcid' | haccount'
    · obtain ⟨id', hid', howner', -, -⟩ := h.token t' ht'
      rw [hid', ← howner', hcid', ← hcid, howner, haccount]
    · rw [haccount', haccount]
  have hadmits' : (phase id).answered.Admits { t with stage := t.stage.acknowledge } := by
    have hacked : t.stage.acknowledge.acked = true := by
      cases hs : t.stage with
      | requested => exact absurd hs hstage
      | online | left => rfl
    cases hp : phase id with
    | free | held =>
      rw [hp] at hadmits
      exact hadmits
    | waiting =>
      rw [hp] at hadmits
      exact ⟨hadmits.1, hadmits.2.1, hacked⟩
    | admitted | playing =>
      rw [hp] at hadmits
      exact ⟨hadmits.1, hacked⟩
  have hnode : (phase id).answered.node id = (phase id).node id := by cases phase id <;> rfl
  have hholder : (phase id).answered.holder = (phase id).holder := by cases phase id <;> rfl
  refine ⟨Function.update phase id (phase id).answered, h.change ⟨fun node => ?_, h.kept,
    fun n session hsession => ?_, fun n hn => ?_, fun n session id' hsession hid' hne => ?_,
    fun t' ht' => ?_, fun _ => ?_, fun t' ht' hne => ?_, fun t₁ ht₁ t₂ ht₂ heq => ?_,
    fun t' ht' => ?_⟩⟩
  · split
    · rename_i heq
      rw [hnode, ← heq]
      exact h.nodes node
    · rfl
  · obtain ⟨session₀, hsession₀, rfl⟩ := Option.map_eq_some_iff.1 hsession
    by_cases hid : session₀.account = some id
    · exact .inr (.inl ⟨AccountSession.answer_account.trans hid, (h.holds hsession₀ hid).answer hadmits⟩)
    · rw [h.answer_other ht hsession₀ (haccount ▸ hid)]
      exact .inr (.inr ⟨hid, hsession₀⟩)
  · rw [hholder] at hn
    obtain ⟨session, hsession, hid⟩ := h.holder id n hn
    exact ⟨session.answer t.fd, Option.map_eq_some_iff.2 ⟨session, hsession, rfl⟩,
      AccountSession.answer_account.trans hid⟩
  · refine Option.map_eq_some_iff.2 ⟨session, hsession, h.answer_other ht hsession ?_⟩
    rw [hid', haccount]
    exact fun heq => hne (Option.some.inj heq)
  · obtain ⟨t₀, ht₀, rfl⟩ := List.mem_map.1 ht'
    split
    · rename_i heq
      obtain rfl := hsame t₀ ht₀ (.inl heq)
      exact .inl ⟨haccount, howner, hzero, hadmits'⟩
    · rename_i hne
      refine .inr ⟨fun heq => hne ?_, ht₀⟩
      rw [hsame t₀ ht₀ (.inr heq)]
      exact hcid
  · refine ⟨_, List.mem_map_of_mem ht, ?_⟩
    rw [if_pos hcid]
    exact haccount
  · refine List.mem_map.2 ⟨t', ht', if_neg fun heq => hne ?_⟩
    rw [hsame t' ht' (.inl heq)]
    exact haccount
  · obtain ⟨t, ht, rfl⟩ := List.mem_map.1 ht₁
    obtain ⟨t', ht', rfl⟩ := List.mem_map.1 ht₂
    rw [h.same t ht t' ht']
    split at heq <;> split at heq <;> exact heq
  · obtain ⟨t, ht, rfl⟩ := List.mem_map.1 ht'
    split <;> exact h.fd t ht

/-! ### The session resumes, and ends -/

omit [DecidableEq N] in
/-- The session of an account is the only one that may be written back for it. -/
theorem InPhases.own (h : InPhases owner phase s) {n : N} {session : AccountSession} {id : ℕ}
    (hsession : s.session n = some session) (haccount : session.account = some id) :
    (∀ session ∈ s.session n, session.account = none ∨ session.account = some id) ∧
      ∀ m, (phase id).holder = some m → m = n := by
  refine ⟨fun session' hsession' => ?_, fun m hm => ?_⟩
  · obtain rfl := Option.some.inj (hsession.symm.trans hsession')
    exact .inr haccount
  · exact Option.some.inj (hm.symm.trans (h.holds hsession haccount).holder_eq)

theorem InPhases.resume (h : InPhases owner phase s) {n : N} {session : AccountSession} {cid : UInt32}
    {fd : ℕ} (hsession : s.session n = some session) (htask : session.task = .waiting cid fd true) :
    ∃ s', s.resume n session cid = .ok s' ∧ ∃ phase', InPhases owner phase' s' := by
  rcases h.session n session hsession with hout | ⟨id, haccount, hholds⟩
  · rcases hout.task with htask' | htask' <;> cases htask.symm.trans htask'
  cases hp : phase id with
  | free | playing =>
    rw [hp] at hholds
    exact hholds.elim
  | held | admitted =>
    rw [hp] at hholds
    have hfree := hholds.2.2.2
    rw [AccountPhase.Free, htask] at hfree
    exact hfree.elim
  | waiting ref m cid' fd' acked =>
    rw [hp] at hholds
    obtain ⟨rfl, hnode, hlogged, hclosing, htask'⟩ := hholds
    cases htask.symm.trans htask'
    have hmem : (⟨ref, id, 0⟩ : AccountNode) ∈ s.accounts.nodes := h.mem_nodes (by rw [hp]; rfl)
    obtain ⟨hold, hheld⟩ := h.own hsession haccount
    have hset : s.accounts.accountSetCid ref cid = .ok (s.accounts.write ref cid) := by
      rw [AccountList.accountSetCid, h.kept.get hmem]
      rfl
    have hfinish : AccountSession.finish { session with loggedIn := true } =
        some { session with loggedIn := true, task := .idle } := by
      rw [AccountSession.finish, if_neg]
      rw [hclosing]
      exact Bool.false_ne_true
    refine ⟨{ s with accounts := s.accounts.write ref cid }.setSession m
        (AccountSession.finish { session with loggedIn := true }), ?_,
      Function.update phase id (.admitted ref m cid), h.change ⟨fun node => ?_, h.kept.write ref cid,
        ?_, fun n hn => ?_, others_setSession hold, fun t ht => ?_, fun _ => ?_, fun t ht _ => ht, h.same,
        h.fd⟩⟩
    · rw [AccountServer.resume, Exec.deref_eq_ok.2 hnode, Exec.ok_bind, hset]
      rfl
    · refine (h.kept.mem_write hmem cid).trans ?_
      split
      · rename_i hid
        refine ⟨?_, fun heq => .inl (Option.some.inj heq).symm⟩
        rintro (rfl | ⟨hnode, href⟩)
        · rfl
        · have heq := (h.nodes node).1 hnode
          rw [hid, hp] at heq
          cases heq
          exact absurd rfl href
      · rename_i hid
        refine ⟨?_, fun hnode => .inr ⟨hnode, fun href => hid ?_⟩⟩
        · rintro (rfl | ⟨hnode, -⟩)
          · exact absurd rfl hid
          · exact hnode
        · rw [h.kept.ext hnode hmem href]
    · refine h.session_changes hold hheld ?_
      rw [hfinish]
      rintro _ ⟨⟩
      exact .inr ⟨haccount, rfl, hnode, rfl, hclosing⟩
    · cases hn
      refine ⟨{ session with loggedIn := true, task := .idle }, ?_, haccount⟩
      rw [hfinish]
      exact session_setSession.2 (.inl ⟨rfl, rfl⟩)
    · by_cases hid : t.account = some id
      · obtain ⟨id', hid', howner, hzero, hadmits⟩ := h.token t ht
        obtain rfl := Option.some.inj (hid.symm.trans hid')
        rw [hp] at hadmits
        exact .inl ⟨hid, howner, hzero, hadmits.1, hadmits.2.2⟩
      · exact .inr ⟨hid, ht⟩
    · exact h.character id (by rw [hp]; exact Option.some_ne_none _)

theorem InPhases.logoutEnds (h : InPhases owner phase s) {n : N} {session : AccountSession}
    (hsession : s.session n = some session) (htask : session.task = .loggingOut true) :
    ∃ s', s.logoutEnds n session = .ok s' ∧ ∃ phase', InPhases owner phase' s' := by
  rcases h.session n session hsession with hout | ⟨id, haccount, hholds⟩
  · rcases hout.task with htask' | htask' <;> cases htask.symm.trans htask'
  obtain ⟨hold, hheld⟩ := h.own hsession haccount
  cases hp : phase id with
  | free | playing =>
    rw [hp] at hholds
    exact hholds.elim
  | waiting =>
    rw [hp] at hholds
    cases htask.symm.trans hholds.2.2.2.2
  | held ref m =>
    rw [hp] at hholds
    obtain ⟨rfl, hnode, hlogged, -⟩ := hholds
    have hmem : (⟨ref, id, 0⟩ : AccountNode) ∈ s.accounts.nodes := h.mem_nodes (by rw [hp]; rfl)
    have htokens : ∀ t ∈ s.tokens, t.account ≠ some id := by
      intro t ht heq
      obtain ⟨id', hid', -, -, hadmits⟩ := h.token t ht
      obtain rfl := Option.some.inj (heq.symm.trans hid')
      rw [hp] at hadmits
      exact hadmits
    have hlogout : s.accounts.accountLogout ref = .ok (s.accounts.free ref) := by
      rw [AccountList.accountLogout, h.kept.get hmem]
      rfl
    refine ⟨{ s with accounts := s.accounts.free ref }.setSession m none, ?_,
      Function.update phase id .free, h.change ⟨fun node => ?_, h.kept.free hmem, ?_, nofun,
        others_setSession hold, fun t ht => .inr ⟨htokens t ht, ht⟩, fun hne => absurd rfl hne,
        fun t ht _ => ht, h.same, h.fd⟩⟩
    · rw [AccountServer.logoutEnds, if_neg (by rw [hlogged]; exact Bool.false_ne_true),
        Exec.deref_eq_ok.2 hnode, Exec.ok_bind, hlogout]
      rfl
    · refine AccountList.mem_free.trans ?_
      split
      · rename_i hid
        refine ⟨fun hmem' => ?_, nofun⟩
        have heq := (h.nodes node).1 hmem'.1
        rw [hid, hp] at heq
        cases heq
        exact absurd rfl hmem'.2
      · rename_i hid
        refine ⟨And.left, fun hmem' => ⟨hmem', fun href => hid ?_⟩⟩
        rw [h.kept.ext hmem' hmem href]
    · exact h.session_changes hold hheld nofun
  | admitted ref m cid =>
    rw [hp] at hholds
    obtain ⟨rfl, hnode, hlogged, -⟩ := hholds
    refine ⟨s.setSession m none, ?_, Function.update phase id (.playing ref cid),
      h.change ⟨fun node => ?_, h.kept, ?_, nofun, others_setSession hold, fun t ht => ?_, fun _ => ?_,
        fun t ht _ => ht, h.same, h.fd⟩⟩
    · rw [AccountServer.logoutEnds, if_pos hlogged]
      rfl
    · split
      · rename_i hid
        refine (h.nodes node).trans ?_
        rw [hid, hp]
        rfl
      · rfl
    · exact h.session_changes hold hheld nofun
    · by_cases hid : t.account = some id
      · obtain ⟨id', hid', howner, hzero, hadmits⟩ := h.token t ht
        obtain rfl := Option.some.inj (hid.symm.trans hid')
        rw [hp] at hadmits
        exact .inl ⟨hid, howner, hzero, hadmits⟩
      · exact .inr ⟨hid, ht⟩
    · exact h.character id (by rw [hp]; exact Option.some_ne_none _)

/-! ### The character leaves -/

omit [DecidableEq N] in
/-- The node with the id of a character is that of its account. -/
theorem InPhases.node_of_cid (h : InPhases owner phase s) {node : AccountNode}
    (hnode : node ∈ s.accounts.nodes) (hcid : node.cid ≠ 0) : owner node.cid = some node.id := by
  have heq := (h.nodes node).1 hnode
  have hcharacter : (phase node.id).character = some node.cid := by
    cases hp : phase node.id with
    | free =>
      rw [hp] at heq
      cases heq
    | held | waiting =>
      rw [hp] at heq
      exact absurd (congrArg AccountNode.cid (Option.some.inj heq)).symm hcid
    | admitted | playing =>
      rw [hp] at heq
      exact congrArg some (congrArg AccountNode.cid (Option.some.inj heq))
  obtain ⟨t, ht, haccount⟩ := h.character node.id (by rw [hcharacter]; exact Option.some_ne_none _)
  obtain ⟨id, hid, howner, -, hadmits⟩ := h.token t ht
  obtain rfl := Option.some.inj (haccount.symm.trans hid)
  rw [← howner]
  refine congrArg owner ?_
  cases hp : phase node.id with
  | free | held =>
    rw [hp] at hadmits
    exact hadmits.elim
  | waiting | admitted | playing =>
    rw [hp] at hadmits hcharacter
    exact (Option.some.inj hcharacter).symm.trans hadmits.1.symm

omit [DecidableEq N] in
theorem InPhases.left (h : InPhases owner phase s) {cid : UInt32}
    (hended : ∀ t ∈ s.tokens, t.cid = cid → ∀ n, ∀ session ∈ s.session n,
      session.account ≠ t.account) : ∃ phase', InPhases owner phase' (s.left cid) := by
  rw [AccountServer.left]
  split
  swap
  · exact ⟨phase, h⟩
  rename_i hleft
  obtain ⟨t, ht, rfl, hstage⟩ := hleft
  obtain ⟨id, haccount, howner, hzero, hadmits⟩ := h.token t ht
  have hsame : ∀ t' ∈ s.tokens, t'.account = some id → t' = t := fun t' ht' hid =>
    h.same t' ht' t ht (.inl (hid.trans haccount.symm))
  have hended' : ∀ n session, s.session n = some session → session.account ≠ some id := by
    intro n session hsession hid
    exact hended t ht rfl n session hsession (hid.trans haccount.symm)
  have hplaying : ∃ ref, phase id = .playing ref t.cid := by
    have hholder (n : N) (hn : (phase id).holder = some n) : False := by
      obtain ⟨session, hsession, hid⟩ := h.holder id n hn
      exact hended' n session hsession hid
    cases hp : phase id with
    | free | held =>
      rw [hp] at hadmits
      exact hadmits.elim
    | waiting ref n | admitted ref n => exact (hholder n (by rw [hp]; rfl)).elim
    | playing ref cid =>
      rw [hp] at hadmits
      exact ⟨ref, by rw [hadmits.1]⟩
  obtain ⟨ref, hp⟩ := hplaying
  have hmem : (⟨ref, id, t.cid⟩ : AccountNode) ∈ s.accounts.nodes := h.mem_nodes (by rw [hp]; rfl)
  have hlogout : s.accounts.accountLogoutByCid t.cid = s.accounts.free ref := by
    obtain ⟨node, hfind⟩ : ∃ node, s.accounts.nodes.find? (·.cid = t.cid) = some node :=
      Option.isSome_iff_exists.1 (List.find?_isSome.2 ⟨_, hmem, decide_eq_true rfl⟩)
    have hnode := List.mem_of_find?_eq_some hfind
    have hcid : node.cid = t.cid := of_decide_eq_true (List.find?_some hfind :)
    have hid := h.node_of_cid hnode (hcid ▸ hzero)
    rw [hcid, howner] at hid
    have heq := (h.nodes node).1 hnode
    rw [← Option.some.inj hid, hp] at heq
    cases heq
    rw [AccountList.accountLogoutByCid, hfind]
  have hfilter : ∀ t' ∈ s.tokens, t'.account ≠ some id →
      t' ∈ s.tokens.filter fun t' => ¬(t'.cid = t.cid ∧ t'.stage = .left true) := by
    intro t' ht' hne
    refine List.mem_filter.2 ⟨ht', decide_eq_true fun heq => hne ?_⟩
    obtain ⟨id', hid', howner', -, -⟩ := h.token t' ht'
    rw [hid', ← howner', heq.1, howner]
  refine ⟨Function.update phase id .free, h.change ⟨fun node => ?_, ?_, fun n session hsession =>
    .inr (.inr ⟨hended' n session hsession, hsession⟩), nofun, fun n session _ hsession _ _ => hsession,
    fun t' ht' => ?_, fun hne => absurd rfl hne, hfilter, fun t₁ ht₁ t₂ ht₂ => ?_, fun t' ht' => ?_⟩⟩
  · dsimp only
    rw [hlogout]
    refine AccountList.mem_free.trans ?_
    split
    · rename_i hid
      refine ⟨fun hmem' => ?_, nofun⟩
      have heq := (h.nodes node).1 hmem'.1
      rw [hid, hp] at heq
      cases heq
      exact absurd rfl hmem'.2
    · rename_i hid
      refine ⟨And.left, fun hmem' => ⟨hmem', fun href => hid ?_⟩⟩
      rw [h.kept.ext hmem' hmem href]
  · dsimp only
    rw [hlogout]
    exact h.kept.free hmem
  · obtain ⟨ht', hnot⟩ := List.mem_filter.1 ht'
    refine .inr ⟨fun hid => of_decide_eq_true hnot ?_, ht'⟩
    rw [hsame t' ht' hid]
    exact ⟨rfl, hstage⟩
  · exact h.same t₁ (List.mem_of_mem_filter ht₁) t₂ (List.mem_of_mem_filter ht₂)
  · exact h.fd t' (List.mem_of_mem_filter ht')

/-! ### Every step -/

omit [DecidableEq N] in
/-- A session without a node is logged out. -/
theorem InPhases.loggedOut_of_node (h : InPhases owner phase s) {n : N} {session : AccountSession}
    (hsession : s.session n = some session) (hnode : session.node = none) : session.LoggedOut := by
  rcases h.session n session hsession with hout | ⟨id, -, hholds⟩
  · exact hout
  · cases hp : phase id with
    | free | playing =>
      rw [hp] at hholds
      exact hholds.elim
    | held | waiting | admitted =>
      rw [hp] at hholds
      cases hnode.symm.trans hholds.2.1

/-- A session that is logged in and does not wait for a channel goes on to do something else. -/
theorem InPhases.proceed (h : InPhases owner phase s) {n : N} {session session' : AccountSession}
    {id : ℕ} (hsession : s.session n = some session) (haccount : session.account = some id)
    (htask : session.task.onChannel = false)
    (hsame : session' = { session with closing := session'.closing, task := session'.task })
    (hfree : AccountPhase.Free session') : InPhases owner phase (s.setSession n (some session')) := by
  have hholds := h.holds hsession haccount
  rw [hsame] at hfree ⊢
  refine h.setSession_holds hsession haccount haccount ?_
  cases hp : phase id with
  | free | playing =>
    rw [hp] at hholds
    exact hholds
  | waiting =>
    rw [hp] at hholds
    rw [hholds.2.2.2.2] at htask
    cases htask
  | held | admitted =>
    rw [hp] at hholds
    exact ⟨hholds.1, hholds.2.1, hholds.2.2.1, hfree⟩

theorem InPhases.loginDone (h : InPhases owner phase s) {n : N} {session : AccountSession}
    (hsession : s.session n = some session) (htask : session.task = .loggingIn) {result : LoginResult}
    (hok : Orderly owner (.loginDone n result) s) :
    ∃ phase', InPhases owner phase' (s.loginDone n session result) := by
  have hold : session.account = none → ∀ session ∈ s.session n, session.account = none := by
    intro hnone session' hsession'
    obtain rfl := Option.some.inj (hsession.symm.trans hsession')
    exact hnone
  have hlogged (alloc : Bool) (id : ℕ) (hnode : session.node = none) :
      (s.accounts.accountLogin alloc id = (none, s.accounts) ∧ ∃ phase', InPhases owner phase'
        (s.setSession n (AccountSession.finish { session with node := none, account := none }))) ∨
      (s.accounts.accountLogin alloc id = (some s.accounts.next, { s.accounts with
        nodes := ⟨s.accounts.next, id, 0⟩ :: s.accounts.nodes, next := s.accounts.next + 1 }) ∧
        session.account = none ∧ ∀ node ∈ s.accounts.nodes, node.id ≠ id) := by
    have hout := h.loggedOut_of_node hsession hnode
    rw [AccountList.accountLogin]
    split
    · rename_i hnew
      exact .inr ⟨rfl, hout.account, hnew.2⟩
    · refine .inl ⟨rfl, phase, h.setSession_loggedOut (hold hout.account) ?_⟩
      exact AccountSession.LoggedOut.finish ⟨rfl, rfl, hout.loggedIn, hout.task⟩
  cases result with
  | rejected =>
    rcases h.session n session hsession with hout | ⟨id, haccount, hholds⟩
    · exact ⟨phase, h.setSession_loggedOut (hold hout.account) hout.finish⟩
    · have hnot : session.task.onChannel = false := by
        rw [htask]
        rfl
      have hclosing : session.closing = false := by
        cases hp : phase id with
        | free | playing =>
          rw [hp] at hholds
          exact hholds.elim
        | waiting =>
          rw [hp] at hholds
          exact hholds.2.2.2.1
        | held | admitted =>
          rw [hp] at hholds
          have hfree := hholds.2.2.2
          rw [AccountPhase.Free, htask] at hfree
          exact hfree
      refine ⟨phase, ?_⟩
      rw [AccountServer.loginDone, AccountSession.finish, if_neg (by rw [hclosing]; exact
        Bool.false_ne_true)]
      exact h.proceed hsession haccount hnot rfl hclosing
  | complete alloc id =>
    obtain ⟨hnode, hclosing⟩ := hok session hsession
    rw [AccountServer.loginDone]
    rcases hlogged alloc id hnode with ⟨hfails, hphase⟩ | ⟨hsucceeds, hnone, hid⟩
    · rw [hfails]
      exact hphase
    · have hopen : session.closing = false := by
        by_contra hclosed
        have hfails := hclosing (Bool.not_eq_false _ ▸ hclosed)
        rw [hsucceeds] at hfails
        cases hfails
      rw [hsucceeds]
      dsimp only
      rw [AccountSession.finish, if_neg (by rw [hopen]; exact Bool.false_ne_true)]
      exact ⟨_, h.hold hsession hnone hid rfl
        ⟨rfl, rfl, (h.loggedOut_of_node hsession hnode).loggedIn, hopen⟩⟩
  | broken alloc id locked =>
    obtain ⟨hnode, rfl⟩ := hok session hsession
    rw [AccountServer.loginDone]
    rcases hlogged alloc id hnode with ⟨hfails, hphase⟩ | ⟨hsucceeds, hnone, hid⟩
    · rw [hfails]
      exact hphase
    · rw [hsucceeds]
      dsimp only
      rw [if_neg (Option.some_ne_none _), AccountSession.disconnect,
        if_pos ⟨Option.some_ne_none _, rfl⟩]
      exact ⟨_, h.hold hsession hnone hid rfl
        ⟨rfl, rfl, (h.loggedOut_of_node hsession hnode).loggedIn, trivial⟩⟩

/-- Whatever happens in an orderly way, the accounts are in some phases. -/
theorem InPhases.step (h : InPhases owner phase s) (e : AccountEvent N) (hok : Orderly owner e s) :
    ∃ s', e.step s = .ok s' ∧ ∃ phase', InPhases owner phase' s' := by
  have hself : ∃ phase', InPhases owner phase' s := ⟨phase, h⟩
  have hold {n : N} {session : AccountSession} (hsession : s.session n = some session)
      (hout : session.LoggedOut) : ∀ session ∈ s.session n, session.account = none := by
    intro session' hsession'
    obtain rfl := Option.some.inj (hsession.symm.trans hsession')
    exact hout.account
  cases e with
  | connect n =>
    refine ⟨_, rfl, ?_⟩
    split
    · rename_i hnone
      refine ⟨phase, h.setSession_loggedOut ?_ ?_⟩
      · rw [hnone]
        nofun
      · rintro _ ⟨⟩
        exact ⟨rfl, rfl, rfl, .inl rfl⟩
    · exact hself
  | login n =>
    rw [AccountEvent.step]
    cases hsession : s.session n with
    | none => exact ⟨_, rfl, hself⟩
    | some session =>
      refine ⟨_, rfl, ?_⟩
      split
      · rename_i hidle
        rcases h.session n session hsession with hout | ⟨id, haccount, hholds⟩
        · refine ⟨phase, h.setSession_loggedOut (hold hsession hout) ?_⟩
          rintro _ ⟨⟩
          exact ⟨hout.node, hout.account, hout.loggedIn, .inr rfl⟩
        · refine ⟨phase, h.proceed hsession haccount (by rw [hidle.1]; rfl) rfl ?_⟩
          exact Bool.eq_false_of_not_eq_true hidle.2
      · exact hself
  | loginDone n result =>
    rw [AccountEvent.step]
    cases hsession : s.session n with
    | none => exact ⟨_, rfl, hself⟩
    | some session =>
      refine ⟨_, rfl, ?_⟩
      split
      · exact h.loginDone hsession ‹_› hok
      · exact hself
  | assign n cid =>
    rw [AccountEvent.step]
    cases hsession : s.session n with
    | none => exact ⟨_, rfl, hself⟩
    | some session =>
      refine ⟨_, rfl, ?_⟩
      split
      · rename_i hidle
        obtain ⟨hne, hlogged, howner, hzero⟩ := hok session hsession
        obtain ⟨id, haccount⟩ := Option.ne_none_iff_exists'.1 hne
        have hholds := h.holds hsession haccount
        cases hp : phase id with
        | free | playing =>
          rw [hp] at hholds
          exact hholds.elim
        | waiting =>
          rw [hp] at hholds
          cases hidle.1.symm.trans hholds.2.2.2.2
        | admitted =>
          rw [hp] at hholds
          cases hlogged.symm.trans hholds.2.2.1
        | held ref m =>
          rw [hp] at hholds
          obtain rfl := hholds.1
          exact ⟨_, h.assign hsession haccount hp (howner.trans haccount) hzero
            (Bool.eq_false_of_not_eq_true hidle.2)⟩
      · exact hself
  | admitted cid =>
    refine ⟨_, rfl, phase, h.advance cid fun stage => ?_⟩
    cases stage <;> rfl
  | ack cid => exact ⟨_, rfl, h.ack cid⟩
  | resume n =>
    rw [AccountEvent.step]
    cases hsession : s.session n with
    | none => exact ⟨_, rfl, hself⟩
    | some session =>
      dsimp only
      split
      · exact h.resume hsession ‹_›
      · exact ⟨_, rfl, hself⟩
  | leave cid =>
    refine ⟨_, rfl, phase, h.advance cid fun stage => ?_⟩
    cases stage <;> rfl
  | left cid => exact ⟨_, rfl, h.left hok⟩
  | disconnect n locked =>
    rw [AccountEvent.step]
    cases hsession : s.session n with
    | none => exact ⟨_, rfl, hself⟩
    | some session =>
      refine ⟨_, rfl, ?_⟩
      split
      · exact hself
      · rcases h.session n session hsession with hout | ⟨id, haccount, hholds⟩
        · exact ⟨phase, h.setSession_loggedOut (hold hsession hout) (hout.disconnect locked)⟩
        · have hnode : session.node ≠ none := by
            intro hnone
            cases haccount.symm.trans (h.loggedOut_of_node hsession hnone).account
          obtain ⟨rfl, hnot⟩ := hok session hsession hnode
          rw [AccountSession.disconnect, if_pos ⟨hnode, rfl⟩]
          exact ⟨phase, h.proceed hsession haccount hnot rfl trivial⟩
  | logoutBegins n =>
    rw [AccountEvent.step]
    cases hsession : s.session n with
    | none => exact ⟨_, rfl, hself⟩
    | some session =>
      dsimp only
      split
      · rename_i htask
        rcases h.session n session hsession with hout | ⟨id, haccount, hholds⟩
        · rcases hout.task with htask' | htask' <;> cases htask.symm.trans htask'
        · have hread : ∃ ref, session.node = some ref ∧ ∃ node, s.accounts.get ref = .ok node := by
            cases hp : phase id with
            | free | playing =>
              rw [hp] at hholds
              exact hholds.elim
            | held | waiting | admitted =>
              rw [hp] at hholds
              exact ⟨_, hholds.2.1, _, h.kept.get (h.mem_nodes (by rw [hp]; rfl))⟩
          obtain ⟨ref, href, node, hnode⟩ := hread
          refine ⟨s.setSession n (some { session with task := .loggingOut true }), ?_, phase,
            h.proceed hsession haccount (by rw [htask]; rfl) rfl trivial⟩
          rw [Exec.deref_eq_ok.2 href, Exec.ok_bind, hnode]
          rfl
      · exact ⟨_, rfl, hself⟩
  | logoutEnds n =>
    rw [AccountEvent.step]
    cases hsession : s.session n with
    | none => exact ⟨_, rfl, hself⟩
    | some session =>
      dsimp only
      split
      · exact h.logoutEnds hsession ‹_›
      · exact ⟨_, rfl, hself⟩

end Sessions

end InPhases

instance {N : Type} [DecidableEq N] [Fintype N] (owner : UInt32 → Option ℕ) (e : AccountEvent N)
    (s : AccountServer N) : Decidable (Orderly owner e s) :=
  match e with
  | .loginDone n (.complete _ _) => inferInstanceAs (Decidable (∀ session ∈ s.session n, _))
  | .loginDone n (.broken _ _ _) => inferInstanceAs (Decidable (∀ session ∈ s.session n, _))
  | .assign n _ => inferInstanceAs (Decidable (∀ session ∈ s.session n, _))
  | .left cid => inferInstanceAs (Decidable (∀ t ∈ s.tokens, t.cid = cid → ∀ _, _))
  | .disconnect n _ => inferInstanceAs (Decidable (∀ session ∈ s.session n, _))
  | .connect _ | .login _ | .loginDone _ .rejected | .admitted _ | .ack _ | .resume _ | .leave _
  | .logoutBegins _ | .logoutEnds _ => inferInstanceAs (Decidable True)

end Syrup
