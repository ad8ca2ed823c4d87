import Syrup.Online.Agreed

/-!
# Runs of the login server and a channel server

* `online_run`: as long as no two messages arrive before the callback for the first one, the connection
  is only made again when no token is waited for, or after the channel server has been restarted, or
  when it has nothing to tell, and no token is assigned that is online, every message is read, and is about
  a character that is online, and every `eventfd` is written to once, or the answer is on the way;
* `online_disagree`: otherwise a message is left behind, or is about a character that is not in the set, or
  an answer never comes.
-/

namespace Syrup

open Network

section Run

variable {hash : UInt32 → UInt64} {roster : Roster} {s : Network} {tokens : List UInt32} {replied : Prop}

/-! ### What the channel server does -/

theorem writeUp_eq (s : Network) (bytes : List UInt8) :
    s.writeUp bytes = { s with up := if s.linked then s.up ++ bytes else s.up } := by
  rw [writeUp]
  split <;> rfl

theorem readTokens_short (alloc : UInt32 → Bool) {input : List UInt8} (h : input.length < 4) (s : Network) :
    readTokens alloc input s = { s with server := { s.server with input := input } } := by
  match input, h with
  | [], _ => rfl
  | [_], _ => rfl
  | [_, _], _ => rfl
  | [_, _, _], _ => rfl

/-- The loop that reads tokens acknowledges those that have come. -/
theorem readTokens_reports (alloc : UInt32 → Bool) {input rest : List UInt8}
    (hinput : input ++ rest = tokenCode.words () tokens) (s : Network) :
    ∃ ms tokens' pendings input', readTokens alloc input s = { s with
        server := { s.server with pendings := pendings, input := input' }
        up := if s.linked then s.up ++ messageCode.words () ms else s.up } ∧
      input'.length < 4 ∧ input' ++ rest = tokenCode.words () tokens' ∧
      Reports tokens s.server.known ms tokens' ({ s.server with pendings := pendings } : LoginPeer).known := by
  induction tokens generalizing input s with
  | nil =>
    obtain ⟨rfl, -⟩ := List.append_eq_nil_iff.1 hinput
    refine ⟨[], [], s.server.pendings, [], ?_, by decide, hinput, .nothing ..⟩
    rw [readTokens_short alloc (by decide)]
    simp
  | cons token tokens ih =>
    rcases tokenCode.cut hinput with ⟨-, hlt⟩ | ⟨input', rfl, hrest⟩
    · have hlt : input.length < 4 := hlt
      refine ⟨[], token :: tokens, s.server.pendings, input, ?_, hlt, hinput, .nothing ..⟩
      rw [readTokens_short alloc hlt]
      simp
    · set p : LoginPeer := { s.server with
        pendings := if alloc token then token :: s.server.pendings else s.server.pendings } with hp
      obtain ⟨ms, tokens', pendings, input'', heq, hshort, hwords, hreports⟩ := ih hrest
        ({ s with server := p }.writeUp (TokenMessage.acknowledgement token).bytes)
      rw [writeUp_eq] at hreports
      have hsubperm : p.known.Subperm (token :: s.server.known) := by
        rw [LoginPeer.known, hp]
        dsimp only
        split
        · exact .refl _
        · exact (List.sublist_cons_self ..).subperm
      refine ⟨.acknowledgement token :: ms, tokens', pendings, input'', ?_, hshort, hwords,
        .acknowledge hsubperm hreports⟩
      change readTokens alloc (_ :: _ :: _ :: _ :: input') s = _
      rw [readTokens, ofBytes32_bytes32]
      refine heq.trans ?_
      rw [writeUp_eq]
      cases hl : s.linked <;> simp [messageCode, hp]

/-- The loop that sends the tokens of sessions that have ended. -/
theorem flush_reports {head : List (UInt32 × Bool)} (hhead : s.server.head = head)
    (hnew : ∀ node ∈ head, node.2 = false) :
    ∃ ms, flush head s = { s with
        server := { s.server with head := [] }
        up := if s.linked then s.up ++ messageCode.words () ms else s.up } ∧
      Reports tokens s.server.known ms tokens ({ s.server with head := [] } : LoginPeer).known := by
  induction head generalizing s with
  | nil =>
    have hserver : ({ s.server with head := [] } : LoginPeer) = s.server := by rw [← hhead]
    refine ⟨[], ?_, ?_⟩
    · rw [hserver, flush]
      simp
    · rw [hserver]
      exact .nothing ..
  | cons node head ih =>
    obtain ⟨token, sent⟩ := node
    obtain rfl : sent = false := hnew _ List.mem_cons_self
    set p : LoginPeer := { s.server with head := head } with hp
    obtain ⟨ms, heq, hreports⟩ := ih (s := { s with server := p }.writeUp (TokenMessage.leave token).bytes)
      (by rw [writeUp_eq]) fun node hnode => hnew node (List.mem_cons_of_mem _ hnode)
    rw [writeUp_eq] at hreports
    have hsubperm : (token :: p.known).Subperm s.server.known := by
      rw [LoginPeer.known, LoginPeer.known, hhead]
      exact List.perm_middle.symm.subperm
    refine ⟨.leave token :: ms, ?_, .leave hsubperm hreports⟩
    rw [flush]
    refine heq.trans ?_
    rw [writeUp_eq]
    cases hl : s.linked <;> simp [messageCode, hp]

/-- What the channel server does leaves this of the state of both servers. -/
structure ServerActs (s s' : Network) : Prop where
  channel : s'.channel = s.channel
  linked : s'.linked = s.linked
  login : s'.server.login = s.server.login
  comes : ∀ tokens replied, s.Comes tokens replied → ∃ ms tokens',
    s'.up = (if s.linked then s.up ++ messageCode.words () ms else s.up) ∧
      Reports tokens s.server.known ms tokens' s'.server.known ∧ s'.Comes tokens' replied

variable {s' : Network} {p : LoginPeer}

theorem words_append (ms ms' : List TokenMessage) :
    messageCode.words () (ms ++ ms') = messageCode.words () ms ++ messageCode.words () ms' :=
  messageCode.words_append () ms ms'

theorem Network.Talks.acts (h : s.Talks roster) (hacts : ServerActs s s') (hlinked : s.linked = true) :
    s'.Talks roster := by
  obtain ⟨ms, tokens, hwords, hcomes, haccepts, hagrees, hanswerable⟩ := h
  obtain ⟨ms', tokens', hup, hreports, hcomes'⟩ := hacts.comes tokens True hcomes
  obtain ⟨haccepts', hagrees', hanswerable'⟩ := hreports.agrees hagrees
  refine ⟨ms ++ ms', tokens', ?_, hcomes', accepts_append.2 ⟨haccepts, haccepts'⟩, ?_, fun hlogin => ?_⟩
  · rw [hacts.channel, hup, if_pos hlinked, ← List.append_assoc, hwords, words_append]
  · rw [after_append]
    exact hagrees'
  · rw [after_append]
    exact hanswerable' (hanswerable (hacts.login.symm.trans hlogin))

theorem Network.Apart.acts (h : s.Apart roster) (hacts : ServerActs s s') : s'.Apart roster := by
  obtain ⟨tokens, hcomes, hnodup, hroster⟩ := h
  obtain ⟨ms, tokens', -, hreports, hcomes'⟩ := hacts.comes tokens False hcomes
  refine ⟨tokens', hcomes', nodup_of_subperm hreports.subperm hnodup, fun hclients token ht => ?_⟩
  rw [hacts.channel] at hclients
  exact hroster hclients token (hreports.subperm.subset ht)

/-- The channel server does something. -/
theorem Network.Sound.acts (h : s.Sound hash roster) (hacts : ServerActs s s') (hserver : s'.server.Keeps)
    (hgreets : s.linked = true → s.Greets roster → s'.Greets roster) : s'.Sound hash roster := by
  refine ⟨?_, hserver, ?_⟩
  · rw [hacts.channel]
    exact h.channel
  · have hphase := h.phase
    rw [hacts.linked, hacts.channel]
    split
    · rw [if_pos ‹_›] at hphase
      split
      · rw [if_pos ‹_›] at hphase
        exact hphase.acts hacts ‹_›
      · rw [if_neg ‹_›] at hphase
        exact hgreets ‹_› hphase
    · rw [if_neg ‹_›] at hphase
      exact ⟨hphase.1, hphase.2.acts hacts⟩

/-- The channel server forgets a token, or keeps it elsewhere. -/
theorem Network.Sound.forget (h : s.Sound hash roster) (hfirst : p.first = s.server.first)
    (hconnected : p.connected = s.server.connected) (hlogin : p.login = s.server.login)
    (hinput : p.input = s.server.input) (hknown : p.known.Subperm s.server.known) :
    Network.Sound hash { s with server := p } roster := by
  refine h.acts ⟨rfl, rfl, hlogin, fun tokens replied hcomes => ⟨[], tokens, ?_, .forget hknown (.nothing ..),
    ?_⟩⟩ ⟨fun hzero => ?_, ?_, ?_⟩ fun _ hgreets => ?_
  · simp
  · refine ⟨fun hp => hcomes.gone (hlogin.symm.trans hp), fun hp => ?_⟩
    obtain ⟨reply, hwords, htrue, hfalse⟩ := hcomes.bytes (hlogin.symm.trans hp)
    dsimp only
    rw [hinput, hconnected]
    exact ⟨reply, hwords, htrue, hfalse⟩
  · obtain ⟨hnone, hout⟩ := h.server.fresh (hfirst.symm.trans hzero)
    rw [hnone] at hknown
    exact ⟨List.subperm_nil.1 hknown, hlogin.trans hout⟩
  · dsimp only
    rw [hconnected, hinput, hlogin]
    exact h.server.unread
  · dsimp only
    rw [hconnected, hinput]
    exact h.server.quiet
  · obtain ⟨first, hup, hzero, hnodup, hroster, hbytes⟩ := hgreets
    refine ⟨first, hup, fun hf => ?_, nodup_of_subperm hknown hnodup,
      fun hclients token ht => hroster hclients token (hknown.subset ht), ?_⟩
    · rw [hzero hf] at hknown
      exact List.subperm_nil.1 hknown
    · dsimp only
      rw [hlogin, hinput, hconnected]
      exact hbytes

/-- The channel server tells that a character has left. -/
theorem Network.Sound.leave (h : s.Sound hash roster) {token : UInt32} (hfirst : p.first = s.server.first)
    (hconnected : p.connected = s.server.connected) (hlogin : p.login = s.server.login)
    (hinput : p.input = s.server.input) (hknown : (token :: p.known).Subperm s.server.known)
    (hc : s.server.connected = true) :
    ({ s with server := p }.writeUp (TokenMessage.leave token).bytes).Sound hash roster := by
  have hup := (h.server.unread hc).2
  have hsome : s.server.known ≠ [] := by
    intro hnone
    rw [hnone] at hknown
    exact absurd (List.subperm_nil.1 hknown) nofun
  rw [writeUp_eq]
  refine h.acts ⟨rfl, rfl, hlogin, fun tokens replied hcomes =>
    ⟨[.leave token], tokens, ?_, .leave hknown (.nothing ..), ?_⟩⟩ ⟨fun hzero => ?_, ?_, ?_⟩ fun _ hgreets => ?_
  · change _ = if s.linked then s.up ++ ((TokenMessage.leave token).bytes ++ []) else s.up
    rw [List.append_nil]
  · refine ⟨fun hp => hcomes.gone (hlogin.symm.trans hp), fun hp => ?_⟩
    obtain ⟨reply, hwords, htrue, hfalse⟩ := hcomes.bytes (hlogin.symm.trans hp)
    dsimp only
    rw [hinput, hconnected]
    exact ⟨reply, hwords, htrue, hfalse⟩
  · exact absurd (h.server.fresh (hfirst.symm.trans hzero)).1 hsome
  · dsimp only
    rw [hconnected, hinput, hlogin]
    exact h.server.unread
  · dsimp only
    rw [hconnected, hinput]
    exact h.server.quiet
  · obtain ⟨first, -, hzero, -, -, hbytes⟩ := hgreets
    exact absurd (hzero ((hbytes hup).2.1 hc)) hsome

/-- What `on_login_server_read` makes of the bytes that have come. -/
theorem onLoginServerRead_reports (alloc : UInt32 → Bool) (s : Network)
    (htrue : s.server.connected = true → s.server.input ++ s.down = tokenCode.words () tokens)
    (hfalse : s.server.connected = false → ∃ reset input, s.server.input = reset :: input ∧
      input.length < 4 ∧ input ++ s.down = tokenCode.words () tokens ∧
      (reset ≠ 1 → ∀ node ∈ s.server.head, node.2 = false)) :
    ∃ ms tokens' p, s.onLoginServerRead alloc = { s with
        server := p
        up := if s.linked then s.up ++ messageCode.words () ms else s.up } ∧
      p.first = s.server.first ∧ p.connected = true ∧ p.login = s.server.login ∧ p.input.length < 4 ∧
      Reports tokens s.server.known ms tokens' p.known ∧ p.input ++ s.down = tokenCode.words () tokens' := by
  rw [onLoginServerRead]
  split
  · obtain ⟨reset, input, hinput, hshort, hrest, hnew⟩ := hfalse (Bool.eq_false_iff.2 ‹_›)
    rw [hinput]
    dsimp only
    split
    · refine ⟨[], tokens, { s.server with input := input, connected := true }, ?_, rfl, rfl, rfl, hshort,
        .nothing .., hrest⟩
      simp
    · obtain ⟨ms, heq, hreports⟩ : ∃ ms, _ ∧ Reports tokens _ ms _ _ := flush_reports
        (s := { s with server := { s.server with input := input, connected := true } }) rfl (hnew ‹_›)
      exact ⟨ms, tokens, _, heq, rfl, rfl, rfl, hshort, hreports, hrest⟩
  · have hc : s.server.connected = true := not_not.1 ‹_›
    obtain ⟨ms, tokens', pendings, input', heq, hshort, hrest, hreports⟩ :=
      readTokens_reports alloc (htrue hc) s
    exact ⟨ms, tokens', _, heq, rfl, hc, rfl, hshort, hreports, hrest⟩

/-- Bytes come to the channel server. -/
theorem Network.Sound.channelReads (h : s.Sound hash roster) {count : ℕ} (alloc : UInt32 → Bool)
    (hlogin : s.server.login = true) (hcount : s.down.take count ≠ [])
    (hok : Smooth hash (.channelReads count alloc) s) :
    (({ s with
      server := { s.server with input := s.server.input ++ s.down.take count }
      down := s.down.drop count } : Network).onLoginServerRead alloc).Sound hash roster := by
  set t : Network := { s with
    server := { s.server with input := s.server.input ++ s.down.take count }
    down := s.down.drop count } with ht
  have hreads {tokens : List UInt32} {replied : Prop} (hcomes : s.Comes tokens replied) :
      ∃ ms tokens' p, t.onLoginServerRead alloc = { t with
          server := p
          up := if s.linked then s.up ++ messageCode.words () ms else s.up } ∧
        p.first = s.server.first ∧ p.connected = true ∧ p.login = true ∧ p.input.length < 4 ∧
        Reports tokens s.server.known ms tokens' p.known ∧
        p.input ++ s.down.drop count = tokenCode.words () tokens' := by
    obtain ⟨reply, hwords, htrue, hfalse⟩ := hcomes.bytes hlogin
    have hall : (s.server.input ++ s.down.take count) ++ s.down.drop count =
        reply ++ tokenCode.words () tokens := by
      rw [List.append_assoc, List.take_append_drop, hwords]
    have htrue' (hc : t.server.connected = true) : t.server.input ++ t.down = tokenCode.words () tokens := by
      rwa [htrue hc] at hall
    have hfalse' (hc : t.server.connected = false) : ∃ reset input, t.server.input = reset :: input ∧
        input.length < 4 ∧ input ++ t.down = tokenCode.words () tokens ∧
        (reset ≠ 1 → ∀ node ∈ t.server.head, node.2 = false) := by
      obtain ⟨hshort, hnew⟩ := hok hc
      have hquiet := h.server.quiet hc
      change ∃ reset input, s.server.input ++ s.down.take count = _ ∧ _
      rw [hquiet, List.nil_append] at hall hshort hnew ⊢
      cases htake : s.down.take count with
      | nil => exact absurd htake hcount
      | cons reset input =>
        rw [htake] at hall hshort hnew
        refine ⟨reset, input, rfl, Nat.succ_lt_succ_iff.1 hshort, ?_,
          fun hne => hnew fun hhead => hne (Option.some.inj hhead)⟩
        rcases hfalse hc with hlength | ⟨-, rfl, rfl⟩
        · obtain ⟨reset', rfl⟩ := List.length_eq_one_iff.1 hlength
          exact (List.cons.inj hall).2
        · cases hall
    obtain ⟨ms, tokens', p, heq, hfirst, hc, hp, hrest⟩ := onLoginServerRead_reports alloc t htrue' hfalse'
    exact ⟨ms, tokens', p, heq, hfirst, hc, hp.trans hlogin, hrest⟩
  obtain ⟨tokens, replied, hcomes⟩ : ∃ tokens replied, s.Comes tokens replied := by
    have hphase := h.phase
    split at hphase
    · split at hphase
      · obtain ⟨ms, tokens, -, hcomes, -⟩ := hphase
        exact ⟨tokens, True, hcomes⟩
      · obtain ⟨first, -, -, -, -, hbytes⟩ := hphase
        have hdown := (List.append_eq_nil_iff.1 (hbytes hlogin).1).2
        rw [hdown, List.take_nil] at hcount
        exact absurd rfl hcount
    · obtain ⟨-, tokens, hcomes, -⟩ := hphase
      exact ⟨tokens, False, hcomes⟩
  obtain ⟨ms, tokens', p, heq, hfirst, hc, hp, hshort, -⟩ := hreads hcomes
  refine h.acts ⟨?_, ?_, ?_, fun tokens replied hcomes => ?_⟩ ?_ fun hlinked hgreets => ?_
  · rw [heq]
  · rw [heq]
  · rw [heq]
    exact hp.trans hlogin.symm
  · obtain ⟨ms, tokens', p, heq, -, hc, hp, -, hreports, hrest⟩ := hreads hcomes
    rw [heq]
    refine ⟨ms, tokens', rfl, hreports, fun hnot => ?_, fun _ => ⟨[], hrest, fun _ => rfl, fun hnot => ?_⟩⟩
    · cases hp.symm.trans hnot
    · cases hc.symm.trans hnot
  · rw [heq]
    refine ⟨fun hzero => ?_, fun _ => ⟨hshort, hp⟩, fun hnot => ?_⟩
    · cases hlogin.symm.trans (h.server.fresh (hfirst.symm.trans hzero)).2
    · cases hc.symm.trans hnot
  · obtain ⟨first, -, -, -, -, hbytes⟩ := hgreets
    have hdown := (List.append_eq_nil_iff.1 (hbytes hlogin).1).2
    rw [hdown, List.take_nil] at hcount
    exact absurd rfl hcount

/-! ### Connections -/

/-- The channel server loses its end, or is restarted. -/
theorem Network.Sound.lost (h : s.Sound hash roster) (p : LoginPeer) (hp : p.connected = false)
    (hlogin : p.login = false) (hinput : p.input = []) (hfirst : p.first = 0 → p.known = [])
    (hknown : p.known.Subperm s.server.known) :
    Network.Sound hash { s with server := p, down := [] } roster := by
  have hcomes (replied : Prop) : Network.Comes { s with server := p, down := [] } [] replied :=
    ⟨fun _ => rfl, fun hnot => by cases hlogin.symm.trans hnot⟩
  refine ⟨h.channel, ⟨fun hzero => ⟨hfirst hzero, hlogin⟩, fun hnot => ?_, fun _ => hinput⟩, ?_⟩
  · cases hp.symm.trans hnot
  · have hphase := h.phase
    dsimp only
    split
    · rw [if_pos ‹_›] at hphase
      split
      · rw [if_pos ‹_›] at hphase
        obtain ⟨ms, tokens, hwords, -, haccepts, hagrees, -⟩ := hphase
        exact ⟨ms, [], hwords, hcomes True, haccepts, hagrees.lost.mono hknown,
          fun hnot => by cases hlogin.symm.trans hnot⟩
      · rw [if_neg ‹_›] at hphase
        obtain ⟨first, hup, hzero, hnodup, hroster, -⟩ := hphase
        refine ⟨first, hup, fun hf => ?_, nodup_of_subperm hknown hnodup,
          fun hclients token ht => hroster hclients token (hknown.subset ht),
          fun hnot => by cases hlogin.symm.trans hnot⟩
        have := hknown
        rw [hzero hf] at this
        exact List.subperm_nil.1 this
    · rw [if_neg ‹_›] at hphase
      obtain ⟨hconnected, tokens, -, hnodup, hroster⟩ := hphase
      refine ⟨hconnected, [], hcomes False,
        nodup_of_subperm hknown (List.nodup_append.1 hnodup).2.1, fun hclients token ht => ?_⟩
      exact hroster hclients token (List.mem_append_right _ (hknown.subset ht))

/-- The login server loses its end, or is restarted. -/
theorem Network.Sound.apart (h : s.Sound hash roster) {c : LoginChannel} {roster' : Roster}
    (hc : c.Keeps hash roster') (hconnected : c.connected = false)
    (hroster : c.clients ≠ none → s.channel.clients ≠ none ∧ roster' = roster) :
    Network.Sound hash { s with channel := c, linked := false } roster' := by
  refine ⟨hc, h.server, ?_⟩
  have happart : s.Apart roster := by
    have hphase := h.phase
    split at hphase
    · split at hphase
      · obtain ⟨ms, tokens, -, hcomes, -, hagrees, -⟩ := hphase
        refine ⟨tokens, ⟨hcomes.gone, fun hlogin => ?_⟩, hagrees.nodup,
          fun _ token ht => after_ne_none (hagrees.ne_none ht)⟩
        obtain ⟨reply, hwords, htrue, hfalse⟩ := hcomes.bytes hlogin
        exact ⟨reply, hwords, htrue, fun hnot => (hfalse hnot).imp id fun h => absurd trivial h.1⟩
      · obtain ⟨first, -, -, hnodup, hroster, hbytes⟩ := hphase
        exact ⟨[], ⟨fun _ => rfl, fun hlogin => ⟨[], (hbytes hlogin).1, fun _ => rfl,
          fun _ => .inr ⟨id, rfl, rfl⟩⟩⟩, hnodup, hroster⟩
    · exact hphase.2
  obtain ⟨tokens, hcomes, hnodup, hold⟩ := happart
  refine ⟨hconnected, tokens, ⟨hcomes.gone, hcomes.bytes⟩, hnodup, fun hclients => ?_⟩
  obtain ⟨hold', rfl⟩ := hroster hclients
  exact hold hold'

/-- The servers are connected. -/
theorem Network.Sound.accept (h : s.Sound hash roster) (hlinked : s.linked = false)
    (hlogin : s.server.login = false) : s.onLoginServerConnect.Sound hash roster := by
  have hphase := h.phase
  rw [hlinked, if_neg Bool.false_ne_true] at hphase
  obtain ⟨hconnected, tokens, hcomes, hnodup, hroster⟩ := hphase
  obtain rfl := hcomes.gone hlogin
  have hnot : s.server.connected = false := by
    rw [Bool.eq_false_iff]
    intro hc
    cases hlogin.symm.trans (h.server.unread hc).2
  refine ⟨h.channel, ⟨fun hzero => absurd hzero (by decide : (1 : UInt8) ≠ 0), fun _ => ⟨by
    show 0 < 4
    decide, rfl⟩, fun _ => rfl⟩, ?_⟩
  change if s.channel.connected then _ else _
  rw [hconnected, if_neg Bool.false_ne_true]
  refine ⟨s.server.first, rfl, fun hzero => (h.server.fresh hzero).1, hnodup, hroster, fun _ => ⟨rfl, ?_⟩⟩
  change (if s.server.first = 0 then true else s.server.connected) = true ↔ _
  rw [hnot]
  simp

/-! ### Sessions -/

/-- A session ends. -/
theorem known_erase {p : LoginPeer} {id : UInt32} (hid : id ∈ p.sessions) :
    p.known.Perm (id :: ({ p with sessions := p.sessions.erase id } : LoginPeer).known) := by
  have hsessions := List.perm_cons_erase hid
  exact List.Perm.append_right _ ((List.Perm.append_left p.pendings hsessions).trans List.perm_middle)

theorem Network.Sound.assignId (h : s.Sound hash roster) (id : UInt32) (inserted : Bool) :
    (s.sessionAssignId id inserted).Sound hash roster := by
  rw [sessionAssignId]
  split
  · have hpendings := List.perm_cons_erase ‹id ∈ s.server.pendings›
    have hmoved : (s.server.pendings.erase id ++ (id :: s.server.sessions)).Perm
        (s.server.pendings ++ s.server.sessions) :=
      List.perm_middle.trans (List.Perm.append_right _ hpendings.symm)
    refine h.forget rfl rfl rfl rfl ?_
    refine List.Subperm.trans ?_ (List.Perm.append_right _ hmoved).subperm
    refine (List.Sublist.append_right (List.Sublist.append_left ?_ _) _).subperm
    split
    · exact .refl _
    · exact List.sublist_cons_self ..
  · exact h

theorem Network.Sound.drained (h : s.Sound hash roster) : s.onLoginServerWrite.Sound hash roster := by
  rw [onLoginServerWrite]
  split
  · refine h.forget rfl rfl rfl rfl ?_
    exact (List.Sublist.append_left (List.nil_sublist _) _).subperm
  · exact h

theorem Network.Sound.destroySession (h : s.Sound hash roster) {id : UInt32} (hid : id ∈ s.server.sessions)
    (ok alloc : Bool) : (s.destroySession id ok alloc).Sound hash roster := by
  have hknown := known_erase hid
  have hless : ({ s.server with sessions := s.server.sessions.erase id } : LoginPeer).known.Subperm
      s.server.known := (List.sublist_cons_self ..).subperm.trans hknown.symm.subperm
  rw [Network.destroySession]
  dsimp only
  split
  · exact h.forget rfl rfl rfl rfl hless
  · split
    · obtain ⟨hc, -⟩ := ‹_ ∧ _›
      exact h.leave rfl rfl rfl rfl hknown.symm.subperm hc
    · split
      · exact h.forget rfl rfl rfl rfl (List.perm_middle.trans hknown.symm).subperm
      · exact h.forget rfl rfl rfl rfl hless

theorem Network.Sound.destroyPendingSession (h : s.Sound hash roster) {id : UInt32}
    (hid : id ∈ s.server.sessions) :
    ∃ s', s.destroyPendingSession id true = .ok s' ∧ s'.Sound hash roster := by
  have hknown := known_erase hid
  rw [Network.destroyPendingSession]
  dsimp only
  split
  · exact ⟨_, rfl, h.forget rfl rfl rfl rfl
      ((List.sublist_cons_self ..).subperm.trans hknown.symm.subperm)⟩
  · rw [if_neg (not_not_intro rfl)]
    refine ⟨_, rfl, ?_⟩
    cases hc : s.server.connected with
    | true =>
      rw [if_pos rfl]
      exact h.leave rfl hc.symm rfl rfl hknown.symm.subperm hc
    | false =>
      rw [if_neg Bool.false_ne_true]
      exact h.forget rfl hc.symm rfl rfl (List.perm_middle.trans hknown.symm).subperm

/-! ### What the login server does -/

theorem writeDown_eq (s : Network) (bytes : List UInt8) :
    s.writeDown bytes = { s with down := if s.server.login then s.down ++ bytes else s.down } := by
  rw [writeDown]
  split <;> rfl

/-- A token is sent to the channel server, if that is there. -/
theorem Network.Talks.assign (h : s.Talks roster) {id : UInt32} {chr : LoggedInCharacter} {fd : ℕ}
    (hnone : roster id = none) (hfd : chr.fd = some fd) {c : LoginChannel}
    (hinput : c.input = s.channel.input) :
    ({ s with channel := c }.writeDown (bytes32 id)).Talks (Function.update roster id (some chr)) := by
  obtain ⟨ms, tokens, hwords, hcomes, haccepts, hagrees, hanswerable⟩ := h
  obtain ⟨haccepts', hafter⟩ := haccepts.update chr hnone
  have hother {token : UInt32} (hmem : token ∈ tokens ++ s.server.known) : token ≠ id := by
    rintro rfl
    exact after_ne_none (hagrees.ne_none hmem) hnone
  have hheld (token : UInt32) (hk : token ∈ s.server.known) :
      ∃ chr', Function.update (after roster ms) id (some chr) token = some chr' ∧ chr'.fd = none := by
    rw [Function.update_of_ne (hother (List.mem_append_right _ hk))]
    exact hagrees.held token hk
  have hwaiting (token : UInt32) (ht : token ∈ tokens) :
      ∃ chr' fd, Function.update (after roster ms) id (some chr) token = some chr' ∧ chr'.fd = some fd := by
    rw [Function.update_of_ne (hother (List.mem_append_left _ ht))]
    exact hagrees.waiting token ht
  rw [writeDown_eq]
  cases hlogin : s.server.login with
  | true =>
    refine ⟨ms, tokens ++ [id], by rw [hinput]; exact hwords, ⟨fun hnot => ?_, fun _ => ?_⟩, haccepts', ?_,
      fun _ => ?_⟩
    · cases hlogin.symm.trans hnot
    · obtain ⟨reply, hbytes, htrue, hfalse⟩ := hcomes.bytes hlogin
      have happend : tokenCode.words () (tokens ++ [id]) = tokenCode.words () tokens ++ bytes32 id := by
        rw [tokenCode.words_append]
        exact congrArg _ (List.append_nil _)
      refine ⟨reply, ?_, htrue, fun hnot => .inl ((hfalse hnot).resolve_right fun h => h.1 trivial)⟩
      change s.server.input ++ (s.down ++ bytes32 id) = _
      rw [happend, ← List.append_assoc, hbytes, List.append_assoc]
    · rw [hafter]
      refine ⟨?_, hagrees.known_nodup, fun token ht => ?_, hheld⟩
      · refine List.nodup_append.2 ⟨hagrees.tokens_nodup, List.nodup_singleton id, ?_⟩
        rintro token ht _ hid rfl
        exact hother (List.mem_append_left _ ht) (List.mem_singleton.1 hid)
      · rcases List.mem_append.1 ht with ht | ht
        · exact hwaiting token ht
        · obtain rfl := List.mem_singleton.1 ht
          exact ⟨chr, fd, Function.update_self .., hfd⟩
    · rw [hafter]
      intro token chr' hchr' hfd'
      rcases eq_or_ne token id with rfl | hne
      · exact List.mem_append_right _ (List.mem_singleton_self _)
      · rw [Function.update_of_ne hne] at hchr'
        exact List.mem_append_left _ (hanswerable hlogin token chr' hchr' hfd')
  | false =>
    refine ⟨ms, tokens, by rw [hinput]; exact hwords, ⟨hcomes.gone, hcomes.bytes⟩, haccepts', ?_,
      fun hnot => ?_⟩
    · rw [hafter]
      exact ⟨hagrees.tokens_nodup, hagrees.known_nodup, hwaiting, hheld⟩
    · cases hlogin.symm.trans hnot

/-- A login server that is connected has read the first byte. -/
theorem Network.Sound.talks (h : s.Sound hash roster) (hconnected : s.channel.connected = true) :
    s.linked = true ∧ s.Talks roster := by
  have hphase := h.phase
  by_cases hlinked : s.linked = true
  · rw [if_pos hlinked, if_pos hconnected] at hphase
    exact ⟨hlinked, hphase⟩
  · rw [if_neg hlinked] at hphase
    cases hconnected.symm.trans hphase.1

/-- What is kept where the login server is connected. -/
theorem sound_of_talks (hchannel : s.channel.Keeps hash roster) (hserver : s.server.Keeps)
    (hlinked : s.linked = true) (hconnected : s.channel.connected = true) (h : s.Talks roster) :
    s.Sound hash roster := by
  refine ⟨hchannel, hserver, ?_⟩
  rw [if_pos hlinked, if_pos hconnected]
  exact h

/-- A token is assigned. -/
theorem Network.Sound.assign (h : s.Sound hash roster) {id : UInt32} (fd alloc : Bool)
    (hok : Smooth hash (.assign id fd alloc) s) :
    ∃ p, s.assignChannel hash id fd alloc = .ok p ∧ ∃ roster', p.2.Sound hash roster' := by
  rw [assignChannel]
  split
  · exact ⟨_, rfl, roster, h⟩
  · obtain ⟨-, hconnected⟩ := not_or.1 ‹_›
    rw [not_not] at hconnected
    obtain ⟨clients, hclients⟩ := Option.ne_none_iff_exists'.1 (h.channel.unread hconnected).2.2
    have hr := h.channel.represents hclients
    obtain ⟨inserted, clients', hinsert, hwf, hentries, -⟩ :=
      hashSetInsert_spec hr.wf alloc ⟨id, some s.channel.nextFd⟩
    rw [Exec.deref_eq_ok.2 hclients, Exec.ok_bind, hinsert, Exec.ok_bind]
    cases inserted with
    | false => exact ⟨_, rfl, roster, h⟩
    | true =>
      have hnone : roster id = none := (hr.get_eq id).symm.trans (hok clients hclients)
      have hchannel := h.channel.assign hconnected hnone hclients hwf (hentries rfl)
      obtain ⟨hlinked, htalks⟩ := h.talks hconnected
      refine ⟨_, rfl, Function.update roster id (some ⟨id, some s.channel.nextFd⟩), ?_⟩
      refine sound_of_talks ?_ ?_ ?_ ?_ (htalks.assign hnone rfl rfl)
      all_goals rw [writeDown_eq]
      · exact hchannel
      · exact h.server
      · exact hlinked
      · exact hconnected

/-- A message is read. -/
theorem Network.Sound.readsMessage (h : s.Sound hash roster) (hconnected : s.channel.connected = true)
    {input up : List UInt8} (hbytes : input ++ up = s.channel.input ++ s.up) (hnil : input ≠ [])
    (hlength : input.length < 10) (alloc create : Bool) :
    ∃ s', ({ s with channel := { s.channel with input := input }, up := up } : Network).onChannelRead
      hash alloc create = .ok s' ∧ ∃ roster', s'.Sound hash roster' := by
  obtain ⟨hlinked, ms, tokens, hwords, hcomes, haccepts, hagrees, hanswerable⟩ := h.talks hconnected
  obtain ⟨-, htimeouts, hsome⟩ := h.channel.unread hconnected
  obtain ⟨clients, hclients⟩ := Option.ne_none_iff_exists'.1 hsome
  have hr := h.channel.represents hclients
  rw [onChannelRead, if_neg (not_not_intro hconnected)]
  cases ms with
  | nil =>
    rw [hwords] at hbytes
    exact absurd (List.append_eq_nil_iff.1 hbytes).1 hnil
  | cons m ms =>
    rw [hwords] at hbytes
    rcases messageCode.cut hbytes with ⟨-, hlt⟩ | ⟨input', rfl, hrest⟩
    · have hlt : input.length < 5 := hlt
      dsimp only
      rw [take_eq_none hlt]
      refine ⟨_, rfl, roster, sound_of_talks ?_ h.server hlinked hconnected
        ⟨m :: ms, tokens, hbytes, ⟨hcomes.gone, hcomes.bytes⟩, haccepts, hagrees, hanswerable⟩⟩
      exact ⟨h.channel.clients, h.channel.eventfds, h.channel.online, h.channel.applied,
        fun _ => ⟨hlt, htimeouts, hsome⟩, fun hnot => by cases hconnected.symm.trans hnot⟩
    · have hshort : input'.length < 5 := by
        rw [List.length_append] at hlength
        change 5 + input'.length < 10 at hlength
        omega
      obtain ⟨hfits, haccepts'⟩ := haccepts
      have htalks (c : LoginChannel) (hc : c.input = input') :
          ({ s with channel := c, up := up } : Network).Talks (m.apply roster) :=
        ⟨ms, tokens, by rw [hc]; exact hrest, ⟨hcomes.gone, hcomes.bytes⟩, haccepts', hagrees, hanswerable⟩
      dsimp only
      rw [take_word]
      obtain ⟨action, token⟩ := m
      rcases hfits with ⟨rfl, chr, fd, hchr, hfd⟩ | ⟨rfl, chr, hchr, hfd⟩
      · dsimp only
        rw [if_pos rfl, Exec.deref_eq_ok.2 hclients, Exec.ok_bind, hr.get_eq, Exec.deref_eq_ok.2 hchr,
          Exec.ok_bind, hfd]
        exact ⟨_, rfl, _, sound_of_talks (h.channel.acknowledge hconnected hchr hfd hclients hshort) h.server
          hlinked hconnected (htalks _ rfl)⟩
      · obtain ⟨clients', hremove, hwf, hentries, -⟩ :=
          hashSetRemove_spec hr.wf alloc ((hr.get_eq token).trans hchr)
        dsimp only
        rw [if_neg (by decide), if_pos rfl, Exec.deref_eq_ok.2 hclients, Exec.ok_bind, hr.get_eq, hchr,
          hremove, Exec.ok_bind]
        exact ⟨_, rfl, _, sound_of_talks (h.channel.leave hconnected hchr hfd hclients hwf hentries hshort)
          h.server hlinked hconnected (htalks _ rfl)⟩

/-- The set that the login server makes. -/
theorem LoginChannel.Keeps.create {c : LoginChannel} (h : c.Keeps hash fun _ => none) (hc : c.clients = none)
    (hinput : c.input = []) (htimeouts : c.timeouts = false) :
    LoginChannel.Keeps hash { c with clients := LoginChannel.create true, connected := true }
      fun _ => none := by
  refine ⟨.of_entries_zero hashSetInit_wf hashSetInit_entries, ?_, h.online, h.applied,
    fun _ => ⟨?_, htimeouts, nofun⟩, nofun⟩
  · have heventfds := h.eventfds
    have hold : c.characters = [] := by
      rw [LoginChannel.characters, hc]
      rfl
    have hnew : (hashSetInit : HashSet LoggedInCharacter).records = [] := rfl
    rw [LoginChannel.eventfds, hold] at heventfds
    change Arena.Kept ⟨(hashSetInit : HashSet LoggedInCharacter).records.filterMap (·.fd), _, _⟩
    rw [hnew]
    exact heventfds
  · dsimp only
    rw [hinput]
    decide

/-- The first byte is answered. -/
theorem Network.Greets.reply (h : s.Greets roster) (hfirst : s.up ≠ [0]) {roster' : Roster} {c : LoginChannel}
    (byte : UInt8) (hinput : c.input = []) (hagrees : Agrees roster' [] s.server.known)
    (hanswerable : Answerable roster' []) :
    ({ s with channel := c, up := [] }.writeDown [byte]).Talks roster' := by
  obtain ⟨first, hup, -, -, -, hbytes⟩ := h
  rw [writeDown_eq]
  refine ⟨[], [], by rw [hinput]; rfl, ⟨fun _ => rfl, fun hlogin => ⟨[byte], ?_, fun hc => ?_, fun _ => .inl rfl⟩⟩,
    trivial, hagrees, fun _ => hanswerable⟩
  · have hlogin : s.server.login = true := hlogin
    obtain ⟨hnil, hdown⟩ := List.append_eq_nil_iff.1 (hbytes hlogin).1
    change s.server.input ++ (if s.server.login then s.down ++ [byte] else s.down) = _
    rw [if_pos hlogin, hnil, hdown]
    rfl
  · refine absurd ?_ hfirst
    rw [hup, (hbytes hlogin).2.1 hc]

/-- The first byte is read. -/
theorem Network.Sound.greet (h : s.Sound hash roster) (hconnected : s.channel.connected = false)
    (hlinked : s.linked = true) (htimeouts : s.channel.timeouts = false) {count : ℕ} {alloc create : Bool}
    (htake : s.up.take count ≠ []) (hok : Smooth hash (.loginReads count alloc create) s) :
    ∃ s', ({ s with
        channel := { s.channel with input := s.channel.input ++ s.up.take count }
        up := s.up.drop count } : Network).onChannelRead hash alloc create = .ok s' ∧
      ∃ roster', s'.Sound hash roster' := by
  have hgreets : s.Greets roster := by
    have hphase := h.phase
    rwa [if_pos hlinked, if_neg (by rw [hconnected]; simp)] at hphase
  have hquiet := h.channel.quiet hconnected
  obtain ⟨first, hup, hzero, hnodup, hroster, hbytes⟩ := id hgreets
  obtain ⟨hone, hrest⟩ : s.up.take count = [first] ∧ s.up.drop count = [] := by
    rw [hup] at htake ⊢
    cases count with
    | zero => exact absurd List.take_zero htake
    | succ count => exact ⟨by rw [List.take_succ_cons, List.take_nil], by rw [List.drop_succ_cons, List.drop_nil]⟩
  rw [Smooth, if_neg (by rw [hconnected]; simp), hquiet, List.nil_append, hone] at hok
  obtain ⟨rfl, hclients⟩ := hok
  have hchannel : LoginChannel.Keeps hash { s.channel with input := [] } roster :=
    ⟨h.channel.clients, h.channel.eventfds, h.channel.online, h.channel.applied,
      fun hc => (by cases hconnected.symm.trans hc), fun _ => rfl⟩
  rw [onChannelRead, if_pos (by rw [hconnected]; simp), Network.greet, hquiet, hone, hrest]
  dsimp only [List.nil_append]
  split
  · have hfirst : first = 0 := ‹_›
    obtain ⟨c, hleave, hc, -, hnone, hinput, htimeouts'⟩ := hchannel.leaveAll hconnected alloc
    rw [hleave, Exec.ok_bind]
    have hknown := hzero hfirst
    refine ⟨_, rfl, _, sound_of_talks (hc.create hnone hinput (htimeouts'.trans htimeouts)) h.server hlinked rfl
      ⟨[], [], ?_, ⟨fun _ => rfl, fun hlogin => ⟨[], (hbytes hlogin).1, fun _ => rfl, fun hnot => ?_⟩⟩, trivial,
        ?_, fun _ => by rintro _ _ ⟨⟩⟩⟩
    · change c.input ++ [] = _
      rw [hinput]
      rfl
    · cases hnot.symm.trans ((hbytes hlogin).2.2 hfirst)
    · change Agrees _ [] s.server.known
      rw [hknown]
      exact ⟨.nil, .nil, (by simp), (by simp)⟩
  · have hfirst : s.up ≠ [0] := by
      rw [hup]
      exact fun he => ‹¬first = 0› (List.cons.inj he).1
    have hclients := hclients.resolve_left fun he => ‹¬first = 0› (Option.some.inj he)
    cases hset : s.channel.clients with
    | none =>
      rw [hset] at hclients
      obtain ⟨hpendings, hsessions, hhead⟩ := hclients
      have hknown : s.server.known = [] := by
        rw [LoginPeer.known, hpendings, hsessions, hhead]
        rfl
      have hnone : roster = fun _ => none := by
        have := h.channel.clients
        rwa [hset] at this
      subst hnone
      refine ⟨_, rfl, fun _ => none, sound_of_talks ?_ ?_ ?_ ?_
        (hgreets.reply hfirst 1 rfl ?_ (by rintro _ _ ⟨⟩))⟩
      · rw [writeDown_eq]
        exact hchannel.create hset rfl htimeouts
      · rw [writeDown_eq]
        exact h.server
      · rw [writeDown_eq]
        exact hlinked
      · rw [writeDown_eq]
      · rw [hknown]
        exact ⟨.nil, .nil, (by simp), (by simp)⟩
    | some clients =>
      rw [hset] at hclients
      have hr := h.channel.represents hset
      have hfree {token : UInt32} {chr : LoggedInCharacter} (hchr : roster token = some chr) :
          chr.fd = none := by
        refine hclients chr ((hr.mem_records chr).2 ?_)
        rw [((hr.lookup token chr).1 hchr).2]
        exact hchr
      refine ⟨_, rfl, roster, sound_of_talks ?_ ?_ ?_ ?_ (hgreets.reply hfirst 0 rfl
        ⟨.nil, hnodup, (by simp), fun token ht => ?_⟩ fun token chr hchr hfd => absurd (hfree hchr) hfd)⟩
      · rw [writeDown_eq]
        have heventfds := h.channel.eventfds
        rw [LoginChannel.eventfds, LoginChannel.characters, hset] at heventfds
        exact ⟨hr, heventfds, h.channel.online, h.channel.applied,
          fun _ => ⟨Nat.zero_lt_succ 4, htimeouts, (by simp)⟩, (by simp)⟩
      · rw [writeDown_eq]
        exact h.server
      · rw [writeDown_eq]
        exact hlinked
      · rw [writeDown_eq]
      · obtain ⟨chr, hchr⟩ := Option.ne_none_iff_exists'.1
          (hroster (by rw [hset]; simp) token ht)
        exact ⟨chr, hchr, hfree hchr⟩

/-- The login server changes what it has of the characters, or not, while what has come stays. -/
theorem Network.Sound.rechannel (h : s.Sound hash roster) {c : LoginChannel} {roster' : Roster}
    (hc : c.Keeps hash roster') (hinput : c.input = s.channel.input)
    (hconnected : c.connected = s.channel.connected) (htalks : c.connected = true → roster' = roster)
    (hroster : c.clients ≠ none → s.channel.clients ≠ none ∧ roster' = roster) :
    Network.Sound hash { s with channel := c } roster' := by
  have hphase := h.phase
  refine ⟨hc, h.server, ?_⟩
  dsimp only
  split
  · rw [if_pos ‹_›] at hphase
    split
    · obtain rfl := htalks ‹_›
      rw [if_pos (hconnected.symm.trans ‹_›)] at hphase
      obtain ⟨ms, tokens, hwords, hcomes, haccepts⟩ := hphase
      refine ⟨ms, tokens, ?_, ⟨hcomes.gone, hcomes.bytes⟩, haccepts⟩
      change c.input ++ s.up = _
      rw [hinput]
      exact hwords
    · rw [hconnected] at *
      rw [if_neg ‹_›] at hphase
      obtain ⟨first, hup, hzero, hnodup, hold, hbytes⟩ := hphase
      refine ⟨first, hup, hzero, hnodup, fun hclients => ?_, hbytes⟩
      obtain ⟨hsome, rfl⟩ := hroster hclients
      exact hold hsome
  · rw [if_neg ‹_›] at hphase
    obtain ⟨hnot, tokens, hcomes, hnodup, hold⟩ := hphase
    refine ⟨hconnected.trans hnot, tokens, ⟨hcomes.gone, hcomes.bytes⟩, hnodup, fun hclients => ?_⟩
    obtain ⟨hsome, rfl⟩ := hroster hclients
    exact hold hsome

/-- A login server that still waits for the connection is not connected. -/
theorem LoginChannel.Keeps.not_connected {c : LoginChannel} (h : c.Keeps hash roster)
    (htimeouts : c.timeouts = true) : c.connected = false := by
  rw [Bool.eq_false_iff]
  intro hc
  cases htimeouts.symm.trans (h.unread hc).2.1

theorem Network.Sound.timeout (h : s.Sound hash roster) (htimeouts : s.channel.timeouts = true) (alloc : Bool) :
    ∃ s', s.onChannelTimeout hash alloc = .ok s' ∧ ∃ roster', s'.Sound hash roster' := by
  have hconnected := h.channel.not_connected htimeouts
  have hchannel (attempts : ℕ) : LoginChannel.Keeps hash { s.channel with attempts := attempts } roster :=
    ⟨h.channel.clients, h.channel.eventfds, h.channel.online, h.channel.applied, h.channel.unread,
      h.channel.quiet⟩
  rw [onChannelTimeout]
  split
  · dsimp only
    split
    · obtain ⟨c, hleave, hc, hnot, hnone, hinput, -⟩ :=
        (hchannel (s.channel.attempts + 1)).leaveAll hconnected alloc
      rw [hleave, Exec.ok_bind]
      exact ⟨_, rfl, _, h.rechannel hc hinput (hnot.trans hconnected.symm)
        (fun hyes => by cases hnot.symm.trans hyes) fun hsome => absurd hnone hsome⟩
    · exact ⟨_, rfl, roster, h.rechannel (hchannel _) rfl rfl (fun _ => rfl) fun hsome => ⟨hsome, rfl⟩⟩
  · exact ⟨s, rfl, roster, h⟩

/-- Whatever happens. -/
theorem Network.Sound.step (h : s.Sound hash roster) (e : OnlineEvent) (hok : Smooth hash e s) :
    ∃ s', e.step hash s = .ok s' ∧ ∃ roster', s'.Sound hash roster' := by
  cases e with
  | assign id fd alloc =>
    obtain ⟨p, hp, hsound⟩ := h.assign fd alloc hok
    exact ⟨p.2, by rw [OnlineEvent.step, hp]; rfl, hsound⟩
  | loginReads count alloc create =>
    rw [OnlineEvent.step]
    split
    · obtain ⟨hlinked, htimeouts, htake⟩ := ‹_ ∧ _›
      cases hconnected : s.channel.connected with
      | true =>
        rw [Smooth, if_pos hconnected] at hok
        refine h.readsMessage hconnected ?_ (fun hnil => ?_) hok alloc create
        · rw [List.append_assoc, List.take_append_drop]
        · exact htake (List.append_eq_nil_iff.1 hnil).2
      | false => exact h.greet hconnected hlinked (Bool.eq_false_iff.2 htimeouts) htake hok
    · exact ⟨s, rfl, roster, h⟩
  | channelReads count alloc =>
    rw [OnlineEvent.step]
    split
    · obtain ⟨hlogin, htake⟩ := ‹_ ∧ _›
      exact ⟨_, rfl, roster, h.channelReads alloc hlogin htake hok⟩
    · exact ⟨s, rfl, roster, h⟩
  | accept =>
    refine ⟨_, rfl, roster, ?_⟩
    split
    · exact h
    · obtain ⟨hlinked, hlogin⟩ := not_or.1 ‹_›
      exact h.accept (Bool.eq_false_iff.2 hlinked) (Bool.eq_false_iff.2 hlogin)
  | connected =>
    refine ⟨_, rfl, roster, h.rechannel ?_ rfl rfl (fun _ => rfl) fun hsome => ⟨hsome, rfl⟩⟩
    exact ⟨h.channel.clients, h.channel.eventfds, h.channel.online, h.channel.applied,
      fun hc => ⟨(h.channel.unread hc).1, rfl, (h.channel.unread hc).2.2⟩, h.channel.quiet⟩
  | timeout alloc =>
    rw [OnlineEvent.step]
    split
    · exact h.timeout ‹_› alloc
    · exact ⟨s, rfl, roster, h⟩
  | loginLost =>
    refine ⟨_, rfl, roster, h.apart ?_ rfl fun hsome => ⟨hsome, rfl⟩⟩
    exact ⟨h.channel.clients, h.channel.eventfds, h.channel.online, h.channel.applied, nofun, fun _ => rfl⟩
  | channelLost =>
    refine ⟨_, rfl, roster, ?_⟩
    split
    · exact h.lost _ rfl rfl rfl (fun hzero => (h.server.fresh hzero).1) (.refl _)
    · exact h
  | drained => exact ⟨_, rfl, roster, h.drained⟩
  | assignId id inserted => exact ⟨_, rfl, roster, h.assignId id inserted⟩
  | sessionEnds id ok alloc =>
    refine ⟨_, rfl, roster, ?_⟩
    split
    · exact h.destroySession ‹_› ok alloc
    · exact h
  | pendingEnds id alloc =>
    obtain rfl : alloc = true := hok
    rw [OnlineEvent.step]
    split
    · obtain ⟨s', hs', hsound⟩ := h.destroyPendingSession ‹_›
      exact ⟨s', hs', roster, hsound⟩
    · exact ⟨s, rfl, roster, h⟩
  | loginRestarts =>
    refine ⟨_, rfl, fun _ => none, h.apart ⟨rfl, Arena.kept_empty, fun _ => rfl, nofun, nofun, fun _ => rfl⟩
      rfl fun hsome => absurd rfl hsome⟩
  | channelRestarts =>
    exact ⟨_, rfl, roster, h.lost .start rfl rfl rfl (fun _ => rfl) (List.nil_subperm ..)⟩

theorem network_sound_start (hash : UInt32 → UInt64) : Network.start.Sound hash fun _ => none := by
  refine ⟨⟨rfl, Arena.kept_empty, fun _ => rfl, nofun, nofun, fun _ => rfl⟩,
    ⟨fun _ => ⟨rfl, rfl⟩, nofun, fun _ => rfl⟩, rfl, [], ⟨fun _ => rfl, nofun⟩, .nil, fun hsome => absurd rfl hsome⟩

/-- Where all this is kept, both servers agree. -/
theorem Network.Sound.agreed (h : s.Sound hash roster) : s.Agreed hash (Smooth hash) := by
  refine ⟨⟨?_, ?_⟩, h.channel.applied, fun id => ?_, h.channel.eventfds, fun hconnected hlogin chr hchr hfd => ?_,
    fun e hok => ?_⟩
  · cases hconnected : s.channel.connected with
    | true => exact (h.channel.unread hconnected).1
    | false =>
      rw [h.channel.quiet hconnected]
      decide
  · cases hconnected : s.server.connected with
    | true => exact (h.server.unread hconnected).1
    | false =>
      rw [h.server.quiet hconnected]
      decide
  · rw [h.channel.online, Option.isSome_iff_ne_none]
    cases hclients : s.channel.clients with
    | none =>
      have hnone := h.channel.clients
      rw [hclients] at hnone
      exact iff_of_false (fun hne => hne (congrFun hnone id)) nofun
    | some clients =>
      have hr := h.channel.represents hclients
      rw [← hr.get_eq id]
      exact ⟨fun hne => ⟨clients, rfl, hne⟩, fun ⟨_, heq, hne⟩ => Option.some.inj heq ▸ hne⟩
  · obtain ⟨hlinked, ms, tokens, hwords, hcomes, haccepts, hagrees, hanswerable⟩ := h.talks hconnected
    obtain ⟨clients, hclients⟩ := Option.ne_none_iff_exists'.1 (h.channel.unread hconnected).2.2
    rw [LoginChannel.characters_eq hclients] at hchr
    have hroster := ((h.channel.represents hclients).mem_records chr).1 hchr
    have hmessages : s.messages = ms := by
      rw [messages, hwords, messagesOf_words]
    have htokens : s.tokens = tokens := by
      obtain ⟨reply, hbytes, htrue, hfalse⟩ := hcomes.bytes hlogin
      rw [Network.tokens]
      cases hc : s.server.connected with
      | true =>
        rw [if_pos rfl, hbytes, htrue hc]
        exact tokensOf_words tokens
      | false =>
        obtain ⟨byte, rfl⟩ := List.length_eq_one_iff.1 ((hfalse hc).resolve_right fun h => h.1 trivial)
        rw [if_neg Bool.false_ne_true, hbytes]
        exact tokensOf_words tokens
    rw [hmessages, htokens]
    rcases haccepts.acknowledged hroster hfd with hack | hafter
    · exact .inr hack
    · exact .inl (hanswerable hlogin _ chr hafter hfd)
  · obtain ⟨s', hs', -⟩ := h.step e hok
    exact ⟨s', hs'⟩

end Run

/-- In whatever order all this happens, as long as it goes smoothly, both servers agree. -/
theorem online_run (hash : UInt32 → UInt64) {s : Network}
    (hrun : Machine.Run (OnlineEvent.step hash) (Smooth hash) .start s) : s.Agreed hash (Smooth hash) := by
  obtain ⟨roster, h⟩ : ∃ roster, s.Sound hash roster := by
    refine Machine.Run.invariant (I := fun s => ∃ roster, s.Sound hash roster) hrun
      ⟨_, network_sound_start hash⟩ fun e s s' hsound hok hstep => ?_
    obtain ⟨roster, hs⟩ := hsound
    obtain ⟨s'', hs'', hsound'⟩ := hs.step e hok
    rw [hstep] at hs''
    obtain rfl := Except.ok.inj hs''
    exact hsound'
  exact h.agreed

/-- A hash function. -/
def shortHash (n : UInt32) : UInt64 := n.toUInt64

/-- The servers are connected for the first time. -/
def connects : List OnlineEvent := [.accept, .connected, .loginReads 1 true true]

/-- They are connected again, and the channel server has the answer. -/
def reconnects : List OnlineEvent :=
  [.loginLost, .channelLost, .accept, .connected, .loginReads 1 true true, .channelReads 1 fun _ => true]

/-- Character `5` comes into the game. -/
def comesIn : List OnlineEvent :=
  [.assign 5 true true, .channelReads 4 fun _ => true, .loginReads 5 true true, .assignId 5 true]

/-- A character comes and leaves, and the servers are connected again. -/
theorem online_run_one : ∃ s : Network, s.Agreed shortHash (Smooth shortHash) ∧ s.channel.connected = true ∧
    s.server.connected = true ∧ s.channel.answers = [(0, 1)] ∧ s.channel.left = [5] := by
  have hes : ∃ s : Network, (connects ++ comesIn ++ [OnlineEvent.sessionEnds 5 true true, .loginReads 2 true true,
      .loginReads 3 true true] ++ reconnects).foldlM (Machine.checked (OnlineEvent.step shortHash)
        (Smooth shortHash) Fault.assertion) Network.start = .ok s ∧
      s.channel.connected = true ∧ s.server.connected = true ∧ s.channel.answers = [(0, 1)] ∧
      s.channel.left = [5] := by
    rw [← Exec.returns_iff]
    decide +kernel
  obtain ⟨s, hs, hconnected⟩ := hes
  exact ⟨s, online_run shortHash (.of_checked hs), hconnected⟩

/-- After these events the servers do not agree. -/
def Disagrees (es : List OnlineEvent) : Prop :=
  ∃ s : Network, es.foldlM (fun s e => OnlineEvent.step shortHash e s) .start = .ok s ∧
    Machine.Run (OnlineEvent.step shortHash) (fun _ _ => True) .start s ∧
    ¬s.Agreed shortHash fun _ _ => True

/-- A message has been left behind, or applied to a token that was not in the set, or an answer is not on its
    way, or the login server does not return from the next message. -/
theorem disagrees {es : List OnlineEvent}
    (h : ∃ s : Network, es.foldlM (fun s e => OnlineEvent.step shortHash e s) .start = .ok s ∧
      (5 ≤ s.channel.input.length ∨ (∃ b ∈ s.channel.applied, b = false) ∨
        (s.channel.connected = true ∧ s.server.login = true ∧ ∃ chr ∈ s.channel.characters, chr.fd ≠ none ∧
          chr.id ∉ s.tokens ∧ .acknowledgement chr.id ∉ s.messages) ∨
        ¬((OnlineEvent.loginReads 5 true true).step shortHash s).Returns fun _ => True)) : Disagrees es := by
  obtain ⟨s, hs, hwrong⟩ := h
  refine ⟨s, hs, .of_foldlM (fun _ _ _ => trivial) hs, fun h => ?_⟩
  rcases hwrong with hlength | ⟨b, hb, hfalse⟩ | ⟨hconnected, hlogin, chr, hchr, hfd, htoken, hmessage⟩ | hhangs
  · exact absurd h.unread.1 (not_lt.2 hlength)
  · cases hfalse.symm.trans (h.applied b hb)
  · exact (h.answerable hconnected hlogin chr hchr hfd).elim htoken hmessage
  · obtain ⟨s', hs'⟩ := h.returns (.loginReads 5 true true) trivial
    exact hhangs (Exec.returns_iff.2 ⟨s', hs', trivial⟩)

/-- Two acknowledgements arrive at a time, and one is left behind. The login server is restarted while a
    character is in the game, and is told that the character has left. The connection is lost while an
    acknowledgement is on its way, and is made again in time. A session that is pending ends, the connection is
    lost, and the channel server tells it twice: the login server looks for the token for ever. -/
theorem online_disagree :
    Disagrees (connects ++ [.assign 5 true true, .assign 6 true true, .channelReads 8 fun _ => true,
      .loginReads 10 true true]) ∧
    Disagrees (connects ++ comesIn ++ [.loginRestarts] ++ reconnects ++
      [.sessionEnds 5 true true, .loginReads 5 true true]) ∧
    Disagrees (connects ++ [.assign 5 true true, .channelReads 4 fun _ => true] ++ reconnects) ∧
    Disagrees (connects ++ comesIn ++ [.pendingEnds 5 true, .loginReads 5 true true] ++ reconnects) := by
  refine ⟨disagrees ?_, disagrees ?_, disagrees ?_, disagrees ?_⟩
  all_goals
    rw [← Exec.returns_iff]
    decide +kernel

end Syrup
