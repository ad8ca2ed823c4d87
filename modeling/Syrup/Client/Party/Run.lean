import Syrup.Client.Party

/-!
# What becomes of invitations

All rooms are on the first thread, so that a command that finds its receiver is never processed: its
sender waits in the very worker that would have to read it (`called_deadlocks`). An invitation or a
rejection is harmless only if it finds nobody; then an inviter is told so, and the command is freed
(`invitations_run`).
-/

namespace Syrup

open HashSet PartyServer

variable {N : Type} {env : Env} {s s' : PartyServer N}

/-- A command has been sent, and not been processed yet. -/
def PartyServer.InFlight (s : PartyServer N) (k : ℕ) : Prop :=
  ∃ thread ticket sender, InPipe s.channel thread ticket ∧ s.ctx ticket = some (k, sender)

/-- Invitations have reached whom they name, and have been answered as what they are. -/
structure InvitationsRight (s : PartyServer N) : Prop where
  /-- An invitation is shown to the character it names, with the party and the name of the inviter. -/
  shown : ∀ command r party name, .shown command r (.invitation party name) ∈ s.log →
    ∃ k m receiver, command = some k ∧ .invited k m r.name receiver ∈ s.log ∧ m.name = name ∧
      m.party = some party ∧ ∃ p ∈ s.parties, p.id = party
  /-- Who is denied is shown a rejection, and never an invitation. -/
  denied : ∀ k m name a, .denied k m name (some a) ∈ s.log →
    ((∃ r, r.session = a.session ∧ .shown (some k) r (.statusMessage 23) ∈ s.log) ∨ s.InFlight k) ∧
      ∀ r party name, .shown (some k) r (.invitation party name) ∉ s.log
  /-- Who invites the member of a party is told that it is in one. -/
  taken : ∀ k m name a, .invited k m name (some a) ∈ s.log → a.party.isSome →
    (∃ r, r.session = m.session ∧ .shown (some k) r (.statusMessage 16) ∈ s.log) ∨ s.InFlight k
  /-- Who invites somebody who is not online is told that nobody has been found. -/
  absent : ∀ k m name, .invited k m name none ∈ s.log →
    .shown (some k) m (.statusMessage 19) ∈ s.log
  /-- A command is freed once, after it has been processed. -/
  freed : ∀ k < s.mallocs, s.frees k = 1 ∧ ¬s.InFlight k ∨ s.frees k = 0 ∧ s.InFlight k
  /-- Commands that are under way can be processed. -/
  live : ¬Deadlocked s.channel

/-! ## Commands that find nobody -/

/-- What has happened in a run in which commands have found nobody. -/
def Harmless (s : PartyServer N) : PartyEvent N → Prop
  | .invited k m _ receiver =>
    receiver = none ∧ .shown (some k) m (.statusMessage 19) ∈ s.log
  | .denied _ _ _ receiver => receiver = none
  | .shown _ _ packet => ∀ party name, packet ≠ .invitation party name

/-- No command is under way, and all have been freed. -/
structure Alone (s : PartyServer N) : Prop where
  idle : Idle s.channel
  log : ∀ e ∈ s.log, Harmless s e
  freed : ∀ k < s.mallocs, s.frees k = 1
  fresh : ∀ k, s.mallocs ≤ k → s.frees k = 0

theorem Harmless.mono {e : PartyEvent N} (h : Harmless s e) (hlog : s.log ⊆ s'.log) :
    Harmless s' e := by
  cases e with
  | invited k m name receiver => exact ⟨h.1, hlog h.2⟩
  | denied k m name receiver => exact h
  | shown command m packet => exact h

namespace Alone

theorem start : Alone (start : PartyServer N) :=
  ⟨idle_start, fun _ h => absurd h List.not_mem_nil, fun _ h => absurd h (Nat.not_lt_zero _),
    fun _ _ => rfl⟩

/-- What is in the channel, and who is a client, does not matter. -/
theorem congr (h : Alone s) (hidle : Idle s'.channel) (hlog : s'.log = s.log)
    (hmallocs : s'.mallocs = s.mallocs) (hfrees : s'.frees = s.frees) : Alone s' := by
  refine ⟨hidle, fun e he => ?_, ?_, ?_⟩
  · exact (h.log e (hlog ▸ he)).mono (hlog ▸ List.Subset.refl _)
  · rw [hmallocs, hfrees]
    exact h.freed
  · rw [hmallocs, hfrees]
    exact h.fresh

/-- A player is shown that a party has been created, or a message. -/
theorem shown (h : Alone s) (command : Option ℕ) (m : Member N) {packet : PartyPacket}
    (hpacket : ∀ party name, packet ≠ .invitation party name) :
    Alone (s.record (.shown command m packet)) := by
  refine ⟨h.idle, fun e he => ?_, h.freed, h.fresh⟩
  rcases List.mem_append.1 he with he | he
  · exact (h.log e he).mono (List.subset_append_left ..)
  · rw [List.mem_singleton.1 he]
    exact hpacket

/-- A command that has been allocated is freed. -/
theorem freed_malloc (h : Alone s) (cmd : ClientCommand) {k : ℕ} (hk : k < s.mallocs + 1) :
    ((s.malloc cmd).free s.mallocs).frees k = 1 := by
  change Function.update s.frees s.mallocs (s.frees s.mallocs + 1) k = 1
  rcases eq_or_ne k s.mallocs with rfl | hne
  · rw [Function.update_self, h.fresh _ le_rfl]
  · rw [Function.update_of_ne hne]
    exact h.freed k (by omega)

theorem fresh_malloc (h : Alone s) (cmd : ClientCommand) {k : ℕ} (hk : s.mallocs + 1 ≤ k) :
    ((s.malloc cmd).free s.mallocs).frees k = 0 := by
  change Function.update s.frees s.mallocs (s.frees s.mallocs + 1) k = 0
  rw [Function.update_of_ne (by omega)]
  exact h.fresh k (by omega)

/-- An invitation finds nobody. -/
theorem invited (h : Alone s) (cmd : ClientCommand) (m : Member N) (name : Name) :
    Alone (((s.malloc cmd).record (.invited s.mallocs m name none)).notSent s.mallocs
      (.invite m)) := by
  refine ⟨h.idle, fun e he => ?_, fun k hk => h.freed_malloc cmd hk, fun k hk => h.fresh_malloc cmd hk⟩
  rcases List.mem_append.1 he with he | he
  · rcases List.mem_append.1 he with he | he
    · exact (h.log e he).mono fun e he => List.mem_append_left _ (List.mem_append_left _ he)
    · rw [List.mem_singleton.1 he]
      exact ⟨rfl, List.mem_append_right _ (List.mem_singleton_self _)⟩
  · rw [List.mem_singleton.1 he]
    exact nofun

/-- A rejection finds nobody. -/
theorem denied (h : Alone s) (cmd : ClientCommand) (m : Member N) (name : Name) :
    Alone (((s.malloc cmd).record (.denied s.mallocs m name none)).notSent s.mallocs .deny) := by
  refine ⟨h.idle, fun e he => ?_, fun k hk => h.freed_malloc cmd hk, fun k hk => h.fresh_malloc cmd hk⟩
  rcases List.mem_append.1 he with he | he
  · exact (h.log e he).mono (List.subset_append_left ..)
  · rw [List.mem_singleton.1 he]
    rfl

theorem invitationsRight (h : Alone s) : InvitationsRight s := by
  have hflight (k : ℕ) : ¬s.InFlight k := fun ⟨thread, ticket, _, hin, _⟩ =>
    h.idle.pipe thread ticket hin
  exact {
    shown := fun command r party name he => absurd rfl (h.log _ he party name)
    denied := fun k m name a he => nomatch (show some a = none from h.log _ he)
    taken := fun k m name a he => nomatch (show some a = none from (h.log _ he).1)
    absent := fun k m name he => (h.log _ he).2
    freed := fun k hk => .inl ⟨h.freed k hk, hflight k⟩
    live := h.idle.not_deadlocked }

end Alone

/-! ## The channel -/

@[simp] theorem notSent_channel (k : ℕ) (sender : Sender N) :
    (s.notSent k sender).channel = s.channel := by
  cases sender <;> rfl

/-- A command is sent over the channel. -/
theorem sendCommand_channel {sent : Bool} {garbage target : UInt32} {thread k : ℕ}
    {sender : Sender N} (h : s.sendCommand env sent garbage thread sender k target = .ok s') :
    s.channel.sendCommand env sent garbage thread target = .ok s'.channel := by
  obtain ⟨channel, hsend, h⟩ := Exec.bind_eq_ok.1 h
  rw [hsend]
  split at h
  · cases h
    rfl
  · cases h
    rw [notSent_channel]

/-- A command that finds nobody. -/
theorem sendCommand_absent {sent : Bool} {garbage target : UInt32} {thread k : ℕ} {sender : Sender N}
    (hcall : s.sendCommand env sent garbage thread sender k target = .ok s')
    (h : hashSetGet env.sessionRooms s.channel.sessions target = none) :
    s' = s.notSent k sender := by
  rw [PartyServer.sendCommand, Channel.sendCommand, h] at hcall
  cases hcall
  rfl

/-! ## The condition -/

variable [DecidableEq N]

variable (env) in
/-- A name is that of nobody who is online, and the id under which it is listed is that of nobody. -/
def Absent (s : PartyServer N) (name : Name) : Prop :=
  s.online name = none ∧
    hashSetGet env.sessionRooms s.channel.sessions (findIdByName s.clients name) = none

/-- The packets that lead to a command name nobody who is there. -/
def Unanswered (env : Env) : PartyAction N → PartyServer N → Prop
  | .inviteToParty _ _ _ n name, s =>
    ∀ m, s.member n = some m → m.party ≠ none → Absent env s name
  | .rejectPartyInvitation _ _ _ _ name, s => Absent env s name
  | _, _ => True

/-- A packet leads to a command that is sent to somebody, by a worker that does not wait. -/
def Answered (env : Env) : PartyAction N → PartyServer N → Prop
  | .inviteToParty sent _ _ n name, s => sent = true ∧
    (∃ thread, s.channel.threadOf n = some thread ∧ s.channel.waiting thread = none) ∧
    (∃ m, s.member n = some m ∧ m.party ≠ none) ∧
    hashSetGet env.sessionRooms s.channel.sessions (findIdByName s.clients name) ≠ none
  | .rejectPartyInvitation sent _ _ n name, s => sent = true ∧
    (∃ thread, s.channel.threadOf n = some thread ∧ s.channel.waiting thread = none) ∧
    s.member n ≠ none ∧
    hashSetGet env.sessionRooms s.channel.sessions (findIdByName s.clients name) ≠ none
  | _, _ => False

/-! ## The first thread -/

theorem OnFirst.handleCommand {sent : Bool} {garbage : UInt32} {thread k : ℕ} {n : N}
    (h : OnFirst s.channel) (hcall : s.handleCommand env sent garbage thread n k = .ok s') :
    OnFirst s'.channel := by
  obtain ⟨m, -, hcall⟩ := Exec.bind_eq_ok.1 hcall
  obtain ⟨cmd, -, hcall⟩ := Exec.bind_eq_ok.1 hcall
  split at hcall
  · split at hcall
    · have hsend := sendCommand_channel hcall
      exact OnFirst.sendCommand (c := s.channel) h hsend
    · cases hcall
      exact h
  · split at hcall
    · cases hcall
      exact h
    · split at hcall
      · cases hcall
        exact h
      · cases hcall
        exact h

theorem OnFirst.work {alloc : ℕ → Bool} {ok sent : Bool} {garbage : UInt32} {thread : ℕ}
    (h : OnFirst s.channel) (hcall : s.work env alloc ok sent garbage thread = .ok s') :
    OnFirst s'.channel := by
  obtain ⟨channel, hread, hcall⟩ := Exec.bind_eq_ok.1 hcall
  have hchannel : OnFirst channel := h.onWorkerCommand hread
  split at hcall
  · obtain ⟨r, -, hcall⟩ := Exec.bind_eq_ok.1 hcall
    obtain ⟨⟨k, sender⟩, -, hcall⟩ := Exec.bind_eq_ok.1 hcall
    obtain ⟨o, -, hcall⟩ := Exec.bind_eq_ok.1 hcall
    rcases o with - | n
    · simp only at hcall
      split at hcall
      · cases hcall
        rwa [notSent_channel]
      · cases hcall
        exact hchannel
    · exact OnFirst.handleCommand (s := { s with channel := channel }) hchannel hcall
  · cases hcall
    exact hchannel

/-- In every step, all rooms stay on the first thread. -/
theorem OnFirst.partyRun {a : PartyAction N} (h : OnFirst s.channel)
    (hcall : a.run env s = .ok s') : OnFirst s'.channel := by
  cases a with
  | rooms a =>
    rw [PartyAction.run] at hcall
    split at hcall
    · cases hcall
      exact h
    · obtain ⟨channel, hrun, hcall⟩ := Exec.bind_eq_ok.1 hcall
      cases hcall
      exact h.run hrun
  | login n name =>
    obtain ⟨session, -, hcall⟩ := Exec.bind_eq_ok.1 hcall
    split at hcall <;> (cases hcall; exact h)
  | logout alloc n =>
    obtain ⟨channel, hdestroy, hcall⟩ := Exec.bind_eq_ok.1 hcall
    have hchannel : OnFirst channel := h.run (a := .destroySession alloc n) hdestroy
    split at hcall <;> (cases hcall; exact hchannel)
  | work alloc ok sent garbage thread => exact h.work hcall
  | createParty alloc n =>
    rw [PartyAction.run] at hcall
    split at hcall
    · cases hcall
      exact h
    · cases hcall
      rw [PartyServer.createParty]
      split
      · exact h
      · split <;> exact h
  | inviteToParty sent garbage memory n name =>
    rw [PartyAction.run] at hcall
    split at hcall
    · rw [PartyServer.inviteToParty] at hcall
      split at hcall
      · cases hcall
        exact h
      · have hsend := sendCommand_channel hcall
        exact OnFirst.sendCommand (c := s.channel) h hsend
    · cases hcall
      exact h
  | rejectPartyInvitation sent garbage memory n name =>
    rw [PartyAction.run] at hcall
    split at hcall
    · rw [PartyServer.rejectPartyInvitation] at hcall
      have hsend := sendCommand_channel hcall
      exact OnFirst.sendCommand (c := s.channel) h hsend
    · cases hcall
      exact h

/-- In every state of a run, all rooms are on the first thread. -/
theorem onFirst_partyRun
    (hrun : Machine.Run (PartyAction.step env) (fun _ _ => True) (start : PartyServer N) s) :
    OnFirst s.channel := by
  refine hrun.invariant (I := fun s => OnFirst s.channel) onFirst_start fun a s s' h _ hstep => ?_
  rw [PartyAction.step] at hstep
  split at hstep
  · cases hstep
    exact h
  · exact h.partyRun hstep

/-- Whoever sends a command to somebody waits for ever. -/
theorem called_deadlocks {a : PartyAction N} (h : OnFirst s.channel) (ha : Answered env a s)
    (hstep : a.step env s = .ok s') : Deadlocked s'.channel := by
  cases a with
  | inviteToParty sent garbage memory n name =>
    obtain ⟨rfl, ⟨thread, hthread, hwaiting⟩, ⟨m, hm, hparty⟩, hfound⟩ := ha
    obtain ⟨party, hparty⟩ := Option.ne_none_iff_exists'.1 hparty
    obtain ⟨r, hr⟩ := Option.ne_none_iff_exists'.1 hfound
    rw [PartyAction.step, PartyAction.worker, hthread, Option.bind_some, hwaiting] at hstep
    simp only [Option.isSome_none, Bool.false_eq_true, if_false, PartyAction.run, hthread, hm,
      PartyServer.inviteToParty, hparty] at hstep
    have hsend := sendCommand_channel hstep
    exact OnFirst.sendCommand_deadlocks (c := s.channel) h hthread hr hsend
  | rejectPartyInvitation sent garbage memory n name =>
    obtain ⟨rfl, ⟨thread, hthread, hwaiting⟩, hm, hfound⟩ := ha
    obtain ⟨m, hm⟩ := Option.ne_none_iff_exists'.1 hm
    obtain ⟨r, hr⟩ := Option.ne_none_iff_exists'.1 hfound
    rw [PartyAction.step, PartyAction.worker, hthread, Option.bind_some, hwaiting] at hstep
    simp only [Option.isSome_none, Bool.false_eq_true, if_false, PartyAction.run, hthread, hm,
      PartyServer.rejectPartyInvitation] at hstep
    have hsend := sendCommand_channel hstep
    exact OnFirst.sendCommand_deadlocks (c := s.channel) h hthread hr hsend
  | rooms _ | login _ _ | logout _ _ | work _ _ _ _ _ | createParty _ _ => exact ha.elim

/-! ## Runs -/

namespace Alone

theorem createParty (h : Alone s) (alloc : Bool) (m : Member N) : Alone (s.createParty alloc m) := by
  rw [PartyServer.createParty]
  split
  · exact h
  · split
    · refine Alone.shown ?_ none m nofun
      exact h.congr h.idle rfl rfl rfl
    · exact h.shown none m nofun

/-- A worker finds no command in its pipe. -/
theorem work {alloc : ℕ → Bool} {ok sent : Bool} {garbage : UInt32} {thread : ℕ} (h : Alone s)
    (hcall : s.work env alloc ok sent garbage thread = .ok s') : Alone s' := by
  obtain ⟨channel, hread, hcall⟩ := Exec.bind_eq_ok.1 hcall
  have hidle : Idle channel := h.idle.onWorkerCommand hread
  split at hcall
  · rename_i ticket id target l hl
    exact absurd ⟨id, target, hl ▸ List.mem_cons_self⟩ (h.idle.pipe thread ticket)
  · cases hcall
    exact h.congr hidle rfl rfl rfl

theorem run {a : PartyAction N} (h : Alone s) (ha : Unanswered env a s)
    (hcall : a.run env s = .ok s') : Alone s' := by
  cases a with
  | rooms a =>
    rw [PartyAction.run] at hcall
    split at hcall
    · cases hcall
      exact h
    · rename_i helse
      obtain ⟨channel, hrun, hcall⟩ := Exec.bind_eq_ok.1 hcall
      cases hcall
      have hunheard : Unheard env a s.channel := by
        cases a <;> first | exact absurd rfl helse | trivial
      exact h.congr (h.idle.run hunheard hrun) rfl rfl rfl
  | login n name =>
    obtain ⟨session, -, hcall⟩ := Exec.bind_eq_ok.1 hcall
    split at hcall
    · cases hcall
      exact h.congr h.idle rfl rfl rfl
    · cases hcall
      exact h
  | logout alloc n =>
    obtain ⟨channel, hdestroy, hcall⟩ := Exec.bind_eq_ok.1 hcall
    have hidle : Idle channel := h.idle.run (a := .destroySession alloc n) trivial hdestroy
    split at hcall
    · cases hcall
      exact h.congr hidle rfl rfl rfl
    · cases hcall
      exact h.congr hidle rfl rfl rfl
  | work alloc ok sent garbage thread => exact h.work hcall
  | createParty alloc n =>
    rw [PartyAction.run] at hcall
    split at hcall
    · cases hcall
      exact h
    · cases hcall
      exact h.createParty ..
  | inviteToParty sent garbage memory n name =>
    rw [PartyAction.run] at hcall
    split at hcall
    · rename_i thread m _ hm
      rw [PartyServer.inviteToParty] at hcall
      split at hcall
      · cases hcall
        exact h
      · rename_i party hparty
        obtain ⟨honline, habsent⟩ := ha m hm (hparty ▸ Option.some_ne_none party)
        rw [honline] at hcall
        obtain rfl := sendCommand_absent hcall habsent
        exact h.invited ..
    · cases hcall
      exact h
  | rejectPartyInvitation sent garbage memory n name =>
    rw [PartyAction.run] at hcall
    split at hcall
    · rename_i thread m _ hm
      obtain ⟨honline, habsent⟩ := ha
      rw [PartyServer.rejectPartyInvitation, honline] at hcall
      obtain rfl := sendCommand_absent hcall habsent
      exact h.denied ..
    · cases hcall
      exact h

end Alone

/-- As long as invitations and rejections name nobody who is there, all is well. The first one that
    finds somebody blocks its worker for ever. -/
theorem invitations_run :
    (∀ s : PartyServer N, Machine.Run (PartyAction.step env) (Unanswered env) start s →
      InvitationsRight s) ∧
    ∀ (a : PartyAction N) (s s' : PartyServer N),
      Machine.Run (PartyAction.step env) (fun _ _ => True) start s → Answered env a s →
      a.step env s = .ok s' → ¬InvitationsRight s' := by
  refine ⟨fun s hrun => ?_, fun a s s' hrun ha hstep hright => ?_⟩
  · have halone : Alone s := by
      refine hrun.invariant Alone.start fun a s s' h ha hstep => ?_
      rw [PartyAction.step] at hstep
      split at hstep
      · cases hstep
        exact h
      · exact h.run ha hstep
    exact halone.invitationsRight
  · exact hright.live (called_deadlocks (onFirst_partyRun hrun) ha hstep)

/-! ### Runs of two players -/

/-- A player logs in and enters a map. -/
def comeIn (n : Fin 2) (id : UInt32) (name : Name) : List (PartyAction (Fin 2)) :=
  [.rooms (.connect true n id), .login n name, .rooms (.transferRef (fun _ => true) n 100),
    .rooms (.transferSend (fun _ => true) true n), .work (fun _ => true) true true 0 0]

/-- A player denies an invitation of another one, who is online. -/
theorem invitations_fail : ∃ (s s' : PartyServer (Fin 2)) (m : Member (Fin 2)),
    Machine.Run (PartyAction.step (Env.ofLists [] [] [] [])) (fun _ _ => True) start s ∧
    s.online [65] = some m ∧
    (PartyAction.rejectPartyInvitation true 0 ⟨.partyInvite, 0, 0, []⟩ 1 [65]).step
      (Env.ofLists [] [] [] []) s = .ok s' ∧ ¬InvitationsRight s' := by
  have hmeeting : ((comeIn 0 5 [65] ++ comeIn 1 6 [66]).foldlM
      (fun s a => PartyAction.step (Env.ofLists [] [] [] []) a s) start).Returns fun s =>
        s.channel.threadOf 1 = some 0 ∧ s.channel.waiting 0 = none ∧ (s.member 1).isSome ∧
        (s.online [65]).isSome ∧ (hashSetGet (Env.ofLists [] [] [] []).sessionRooms
          s.channel.sessions (findIdByName s.clients [65])).isSome ∧
        ((PartyAction.rejectPartyInvitation true 0 ⟨.partyInvite, 0, 0, []⟩ 1 [65]).step
          (Env.ofLists [] [] [] []) s).Returns fun _ => True := by
    decide +kernel
  obtain ⟨s, hrun, hthread, hwaiting, hm, honline, hfound, h⟩ := Exec.returns_iff.1 hmeeting
  obtain ⟨s', hstep, -⟩ := Exec.returns_iff.1 h
  obtain ⟨m, honline⟩ := Option.isSome_iff_exists.1 honline
  have hrun' : Machine.Run (PartyAction.step (Env.ofLists [] [] [] [])) (fun _ _ => True) start s :=
    .of_foldlM (fun _ _ _ => trivial) hrun
  refine ⟨s, s', m, hrun', honline, hstep, fun hright => hright.live ?_⟩
  have hanswered : Answered (Env.ofLists [] [] [] [])
      (.rejectPartyInvitation true 0 ⟨.partyInvite, 0, 0, []⟩ 1 [65]) s :=
    ⟨rfl, ⟨0, hthread, hwaiting⟩, Option.isSome_iff_ne_none.1 hm,
      Option.isSome_iff_ne_none.1 hfound⟩
  exact called_deadlocks (onFirst_partyRun hrun') hanswered hstep

/-- The member of a party invites somebody who is not there. -/
theorem invitations_run_absent : ∃ s : PartyServer (Fin 2),
    .shown (some 0) ⟨0, 5, [65], some 1⟩ (.statusMessage 19) ∈ s.log ∧ InvitationsRight s := by
  have hcreated : ((comeIn 0 5 [65] ++ [PartyAction.createParty true 0]).foldlM
      (fun s a => PartyAction.step (Env.ofLists [] [] [] []) a s) start).Returns fun s =>
        s.online [67] = none ∧ hashSetGet (Env.ofLists [] [] [] []).sessionRooms
          s.channel.sessions (findIdByName s.clients [67]) = none ∧
        ((PartyAction.inviteToParty true 0 ⟨.partyInvite, 0, 0, []⟩ 0 [67]).step
          (Env.ofLists [] [] [] []) s).Returns fun s =>
            PartyEvent.shown (some 0) ⟨0, 5, [65], some 1⟩ (.statusMessage 19) ∈ s.log := by
    decide +kernel
  obtain ⟨s, hrun, honline, hfound, h⟩ := Exec.returns_iff.1 hcreated
  obtain ⟨s', hstep, hshown⟩ := Exec.returns_iff.1 h
  have hrun' : Machine.Run (PartyAction.step (Env.ofLists [] [] [] []))
      (Unanswered (Env.ofLists [] [] [] [])) start s := by
    refine .of_foldlM (fun a ha s => ?_) hrun
    rw [comeIn] at ha
    fin_cases ha <;> trivial
  exact ⟨s', hshown, invitations_run.1 s' (hrun'.step
    (.inviteToParty true 0 ⟨.partyInvite, 0, 0, []⟩ 0 [67]) (fun _ _ _ => ⟨honline, hfound⟩) hstep)⟩

end Syrup
