import Syrup.Online.Agreement

/-!
# The servers agree on who is online

When the login server has read the first byte of a connection, both servers agree on what is on the way
(`Network.Talks`). Before that, and while they are not connected, the tokens of the channel server are in the
set of the login server, if that has one (`Network.Greets`, `Network.Apart`).
-/

namespace Syrup

/-! ## What should hold -/

namespace Network

variable (s : Network)

/-- The messages on the way to the login server. -/
def messages : List TokenMessage := messagesOf (s.channel.input ++ s.up)

/-- The tokens on the way to the channel server. -/
def tokens : List UInt32 :=
  tokensOf (if s.server.connected then s.server.input ++ s.down else (s.server.input ++ s.down).drop 1)

/-- Nothing that is complete is left unread; a message has only been applied to a token in the set; a token is
    in the set from when it is assigned until its character leaves, or all are dropped; every `eventfd` has been
    written to once, or is that of a token in the set; where both servers are connected, such a token is on the
    way, or its acknowledgement is; and whatever happens, as long as it meets the condition `ok`, does not
    fault. -/
structure Agreed (hash : UInt32 → UInt64) (ok : OnlineEvent → Network → Prop) : Prop where
  unread : s.channel.input.length < 5 ∧ s.server.input.length < 4
  applied : ∀ b ∈ s.channel.applied, b = true
  online : ∀ id, s.channel.online id = true ↔
    ∃ clients ∈ s.channel.clients, hashSetGet (loggedInHashing hash) clients id ≠ none
  eventfds : s.channel.eventfds.Kept
  answerable : s.channel.connected = true → s.server.login = true →
    ∀ chr ∈ s.channel.characters, chr.fd ≠ none →
      chr.id ∈ s.tokens ∨ .acknowledgement chr.id ∈ s.messages
  returns : ∀ e, ok e s → ∃ s', e.step hash s = .ok s'

end Network

/-- A token is only assigned that is not in the set. No callback sees more than one message, or the first byte
    and all of a token. There is memory for a set. If the channel server has been connected to before, and
    the login server has a set, no token in it is waited for; and if it has none, the channel server has nothing
    to tell. What has been told before is not told again. A session that is pending ends while there is
    memory. -/
def Smooth (hash : UInt32 → UInt64) : OnlineEvent → Network → Prop
  | .assign id _ _, s =>
    ∀ clients ∈ s.channel.clients, hashSetGet (loggedInHashing hash) clients id = none
  | .loginReads count _ create, s =>
    if s.channel.connected then (s.channel.input ++ s.up.take count).length < 10
    else create = true ∧ ((s.channel.input ++ s.up.take count).head? = some 0 ∨
      match s.channel.clients with
      | none => s.server.pendings = [] ∧ s.server.sessions = [] ∧ s.server.head = []
      | some clients => ∀ chr ∈ clients.records, chr.fd = none)
  | .channelReads count _, s => s.server.connected = false →
    (s.server.input ++ s.down.take count).length < 5 ∧
      ((s.server.input ++ s.down.take count).head? ≠ some 1 → ∀ node ∈ s.server.head, node.2 = false)
  | .pendingEnds _ alloc, _ => alloc = true
  | _, _ => True

instance (hash : UInt32 → UInt64) (e : OnlineEvent) (s : Network) : Decidable (Smooth hash e s) :=
  match e with
  | .assign id _ _ => inferInstanceAs (Decidable
    (∀ clients ∈ s.channel.clients, hashSetGet (loggedInHashing hash) clients id = none))
  | .loginReads count _ create =>
    have : Decidable (match s.channel.clients with
        | none => s.server.pendings = [] ∧ s.server.sessions = [] ∧ s.server.head = []
        | some clients => ∀ chr ∈ clients.records, chr.fd = none) := by split <;> infer_instance
    inferInstanceAs (Decidable
      (if s.channel.connected then (s.channel.input ++ s.up.take count).length < 10
      else create = true ∧ ((s.channel.input ++ s.up.take count).head? = some 0 ∨ _)))
  | .channelReads count _ =>
    have : Decidable (∀ node ∈ s.server.head, node.2 = false) := List.decidableBAll _ _
    inferInstanceAs (Decidable (_ → _ ∧ (_ → _)))
  | .pendingEnds _ alloc => inferInstanceAs (Decidable (alloc = true))
  | .accept | .connected | .timeout _ | .loginLost | .channelLost | .drained | .assignId _ _
  | .sessionEnds _ _ _ | .loginRestarts | .channelRestarts => inferInstanceAs (Decidable True)

/-! ## What is kept -/

section Kept

variable {hash : UInt32 → UInt64} {roster : Roster} {c : LoginChannel} {p : LoginPeer} {s : Network}

/-- What is kept of the login server, which has this of each character. -/
structure LoginChannel.Keeps (hash : UInt32 → UInt64) (c : LoginChannel) (roster : Roster) : Prop where
  clients : match c.clients with
    | none => roster = fun _ => none
    | some clients => Represents (loggedInHashing hash) clients roster
  eventfds : c.eventfds.Kept
  online : ∀ id, c.online id = (roster id).isSome
  applied : ∀ b ∈ c.applied, b = true
  unread : c.connected = true → c.input.length < 5 ∧ c.timeouts = false ∧ c.clients ≠ none
  quiet : c.connected = false → c.input = []

/-- The tokens that the channel server has, and has not told of. -/
def LoginPeer.known (p : LoginPeer) : List UInt32 :=
  p.pendings ++ p.sessions ++ (p.head.filter fun node => !node.2).map (·.1)

/-- What is kept of the channel server. -/
structure LoginPeer.Keeps (p : LoginPeer) : Prop where
  fresh : p.first = 0 → p.known = [] ∧ p.login = false
  unread : p.connected = true → p.input.length < 4 ∧ p.login = true
  quiet : p.connected = false → p.input = []

namespace Network

/-- These tokens come to the channel server, behind the answer to its first byte, which has been sent or
    not. -/
structure Comes (s : Network) (tokens : List UInt32) (replied : Prop) : Prop where
  gone : s.server.login = false → tokens = []
  bytes : s.server.login = true → ∃ reply,
    s.server.input ++ s.down = reply ++ tokenCode.words () tokens ∧
    (s.server.connected = true → reply = []) ∧
    (s.server.connected = false → reply.length = 1 ∨ ¬replied ∧ reply = [] ∧ tokens = [])

/-- The login server has read the first byte. -/
def Talks (s : Network) (roster : Roster) : Prop := ∃ ms tokens,
  s.channel.input ++ s.up = messageCode.words () ms ∧ s.Comes tokens True ∧ Accepts roster ms ∧
    Agrees (after roster ms) tokens s.server.known ∧
    (s.server.login = true → Answerable (after roster ms) tokens)

/-- The login server has not read the first byte yet. -/
def Greets (s : Network) (roster : Roster) : Prop := ∃ first, s.up = [first] ∧
  (first = 0 → s.server.known = []) ∧ s.server.known.Nodup ∧
    (s.channel.clients ≠ none → ∀ token ∈ s.server.known, roster token ≠ none) ∧
    (s.server.login = true → s.server.input ++ s.down = [] ∧ (s.server.connected = true ↔ first = 0))

/-- The login server is not connected to the channel server. -/
def Apart (s : Network) (roster : Roster) : Prop := ∃ tokens, s.Comes tokens False ∧
  (tokens ++ s.server.known).Nodup ∧
    (s.channel.clients ≠ none → ∀ token ∈ tokens ++ s.server.known, roster token ≠ none)

/-- All that is kept. -/
structure Sound (hash : UInt32 → UInt64) (s : Network) (roster : Roster) : Prop where
  channel : s.channel.Keeps hash roster
  server : s.server.Keeps
  phase : if s.linked then if s.channel.connected then s.Talks roster else s.Greets roster
    else s.channel.connected = false ∧ s.Apart roster

end Network

/-! ### The set of the login server -/

/-- The characters in a set, in some order. -/
theorem records_perm {set : HashSet LoggedInCharacter} {l : List LoggedInCharacter}
    (h : set.entries = (l : Multiset LoggedInCharacter)) : set.records.Perm l := by
  rw [← HashSet.listEntries_slotList] at h
  exact Multiset.coe_eq_coe.1 h

theorem entries_eq (set : HashSet LoggedInCharacter) :
    set.entries = (set.records : Multiset LoggedInCharacter) :=
  (HashSet.listEntries_slotList set).symm

namespace LoginChannel

theorem characters_eq {clients : HashSet LoggedInCharacter} (hc : c.clients = some clients) :
    c.characters = clients.records := by
  rw [characters, hc]
  rfl

/-- `do_leave` of some characters. -/
theorem foldl_doLeave (l : List LoggedInCharacter) (c : LoginChannel) :
    ∃ left online, l.foldl (fun c chr => doLeave chr c) c = { c with
        answers := (l.filterMap (·.fd)).reverse.map (fun fd => (fd, 2)) ++ c.answers
        left := left
        online := online } ∧
      ∀ id, online id = true ↔ c.online id = true ∧ ∀ chr ∈ l, chr.id ≠ id := by
  induction l generalizing c with
  | nil => exact ⟨c.left, c.online, rfl, fun id => ⟨fun h => ⟨h, nofun⟩, And.left⟩⟩
  | cons chr l ih =>
    obtain ⟨left, online, heq, honline⟩ := ih (doLeave chr c)
    have hupdate (id : UInt32) : (doLeave chr c).online id = true ↔ c.online id = true ∧ chr.id ≠ id := by
      have : (doLeave chr c).online = Function.update c.online chr.id false := by
        rw [doLeave]
        split <;> rfl
      rw [this]
      rcases eq_or_ne id chr.id with rfl | hne
      · rw [Function.update_self]
        exact iff_of_false nofun fun h => h.2 rfl
      · rw [Function.update_of_ne hne, and_iff_left hne.symm]
    refine ⟨left, online, ?_, fun id => ?_⟩
    · rw [List.foldl_cons, heq, doLeave]
      cases hfd : chr.fd with
      | none => rw [List.filterMap_cons_none hfd]
      | some fd =>
        rw [List.filterMap_cons_some hfd, List.reverse_cons, List.map_append, List.append_assoc]
        rfl
    · rw [honline, hupdate, List.forall_mem_cons, and_assoc]

namespace Keeps

theorem represents (h : c.Keeps hash roster) {clients : HashSet LoggedInCharacter}
    (hc : c.clients = some clients) : Represents (loggedInHashing hash) clients roster := by
  have := h.clients
  rwa [hc] at this

/-- A character is let in. -/
theorem assign (h : c.Keeps hash roster) (hconnected : c.connected = true) {id : UInt32}
    (hnone : roster id = none) {clients clients' : HashSet LoggedInCharacter}
    (hc : c.clients = some clients) (hwf : clients'.WF (loggedInHashing hash))
    (hentries : clients'.entries = ⟨id, some c.nextFd⟩ ::ₘ clients.entries) :
    LoginChannel.Keeps hash { c with
      clients := some clients'
      nextFd := c.nextFd + 1
      online := Function.update c.online id true }
      (Function.update roster id (some ⟨id, some c.nextFd⟩)) := by
  refine ⟨(h.represents hc).insert (r := ⟨id, some c.nextFd⟩) hnone hwf hentries, ?_, fun id' => ?_, h.applied,
    fun _ => ⟨(h.unread hconnected).1, (h.unread hconnected).2.1, nofun⟩, h.quiet⟩
  · rw [entries_eq, entries_eq clients] at hentries
    have hperm := (Multiset.coe_eq_coe.1 hentries).filterMap (·.fd)
    have heventfds := h.eventfds
    rw [LoginChannel.eventfds, characters_eq hc] at heventfds
    exact heventfds.alloc.perm hperm
  · change Function.update c.online id true id' = (Function.update roster id (some _) id').isSome
    rcases eq_or_ne id' id with rfl | hne
    · rw [Function.update_self, Function.update_self]
      rfl
    · rw [Function.update_of_ne hne, Function.update_of_ne hne, h.online]

/-- A token is acknowledged. -/
theorem acknowledge (h : c.Keeps hash roster) (hconnected : c.connected = true) {token : UInt32}
    {chr : LoggedInCharacter} {fd : ℕ} (hchr : roster token = some chr) (hfd : chr.fd = some fd)
    {clients : HashSet LoggedInCharacter} (hc : c.clients = some clients) {input : List UInt8}
    (hinput : input.length < 5) :
    LoginChannel.Keeps hash { c with
      clients := some (hashSetWrite (loggedInHashing hash) clients token { chr with fd := none })
      answers := (fd, 1) :: c.answers
      applied := c.applied ++ [true]
      input := input } ((TokenMessage.acknowledgement token).apply roster) := by
  have happly : (TokenMessage.acknowledgement token).apply roster =
      Function.update roster token (some { chr with fd := none }) := by
    change Function.update roster token ((roster token).map _) = _
    rw [hchr]
    rfl
  have hr := h.represents hc
  rw [happly]
  refine ⟨hr.write hchr rfl, ?_, fun id => ?_, fun b hb => ?_,
    fun _ => ⟨hinput, (h.unread hconnected).2.1, nofun⟩, fun hnot => ?_⟩
  · have hkey : (loggedInHashing hash).key { chr with fd := none } = (loggedInHashing hash).key chr := rfl
    obtain ⟨-, rest, hentries, hentries'⟩ :=
      hashSetWrite_spec hr.wf ((hr.get_eq token).trans hchr) hkey
    obtain ⟨l, rfl⟩ := Quot.exists_rep rest
    have hperm := (records_perm hentries).filterMap (·.fd)
    have hperm' := (records_perm hentries').filterMap (·.fd)
    rw [List.filterMap_cons_some hfd] at hperm
    have heventfds := h.eventfds
    rw [LoginChannel.eventfds, characters_eq hc] at heventfds
    refine ((List.Perm.append_left _ hperm').trans ?_).trans heventfds
    exact List.perm_middle.symm.trans (List.Perm.append_left _ hperm.symm)
  · rw [h.online]
    rcases eq_or_ne id token with rfl | hne
    · rw [Function.update_self, hchr]
      rfl
    · rw [Function.update_of_ne hne]
  · rcases List.mem_append.1 hb with hb | hb
    · exact h.applied b hb
    · exact List.mem_singleton.1 hb
  · cases hconnected.symm.trans hnot

/-- A character leaves. -/
theorem leave (h : c.Keeps hash roster) (hconnected : c.connected = true) {token : UInt32}
    {chr : LoggedInCharacter} (hchr : roster token = some chr) (hfd : chr.fd = none)
    {clients clients' : HashSet LoggedInCharacter} (hc : c.clients = some clients)
    (hwf : clients'.WF (loggedInHashing hash)) (hentries : clients.entries = chr ::ₘ clients'.entries)
    {input : List UInt8} (hinput : input.length < 5) :
    LoginChannel.Keeps hash { c with
      clients := some clients'
      left := c.left ++ [token]
      online := Function.update c.online token false
      applied := c.applied ++ [true]
      input := input } ((TokenMessage.leave token).apply roster) := by
  refine ⟨(h.represents hc).remove hchr hwf hentries, ?_, fun id => ?_, fun b hb => ?_,
    fun _ => ⟨hinput, (h.unread hconnected).2.1, nofun⟩, fun hnot => ?_⟩
  · rw [entries_eq clients'] at hentries
    have hperm := (records_perm hentries).filterMap (·.fd)
    rw [List.filterMap_cons_none hfd] at hperm
    have heventfds := h.eventfds
    rw [LoginChannel.eventfds, characters_eq hc] at heventfds
    exact heventfds.perm hperm.symm
  · change Function.update c.online token false id = (Function.update roster token none id).isSome
    rcases eq_or_ne id token with rfl | hne
    · rw [Function.update_self, Function.update_self]
      rfl
    · rw [Function.update_of_ne hne, Function.update_of_ne hne, h.online]
  · rcases List.mem_append.1 hb with hb | hb
    · exact h.applied b hb
    · exact List.mem_singleton.1 hb
  · cases hconnected.symm.trans hnot

/-- All characters are dropped. -/
theorem leaveAll (h : c.Keeps hash roster) (hconnected : c.connected = false) (alloc : Bool) :
    ∃ c', c.leaveAll hash alloc = .ok c' ∧ c'.Keeps hash (fun _ => none) ∧ c'.connected = false ∧
      c'.clients = none ∧ c'.input = c.input ∧ c'.timeouts = c.timeouts := by
  rw [LoginChannel.leaveAll]
  cases hc : c.clients with
  | none =>
    have hnone : roster = fun _ => none := by
      have := h.clients
      rwa [hc] at this
    subst hnone
    exact ⟨c, rfl, h, hconnected, hc, rfl, rfl⟩
  | some clients =>
    have hr := h.represents hc
    let f (chr : LoggedInCharacter) (c : LoginChannel) : List UInt32 × LoginChannel := ([], doLeave chr c)
    have hlegal (l : List LoggedInCharacter) (seen : List UInt32) (m : Roster) (c : LoginChannel) :
        Legal (loggedInHashing hash) f l seen m c := by
      induction l generalizing seen m c with
      | nil => trivial
      | cons chr l ih => exact ⟨List.nil_subset _, trivial, ih ..⟩
    have hvisit (l : List LoggedInCharacter) (m : Roster) (c : LoginChannel) :
        (visitAll f l m c).2 = l.foldl (fun c chr => doLeave chr c) c := by
      induction l generalizing m c with
      | nil => rfl
      | cons chr l ih => exact ih ..
    obtain ⟨set', hforeach, -⟩ := hashSetU32Foreach_spec alloc f hr (hlegal clients.records [] roster c)
    obtain ⟨left, online, hfold, honline⟩ := foldl_doLeave clients.records c
    rw [hvisit, hfold] at hforeach
    refine ⟨_, congrArg (fun x : Exec _ => x >>= _) hforeach, ⟨rfl, ?_, fun id => ?_, h.applied,
      fun hnot => ?_, h.quiet⟩, hconnected, rfl, rfl, rfl⟩
    · have heventfds := h.eventfds
      rw [LoginChannel.eventfds, characters_eq hc] at heventfds
      refine List.Perm.trans ?_ heventfds
      change (List.map Prod.fst (_ ++ c.answers) ++ []).Perm _
      rw [List.append_nil, List.map_append, List.map_map]
      refine List.perm_append_comm.trans (List.Perm.append_left _ ?_)
      change ((clients.records.filterMap (·.fd)).reverse.map id).Perm _
      rw [List.map_id]
      exact List.reverse_perm _
    · rw [Option.isSome_none, Bool.eq_false_iff]
      intro hid
      obtain ⟨hon, hnot⟩ := (honline id).1 hid
      rw [h.online] at hon
      obtain ⟨chr, hchr⟩ := Option.isSome_iff_exists.1 hon
      have hid := ((hr.lookup id chr).1 hchr).2
      refine hnot chr ((hr.mem_records chr).2 ?_) hid
      rw [hid]
      exact hchr
    · cases hconnected.symm.trans hnot

end Keeps

end LoginChannel

end Kept

end Syrup
