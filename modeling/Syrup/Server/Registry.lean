import Syrup.HashMap.Spec
import Syrup.Lib.Run
import Syrup.Server.Sessions

/-!
# The registry of the sessions

The shared set should have one entry for each session that is online: that has been assigned an id,
and has not been destroyed (`OneEntryEach`). A session that goes from one room to another and is
destroyed there keeps to this. But a hash set does not reject duplicates, and not all that is
inserted is removed:

* the first transfer of a session inserts a second entry for it;
* a pending session that is destroyed leaves its entry behind;
* a session that is assigned an id has an entry for each id it has been assigned.

If nothing of this happens, and nobody is online twice, there is one entry for each session after
every run (`registry_run`).
-/

namespace Syrup

open Slots HashSet

/-- The entry a session should have. -/
def Session.entry (session : Session) : Option SessionRoom :=
  if session.id = 0 then none else some ⟨session.id, session.room.getD noRoom⟩

/-- The entries of the sessions that are online. -/
def Server.online {N : Type} (s : Server N) (n : N) : Option SessionRoom :=
  (s.session n).bind Session.entry

variable {N : Type} [Fintype N] [DecidableEq N] {env : Env} {s s' : Server N}

/-- The registry has the entries of the sessions that are online, and one for each id. -/
structure OneEntryEach (s : Server N) : Prop where
  entries : s.sessions.entries = contents s.online
  nodup : (s.sessions.entries.map SessionRoom.id).Nodup

/-- The registry is a table as the operations on it leave it, and only sessions with an id are in
    rooms. -/
structure Registered (env : Env) (s : Server N) : Prop extends OneEntryEach s where
  wf : s.sessions.WF env.sessionRooms
  entered : ∀ n session, s.session n = some session → session.room.isSome → session.id ≠ 0

omit [Fintype N] in
theorem online_setSession (n : N) (o : Option Session) :
    (s.setSession n o).online = Function.update s.online n (o.bind Session.entry) := by
  funext n'
  exact Function.apply_update (fun _ o => Option.bind o Session.entry) s.session n o n'

/-- Only sessions with an id are in rooms, after one of them has been rewritten. -/
theorem Registered.entered_setSession (h : Registered env s) {sessions : HashSet SessionRoom}
    {pendings : HashSet UInt32} {n : N} {o : Option Session}
    (ho : ∀ session, o = some session → session.room.isSome → session.id ≠ 0) (n' : N)
    (session : Session)
    (hs : (Server.setSession ⟨pendings, sessions, s.session⟩ n o).session n' = some session)
    (hroom : session.room.isSome) : session.id ≠ 0 := by
  change Function.update s.session n o n' = some session at hs
  rcases eq_or_ne n' n with rfl | hne
  · rw [Function.update_self] at hs
    exact ho session hs hroom
  · rw [Function.update_of_ne hne] at hs
    exact h.entered n' session hs hroom

/-- A session as good as another one in the same place. -/
theorem Registered.setSession (h : Registered env s) {n : N} {o : Option Session}
    (honline : o.bind Session.entry = s.online n)
    (ho : ∀ session, o = some session → session.room.isSome → session.id ≠ 0) :
    Registered env (s.setSession n o) := by
  refine ⟨⟨?_, h.nodup⟩, h.wf, h.entered_setSession ho⟩
  rw [online_setSession, honline, Function.update_eq_self]
  exact h.entries

omit [Fintype N] [DecidableEq N] in
theorem online_of_session {n : N} {session : Session} (hn : s.session n = some session)
    (hid : session.id ≠ 0) : s.online n = some ⟨session.id, session.room.getD noRoom⟩ := by
  rw [Server.online, hn]
  exact if_neg hid

omit [DecidableEq N] in
/-- The lookup for a session that is online finds its entry. -/
theorem Registered.get_eq (h : Registered env s) {n : N} {r : SessionRoom}
    (hn : s.online n = some r) : hashSetGet env.sessionRooms s.sessions r.id = some r := by
  have hmem : r ∈ s.sessions.entries := by
    rw [h.entries]
    exact mem_contents.2 ⟨n, hn⟩
  cases hg : hashSetGet env.sessionRooms s.sessions r.id with
  | none => exact absurd rfl ((hashSetGet_eq_none_iff h.wf).1 hg r hmem)
  | some r' =>
    obtain ⟨hmem', hid⟩ := hashSetGet_mem hg
    rw [Multiset.inj_on_of_nodup_map h.nodup r' hmem' r hmem hid]

/-! ## What keeps the registry -/

theorem Registered.accept (h : Registered env s) (n : N) : Registered env (acceptSession s n) := by
  rw [acceptSession]
  split
  · rename_i hn
    rw [Option.isNone_iff_eq_none] at hn
    refine h.setSession ?_ fun session hs hroom => ?_
    · rw [Server.online, hn]
      rfl
    · cases hs
      cases hroom
  · exact h

/-- A session that is assigned an id has none, and no session that is online has the id. -/
def AssignSafe (s : Server N) (n : N) (id : UInt32) : Prop :=
  id ≠ 0 ∧ (∀ session, s.session n = some session → session.id = 0) ∧
    ∀ n' session, s.session n' = some session → session.id ≠ id

theorem Registered.assignId {alloc ok : Bool} {n : N} {id : UInt32} (h : Registered env s)
    (hsafe : (hashSetGet env.pendings s.pendings id).isSome → AssignSafe s n id)
    (hcall : sessionAssignId env alloc s n id = .ok (ok, s')) : Registered env s' := by
  obtain ⟨session, hn, hcall⟩ := Exec.bind_eq_ok.1 hcall
  rw [Exec.deref_eq_ok] at hn
  split at hcall
  · cases hcall
  · rename_i hroom
    split at hcall
    · cases hcall
      exact h
    · rename_i hpending
      obtain ⟨hid, hnone, hother⟩ := hsafe (by
        rw [Option.isSome_iff_ne_none]
        rw [Option.isNone_iff_eq_none] at hpending
        exact hpending)
      obtain ⟨pendings, _, hcall⟩ := Exec.bind_eq_ok.1 hcall
      obtain ⟨⟨inserted, sessions⟩, hins, hcall⟩ := Exec.bind_eq_ok.1 hcall
      obtain ⟨ok', sessions', hins', hw, he, hsame, _⟩ :=
        hashSetInsert_spec h.wf alloc (⟨id, noRoom⟩ : SessionRoom)
      rw [hins'] at hins
      cases hins
      cases hcall
      cases ok with
      | false =>
        rw [hsame rfl, if_neg Bool.false_ne_true]
        exact ⟨⟨h.entries, h.nodup⟩, h.wf, h.entered⟩
      | true =>
        have honline : s.online n = none := by
          rw [Server.online, hn]
          exact if_pos (hnone session hn)
        have hpend : session.room = none := by simpa using hroom
        rw [if_pos rfl]
        refine ⟨⟨?_, ?_⟩, hw, h.entered_setSession fun session' hs _ => by cases hs; exact hid⟩
        · rw [online_setSession]
          change sessions.entries = contents (Function.update s.online n _)
          have hnew : (some { session with id := id }).bind Session.entry = some ⟨id, noRoom⟩ := by
            rw [Option.bind_some, Session.entry, if_neg hid, hpend]
            rfl
          rw [he rfl, hnew, contents_eq_weigh, weigh_fill _ honline, h.entries, add_comm]
          rfl
        · change (sessions.entries.map SessionRoom.id).Nodup
          rw [he rfl, Multiset.map_cons, Multiset.nodup_cons]
          refine ⟨fun hmem => ?_, h.nodup⟩
          obtain ⟨r, hr, hrid⟩ := Multiset.mem_map.1 hmem
          rw [h.entries] at hr
          obtain ⟨n', hn'⟩ := mem_contents.1 hr
          obtain ⟨session', hs', hentry⟩ := Option.bind_eq_some_iff.1 hn'
          rw [Session.entry] at hentry
          split at hentry
          · cases hentry
          · cases hentry
            exact hother n' session' hs' hrid

/-- A session goes from a room to another one. -/
theorem Registered.changeRoom (h : Registered env s) {n : N} {session : Session} {room : UInt32}
    (hn : s.session n = some session) (hid : session.id ≠ 0) :
    Registered env (Syrup.changeRoom env s n session.id room) := by
  have honline := online_of_session hn hid
  have hget := h.get_eq honline
  have hsame : env.sessionRooms.key ⟨session.id, room⟩ =
      env.sessionRooms.key ⟨session.id, session.room.getD noRoom⟩ := rfl
  obtain ⟨hw, rest, hrest, hnew⟩ := hashSetWrite_spec h.wf hget hsame
  rw [Syrup.changeRoom, hget]
  refine ⟨⟨?_, ?_⟩, hw, h.entered_setSession fun session' hs _ => by cases hs; exact hid⟩
  · rw [online_setSession]
    change (hashSetWrite _ _ _ _).entries = contents (Function.update s.online n _)
    have hentry : (some (⟨session.id, some room⟩ : Session)).bind Session.entry =
        some ⟨session.id, room⟩ := if_neg hid
    -- What is exchanged in the set is exchanged among the entries.
    have hupdate := weigh_update (fun r => ({r} : Multiset SessionRoom)) s.online n
      (some ⟨session.id, room⟩)
    rw [honline, one_some, one_some, ← contents_eq_weigh, ← contents_eq_weigh, ← h.entries,
      hrest] at hupdate
    rw [hentry, hnew]
    refine add_right_cancel (b := {⟨session.id, session.room.getD noRoom⟩}) ?_
    rw [hupdate, ← Multiset.singleton_add, ← Multiset.singleton_add]
    abel
  · change ((hashSetWrite _ _ _ _).entries.map SessionRoom.id).Nodup
    have hnodup := h.nodup
    rw [hrest, Multiset.map_cons] at hnodup
    rw [hnew, Multiset.map_cons]
    exact hnodup

/-- A session that is online is destroyed with its entry. -/
theorem Registered.destroy {alloc : Bool} (h : Registered env s) {n : N} {session : Session}
    (hn : s.session n = some session) (hid : session.id ≠ 0)
    (hcall : destroySession env alloc s n session.id = .ok s') : Registered env s' := by
  have honline := online_of_session hn hid
  obtain ⟨sessions, hrem, hw, hrest, _⟩ := hashSetRemove_spec h.wf alloc (h.get_eq honline)
  obtain ⟨sessions', hrem', hcall⟩ := Exec.bind_eq_ok.1 hcall
  rw [hrem] at hrem'
  cases hrem'
  cases hcall
  refine ⟨⟨?_, ?_⟩, hw, h.entered_setSession nofun⟩
  · rw [online_setSession]
    change sessions.entries = contents (Function.update s.online n none)
    have hempty := weigh_empty (fun r => ({r} : Multiset SessionRoom)) honline
    rw [← contents_eq_weigh, ← contents_eq_weigh, ← h.entries, hrest] at hempty
    refine add_right_cancel (b := {⟨session.id, session.room.getD noRoom⟩}) ?_
    rw [hempty, ← Multiset.singleton_add, add_comm]
  · have hnodup := h.nodup
    rw [hrest, Multiset.map_cons, Multiset.nodup_cons] at hnodup
    exact hnodup.2

/-! ## Runs -/

/-- No session is assigned a second id, or that of another one; no pending session is sent to a
    room; and none that has an id is destroyed. -/
def ServerAction.Safe (env : Env) : ServerAction N → Server N → Prop
  | accept _, _ => True
  | announce _ _, _ => True
  | assignId _ n id, s => (hashSetGet env.pendings s.pendings id).isSome → AssignSafe s n id
  | changeRoom _ sent n _, s => ∀ session, s.session n = some session → session.room = none →
      sent = false
  | destroy _ n, s => ∀ session, s.session n = some session → session.room = none → session.id = 0

theorem Registered.step {a : ServerAction N} (h : Registered env s) (ha : a.Safe env s)
    (hstep : a.step env s = .ok s') : Registered env s' := by
  cases a with
  | accept n =>
    cases hstep
    exact h.accept n
  | announce alloc id =>
    obtain ⟨⟨_, pendings⟩, _, hstep⟩ := Exec.bind_eq_ok.1 hstep
    cases hstep
    exact ⟨⟨h.entries, h.nodup⟩, h.wf, h.entered⟩
  | assignId alloc n id =>
    obtain ⟨⟨ok, s₁⟩, hcall, hstep⟩ := Exec.bind_eq_ok.1 hstep
    cases hstep
    exact h.assignId ha hcall
  | changeRoom alloc sent n room =>
    obtain ⟨session, hn, hstep⟩ := Exec.bind_eq_ok.1 hstep
    rw [Exec.deref_eq_ok] at hn
    split at hstep
    · cases hstep
    · rename_i hid
      split at hstep
      · rename_i hsent
        split at hstep
        · rename_i hroom
          rw [ha session hn hroom] at hsent
          cases hsent
        · cases hstep
          exact h.changeRoom hn hid
      · cases hstep
        exact h
  | destroy alloc n =>
    obtain ⟨session, hn, hstep⟩ := Exec.bind_eq_ok.1 hstep
    rw [Exec.deref_eq_ok] at hn
    split at hstep
    · rename_i hroom
      exact h.destroy hn (h.entered n session hn hroom) hstep
    · rename_i hroom
      cases hstep
      have hpend : session.room = none := by simpa using hroom
      refine h.setSession ?_ nofun
      rw [Server.online, hn]
      exact (if_pos (ha session hn hpend)).symm

/-- After every run whose steps are safe, there is one entry for each session that is online. -/
theorem registry_run (h : Registered env s)
    (hrun : Machine.Run (ServerAction.step env) (ServerAction.Safe env) s s') : Registered env s' :=
  hrun.invariant (I := fun s => Registered env s) h fun _ _ _ h ha hstep => h.step ha hstep

/-! ### Runs with one session -/

/-- A server to which the character 5 connects. -/
def connected : Exec (Server (Fin 1)) := do
  let s ← ServerAction.step (Env.ofLists [] [] [] []) (.accept 0) Server.start
  let s ← ServerAction.step (Env.ofLists [] [] [] []) (.announce true 5) s
  ServerAction.step (Env.ofLists [] [] [] []) (.assignId true 0 5) s

theorem run_connected {s : Server (Fin 1)} (h : connected = .ok s) :
    Machine.Run (ServerAction.step (Env.ofLists [] [] [] [])) (fun _ _ => True) Server.start s := by
  obtain ⟨s₁, h₁, h⟩ := Exec.bind_eq_ok.1 h
  obtain ⟨s₂, h₂, h⟩ := Exec.bind_eq_ok.1 h
  exact .step _ (.step _ (.step _ .start trivial h₁) trivial h₂) trivial h

/-- A session that enters a room has two entries, and one that is destroyed before leaves its. -/
theorem registry_not_exact :
    (∃ s : Server (Fin 1), Machine.Run (ServerAction.step (Env.ofLists [] [] [] []))
        (fun _ _ => True) Server.start s ∧ ¬ OneEntryEach s) ∧
      ∃ s : Server (Fin 1), s.session = (fun _ => none) ∧
        Machine.Run (ServerAction.step (Env.ofLists [] [] [] [])) (fun _ _ => True) Server.start s ∧
        ¬ OneEntryEach s := by
  have henter : (connected >>= ServerAction.step (Env.ofLists [] [] [] [])
      (.changeRoom true true 0 100)).Returns fun s =>
        ¬ (s.sessions.entries.map SessionRoom.id).Nodup := by decide +kernel
  have hleave : (connected >>= ServerAction.step (Env.ofLists [] [] [] [])
      (.destroy true 0)).Returns fun s => s.session 0 = none ∧ s.sessions.entries ≠ 0 := by
    decide +kernel
  constructor
  · obtain ⟨s, h, hdup⟩ := Exec.returns_iff.1 henter
    obtain ⟨s₁, h₁, h⟩ := Exec.bind_eq_ok.1 h
    exact ⟨s, .step _ (run_connected h₁) trivial h, fun hone => hdup hone.nodup⟩
  · obtain ⟨s, h, hnone, hentries⟩ := Exec.returns_iff.1 hleave
    obtain ⟨s₁, h₁, h⟩ := Exec.bind_eq_ok.1 h
    have hall : s.session = fun _ => none := by
      funext n
      rw [Fin.eq_zero n, hnone]
    refine ⟨s, hall, .step _ (run_connected h₁) trivial h, fun hone => hentries ?_⟩
    rw [hone.entries, contents, weigh]
    refine Finset.sum_eq_zero fun n _ => ?_
    rw [Server.online, hall]
    rfl

/-- A session that is in a room goes to another one. -/
theorem registry_run_change : ∃ s s' : Server (Fin 1),
    ServerAction.step (Env.ofLists [] [] [] []) (.changeRoom true true 0 200) s = .ok s' ∧
      Registered (Env.ofLists [] [] [] []) s' ∧ s'.online 0 = some ⟨5, 200⟩ := by
  obtain ⟨ok, sessions, _, hw, he, _, hok, _⟩ := hashSetInsert_spec
    (h := (Env.ofLists [] [] [] []).sessionRooms) hashSetInit_wf true ⟨5, 100⟩
  let s : Server (Fin 1) := ⟨hashSetInit, sessions, fun _ => some ⟨5, some 100⟩⟩
  have hentries : s.sessions.entries = {⟨5, 100⟩} := by
    rw [he (hok rfl), hashSetInit_entries]
    rfl
  have hreg : Registered (Env.ofLists [] [] [] []) s := by
    refine ⟨⟨?_, ?_⟩, hw, fun n session hs _ => ?_⟩
    · rw [hentries]
      rfl
    · rw [hentries]
      exact Multiset.nodup_singleton _
    · cases hs
      decide
  refine ⟨s, _, rfl, registry_run hreg (.step (.changeRoom true true 0 200) .start ?_ rfl), rfl⟩
  intro session hs hroom
  cases hs
  cases hroom

end Syrup
