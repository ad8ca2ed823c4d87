import Syrup.Server.Rooms.Registered

/-!
# Commands between sessions

`session_send_command` waits until the command has been processed. But the coordinator puts all rooms
on the first thread (`OnFirst`), so that a command always goes to the worker that has sent it, and that
will never read it: whoever is found by `session_send_command` blocks all rooms
(`sendCommand_deadlocks`). As long as nobody is found, no worker waits (`commands_run`).
-/

namespace Syrup

open HashSet

variable {N : Type} {env : Env} {c c' : Channel N}

/-- The command with a number is in the pipe of a worker. -/
def InPipe (c : Channel N) (thread ticket : ℕ) : Prop :=
  ∃ id target, .userCommand ticket id target ∈ c.pipe thread

/-- There are workers each of which waits for a command that only one of them can process. -/
def Deadlocked (c : Channel N) : Prop :=
  ∃ W : Set ℕ, W.Nonempty ∧ ∀ thread ∈ W, ∃ ticket, c.waiting thread = some ticket ∧
    ∃ thread' ∈ W, InPipe c thread' ticket

/-- Commands have been delivered to the sessions with the ids they have been sent to. -/
def DeliveredRight (c : Channel N) : Prop := ∀ d ∈ c.delivered, c.calls[d.1]? = some d.2

/-! ## The first thread -/

/-- All rooms are on the first thread. -/
structure OnFirst (c : Channel N) : Prop where
  pairs : ∀ pair ∈ c.mapDict.entries, pair.thread = 0
  rooms : ∀ p room, c.room p = some room → room.manager = 0
  sending : ∀ n session thread, c.session n = some session → session.transfer = .sending thread →
    thread = 0
  queued : ∀ thread n, .newClient n ∈ c.pipe thread → thread = 0

theorem onFirst_start : OnFirst (Channel.start : Channel N) := by
  refine ⟨fun pair hpair => ?_, nofun, nofun, nofun⟩
  rw [Channel.start, hashSetInit_entries] at hpair
  exact absurd hpair (Multiset.notMem_zero pair)

namespace OnFirst

theorem get (h : OnFirst c) {map : UInt32} {thread : ℕ}
    (hget : mapThreadCoordinatorGet env c.mapDict map = some thread) : thread = 0 := by
  obtain ⟨pair, hpair, rfl⟩ := Option.map_eq_some_iff.1 hget
  exact h.pairs pair (hashSetGet_mem hpair).1

/-- What else is in a server does not matter. -/
theorem congr (h : OnFirst c) (hdict : c'.mapDict = c.mapDict) (hroom : c'.room = c.room)
    (hsession : c'.session = c.session) (hpipe : c'.pipe = c.pipe) : OnFirst c' :=
  ⟨hdict ▸ h.pairs, hroom ▸ h.rooms, hsession ▸ h.sending, hpipe ▸ h.queued⟩

theorem setRoom (h : OnFirst c) (p : ℕ) {o : Option (Room N)}
    (ho : ∀ room, o = some room → room.manager = 0) : OnFirst (c.setRoom p o) := by
  refine { h with rooms := fun q room hq => ?_ }
  change Function.update c.room p o q = some room at hq
  rcases eq_or_ne q p with rfl | hne
  · rw [Function.update_self] at hq
    exact ho room hq
  · rw [Function.update_of_ne hne] at hq
    exact h.rooms q room hq

theorem write (h : OnFirst c) (thread : ℕ) {cmd : WorkerCommand N}
    (hcmd : ∀ n, cmd = .newClient n → thread = 0) : OnFirst (c.write thread cmd) := by
  refine { h with queued := fun thread' n hn => ?_ }
  change _ ∈ Function.update c.pipe thread (c.pipe thread ++ [cmd]) thread' at hn
  rcases eq_or_ne thread' thread with rfl | hne
  · rw [Function.update_self, List.mem_append, List.mem_singleton] at hn
    rcases hn with hn | hn
    · exact h.queued thread' n hn
    · exact hcmd n hn.symm
  · rw [Function.update_of_ne hne] at hn
    exact h.queued thread' n hn

theorem ref {alloc : Bool} {mapDict : HashSet Pair} {map : UInt32} {thread : ℕ} (h : OnFirst c)
    (hcall : mapThreadCoordinatorRef env alloc c.mapDict map = .ok (some thread, mapDict)) :
    thread = 0 ∧ OnFirst { c with mapDict := mapDict } := by
  rw [mapThreadCoordinatorRef] at hcall
  split at hcall
  · rename_i pair hpair
    cases hcall
    exact ⟨h.pairs pair (hashSetGet_mem hpair).1, h⟩
  · obtain ⟨⟨inserted, dict⟩, hinsert, hcall⟩ := Exec.bind_eq_ok.1 hcall
    cases inserted with
    | false => cases hcall
    | true =>
      obtain ⟨pair, hpair, hcall⟩ := Exec.bind_eq_ok.1 hcall
      rw [Exec.deref_eq_ok] at hpair
      cases hcall
      have hpairs (q : Pair) (hq : q ∈ mapDict.entries) : q.thread = 0 := by
        rcases Multiset.mem_cons.1 (hashSetInsert_subset hinsert hq) with rfl | hq
        · rfl
        · exact h.pairs q hq
      exact ⟨hpairs pair (hashSetGet_mem hpair).1, { h with pairs := hpairs }⟩

theorem destroyIdle {alloc : ℕ → Bool} {p : ℕ} {room : Room N} (h : OnFirst c)
    (hmanager : room.manager = 0) (hcall : c.destroyIdle env alloc p room = .ok c') :
    OnFirst c' := by
  have hset : OnFirst (c.setRoom p (some room)) :=
    h.setRoom p fun room' e => Option.some.inj e ▸ hmanager
  rw [Channel.destroyIdle] at hcall
  split at hcall
  · obtain ⟨room', -, hcall⟩ := Exec.bind_eq_ok.1 hcall
    obtain ⟨rooms, -, hcall⟩ := Exec.bind_eq_ok.1 hcall
    obtain ⟨mapDict, hdict, hcall⟩ := Exec.bind_eq_ok.1 hcall
    cases hcall
    have hpairs : OnFirst { c.setRoom p (some room) with mapDict := mapDict } :=
      { hset with pairs := fun pair hpair => hset.pairs pair (hashSetRemove_subset hdict hpair) }
    exact (hpairs.setRoom p (by rintro _ ⟨⟩)).congr rfl rfl rfl rfl
  · cases hcall
    exact hset

theorem leaveRoom {alloc : ℕ → Bool} {p : ℕ} {id : UInt32} (h : OnFirst c)
    (hcall : c.leaveRoom env alloc p id = .ok c') : OnFirst c' := by
  obtain ⟨room, hp, hcall⟩ := Exec.bind_eq_ok.1 hcall
  obtain ⟨sessions, -, hcall⟩ := Exec.bind_eq_ok.1 hcall
  refine h.destroyIdle ?_ hcall
  exact h.rooms p room (Exec.deref_eq_ok.1 hp)

section Sessions

variable [DecidableEq N] {n : N} {session : RoomSession}

theorem setSession (h : OnFirst c) {o : Option RoomSession}
    (ho : ∀ session thread, o = some session → session.transfer = .sending thread → thread = 0) :
    OnFirst (c.setSession n o) := by
  refine { h with sending := fun m session thread hm => ?_ }
  change Function.update c.session n o m = some session at hm
  rcases eq_or_ne m n with rfl | hne
  · rw [Function.update_self] at hm
    exact ho session thread hm
  · rw [Function.update_of_ne hne] at hm
    exact h.sending m session thread hm

theorem transferSend {alloc : ℕ → Bool} {sent : Bool} (h : OnFirst c)
    (hcall : c.transferSend env alloc sent n = .ok c') : OnFirst c' := by
  obtain ⟨session, hn, hcall⟩ := Exec.bind_eq_ok.1 hcall
  rw [Exec.deref_eq_ok] at hn
  split at hcall
  · rename_i thread ht
    obtain rfl := h.sending n session thread hn ht
    split at hcall
    · have hsend : OnFirst ((c.write 0 (.newClient n)).setSession n
          (some { session with transfer := .queued })) := by
        refine (h.write 0 fun _ _ => rfl).setSession ?_
        rintro _ _ ⟨⟩ ⟨⟩
      split at hcall
      · obtain ⟨⟨ok, sessions⟩, -, hcall⟩ := Exec.bind_eq_ok.1 hcall
        cases hcall
        exact hsend.congr rfl rfl rfl rfl
      · obtain ⟨c₁, hleave, hcall⟩ := Exec.bind_eq_ok.1 hcall
        have hleft := hsend.leaveRoom hleave
        split at hcall
        · cases hcall
          exact hleft
        · cases hcall
          exact hleft.congr rfl rfl rfl rfl
    · cases hcall
      refine h.setSession ?_
      rintro _ _ ⟨⟩ ⟨⟩
  · cases hcall
    exact h

theorem enterRoom {alloc : Bool} {p : ℕ} (h : OnFirst c)
    (hcall : c.enterRoom env alloc p n session = .ok c') : OnFirst c' := by
  obtain ⟨room, hp, hcall⟩ := Exec.bind_eq_ok.1 hcall
  obtain ⟨⟨ok, sessions⟩, -, hcall⟩ := Exec.bind_eq_ok.1 hcall
  cases hcall
  have hroom : OnFirst (c.setRoom p (some { room with sessions := sessions })) := by
    refine h.setRoom p ?_
    rintro _ ⟨⟩
    exact h.rooms p room (Exec.deref_eq_ok.1 hp)
  refine hroom.setSession ?_
  rintro _ _ ⟨⟩ ⟨⟩

theorem newClient {alloc : ℕ → Bool} {created : Bool} (h : OnFirst c)
    (hcall : c.newClient env alloc created 0 n = .ok c') : OnFirst c' := by
  obtain ⟨session, hn, hcall⟩ := Exec.bind_eq_ok.1 hcall
  rw [Exec.deref_eq_ok] at hn
  split at hcall
  · exact h.enterRoom hcall
  · split at hcall
    · obtain ⟨⟨ok, rooms⟩, -, hcall⟩ := Exec.bind_eq_ok.1 hcall
      have hroom := h.setRoom c.nextRoom
        (o := some ⟨session.targetRoom, 0, hashSetInit, 0, false⟩) (by rintro _ ⟨⟩; rfl)
      refine OnFirst.enterRoom ?_ hcall
      exact hroom.congr rfl rfl rfl rfl
    · cases hcall
      refine h.setSession ?_
      rintro _ thread ⟨⟩ ht
      exact h.sending n session thread hn ht

theorem onWorkerCommand {alloc : ℕ → Bool} {ok : Bool} {thread : ℕ} (h : OnFirst c)
    (hcall : c.onWorkerCommand env alloc ok thread = .ok c') : OnFirst c' := by
  rw [Channel.onWorkerCommand] at hcall
  split at hcall
  · cases hcall
    exact h
  · rename_i cmd l hl
    have hread : OnFirst { c with pipe := Function.update c.pipe thread l } := by
      refine { h with queued := fun thread' m hm => ?_ }
      change _ ∈ Function.update c.pipe thread l thread' at hm
      rcases eq_or_ne thread' thread with rfl | hne
      · rw [Function.update_self] at hm
        exact h.queued thread' m (hl ▸ List.mem_cons_of_mem _ hm)
      · rw [Function.update_of_ne hne] at hm
        exact h.queued thread' m hm
    cases cmd with
    | newClient n =>
      obtain rfl := h.queued thread n (hl ▸ List.mem_cons_self)
      exact hread.newClient hcall
    | userCommand ticket id target =>
      obtain ⟨r, -, hcall⟩ := Exec.bind_eq_ok.1 hcall
      obtain ⟨o, -, hcall⟩ := Exec.bind_eq_ok.1 hcall
      rcases o with - | n
      · simp only at hcall
        split at hcall
        · cases hcall
          split
          · exact hread.write _ (by rintro _ ⟨⟩)
          · exact hread
        · cases hcall
          exact hread.congr rfl rfl rfl rfl
      · obtain ⟨s, -, hcall⟩ := Exec.bind_eq_ok.1 hcall
        cases hcall
        exact hread.congr rfl rfl rfl rfl

omit [DecidableEq N] in
theorem sendCommand {sent : Bool} {garbage target : UInt32} {thread : ℕ} (h : OnFirst c)
    (hcall : c.sendCommand env sent garbage thread target = .ok c') : OnFirst c' := by
  rw [Channel.sendCommand] at hcall
  split at hcall
  · cases hcall
    exact h
  · split at hcall
    · cases hcall
    · split at hcall
      · cases hcall
        exact (h.write _ (by rintro _ ⟨⟩)).congr rfl rfl rfl rfl
      · cases hcall
        exact h

theorem run {a : RoomAction N} (h : OnFirst c) (hcall : a.run env c = .ok c') : OnFirst c' := by
  cases a with
  | connect alloc n id =>
    change c.connect env alloc n id = .ok c' at hcall
    rw [Channel.connect] at hcall
    split at hcall
    · obtain ⟨⟨inserted, sessions⟩, -, hcall⟩ := Exec.bind_eq_ok.1 hcall
      cases hcall
      have hinserted : OnFirst { c with sessions := sessions } := h.congr rfl rfl rfl rfl
      split
      · refine hinserted.setSession ?_
        rintro _ _ ⟨⟩ ⟨⟩
      · exact hinserted
    · cases hcall
      exact h
  | transferRef alloc n room =>
    obtain ⟨session, hn, hcall⟩ := Exec.bind_eq_ok.1 hcall
    split at hcall
    · cases hcall
    · split at hcall
      · obtain ⟨⟨o, mapDict⟩, href, hcall⟩ := Exec.bind_eq_ok.1 hcall
        rcases o with - | thread
        · cases hcall
        · cases hcall
          obtain ⟨rfl, hpairs⟩ := h.ref href
          refine hpairs.setSession ?_
          rintro _ thread ⟨⟩ ⟨⟩
          rfl
      · cases hcall
        exact h
  | transferSend alloc sent n => exact h.transferSend hcall
  | onWorkerCommand alloc ok thread => exact h.onWorkerCommand hcall
  | destroySession alloc n =>
    obtain ⟨session, hn, hcall⟩ := Exec.bind_eq_ok.1 hcall
    split at hcall
    · have hgone : OnFirst (c.setSession n none) := h.setSession (by simp)
      split at hcall
      · cases hcall
        exact hgone
      · obtain ⟨sessions, -, hcall⟩ := Exec.bind_eq_ok.1 hcall
        refine OnFirst.leaveRoom ?_ hcall
        exact hgone.congr rfl rfl rfl rfl
    · cases hcall
      exact h
  | sendCommand sent garbage n target =>
    rw [RoomAction.run] at hcall
    split at hcall
    · cases hcall
      exact h
    · exact h.sendCommand hcall
  | addTimer p =>
    obtain ⟨room, hp, hcall⟩ := Exec.bind_eq_ok.1 hcall
    cases hcall
    refine h.setRoom p ?_
    rintro _ ⟨⟩
    exact h.rooms p room (Exec.deref_eq_ok.1 hp)
  | stopTimer alloc p =>
    obtain ⟨room, hp, hcall⟩ := Exec.bind_eq_ok.1 hcall
    split at hcall
    · cases hcall
      exact h
    · refine h.destroyIdle ?_ hcall
      exact h.rooms p room (Exec.deref_eq_ok.1 hp)
  | keepAlive p =>
    obtain ⟨room, hp, hcall⟩ := Exec.bind_eq_ok.1 hcall
    cases hcall
    refine h.setRoom p ?_
    rintro _ ⟨⟩
    exact h.rooms p room (Exec.deref_eq_ok.1 hp)
  | breakOff alloc p =>
    obtain ⟨room, hp, hcall⟩ := Exec.bind_eq_ok.1 hcall
    refine h.destroyIdle ?_ hcall
    exact h.rooms p room (Exec.deref_eq_ok.1 hp)

end Sessions

end OnFirst

/-- In every state of a run, all rooms are on the first thread. -/
theorem onFirst_run [DecidableEq N]
    (hrun : Machine.Run (RoomAction.step env) (fun _ _ => True) (Channel.start : Channel N) c) :
    OnFirst c := by
  refine hrun.invariant onFirst_start fun a c c' h _ hstep => ?_
  rw [RoomAction.step] at hstep
  split at hstep
  · cases hstep
    exact h
  · exact h.run hstep

/-! ## Waiting -/

/-- Whoever has sent a command that is found waits for ever. -/
theorem OnFirst.sendCommand_deadlocks {garbage target : UInt32} {n : N} {thread : ℕ} {r : SessionRoom}
    (h : OnFirst c) (hn : c.threadOf n = some thread)
    (hr : hashSetGet env.sessionRooms c.sessions target = some r)
    (hcall : c.sendCommand env true garbage thread target = .ok c') : Deadlocked c' := by
  obtain ⟨session, -, hn⟩ := Option.bind_eq_some_iff.1 hn
  obtain ⟨p, -, hp⟩ := Option.bind_eq_some_iff.1 hn
  obtain ⟨room, hroom, rfl⟩ := Option.map_eq_some_iff.1 hp
  rw [h.rooms p room hroom, Channel.sendCommand, hr] at hcall
  simp only at hcall
  split at hcall
  · cases hcall
  · rename_i thread hthread
    obtain rfl := h.get hthread
    cases hcall
    refine ⟨{0}, Set.singleton_nonempty 0, fun thread hthread => ?_⟩
    rw [Set.mem_singleton_iff.1 hthread]
    refine ⟨c.calls.length, ?_, 0, Set.mem_singleton 0, r.id, garbage, ?_⟩
    · change Function.update c.waiting 0 (some c.calls.length) 0 = some c.calls.length
      exact Function.update_self ..
    · change _ ∈ Function.update c.pipe 0 (c.pipe 0 ++ [_]) 0
      rw [Function.update_self]
      exact List.mem_append_right _ (List.mem_singleton_self _)

/-- A command that is sent finds nobody. -/
def Unheard (env : Env) : RoomAction N → Channel N → Prop
  | .sendCommand sent _ _ target, c =>
    sent = true → hashSetGet env.sessionRooms c.sessions target = none
  | _, _ => True

/-- Nobody waits, and no command has been sent. -/
structure Idle (c : Channel N) : Prop where
  waiting : ∀ thread, c.waiting thread = none
  pipe : ∀ thread ticket, ¬InPipe c thread ticket
  delivered : c.delivered = []

theorem idle_start : Idle (Channel.start : Channel N) :=
  ⟨fun _ => rfl, fun _ _ ⟨_, _, h⟩ => absurd h List.not_mem_nil, rfl⟩

namespace Idle

/-- Nobody waits for anything. -/
theorem not_deadlocked (h : Idle c) : ¬Deadlocked c := by
  rintro ⟨W, ⟨thread, hthread⟩, hW⟩
  obtain ⟨ticket, hticket, -⟩ := hW thread hthread
  cases (h.waiting thread).symm.trans hticket

theorem congr (h : Idle c) (hwaiting : c'.waiting = c.waiting) (hpipe : c'.pipe = c.pipe)
    (hdelivered : c'.delivered = c.delivered) : Idle c' :=
  ⟨hwaiting ▸ h.waiting, fun thread ticket ⟨id, target, hin⟩ =>
    h.pipe thread ticket ⟨id, target, hpipe ▸ hin⟩, hdelivered.trans h.delivered⟩

theorem writeClient (h : Idle c) (thread : ℕ) (n : N) : Idle (c.write thread (.newClient n)) := by
  refine { h with pipe := fun thread' ticket => ?_ }
  rintro ⟨id, target, hin⟩
  change _ ∈ Function.update c.pipe thread (c.pipe thread ++ [.newClient n]) thread' at hin
  refine h.pipe thread' ticket ⟨id, target, ?_⟩
  rcases eq_or_ne thread' thread with rfl | hne
  · rw [Function.update_self, List.mem_append, List.mem_singleton] at hin
    exact hin.resolve_right nofun
  · rwa [Function.update_of_ne hne] at hin

theorem destroyIdle {alloc : ℕ → Bool} {p : ℕ} {room : Room N} (h : Idle c)
    (hcall : c.destroyIdle env alloc p room = .ok c') : Idle c' := by
  rw [Channel.destroyIdle] at hcall
  split at hcall
  · obtain ⟨room', -, hcall⟩ := Exec.bind_eq_ok.1 hcall
    obtain ⟨rooms, -, hcall⟩ := Exec.bind_eq_ok.1 hcall
    obtain ⟨mapDict, -, hcall⟩ := Exec.bind_eq_ok.1 hcall
    cases hcall
    exact h.congr rfl rfl rfl
  · cases hcall
    exact h.congr rfl rfl rfl

theorem leaveRoom {alloc : ℕ → Bool} {p : ℕ} {id : UInt32} (h : Idle c)
    (hcall : c.leaveRoom env alloc p id = .ok c') : Idle c' := by
  obtain ⟨room, -, hcall⟩ := Exec.bind_eq_ok.1 hcall
  obtain ⟨sessions, -, hcall⟩ := Exec.bind_eq_ok.1 hcall
  exact h.destroyIdle hcall

variable [DecidableEq N] {n : N}

theorem enterRoom {alloc : Bool} {p : ℕ} {session : RoomSession} (h : Idle c)
    (hcall : c.enterRoom env alloc p n session = .ok c') : Idle c' := by
  obtain ⟨room, -, hcall⟩ := Exec.bind_eq_ok.1 hcall
  obtain ⟨⟨ok, sessions⟩, -, hcall⟩ := Exec.bind_eq_ok.1 hcall
  cases hcall
  exact h.congr rfl rfl rfl

theorem transferSend {alloc : ℕ → Bool} {sent : Bool} (h : Idle c)
    (hcall : c.transferSend env alloc sent n = .ok c') : Idle c' := by
  obtain ⟨session, -, hcall⟩ := Exec.bind_eq_ok.1 hcall
  split at hcall
  · rename_i thread ht
    split at hcall
    · have hsend : Idle ((c.write thread (.newClient n)).setSession n
          (some { session with transfer := .queued })) :=
        (h.writeClient thread n).congr rfl rfl rfl
      split at hcall
      · obtain ⟨⟨ok, sessions⟩, -, hcall⟩ := Exec.bind_eq_ok.1 hcall
        cases hcall
        exact hsend.congr rfl rfl rfl
      · obtain ⟨c₁, hleave, hcall⟩ := Exec.bind_eq_ok.1 hcall
        have hleft := hsend.leaveRoom hleave
        split at hcall
        · cases hcall
          exact hleft
        · cases hcall
          exact hleft.congr rfl rfl rfl
    · cases hcall
      exact h.congr rfl rfl rfl
  · cases hcall
    exact h

theorem onWorkerCommand {alloc : ℕ → Bool} {ok : Bool} {thread : ℕ} (h : Idle c)
    (hcall : c.onWorkerCommand env alloc ok thread = .ok c') : Idle c' := by
  rw [Channel.onWorkerCommand] at hcall
  split at hcall
  · cases hcall
    exact h
  · rename_i cmd l hl
    have hread : Idle { c with pipe := Function.update c.pipe thread l } := by
      refine { h with pipe := fun thread' ticket => ?_ }
      rintro ⟨id, target, hin⟩
      change _ ∈ Function.update c.pipe thread l thread' at hin
      refine h.pipe thread' ticket ⟨id, target, ?_⟩
      rcases eq_or_ne thread' thread with rfl | hne
      · rw [Function.update_self] at hin
        exact hl ▸ List.mem_cons_of_mem _ hin
      · rwa [Function.update_of_ne hne] at hin
    cases cmd with
    | newClient n =>
      obtain ⟨session, -, hcall⟩ := Exec.bind_eq_ok.1 hcall
      split at hcall
      · exact hread.enterRoom hcall
      · split at hcall
        · obtain ⟨⟨ok, rooms⟩, -, hcall⟩ := Exec.bind_eq_ok.1 hcall
          refine Idle.enterRoom ?_ hcall
          exact hread.congr rfl rfl rfl
        · cases hcall
          exact hread.congr rfl rfl rfl
    | userCommand ticket id target =>
      exact absurd ⟨id, target, hl ▸ List.mem_cons_self⟩ (h.pipe thread ticket)

theorem run {a : RoomAction N} (h : Idle c) (hunheard : Unheard env a c)
    (hcall : a.run env c = .ok c') : Idle c' := by
  cases a with
  | connect alloc n id =>
    change c.connect env alloc n id = .ok c' at hcall
    rw [Channel.connect] at hcall
    split at hcall
    · obtain ⟨⟨inserted, sessions⟩, -, hcall⟩ := Exec.bind_eq_ok.1 hcall
      cases hcall
      split
      · exact h.congr rfl rfl rfl
      · exact h.congr rfl rfl rfl
    · cases hcall
      exact h
  | transferRef alloc n room =>
    obtain ⟨session, -, hcall⟩ := Exec.bind_eq_ok.1 hcall
    split at hcall
    · cases hcall
    · split at hcall
      · obtain ⟨⟨o, mapDict⟩, -, hcall⟩ := Exec.bind_eq_ok.1 hcall
        rcases o with - | thread
        · cases hcall
        · cases hcall
          exact h.congr rfl rfl rfl
      · cases hcall
        exact h
  | transferSend alloc sent n => exact h.transferSend hcall
  | onWorkerCommand alloc ok thread => exact h.onWorkerCommand hcall
  | destroySession alloc n =>
    obtain ⟨session, -, hcall⟩ := Exec.bind_eq_ok.1 hcall
    split at hcall
    · split at hcall
      · cases hcall
        exact h.congr rfl rfl rfl
      · obtain ⟨sessions, -, hcall⟩ := Exec.bind_eq_ok.1 hcall
        refine Idle.leaveRoom ?_ hcall
        exact h.congr rfl rfl rfl
    · cases hcall
      exact h
  | sendCommand sent garbage n target =>
    rw [RoomAction.run] at hcall
    split at hcall
    · cases hcall
      exact h
    · rw [Channel.sendCommand] at hcall
      split at hcall
      · cases hcall
        exact h
      · rename_i r hr
        split at hcall
        · cases hcall
        · split at hcall
          · rename_i hsent
            cases (hunheard hsent).symm.trans hr
          · cases hcall
            exact h
  | addTimer p =>
    obtain ⟨room, -, hcall⟩ := Exec.bind_eq_ok.1 hcall
    cases hcall
    exact h.congr rfl rfl rfl
  | stopTimer alloc p =>
    obtain ⟨room, -, hcall⟩ := Exec.bind_eq_ok.1 hcall
    split at hcall
    · cases hcall
      exact h
    · exact h.destroyIdle hcall
  | keepAlive p =>
    obtain ⟨room, -, hcall⟩ := Exec.bind_eq_ok.1 hcall
    cases hcall
    exact h.congr rfl rfl rfl
  | breakOff alloc p =>
    obtain ⟨room, -, hcall⟩ := Exec.bind_eq_ok.1 hcall
    exact h.destroyIdle hcall

end Idle

/-- As long as the commands that are sent find nobody, no worker waits for one, and none is delivered
    to another session than the one it has been sent to. The first command that finds somebody blocks
    its worker for ever. -/
theorem commands_run [DecidableEq N]
    (hrun : Machine.Run (RoomAction.step env) (Unheard env) (Channel.start : Channel N) c) :
    ¬Deadlocked c ∧ DeliveredRight c ∧ ∀ garbage n target c', (c.threadOf n).isSome →
      (hashSetGet env.sessionRooms c.sessions target).isSome →
      (RoomAction.sendCommand true garbage n target).step env c = .ok c' → Deadlocked c' := by
  have hidle : Idle c := by
    refine hrun.invariant idle_start fun a c c' h hunheard hstep => ?_
    rw [RoomAction.step] at hstep
    split at hstep
    · cases hstep
      exact h
    · exact h.run hunheard hstep
  have hfirst : OnFirst c := onFirst_run (hrun.mono fun _ _ _ => trivial)
  refine ⟨hidle.not_deadlocked, fun d hd => ?_, fun garbage n target c' hthread hfound hstep => ?_⟩
  · rw [hidle.delivered] at hd
    cases hd
  · obtain ⟨thread, hthread⟩ := Option.isSome_iff_exists.1 hthread
    obtain ⟨r, hr⟩ := Option.isSome_iff_exists.1 hfound
    have hsend : c.sendCommand env true garbage thread target = .ok c' := by
      rw [RoomAction.step, RoomAction.worker, hthread, Option.bind_some, hidle.waiting] at hstep
      rw [← hstep, RoomAction.run, hthread]
      rfl
    exact hfirst.sendCommand_deadlocks hthread hr hsend

/-! ### Runs of two sessions -/

/-- Two sessions meet in a room. -/
def meeting : List (RoomAction (Fin 2)) :=
  [.connect true 0 5, .connect true 1 6] ++ travel 0 100 ++ travel 0 101 ++ travel 1 101

/-- A session sends a command to another one in its room: its worker waits for itself. -/
theorem commands_deadlock : ∃ c : Channel (Fin 2),
    Machine.Run (RoomAction.step (Env.ofLists [] [] [] [])) (fun _ _ => True) Channel.start c ∧
      Deadlocked c := by
  have hmeeting : (meeting.foldlM (fun c a => RoomAction.step (Env.ofLists [] [] [] []) a c)
      Channel.start).Returns fun c => c.threadOf 1 = some 0 ∧ c.waiting 0 = none ∧
        (hashSetGet (Env.ofLists [] [] [] []).sessionRooms c.sessions 5) = some ⟨5, 101⟩ ∧
        ((RoomAction.sendCommand true 0 1 5).step (Env.ofLists [] [] [] []) c).Returns
          fun _ => True := by
    decide +kernel
  obtain ⟨c, hrun, hthread, hwaiting, hfound, h⟩ := Exec.returns_iff.1 hmeeting
  obtain ⟨c', hstep, -⟩ := Exec.returns_iff.1 h
  have hrun' : Machine.Run (RoomAction.step (Env.ofLists [] [] [] [])) (fun _ _ => True)
      Channel.start c := .of_foldlM (fun _ _ _ => trivial) hrun
  refine ⟨c', hrun'.step _ trivial hstep, ?_⟩
  have hsend : c.sendCommand (Env.ofLists [] [] [] []) true 0 0 5 = .ok c' := by
    rw [RoomAction.step, RoomAction.worker, hthread, Option.bind_some, hwaiting] at hstep
    rw [← hstep, RoomAction.run, hthread]
    rfl
  exact (onFirst_run hrun').sendCommand_deadlocks hthread hfound hsend

/-- A command that is sent to a session that is not there. -/
theorem commands_run_nobody : ∃ c : Channel (Fin 2), c.threadOf 0 = some 0 ∧
    ¬Deadlocked c ∧ DeliveredRight c := by
  have hnobody : ((.connect true 0 5 :: travel 0 100 : List (RoomAction (Fin 2))).foldlM
      (fun c a => RoomAction.step (Env.ofLists [] [] [] []) a c) Channel.start).Returns fun c =>
        hashSetGet (Env.ofLists [] [] [] []).sessionRooms c.sessions 7 = none ∧
        ((RoomAction.sendCommand true 0 0 7).step (Env.ofLists [] [] [] []) c).Returns fun c =>
          c.threadOf 0 = some 0 := by
    decide +kernel
  obtain ⟨c, hrun, hnone, h⟩ := Exec.returns_iff.1 hnobody
  obtain ⟨c', hstep, hthread⟩ := Exec.returns_iff.1 h
  have hfirst : Machine.Run (RoomAction.step (Env.ofLists [] [] [] []))
      (Unheard (Env.ofLists [] [] [] [])) Channel.start c := by
    refine .of_foldlM (fun a ha c => ?_) hrun
    rcases List.mem_cons.1 ha with rfl | ha
    · trivial
    · rw [travel] at ha
      fin_cases ha <;> trivial
  obtain ⟨hfree, hright, -⟩ :=
    commands_run (hfirst.step (.sendCommand true 0 0 7) (fun _ => hnone) hstep)
  exact ⟨c', hthread, hfree, hright⟩

end Syrup
