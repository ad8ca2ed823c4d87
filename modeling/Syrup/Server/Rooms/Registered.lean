import Syrup.HashMap.FiniteMap
import Syrup.Lib.Run
import Syrup.Server.Rooms

/-!
# Rooms that the coordinator knows

Every room should have an entry in `mapDict` (`Mapped`). But `map_thread_coordinator_ref` does not
count: a session that is on its way to a room has asked for it, and if the last one in there leaves
before it arrives, the entry is taken away; the room that is created for it then has none.

As long as no room dies while somebody is on the way to it, and there is memory for the entries of the
rooms in their managers, all rooms have entries, and no others are taken away (`rooms_run`).
-/

namespace Syrup

open HashSet

variable {N : Type} {env : Env} {c c' : Channel N}

/-- The map has an entry. -/
def Known (env : Env) (c : Channel N) (map : UInt32) : Prop :=
  (mapThreadCoordinatorGet env c.mapDict map).isSome

/-- Every room has an entry, and so had every one that has been taken away. -/
structure Mapped (env : Env) (c : Channel N) : Prop where
  live : ∀ p room, c.room p = some room → Known env c room.id
  unrefs : ∀ u ∈ c.unrefs, u.2 = true

/-- The session in a command. -/
def WorkerCommand.client? : WorkerCommand N → Option N
  | newClient n => some n
  | userCommand .. => none

/-- The sessions in the pipe of a worker. -/
def Channel.clients (c : Channel N) (thread : ℕ) : List N :=
  (c.pipe thread).filterMap WorkerCommand.client?

/-- A session is on its way to the room of a map. -/
def UnderWay (c : Channel N) (map : UInt32) : Prop :=
  ∃ n session, c.session n = some session ∧ session.targetRoom = map ∧
    ((∃ thread, session.transfer = .sending thread) ∨ ∃ thread, n ∈ c.clients thread)

/-- A session is the last one in a room that nothing else keeps alive. -/
def LastIn (room : Room N) : Prop :=
  room.timerCount = 0 ∧ hashSetSize room.sessions = 1 ∧ room.keepAlive = false

/-- What the code relies on. All rooms are on the first thread. -/
structure RoomsKept (env : Env) (c : Channel N) : Prop extends Mapped env c where
  pairs : Represents env.pairs c.mapDict (hashSetGet env.pairs c.mapDict)
  first : ∀ map pair, hashSetGet env.pairs c.mapDict map = some pair → pair.thread = 0
  rooms : Represents env.roomIds (c.rooms 0) (hashSetGet env.roomIds (c.rooms 0))
  room : ∀ p room, c.room p = some room →
    room.manager = 0 ∧ hashSetGet env.roomIds (c.rooms 0) room.id = some ⟨room.id, p⟩
  fresh : ∀ p, c.nextRoom ≤ p → c.room p = none
  sending : ∀ n session thread, c.session n = some session → session.transfer = .sending thread →
    thread = 0 ∧ Known env c session.targetRoom
  queued : ∀ thread, ∀ n ∈ c.clients thread, thread = 0 ∧
    ∃ session, c.session n = some session ∧ session.transfer = .queued ∧
      Known env c session.targetRoom
  once : (c.clients 0).Nodup

theorem roomsKept_start : RoomsKept env (Channel.start : Channel N) := by
  have hempty {R : Type} {h : Hashing R UInt32} :
      Represents h (hashSetInit : HashSet R) (hashSetGet h hashSetInit) := by
    have hr := Represents.of_entries_zero (h := h) hashSetInit_wf hashSetInit_entries
    have hget : hashSetGet h hashSetInit = fun _ => none := funext hr.get_eq
    rw [hget]
    exact hr
  refine { live := nofun, unrefs := nofun, pairs := hempty, first := ?_, rooms := hempty,
           room := nofun, fresh := fun _ _ => rfl, sending := nofun, queued := nofun,
           once := List.nodup_nil }
  intro map pair hpair
  have hnone := (Represents.of_entries_zero (h := env.pairs) hashSetInit_wf
    hashSetInit_entries).get_eq map
  cases hpair.symm.trans hnone

namespace RoomsKept

/-- On what the invariant depends. -/
theorem congr (h : RoomsKept env c) (hdict : c'.mapDict = c.mapDict) (hrooms : c'.rooms = c.rooms)
    (hroom : c'.room = c.room) (hnext : c'.nextRoom = c.nextRoom) (hsession : c'.session = c.session)
    (hclients : c'.clients = c.clients) (hunrefs : c'.unrefs = c.unrefs) : RoomsKept env c' := by
  have hknown (map : UInt32) : Known env c' map ↔ Known env c map := by rw [Known, Known, hdict]
  refine { live := ?_, unrefs := ?_, pairs := ?_, first := ?_, rooms := ?_, room := ?_, fresh := ?_,
           sending := ?_, queued := ?_, once := ?_ }
  · simpa only [hroom, hknown] using h.live
  · simpa only [hunrefs] using h.unrefs
  · simpa only [hdict] using h.pairs
  · simpa only [hdict] using h.first
  · simpa only [hrooms] using h.rooms
  · simpa only [hroom, hrooms] using h.room
  · simpa only [hnext, hroom] using h.fresh
  · simpa only [hsession, hknown] using h.sending
  · simpa only [hclients, hsession, hknown] using h.queued
  · simpa only [hclients] using h.once

/-- A room is rewritten, but for its id and its manager. -/
theorem setRoom (h : RoomsKept env c) {p : ℕ} {room room' : Room N} (hp : c.room p = some room)
    (hid : room'.id = room.id) (hmanager : room'.manager = room.manager) :
    RoomsKept env (c.setRoom p (some room')) := by
  have hcase (q : ℕ) (r : Room N) (hq : (c.setRoom p (some room')).room q = some r) :
      ∃ r', c.room q = some r' ∧ r.id = r'.id ∧ r.manager = r'.manager := by
    change Function.update c.room p (some room') q = some r at hq
    rcases eq_or_ne q p with rfl | hne
    · rw [Function.update_self] at hq
      cases hq
      exact ⟨room, hp, hid, hmanager⟩
    · rw [Function.update_of_ne hne] at hq
      exact ⟨r, hq, rfl, rfl⟩
  refine { h with live := fun q r hq => ?_, room := fun q r hq => ?_, fresh := fun q hq => ?_ }
  · obtain ⟨r', hq', hid', -⟩ := hcase q r hq
    rw [hid']
    exact h.live q r' hq'
  · obtain ⟨r', hq', hid', hmanager'⟩ := hcase q r hq
    rw [hid', hmanager']
    exact h.room q r' hq'
  · have hne : q ≠ p := by
      rintro rfl
      cases (h.fresh q hq).symm.trans hp
    exact (Function.update_of_ne hne ..).trans (h.fresh q hq)

/-- A session that is in no pipe is rewritten. -/
theorem setSession [DecidableEq N] (h : RoomsKept env c) {n : N} {o : Option RoomSession}
    (hn : ∀ thread, n ∉ c.clients thread)
    (ho : ∀ session thread, o = some session → session.transfer = .sending thread →
      thread = 0 ∧ Known env c session.targetRoom) : RoomsKept env (c.setSession n o) := by
  refine { h with sending := fun m session thread hm => ?_, queued := fun thread m hm => ?_ }
  · change Function.update c.session n o m = some session at hm
    rcases eq_or_ne m n with rfl | hne
    · rw [Function.update_self] at hm
      exact ho session thread hm
    · rw [Function.update_of_ne hne] at hm
      exact h.sending m session thread hm
  · have hne : m ≠ n := fun e => hn thread (e ▸ hm)
    obtain ⟨hthread, session, hsession, hrest⟩ := h.queued thread m hm
    exact ⟨hthread, session, (Function.update_of_ne hne ..).trans hsession, hrest⟩

/-- A session that has not been sent is in no pipe. -/
theorem not_client (h : RoomsKept env c) {n : N} {session : RoomSession}
    (hn : c.session n = some session) (hq : session.transfer ≠ .queued) (thread : ℕ) :
    n ∉ c.clients thread := by
  intro hmem
  obtain ⟨-, session', hn', hq', -⟩ := h.queued thread n hmem
  cases hn.symm.trans hn'
  exact hq hq'

/-- A room dies to which nobody is on the way. -/
theorem destroyRoom {alloc : ℕ → Bool} (h : RoomsKept env c) {p : ℕ} {room : Room N}
    (hp : c.room p = some room) (hnobody : ¬UnderWay c room.id)
    (hcall : c.destroyRoom env alloc p = .ok c') : RoomsKept env c' := by
  obtain ⟨room', hp', hcall⟩ := Exec.bind_eq_ok.1 hcall
  rw [Exec.deref_eq_ok, hp] at hp'
  cases hp'
  obtain ⟨hmanager, hentry⟩ := h.room p room hp
  have hlive := h.live p room hp
  rw [Known, mapThreadCoordinatorGet, Option.isSome_map] at hlive
  obtain ⟨pair, hpair⟩ := Option.isSome_iff_exists.1 hlive
  obtain ⟨rooms, hrooms, hcall⟩ := Exec.bind_eq_ok.1 hcall
  obtain ⟨mapDict, hdict, hcall⟩ := Exec.bind_eq_ok.1 hcall
  rw [hmanager] at hrooms hcall
  obtain ⟨rooms', hrooms', hrw, hre, -⟩ := hashSetRemove_spec h.rooms.wf (alloc 0) hentry
  obtain ⟨mapDict', hdict', hdw, hde, -⟩ := hashSetRemove_spec h.pairs.wf (alloc 1) hpair
  cases hrooms.symm.trans hrooms'
  cases hdict.symm.trans hdict'
  cases hcall
  -- What is left of the two sets.
  have hpairs := h.pairs.remove hpair hdw hde
  have hroomIds := h.rooms.remove hentry hrw hre
  have hget : hashSetGet env.pairs mapDict = Function.update _ room.id none := funext hpairs.get_eq
  have hgetRoom : hashSetGet env.roomIds rooms = Function.update _ room.id none :=
    funext hroomIds.get_eq
  have hknown {map : UInt32} (hne : map ≠ room.id) (hmap : Known env c map) :
      (mapThreadCoordinatorGet env mapDict map).isSome := by
    rw [mapThreadCoordinatorGet, hget, Function.update_of_ne hne]
    exact hmap
  -- No other room has the id.
  have hother (q : ℕ) (r : Room N) (hq : Function.update c.room p none q = some r) :
      c.room q = some r ∧ r.id ≠ room.id := by
    have hne : q ≠ p := by
      rintro rfl
      cases (Function.update_self ..).symm.trans hq
    rw [Function.update_of_ne hne] at hq
    refine ⟨hq, fun hid => hne ?_⟩
    have hentry' := (h.room q r hq).2
    rw [hid, hentry] at hentry'
    exact (congrArg RoomId.room (Option.some.inj hentry')).symm
  exact {
    live := fun q r hq => hknown (hother q r hq).2 (h.live q r (hother q r hq).1)
    unrefs := fun u hu => by
      rcases List.mem_append.1 hu with hu | hu
      · exact h.unrefs u hu
      · rw [List.mem_singleton.1 hu]
        exact h.live p room hp
    pairs := by rw [← hget] at hpairs; exact hpairs
    first := fun map pair' hpair' => by
      change hashSetGet env.pairs mapDict map = some pair' at hpair'
      rw [hget] at hpair'
      rcases eq_or_ne map room.id with rfl | hne
      · rw [Function.update_self] at hpair'
        cases hpair'
      · rw [Function.update_of_ne hne] at hpair'
        exact h.first map pair' hpair'
    rooms := by
      change Represents _ (Function.update c.rooms 0 rooms 0)
        (hashSetGet _ (Function.update c.rooms 0 rooms 0))
      rw [Function.update_self, hgetRoom]
      exact hroomIds
    room := fun q r hq => by
      obtain ⟨hq', hne⟩ := hother q r hq
      refine ⟨(h.room q r hq').1, ?_⟩
      change hashSetGet _ (Function.update c.rooms 0 rooms 0) _ = _
      rw [Function.update_self, hgetRoom, Function.update_of_ne hne]
      exact (h.room q r hq').2
    fresh := fun q hq => by
      change Function.update c.room p none q = none
      rcases eq_or_ne q p with rfl | hne
      · exact Function.update_self ..
      · rw [Function.update_of_ne hne]
        exact h.fresh q hq
    sending := fun m session thread hm ht => by
      obtain ⟨hthread, hmap⟩ := h.sending m session thread hm ht
      refine ⟨hthread, hknown (fun hid => hnobody ?_) hmap⟩
      exact ⟨m, session, hm, hid, .inl ⟨thread, ht⟩⟩
    queued := fun thread m hm => by
      obtain ⟨hthread, session, hsession, hq, hmap⟩ := h.queued thread m hm
      refine ⟨hthread, session, hsession, hq, hknown (fun hid => hnobody ?_) hmap⟩
      exact ⟨m, session, hsession, hid, .inr ⟨thread, hm⟩⟩
    once := h.once }

/-- A room is rewritten, and dies if nothing keeps it alive; then nobody must be on the way to it. -/
theorem destroyIdle {alloc : ℕ → Bool} (h : RoomsKept env c) {p : ℕ} {room room' : Room N}
    (hp : c.room p = some room) (hid : room'.id = room.id) (hmanager : room'.manager = room.manager)
    (hnobody : room'.timerCount = 0 → hashSetSize room'.sessions = 0 → room'.keepAlive = false →
      ¬UnderWay c room.id)
    (hcall : c.destroyIdle env alloc p room' = .ok c') : RoomsKept env c' := by
  have hset := h.setRoom hp hid hmanager
  rw [Channel.destroyIdle] at hcall
  split at hcall
  · rename_i hidle
    refine hset.destroyRoom (Function.update_self ..) ?_ hcall
    rw [hid]
    exact hnobody hidle.1 hidle.2.1 hidle.2.2
  · cases hcall
    exact hset

theorem leaveRoom {alloc : ℕ → Bool} (h : RoomsKept env c) {p : ℕ} {id : UInt32}
    (hnobody : ∀ room, c.room p = some room → LastIn room → ¬UnderWay c room.id)
    (hcall : c.leaveRoom env alloc p id = .ok c') : RoomsKept env c' := by
  obtain ⟨room, hp, hcall⟩ := Exec.bind_eq_ok.1 hcall
  rw [Exec.deref_eq_ok] at hp
  obtain ⟨sessions, hremove, hcall⟩ := Exec.bind_eq_ok.1 hcall
  refine h.destroyIdle hp ?_ ?_ (fun htimers hsize hkeep => ?_) hcall
  · rfl
  · rfl
  refine hnobody room hp ⟨htimers, ?_, hkeep⟩
  -- The table that is left counts one session less.
  have hcount := count_of_hashSetRemove hremove
  change sessions.count = 0 at hsize
  rw [hsize] at hcount
  rw [hashSetSize]
  split at hcount
  · cases hcount
  · omega

theorem connect [DecidableEq N] {alloc : Bool} {n : N} {id : UInt32} (h : RoomsKept env c)
    (hcall : c.connect env alloc n id = .ok c') : RoomsKept env c' := by
  rw [Channel.connect] at hcall
  split at hcall
  · rename_i hn
    rw [Option.isNone_iff_eq_none] at hn
    obtain ⟨⟨inserted, sessions⟩, -, hcall⟩ := Exec.bind_eq_ok.1 hcall
    cases hcall
    have hinserted : RoomsKept env { c with sessions := sessions } :=
      h.congr rfl rfl rfl rfl rfl rfl rfl
    split
    · refine hinserted.setSession (fun thread hmem => ?_) ?_
      · obtain ⟨-, session, hsession, -⟩ := h.queued thread n hmem
        cases hn.symm.trans hsession
      · rintro _ _ ⟨⟩ ⟨⟩
    · exact hinserted
  · cases hcall
    exact h

/-- The coordinator is asked for the thread of a map. -/
theorem mapThreadCoordinatorRef {alloc : Bool} {mapDict : HashSet Pair} {map : UInt32} {thread : ℕ}
    (h : RoomsKept env c)
    (hcall : mapThreadCoordinatorRef env alloc c.mapDict map = .ok (some thread, mapDict)) :
    thread = 0 ∧ RoomsKept env { c with mapDict := mapDict } ∧
      Known env { c with mapDict := mapDict } map := by
  rw [Syrup.mapThreadCoordinatorRef] at hcall
  split at hcall
  · rename_i pair hpair
    cases hcall
    refine ⟨h.first map pair hpair, h, ?_⟩
    rw [Known, mapThreadCoordinatorGet, hpair]
    rfl
  · rename_i hnone
    obtain ⟨⟨inserted, mapDict'⟩, hinsert, hcall⟩ := Exec.bind_eq_ok.1 hcall
    obtain ⟨ok, set, hinsert', hw, hentries, -, -, -⟩ :=
      hashSetInsert_spec h.pairs.wf alloc (⟨map, 0⟩ : Pair)
    cases hinsert.symm.trans hinsert'
    cases inserted with
    | false => cases hcall
    | true =>
      have hpairs := h.pairs.insert (r := ⟨map, 0⟩) hnone hw (hentries rfl)
      have hget : hashSetGet env.pairs mapDict' = Function.update _ map (some ⟨map, 0⟩) :=
        funext hpairs.get_eq
      obtain ⟨pair, hpair, hcall⟩ := Exec.bind_eq_ok.1 hcall
      rw [Exec.deref_eq_ok, hget, Function.update_self] at hpair
      cases hpair
      cases hcall
      rw [show env.pairs.key ⟨map, 0⟩ = map from rfl, ← hget] at hpairs
      have hknown {map' : UInt32} (hmap : Known env c map') :
          Known env { c with mapDict := mapDict } map' := by
        rw [Known, mapThreadCoordinatorGet] at hmap ⊢
        rw [hget]
        rcases eq_or_ne map' map with rfl | hne
        · rw [Function.update_self]
          rfl
        · rw [Function.update_of_ne hne]
          exact hmap
      refine ⟨rfl, { h with
        pairs := hpairs
        first := fun map' pair hpair => ?_
        sending := fun n session thread hn ht => ?_
        queued := fun thread n hn => ?_
        live := fun p room hp => hknown (h.live p room hp) }, ?_⟩
      · change hashSetGet env.pairs mapDict map' = some pair at hpair
        rw [hget] at hpair
        rcases eq_or_ne map' map with rfl | hne
        · rw [Function.update_self] at hpair
          cases hpair
          rfl
        · rw [Function.update_of_ne hne] at hpair
          exact h.first map' pair hpair
      · obtain ⟨hthread, hmap⟩ := h.sending n session thread hn ht
        exact ⟨hthread, hknown hmap⟩
      · obtain ⟨hthread, session, hsession, hq, hmap⟩ := h.queued thread n hn
        exact ⟨hthread, session, hsession, hq, hknown hmap⟩
      · rw [Known, mapThreadCoordinatorGet, hget, Function.update_self]
        rfl

theorem transferRef [DecidableEq N] {alloc : ℕ → Bool} {n : N} {map : UInt32} (h : RoomsKept env c)
    (hcall : c.transferRef env alloc n map = .ok c') : RoomsKept env c' := by
  obtain ⟨session, hn, hcall⟩ := Exec.bind_eq_ok.1 hcall
  rw [Exec.deref_eq_ok] at hn
  split at hcall
  · cases hcall
  · split at hcall
    · rename_i hidle
      obtain ⟨⟨o, mapDict⟩, href, hcall⟩ := Exec.bind_eq_ok.1 hcall
      rcases o with - | thread
      · cases hcall
      · cases hcall
        obtain ⟨rfl, hkept, hknown⟩ := h.mapThreadCoordinatorRef href
        refine hkept.setSession (h.not_client hn (by rw [hidle]; exact nofun)) ?_
        rintro _ thread ⟨⟩ ht
        cases ht
        exact ⟨rfl, hknown⟩
    · cases hcall
      exact h

theorem clients_write (c : Channel N) (thread thread' : ℕ) (cmd : WorkerCommand N) :
    (c.write thread cmd).clients thread' =
      c.clients thread' ++ if thread' = thread then cmd.client?.toList else [] := by
  change (Function.update c.pipe thread (c.pipe thread ++ [cmd]) thread').filterMap _ = _
  rcases eq_or_ne thread' thread with rfl | hne
  · rw [Function.update_self, List.filterMap_append, if_pos rfl, Channel.clients]
    cases cmd <;> rfl
  · rw [Function.update_of_ne hne, if_neg hne, List.append_nil, Channel.clients]

/-- A user command is written to a pipe. -/
theorem writeCommand (h : RoomsKept env c) (thread ticket : ℕ) (id target : UInt32) :
    RoomsKept env (c.write thread (.userCommand ticket id target)) := by
  refine h.congr rfl rfl rfl rfl rfl (funext fun thread' => ?_) rfl
  rw [clients_write]
  split <;> exact List.append_nil _

theorem sendCommand {sent : Bool} {garbage target : UInt32} {thread : ℕ} (h : RoomsKept env c)
    (hcall : c.sendCommand env sent garbage thread target = .ok c') : RoomsKept env c' := by
  rw [Channel.sendCommand] at hcall
  split at hcall
  · cases hcall
    exact h
  · split at hcall
    · cases hcall
    · split at hcall
      · cases hcall
        exact (h.writeCommand ..).congr rfl rfl rfl rfl rfl rfl rfl
      · cases hcall
        exact h

/-- A room is created for a map that has an entry. -/
theorem createRoom {alloc : Bool} {map : UInt32} {ok : Bool} {rooms : HashSet RoomId}
    (h : RoomsKept env c) (hnone : hashSetGet env.roomIds (c.rooms 0) map = none)
    (hmap : Known env c map) (halloc : alloc = true)
    (hinsert : hashSetInsert env.roomIds alloc (c.rooms 0) ⟨map, c.nextRoom⟩ = .ok (ok, rooms)) :
    RoomsKept env ({ c with rooms := Function.update c.rooms 0 rooms }.createRoom 0 map) := by
  obtain ⟨ok', rooms', hinsert', hw, hentries, -, hok, -⟩ :=
    hashSetInsert_spec h.rooms.wf alloc (⟨map, c.nextRoom⟩ : RoomId)
  cases hinsert.symm.trans hinsert'
  have hrooms := h.rooms.insert (r := ⟨map, c.nextRoom⟩) hnone hw (hentries (hok halloc))
  have hget : hashSetGet env.roomIds rooms =
      Function.update (hashSetGet env.roomIds (c.rooms 0)) map (some ⟨map, c.nextRoom⟩) :=
    funext hrooms.get_eq
  rw [show env.roomIds.key ⟨map, c.nextRoom⟩ = map from rfl, ← hget] at hrooms
  have hself : Function.update c.rooms 0 rooms 0 = rooms := Function.update_self ..
  have hcase (q : ℕ) (room : Room N)
      (hq : Function.update c.room c.nextRoom (some ⟨map, 0, hashSetInit, 0, false⟩) q = some room) :
      (q = c.nextRoom ∧ room.id = map ∧ room.manager = 0) ∨ q ≠ c.nextRoom ∧ c.room q = some room := by
    rcases eq_or_ne q c.nextRoom with rfl | hne
    · rw [Function.update_self] at hq
      cases hq
      exact .inl ⟨rfl, rfl, rfl⟩
    · rw [Function.update_of_ne hne] at hq
      exact .inr ⟨hne, hq⟩
  refine { h with live := fun q room hq => ?_, rooms := ?_, room := fun q room hq => ?_,
                  fresh := fun q hq => ?_ }
  · rcases hcase q room hq with ⟨-, hid, -⟩ | ⟨-, hq⟩
    · rw [hid]
      exact hmap
    · exact h.live q room hq
  · change Represents _ (Function.update c.rooms 0 rooms 0)
      (hashSetGet _ (Function.update c.rooms 0 rooms 0))
    rw [hself]
    exact hrooms
  · change _ ∧ hashSetGet _ (Function.update c.rooms 0 rooms 0) _ = _
    rw [hself, hget]
    rcases hcase q room hq with ⟨rfl, hid, hmanager⟩ | ⟨hne, hq⟩
    · rw [hid, Function.update_self]
      exact ⟨hmanager, rfl⟩
    · obtain ⟨hmanager, hentry⟩ := h.room q room hq
      have hid : room.id ≠ map := by
        intro e
        cases hnone.symm.trans (e ▸ hentry)
      rw [Function.update_of_ne hid]
      exact ⟨hmanager, hentry⟩
  · change c.nextRoom + 1 ≤ q at hq
    change Function.update c.room c.nextRoom _ q = none
    rw [Function.update_of_ne (by omega)]
    exact h.fresh q (by omega)

section Sessions

variable [DecidableEq N] {n : N} {session : RoomSession}

/-- A session is sent to the worker that the coordinator has told. -/
theorem send {thread : ℕ} (h : RoomsKept env c) (hn : c.session n = some session)
    (ht : session.transfer = .sending thread) :
    RoomsKept env ((c.write thread (.newClient n)).setSession n
      (some { session with transfer := .queued })) := by
  obtain ⟨rfl, hknown⟩ := h.sending n session thread hn ht
  have hnew := h.not_client hn (by rw [ht]; exact nofun)
  refine { h with sending := fun m s thread hm hs => ?_, queued := fun thread m hm => ?_, once := ?_ }
  · change Function.update c.session n _ m = some s at hm
    rcases eq_or_ne m n with rfl | hne
    · rw [Function.update_self] at hm
      cases hm
      cases hs
    · rw [Function.update_of_ne hne] at hm
      exact h.sending m s thread hm hs
  · change m ∈ (c.write 0 (.newClient n)).clients thread at hm
    change thread = 0 ∧ ∃ s, Function.update c.session n _ m = some s ∧ _
    rcases eq_or_ne m n with rfl | hne
    · rw [Function.update_self]
      refine ⟨?_, _, rfl, rfl, hknown⟩
      rw [clients_write] at hm
      by_contra hthread
      rw [if_neg hthread, List.append_nil] at hm
      exact hnew thread hm
    · rw [Function.update_of_ne hne]
      rw [clients_write, List.mem_append] at hm
      refine h.queued thread m (hm.resolve_right fun hm => ?_)
      split at hm
      · exact hne (List.mem_singleton.1 hm)
      · cases hm
  · change ((c.write 0 (.newClient n)).clients 0).Nodup
    rw [clients_write, if_pos rfl]
    exact List.nodup_append.2 ⟨h.once, List.nodup_singleton _, fun m hm m' hm' e =>
      hnew 0 (List.mem_singleton.1 hm' ▸ e ▸ hm)⟩

/-- Nobody else is on the way to a room after a session has been sent. -/
theorem not_underWay_send {thread : ℕ} {map : UInt32} (hn : c.session n = some session)
    (ht : session.transfer = .sending thread) (hnobody : ¬UnderWay c map) :
    ¬UnderWay ((c.write thread (.newClient n)).setSession n
      (some { session with transfer := .queued })) map := by
  rintro ⟨m, s, hm, hmap, hway⟩
  change Function.update c.session n _ m = some s at hm
  rcases eq_or_ne m n with rfl | hne
  · rw [Function.update_self] at hm
    cases hm
    exact hnobody ⟨m, session, hn, hmap, .inl ⟨thread, ht⟩⟩
  · rw [Function.update_of_ne hne] at hm
    refine hnobody ⟨m, s, hm, hmap, hway.imp_right fun ⟨thread', hm'⟩ => ⟨thread', ?_⟩⟩
    change m ∈ (c.write thread (.newClient n)).clients thread' at hm'
    rw [clients_write, List.mem_append] at hm'
    refine hm'.resolve_right fun hm' => ?_
    split at hm'
    · exact hne (List.mem_singleton.1 hm')
    · cases hm'

theorem transferSend {alloc : ℕ → Bool} {sent : Bool} (h : RoomsKept env c)
    (hnobody : sent = true → ∀ session thread p room, c.session n = some session →
      session.transfer = .sending thread → session.room = some p → c.room p = some room →
      LastIn room → ¬UnderWay c room.id)
    (hcall : c.transferSend env alloc sent n = .ok c') : RoomsKept env c' := by
  obtain ⟨session, hn, hcall⟩ := Exec.bind_eq_ok.1 hcall
  rw [Exec.deref_eq_ok] at hn
  split at hcall
  · rename_i thread ht
    split at hcall
    · rename_i hsent
      have hsend := h.send hn ht
      split at hcall
      · obtain ⟨⟨ok, sessions⟩, -, hcall⟩ := Exec.bind_eq_ok.1 hcall
        cases hcall
        exact hsend.congr rfl rfl rfl rfl rfl rfl rfl
      · rename_i p hp
        obtain ⟨c₁, hleave, hcall⟩ := Exec.bind_eq_ok.1 hcall
        have hleft := hsend.leaveRoom (fun room hroom hlast => not_underWay_send hn ht
          (hnobody hsent session thread p room hn ht hp hroom hlast)) hleave
        split at hcall
        · cases hcall
          exact hleft
        · cases hcall
          exact hleft.congr rfl rfl rfl rfl rfl rfl rfl
    · cases hcall
      refine h.setSession (h.not_client hn (by rw [ht]; exact nofun)) ?_
      rintro _ _ ⟨⟩ ⟨⟩
  · cases hcall
    exact h

theorem destroySession {alloc : ℕ → Bool} (h : RoomsKept env c)
    (hnobody : ∀ session p room, c.session n = some session → session.transfer = .none →
      session.room = some p → c.room p = some room → LastIn room → ¬UnderWay c room.id)
    (hcall : c.destroySession env alloc n = .ok c') : RoomsKept env c' := by
  obtain ⟨session, hn, hcall⟩ := Exec.bind_eq_ok.1 hcall
  rw [Exec.deref_eq_ok] at hn
  split at hcall
  · rename_i hidle
    have hgone : RoomsKept env (c.setSession n none) :=
      h.setSession (h.not_client hn (by rw [hidle]; simp)) (by simp)
    split at hcall
    · cases hcall
      exact hgone
    · rename_i p hp
      obtain ⟨sessions, -, hcall⟩ := Exec.bind_eq_ok.1 hcall
      refine RoomsKept.leaveRoom (c := { c with sessions := sessions }.setSession n none)
        (hgone.congr rfl rfl rfl rfl rfl rfl rfl) (fun room hroom hlast => ?_) hcall
      rintro ⟨m, s, hm, hway⟩
      change Function.update c.session n none m = some s at hm
      have hne : m ≠ n := by
        rintro rfl
        rw [Function.update_self] at hm
        cases hm
      rw [Function.update_of_ne hne] at hm
      exact hnobody session p room hn hidle hp hroom hlast ⟨m, s, hm, hway⟩
  · cases hcall
    exact h

/-- A session that has been read from the pipe enters a room. -/
theorem enterRoom {alloc : Bool} {p : ℕ} (h : RoomsKept env c)
    (hn : ∀ thread, n ∉ c.clients thread) (hcall : c.enterRoom env alloc p n session = .ok c') :
    RoomsKept env c' := by
  obtain ⟨room, hp, hcall⟩ := Exec.bind_eq_ok.1 hcall
  rw [Exec.deref_eq_ok] at hp
  obtain ⟨⟨ok, sessions⟩, -, hcall⟩ := Exec.bind_eq_ok.1 hcall
  cases hcall
  have hroom : RoomsKept env (c.setRoom p (some { room with sessions := sessions })) :=
    h.setRoom hp rfl rfl
  refine hroom.setSession hn ?_
  rintro _ _ ⟨⟩ ⟨⟩

theorem newClient {alloc : ℕ → Bool} {created : Bool} (h : RoomsKept env c)
    (halloc : alloc 0 = true) (hn : ∀ thread, n ∉ c.clients thread)
    (hknown : ∀ session, c.session n = some session → Known env c session.targetRoom)
    (hcall : c.newClient env alloc created 0 n = .ok c') : RoomsKept env c' := by
  obtain ⟨session, hsession, hcall⟩ := Exec.bind_eq_ok.1 hcall
  rw [Exec.deref_eq_ok] at hsession
  split at hcall
  · exact h.enterRoom hn hcall
  · rename_i hnone
    split at hcall
    · obtain ⟨⟨ok, rooms⟩, hinsert, hcall⟩ := Exec.bind_eq_ok.1 hcall
      exact (h.createRoom hnone (hknown session hsession) halloc hinsert).enterRoom hn hcall
    · cases hcall
      refine h.setSession hn fun s thread hs ht => ?_
      cases hs
      exact h.sending n session thread hsession ht

/-- A worker that reads from its pipe. -/
theorem onWorkerCommand {alloc : ℕ → Bool} {ok : Bool} {thread : ℕ} (h : RoomsKept env c)
    (halloc : alloc 0 = true) (hcall : c.onWorkerCommand env alloc ok thread = .ok c') :
    RoomsKept env c' := by
  rw [Channel.onWorkerCommand] at hcall
  split at hcall
  · cases hcall
    exact h
  · rename_i cmd l hl
    have hself : ({ c with pipe := Function.update c.pipe thread l } : Channel N).clients thread =
        l.filterMap WorkerCommand.client? :=
      congrArg (List.filterMap _) (Function.update_self ..)
    have hall : c.clients thread = cmd.client?.toList ++ l.filterMap WorkerCommand.client? := by
      rw [Channel.clients, hl]
      cases cmd <;> rfl
    have hother {thread' : ℕ} (hne : thread' ≠ thread) :
        ({ c with pipe := Function.update c.pipe thread l } : Channel N).clients thread' =
          c.clients thread' :=
      congrArg (List.filterMap _) (Function.update_of_ne hne ..)
    have hsub (thread' : ℕ) :
        (({ c with pipe := Function.update c.pipe thread l } : Channel N).clients thread').Sublist
          (c.clients thread') := by
      rcases eq_or_ne thread' thread with rfl | hne
      · rw [hself, hall]
        exact List.sublist_append_right ..
      · rw [hother hne]
    have hread : RoomsKept env { c with pipe := Function.update c.pipe thread l } :=
      { h with queued := fun thread' m hm => h.queued thread' m ((hsub thread').subset hm)
               once := h.once.sublist (hsub 0) }
    cases cmd with
    | newClient n =>
      have hmem : n ∈ c.clients thread := hall ▸ List.mem_append_left _ (List.mem_singleton_self n)
      obtain ⟨rfl, session, hsession, -, hknown⟩ := h.queued thread n hmem
      refine hread.newClient halloc (fun thread' hn => ?_) (fun s hs => ?_) hcall
      · -- The session has been in the pipe once.
        obtain ⟨rfl, -⟩ := h.queued thread' n ((hsub thread').subset hn)
        have honce := h.once
        rw [hall] at honce
        exact (List.nodup_cons.1 honce).1 (hself ▸ hn)
      · cases hsession.symm.trans hs
        exact hknown
    | userCommand ticket id target =>
      obtain ⟨r, -, hcall⟩ := Exec.bind_eq_ok.1 hcall
      obtain ⟨o, -, hcall⟩ := Exec.bind_eq_ok.1 hcall
      rcases o with - | n
      · simp only at hcall
        split at hcall
        · cases hcall
          split
          · exact hread.writeCommand ..
          · exact hread
        · cases hcall
          exact hread.congr rfl rfl rfl rfl rfl rfl rfl
      · obtain ⟨s, -, hcall⟩ := Exec.bind_eq_ok.1 hcall
        cases hcall
        exact hread.congr rfl rfl rfl rfl rfl rfl rfl

end Sessions

end RoomsKept

/-! ## Runs -/

/-- What must not happen: that a room dies while a session is on the way to it, and that there is no
    memory for the entry of a room. -/
def RoomSafe : RoomAction N → Channel N → Prop
  | .transferSend _ sent n, c => sent = true → ∀ session thread p room, c.session n = some session →
      session.transfer = .sending thread → session.room = some p → c.room p = some room →
      LastIn room → ¬UnderWay c room.id
  | .destroySession _ n, c => ∀ session p room, c.session n = some session →
      session.transfer = .none → session.room = some p → c.room p = some room → LastIn room →
      ¬UnderWay c room.id
  | .stopTimer _ p, c => ∀ room, c.room p = some room → room.timerCount = 1 →
      hashSetSize room.sessions = 0 → room.keepAlive = false → ¬UnderWay c room.id
  | .breakOff _ p, c => ∀ room, c.room p = some room → room.timerCount = 0 →
      hashSetSize room.sessions = 0 → ¬UnderWay c room.id
  | .onWorkerCommand alloc _ _, _ => alloc 0 = true
  | _, _ => True

theorem RoomsKept.run [DecidableEq N] {a : RoomAction N} (h : RoomsKept env c) (hsafe : RoomSafe a c)
    (hcall : a.run env c = .ok c') : RoomsKept env c' := by
  cases a with
  | connect alloc n id => exact h.connect hcall
  | transferRef alloc n room => exact h.transferRef hcall
  | transferSend alloc sent n => exact h.transferSend hsafe hcall
  | onWorkerCommand alloc ok thread => exact h.onWorkerCommand hsafe hcall
  | destroySession alloc n => exact h.destroySession hsafe hcall
  | sendCommand sent garbage n target =>
    rw [RoomAction.run] at hcall
    split at hcall
    · cases hcall
      exact h
    · exact h.sendCommand hcall
  | addTimer p =>
    obtain ⟨room, hp, hcall⟩ := Exec.bind_eq_ok.1 hcall
    cases hcall
    exact h.setRoom (Exec.deref_eq_ok.1 hp) rfl rfl
  | stopTimer alloc p =>
    obtain ⟨room, hp, hcall⟩ := Exec.bind_eq_ok.1 hcall
    rw [Exec.deref_eq_ok] at hp
    split at hcall
    · cases hcall
      exact h
    · rename_i htimers
      refine h.destroyIdle hp ?_ ?_ (fun htimers' hsize hkeep => ?_) hcall
      · rfl
      · rfl
      · change room.timerCount - 1 = 0 at htimers'
        exact hsafe room hp (by omega) hsize hkeep
  | keepAlive p =>
    obtain ⟨room, hp, hcall⟩ := Exec.bind_eq_ok.1 hcall
    cases hcall
    exact h.setRoom (Exec.deref_eq_ok.1 hp) rfl rfl
  | breakOff alloc p =>
    obtain ⟨room, hp, hcall⟩ := Exec.bind_eq_ok.1 hcall
    rw [Exec.deref_eq_ok] at hp
    refine h.destroyIdle hp ?_ ?_ (fun htimers hsize _ => ?_) hcall
    · rfl
    · rfl
    · exact hsafe room hp htimers hsize

/-- From a server that has been started, all rooms have entries, and no others have been taken away,
    in every state of a run in which no room dies while a session is on the way to it. -/
theorem rooms_run [DecidableEq N]
    (hrun : Machine.Run (RoomAction.step env) RoomSafe (Channel.start : Channel N) c) :
    Mapped env c := by
  refine (hrun.invariant (I := RoomsKept env) roomsKept_start
    fun a c c' h hsafe hstep => ?_).toMapped
  rw [RoomAction.step] at hstep
  split at hstep
  · cases hstep
    exact h
  · exact h.run hsafe hstep

/-! ### Runs of two sessions -/

/-- A session is sent to the first worker, and arrives in the room of a map. -/
def travel (n : Fin 2) (map : UInt32) : List (RoomAction (Fin 2)) :=
  [.transferRef (fun _ => true) n map, .transferSend (fun _ => true) true n,
    .onWorkerCommand (fun _ => true) true 0]

/-- A session enters a room; another one is on the way to it when the first one leaves. -/
def crossing : List (RoomAction (Fin 2)) :=
  [.connect true 0 5, .connect true 1 6] ++ travel 0 100 ++
    [.transferRef (fun _ => true) 1 100, .transferSend (fun _ => true) true 1,
      .destroySession (fun _ => true) 0, .onWorkerCommand (fun _ => true) true 0]

theorem rooms_not_mapped : ∃ c : Channel (Fin 2),
    Machine.Run (RoomAction.step (Env.ofLists [] [] [] [])) (fun _ _ => True) Channel.start c ∧
      ¬Mapped (Env.ofLists [] [] [] []) c := by
  have hcrossing : (crossing.foldlM (fun c a => RoomAction.step (Env.ofLists [] [] [] []) a c)
      Channel.start).Returns fun c => (c.room 1).map Room.id = some 100 ∧
        mapThreadCoordinatorGet (Env.ofLists [] [] [] []) c.mapDict 100 = none := by
    decide +kernel
  obtain ⟨c, hrun, hroom, hentry⟩ := Exec.returns_iff.1 hcrossing
  refine ⟨c, .of_foldlM (fun _ _ _ => trivial) hrun, fun hmapped => ?_⟩
  obtain ⟨room, hroom, hid⟩ := Option.map_eq_some_iff.1 hroom
  have hlive := hmapped.live 1 room hroom
  rw [Known, hid, hentry] at hlive
  cases hlive

/-- A session enters a room that is created for it. -/
theorem rooms_run_enter : ∃ c : Channel (Fin 2),
    Mapped (Env.ofLists [] [] [] []) c ∧ (c.room 0).map Room.id = some 100 := by
  have henter : (([.connect true 0 5, .transferRef (fun _ => true) 0 100] :
      List (RoomAction (Fin 2))).foldlM (fun c a => RoomAction.step (Env.ofLists [] [] [] []) a c)
      Channel.start).Returns fun c => (c.session 0).map RoomSession.room = some none ∧
        ((RoomAction.transferSend (fun _ => true) true 0).step (Env.ofLists [] [] [] []) c).Returns
          fun c => ((RoomAction.onWorkerCommand (fun _ => true) true 0).step
            (Env.ofLists [] [] [] []) c).Returns fun c => (c.room 0).map Room.id = some 100 := by
    decide +kernel
  obtain ⟨c₁, h₁, hroom, h⟩ := Exec.returns_iff.1 henter
  obtain ⟨c₂, h₂, h⟩ := Exec.returns_iff.1 h
  obtain ⟨c₃, h₃, hid⟩ := Exec.returns_iff.1 h
  have hfirst : Machine.Run (RoomAction.step (Env.ofLists [] [] [] [])) RoomSafe Channel.start c₁ := by
    refine .of_foldlM (fun a ha c => ?_) h₁
    rcases List.mem_cons.1 ha with rfl | ha
    · trivial
    · rw [List.mem_singleton.1 ha]
      trivial
  -- The session has been in no room.
  have hsafe : RoomSafe (.transferSend (fun _ => true) true 0) c₁ := by
    intro _ session thread p room hs _ hp
    rw [hs, Option.map_some, hp] at hroom
    cases hroom
  exact ⟨c₃, rooms_run (.step (.onWorkerCommand (fun _ => true) true 0)
    (.step _ hfirst hsafe h₂) rfl h₃), hid⟩

end Syrup
