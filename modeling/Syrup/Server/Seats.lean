import Syrup.Exec
import Syrup.Lib.BackLinks
import Syrup.Lib.Run

/-!
# Seats

A map has seats, on each of which a player may sit. Which seats of a map are taken is known to the map
(`occupiedSeats`), on which seat a player sits is known to his character (`seat`, with `0xFFFF` for
none).

A player is in the room of a map, which is made when the first player comes and may end when nobody is
in it. When he is warped, his character has its new map at once, but his session stays in the old room
until it is transferred (`do_transfer`); on another thread it comes into the new room
(`WORKER_COMMAND_NEW_CLIENT`), and he joins the map when his client is ready. No packets are handled
while a session is between rooms. A session that has been kicked stays until it is destroyed.

How many seats a map has is a parameter, `seatCount`.
-/

namespace Syrup

open BackLinks

/-- A player: the part of `struct Character` about sitting and the map, and where his session is. -/
structure Sitter where
  map : UInt32
  chair : UInt32
  seat : UInt16
  room : Option UInt32
  targetRoom : Option UInt32
  joined : Bool

/-- A room: the sessions in it, and the seats of its map. -/
structure SeatRoom where
  sessions : Finset ℕ
  occupiedSeats : List Bool

/-- The players on a channel, and the rooms. -/
structure SeatServer where
  players : ℕ → Option Sitter
  rooms : UInt32 → Option SeatRoom

namespace SeatServer

/-- A channel that has been started. -/
def start : SeatServer := ⟨fun _ => none, fun _ => none⟩

variable (seatCount : UInt32 → UInt16) (s : SeatServer)

def setPlayer (p : ℕ) (player : Option Sitter) : SeatServer :=
  { s with players := Function.update s.players p player }

def setRoom (id : UInt32) (room : Option SeatRoom) : SeatServer :=
  { s with rooms := Function.update s.rooms id room }

/-! ## Sitting -/

/-- `map_try_occupy_seat`, for the map of a room. -/
def mapTryOccupySeat (r : UInt32) (id : UInt16) : Exec (Bool × SeatServer) := do
  let room ← Exec.deref (s.rooms r)
  Exec.within room.occupiedSeats.length id.toNat
  if room.occupiedSeats[id.toNat]? = some false then
    return (true, s.setRoom r
      (some { room with occupiedSeats := room.occupiedSeats.set id.toNat true }))
  else return (false, s)

/-- `map_tire_seat`, for the map of a room. -/
def mapTireSeat (r : UInt32) (id : UInt16) : Exec SeatServer := do
  let room ← Exec.deref (s.rooms r)
  Exec.within room.occupiedSeats.length id.toNat
  return s.setRoom r (some { room with occupiedSeats := room.occupiedSeats.set id.toNat false })

/-- `client_sit`, on a chair that the player `has` or not. The result is whether he may stay. -/
def clientSit (p : ℕ) (id : UInt32) (has : Bool) : Exec (Bool × SeatServer) := do
  let player ← Exec.deref (s.players p)
  let _ ← Exec.deref player.room
  if id / 10000 ≠ 301 then return (false, s)
  else if player.chair ≠ 0 ∨ player.seat ≠ 0xFFFF then return (false, s)
  else if ¬has then return (true, s)
  else return (true, s.setPlayer p (some { player with chair := id }))

/-- `client_sit_on_map_seat`. -/
def clientSitOnMapSeat (p : ℕ) (id : UInt16) : Exec (Bool × SeatServer) := do
  let player ← Exec.deref (s.players p)
  let room ← Exec.deref player.room
  if id ≥ seatCount player.map then return (false, s)
  else if player.seat ≠ 0xFFFF then return (true, s)
  else
    let (ok, s) ← s.mapTryOccupySeat room id
    if ¬ok then return (true, s)
    else return (true, s.setPlayer p (some { player with seat := id }))

/-- `client_stand_up`. -/
def clientStandUp (p : ℕ) : Exec (Bool × SeatServer) := do
  let player ← Exec.deref (s.players p)
  let room ← Exec.deref player.room
  if player.chair ≠ 0 then return (true, s.setPlayer p (some { player with chair := 0 }))
  else if player.seat ≠ 0xFFFF then
    let s ← s.mapTireSeat room player.seat
    return (true, s.setPlayer p (some { player with seat := 0xFFFF }))
  else return (true, s)

/-! ## Coming and going -/

/-- `client_resume`, when the character has been loaded: his session is to be sent to its first room. -/
def clientLogin (p : ℕ) (map : UInt32) : Exec SeatServer :=
  match s.players p with
  | some _ => return s
  | none => return s.setPlayer p (some ⟨map, 0, 0xFFFF, none, some map, false⟩)

/-- `create_room` and `map_create`. -/
def createRoom (id : UInt32) : SeatRoom := ⟨∅, List.replicate (seatCount id).toNat false⟩

/-- `WORKER_COMMAND_NEW_CLIENT`: a session comes into its room, which is made if there is none. -/
def onNewClient (p : ℕ) : Exec SeatServer := do
  let player ← Exec.deref (s.players p)
  let target ← Exec.deref player.targetRoom
  if player.room.isSome then return s
  else
    let room := (s.rooms target).getD (createRoom seatCount target)
    let s := s.setRoom target (some { room with sessions := insert p room.sessions })
    return s.setPlayer p (some { player with room := some target, targetRoom := none })

/-- `map_join`, if the map can take the player. -/
def mapJoin (p : ℕ) (ok : Bool) : Exec SeatServer := do
  let player ← Exec.deref (s.players p)
  let _ ← Exec.deref player.room
  if ok then return s.setPlayer p (some { player with joined := true }) else return s

/-- `client_warp`. The map is left, which is not possible for a player who has not joined it. -/
def clientWarp (p : ℕ) (map : UInt32) : Exec SeatServer := do
  let player ← Exec.deref (s.players p)
  let _ ← Exec.deref player.room
  if player.joined then
    return s.setPlayer p (some { player with map := map, targetRoom := some map, joined := false })
  else .error .nullPointer

/-- A session leaves its room. -/
def leaveRoom (p : ℕ) (r : UInt32) : Exec SeatServer := do
  let room ← Exec.deref (s.rooms r)
  return s.setRoom r (some { room with sessions := room.sessions.erase p })

/-- `do_transfer`. -/
def doTransfer (p : ℕ) : Exec SeatServer := do
  let player ← Exec.deref (s.players p)
  let _ ← Exec.deref player.targetRoom
  let r ← Exec.deref player.room
  let s ← s.leaveRoom p r
  return s.setPlayer p (some { player with room := none })

/-- `client_logout_start` and, at last, `destroy_session`: the map is left, and the player is gone. -/
def clientLogout (p : ℕ) : Exec SeatServer := do
  let player ← Exec.deref (s.players p)
  let s ← match player.room with
    | none => pure s
    | some r => s.leaveRoom p r
  return s.setPlayer p none

/-- `destroy_room`, of a room in which nobody is. -/
def destroyRoom (r : UInt32) : Exec SeatServer := do
  let room ← Exec.deref (s.rooms r)
  if room.sessions = ∅ then return s.setRoom r none else return s

end SeatServer

/-- What happens. (A room in which nobody is may end at once or later, when it has no timers left.) -/
inductive SeatEvent
  | login (p : ℕ) (map : UInt32)
  | newClient (p : ℕ)
  | join (p : ℕ) (ok : Bool)
  | sit (p : ℕ) (id : UInt32) (has : Bool)
  | sitOnMapSeat (p : ℕ) (id : UInt16)
  | standUp (p : ℕ)
  | warp (p : ℕ) (map : UInt32)
  | transfer (p : ℕ)
  | logout (p : ℕ)
  | destroyRoom (r : UInt32)

/-- The channel after it. -/
def SeatEvent.step (seatCount : UInt32 → UInt16) : SeatEvent → SeatServer → Exec SeatServer
  | login p map, s => s.clientLogin p map
  | newClient p, s => s.onNewClient seatCount p
  | join p ok, s => s.mapJoin p ok
  | sit p id has, s => Prod.snd <$> s.clientSit p id has
  | sitOnMapSeat p id, s => Prod.snd <$> s.clientSitOnMapSeat seatCount p id
  | standUp p, s => Prod.snd <$> s.clientStandUp p
  | warp p map, s => s.clientWarp p map
  | transfer p, s => s.doTransfer p
  | logout p, s => s.clientLogout p
  | destroyRoom r, s => s.destroyRoom r

/-! ## Seats that are taken by who sits on them -/

/-- Who is warped or logs out does not sit on a seat of the map, and nobody takes a seat between being
    warped and being transferred. -/
def SeatKept : SeatEvent → SeatServer → Prop
  | .warp p _, s => ∀ player, s.players p = some player → player.seat = 0xFFFF
  | .logout p, s => ∀ player, s.players p = some player → player.seat = 0xFFFF
  | .sitOnMapSeat p _, s => ∀ player, s.players p = some player → player.targetRoom = none
  | _, _ => True

/-! ## Who sits where -/

/-- The seat on which a player sits, and its map. -/
def Sitter.place (player : Sitter) : Option (UInt32 × ℕ) :=
  if player.seat = 0xFFFF then none else player.room.map fun r => (r, player.seat.toNat)

theorem Sitter.place_eq_some {player : Sitter} {r : UInt32} {i : ℕ} :
    player.place = some (r, i) ↔
      player.seat ≠ 0xFFFF ∧ player.room = some r ∧ player.seat.toNat = i := by
  rw [place]
  split
  · rename_i h
    exact iff_of_false nofun fun h' => h'.1 h
  · rename_i h
    rw [Option.map_eq_some_iff]
    constructor
    · rintro ⟨r', hr', he⟩
      cases he
      exact ⟨h, hr', rfl⟩
    · rintro ⟨-, hr, hi⟩
      exact ⟨r, hr, Prod.ext rfl hi⟩

namespace SeatServer

variable {seatCount : UInt32 → UInt16} {s s' : SeatServer}

@[simp] theorem setPlayer_players (p : ℕ) (player : Option Sitter) :
    (s.setPlayer p player).players = Function.update s.players p player := rfl

@[simp] theorem setRoom_rooms (r : UInt32) (room : Option SeatRoom) :
    (s.setRoom r room).rooms = Function.update s.rooms r room := rfl

/-- The seat on which somebody sits, if he is there. -/
def place (s : SeatServer) (p : ℕ) : Option (UInt32 × ℕ) := (s.players p).bind Sitter.place

theorem place_setPlayer (p : ℕ) (player : Option Sitter) :
    (s.setPlayer p player).place = Function.update s.place p (player.bind Sitter.place) := by
  funext q
  by_cases hq : q = p
  · rw [hq, place, setPlayer_players, Function.update_self, Function.update_self]
  · rw [place, setPlayer_players, Function.update_of_ne hq, Function.update_of_ne hq, place]

/-- What is known of a player: who is not on his way to a room is in that of his map, and only he may
    have a seat. -/
structure Known (seatCount : UInt32 → UInt16) (s : SeatServer) (p : ℕ) (player : Sitter) : Prop where
  target : ∀ t, player.targetRoom = some t → t = player.map
  room : player.targetRoom = none → player.room = some player.map
  seat : player.seat ≠ 0xFFFF → player.targetRoom = none ∧ player.seat < seatCount player.map
  mem : ∀ r, player.room = some r → ∃ room, s.rooms r = some room ∧ p ∈ room.sessions

/-- Seats are taken by those who sit on them. -/
structure Kept (seatCount : UInt32 → UInt16) (s : SeatServer) : Prop where
  known : ∀ p player, s.players p = some player → s.Known seatCount p player
  length : ∀ r room, s.rooms r = some room → room.occupiedSeats.length = (seatCount r).toNat
  linked : ∃ sitter, Linked s.place sitter ∧ ∀ r room, s.rooms r = some room → ∀ i,
    room.occupiedSeats[i]? = some true ↔ sitter (r, i) ≠ none

theorem kept_start : Kept seatCount start where
  known := nofun
  length := nofun
  linked := ⟨fun _ => none, .empty, nofun⟩

/-- The seats of the rooms stay as they are, or are made. -/
def SeatsStay (seatCount : UInt32 → UInt16) (s s' : SeatServer) : Prop :=
  ∀ r room', s'.rooms r = some room' →
    (∃ room, s.rooms r = some room ∧ room'.occupiedSeats = room.occupiedSeats) ∨
      (s.rooms r = none ∧ room'.occupiedSeats = (createRoom seatCount r).occupiedSeats)

/-- Nobody sits down or stands up. -/
theorem Kept.of_place (h : Kept seatCount s) (hplace : s'.place = s.place)
    (hrooms : SeatsStay seatCount s s')
    (hknown : ∀ p player, s'.players p = some player → s'.Known seatCount p player) :
    Kept seatCount s' where
  known := hknown
  length r room' hroom' := by
    rcases hrooms r room' hroom' with ⟨room, hroom, he⟩ | ⟨-, he⟩
    · rw [he, h.length r room hroom]
    · rw [he]
      exact List.length_replicate
  linked := by
    obtain ⟨sitter, hlinked, htaken⟩ := h.linked
    refine ⟨sitter, hplace ▸ hlinked, fun r room' hroom' i => ?_⟩
    rcases hrooms r room' hroom' with ⟨room, hroom, he⟩ | ⟨hnone, he⟩
    · rw [he]
      exact htaken r room hroom i
    · rw [he]
      refine iff_of_false (fun hi => ?_) (not_not_intro (Option.eq_none_iff_forall_ne_some.2 ?_))
      · exact absurd (List.eq_of_mem_replicate (List.mem_of_getElem? hi)) (by decide)
      · intro p hp
        obtain ⟨player, hplayer, hpl⟩ := Option.bind_eq_some_iff.1 ((hlinked p (r, i)).2 hp)
        obtain ⟨room, hroom, -⟩ :=
          (h.known p player hplayer).mem r (Sitter.place_eq_some.1 hpl).2.1
        rw [hnone] at hroom
        cases hroom

theorem SeatsStay.refl (s : SeatServer) : SeatsStay seatCount s s :=
  fun _ room' hroom' => .inl ⟨room', hroom', rfl⟩

/-- The sessions of a room change. -/
theorem seatsStay_setRoom {r : UInt32} {room : SeatRoom} (sessions : Finset ℕ)
    (hroom : s.rooms r = some room ∨ s.rooms r = none ∧ room = createRoom seatCount r) :
    SeatsStay seatCount s (s.setRoom r (some { room with sessions := sessions })) := by
  intro r' room' hroom'
  rw [setRoom_rooms] at hroom'
  by_cases hr : r' = r
  · subst hr
    rw [Function.update_self] at hroom'
    obtain rfl := Option.some.inj hroom'
    rcases hroom with hroom | ⟨hnone, rfl⟩
    · exact .inl ⟨room, hroom, rfl⟩
    · exact .inr ⟨hnone, rfl⟩
  · exact .inl ⟨room', (Function.update_of_ne hr ..).symm.trans hroom', rfl⟩

/-- A player changes, and rooms with him, but he neither sits down nor stands up. -/
theorem Kept.change (h : Kept seatCount s) {p : ℕ} {player : Option Sitter}
    (hplace : player.bind Sitter.place = s.place p) (hplayers : s'.players = s.players)
    (hstay : SeatsStay seatCount s s')
    (hmem : ∀ q ≠ p, ∀ r room, s.rooms r = some room → q ∈ room.sessions →
      ∃ room', s'.rooms r = some room' ∧ q ∈ room'.sessions)
    (hknown : ∀ new, player = some new → s'.Known seatCount p new) :
    Kept seatCount (s'.setPlayer p player) := by
  have hsame : s'.place = s.place := by
    funext q
    rw [place, hplayers, place]
  refine h.of_place ?_ (fun r room' hroom' => hstay r room' hroom') fun q new hnew => ?_
  · rw [place_setPlayer, hplace, hsame, Function.update_eq_self]
  · rw [setPlayer_players] at hnew
    by_cases hq : q = p
    · subst hq
      rw [Function.update_self] at hnew
      have hk := hknown new hnew
      exact ⟨hk.target, hk.room, hk.seat, hk.mem⟩
    · have hold : s.players q = some new :=
        (congrFun hplayers q).symm.trans ((Function.update_of_ne hq ..).symm.trans hnew)
      have hk := h.known q new hold
      refine ⟨hk.target, hk.room, hk.seat, fun r hr => ?_⟩
      obtain ⟨room, hroom, hmemq⟩ := hk.mem r hr
      exact hmem q hq r room hroom hmemq

/-- A player changes, but he neither goes anywhere nor sits down nor stands up. -/
theorem Kept.setPlayer (h : Kept seatCount s) {p : ℕ} {player : Option Sitter}
    (hplace : player.bind Sitter.place = s.place p)
    (hknown : ∀ new, player = some new → s.Known seatCount p new) :
    Kept seatCount (s.setPlayer p player) :=
  h.change hplace rfl (.refl s) (fun _ _ _ room hroom hq => ⟨room, hroom, hq⟩) hknown

theorem place_eq_none {p : ℕ} {player : Sitter} (hplayer : s.players p = some player)
    (hseat : player.seat = 0xFFFF) : s.place p = none := by
  rw [place, hplayer, Option.bind_some, Sitter.place, if_pos hseat]

/-- A player without a seat leaves a room. -/
theorem Kept.leaveRoom (h : Kept seatCount s) {p : ℕ} {old : Sitter} {r : UInt32}
    {player : Option Sitter} (hold : s.players p = some old) (hseat : old.seat = 0xFFFF)
    (hplace : player.bind Sitter.place = none)
    (hknown : ∀ s' : SeatServer, ∀ new, player = some new → s'.Known seatCount p new) :
    (s.leaveRoom p r).Ensures fun s' => Kept seatCount (s'.setPlayer p player) := by
  refine .bind (.deref fun room hroom => hroom) fun room hroom => .pure ?_
  refine h.change (hplace.trans (place_eq_none hold hseat).symm) rfl
    (seatsStay_setRoom _ (.inl hroom)) (fun q hq r' room' hroom' hmem => ?_) (hknown _)
  by_cases hr : r' = r
  · subst hr
    obtain rfl := Option.some.inj (hroom.symm.trans hroom')
    exact ⟨_, Function.update_self .., Finset.mem_erase.2 ⟨hq, hmem⟩⟩
  · exact ⟨room', (Function.update_of_ne hr ..).trans hroom', hmem⟩

/-! ## Coming and going -/

theorem clientLogin_kept (h : Kept seatCount s) (p : ℕ) (map : UInt32) :
    (s.clientLogin p map).Ensures (Kept seatCount) := by
  rw [clientLogin]
  split
  · exact .pure h
  · rename_i hnone
    refine .pure (h.setPlayer ?_ ?_)
    · rw [place, hnone]
      rfl
    · rintro _ ⟨⟩
      exact ⟨fun t ht => (Option.some.inj ht).symm, nofun, fun hs => absurd rfl hs, nofun⟩

theorem onNewClient_kept (h : Kept seatCount s) (p : ℕ) :
    (s.onNewClient seatCount p).Ensures (Kept seatCount) := by
  refine .bind (.deref fun player hp => hp) fun player hplayer =>
    .bind (.deref fun target ht => ht) fun target htarget => ?_
  split
  · exact .pure h
  · have hk := h.known p player hplayer
    have hseat : player.seat = 0xFFFF := by
      by_contra hne
      rw [(hk.seat hne).1] at htarget
      cases htarget
    have hroom : s.rooms target = some ((s.rooms target).getD (createRoom seatCount target)) ∨
        s.rooms target = none ∧
          (s.rooms target).getD (createRoom seatCount target) = createRoom seatCount target := by
      cases s.rooms target with
      | none => exact .inr ⟨rfl, rfl⟩
      | some room => exact .inl rfl
    refine .pure (h.change ?_ rfl (seatsStay_setRoom _ hroom) (fun q hq r room hr hmem => ?_) ?_)
    · rw [place_eq_none hplayer hseat, Option.bind_some, Sitter.place, if_pos hseat]
    · by_cases he : r = target
      · subst he
        refine ⟨_, Function.update_self .., Finset.mem_insert_of_mem ?_⟩
        rw [hr]
        exact hmem
      · exact ⟨room, (Function.update_of_ne he ..).trans hr, hmem⟩
    · rintro _ ⟨⟩
      refine ⟨nofun, fun _ => congrArg some (hk.target target htarget), fun hs => absurd hseat hs,
        fun r hr => ?_⟩
      obtain rfl := Option.some.inj hr
      exact ⟨_, Function.update_self .., Finset.mem_insert_self ..⟩

theorem mapJoin_kept (h : Kept seatCount s) (p : ℕ) (ok : Bool) :
    (s.mapJoin p ok).Ensures (Kept seatCount) := by
  refine .bind (.deref fun player hp => hp) fun player hplayer => .andThen fun _ _ => ?_
  split
  · refine .pure (h.setPlayer ?_ ?_)
    · rw [place, hplayer]
      rfl
    · rintro _ ⟨⟩
      have hk := h.known p player hplayer
      exact ⟨hk.target, hk.room, hk.seat, hk.mem⟩
  · exact .pure h

theorem clientWarp_kept (h : Kept seatCount s) {p : ℕ} {map : UInt32}
    (hseat : ∀ player, s.players p = some player → player.seat = 0xFFFF) :
    (s.clientWarp p map).Ensures (Kept seatCount) := by
  refine .bind (.deref fun player hp => hp) fun player hplayer => .andThen fun _ _ => ?_
  split
  · refine .pure (h.setPlayer ?_ ?_)
    · rw [place_eq_none hplayer (hseat player hplayer), Option.bind_some, Sitter.place,
        if_pos (hseat player hplayer)]
    · rintro _ ⟨⟩
      have hk := h.known p player hplayer
      exact ⟨fun t ht => (Option.some.inj ht).symm, nofun,
        fun hs => absurd (hseat player hplayer) hs, hk.mem⟩
  · exact .error

theorem doTransfer_kept (h : Kept seatCount s) (p : ℕ) :
    (s.doTransfer p).Ensures (Kept seatCount) := by
  refine .bind (.deref fun player hp => hp) fun player hplayer =>
    .bind (.deref fun target ht => ht) fun target htarget => .andThen fun r _ => ?_
  have hk := h.known p player hplayer
  have hseat : player.seat = 0xFFFF := by
    by_contra hne
    rw [(hk.seat hne).1] at htarget
    cases htarget
  refine (h.leaveRoom hplayer hseat ?_ fun s' new hnew => ?_).bind fun s' hs' => .pure hs'
  · rw [Option.bind_some, Sitter.place, if_pos hseat]
  · cases hnew
    refine ⟨hk.target, fun hnone => ?_, fun hs => absurd hseat hs, nofun⟩
    rw [htarget] at hnone
    cases hnone

theorem clientLogout_kept (h : Kept seatCount s) {p : ℕ}
    (hseat : ∀ player, s.players p = some player → player.seat = 0xFFFF) :
    (s.clientLogout p).Ensures (Kept seatCount) := by
  refine .bind (.deref fun player hp => hp) fun player hplayer => ?_
  split
  · refine .bind (.pure rfl) fun _ hs => .pure ?_
    subst hs
    refine h.setPlayer (place_eq_none hplayer (hseat player hplayer)).symm nofun
  · exact (h.leaveRoom hplayer (hseat player hplayer) rfl fun _ _ hnew => by cases hnew).bind fun s' hs' => .pure hs'

theorem destroyRoom_kept (h : Kept seatCount s) (r : UInt32) :
    (s.destroyRoom r).Ensures (Kept seatCount) := by
  refine .bind (.deref fun room hr => hr) fun room hroom => ?_
  split
  · rename_i hempty
    refine .pure (h.of_place rfl (fun r' room' hroom' => .inl ⟨room', ?_, rfl⟩) fun p player hp => ?_)
    · rw [setRoom_rooms] at hroom'
      by_cases he : r' = r
      · rw [he, Function.update_self] at hroom'
        cases hroom'
      · rwa [Function.update_of_ne he] at hroom'
    · have hk := h.known p player hp
      refine ⟨hk.target, hk.room, hk.seat, fun r' hr' => ?_⟩
      obtain ⟨room', hroom', hmem⟩ := hk.mem r' hr'
      have he : r' ≠ r := by
        rintro rfl
        obtain rfl := Option.some.inj (hroom.symm.trans hroom')
        rw [hempty] at hmem
        exact Finset.notMem_empty _ hmem
      exact ⟨room', (Function.update_of_ne he ..).trans hroom', hmem⟩
  · exact .pure h

/-! ## Sitting -/

/-- A seat is taken or left. -/
theorem taken_set {sitter : UInt32 × ℕ → Option ℕ}
    (htaken : ∀ r room, s.rooms r = some room → ∀ i,
      room.occupiedSeats[i]? = some true ↔ sitter (r, i) ≠ none)
    {r : UInt32} {room : SeatRoom} (hroom : s.rooms r = some room) {i : ℕ}
    (hi : i < room.occupiedSeats.length) {b : Bool} {o : Option ℕ} (hb : b = true ↔ o ≠ none) :
    ∀ r' room', (s.setRoom r (some { room with
        occupiedSeats := room.occupiedSeats.set i b })).rooms r' = some room' →
      ∀ j, room'.occupiedSeats[j]? = some true ↔ Function.update sitter (r, i) o (r', j) ≠ none := by
  intro r' room' hroom' j
  rw [setRoom_rooms] at hroom'
  by_cases hr : r' = r
  · subst hr
    rw [Function.update_self] at hroom'
    obtain rfl := Option.some.inj hroom'
    by_cases hj : j = i
    · rw [hj, Function.update_self, List.getElem?_set_self hi, Option.some.injEq, hb]
    · rw [List.getElem?_set_ne (Ne.symm hj), Function.update_of_ne (by simpa using hj)]
      exact htaken r' room hroom j
  · rw [Function.update_of_ne hr] at hroom'
    rw [Function.update_of_ne (by simpa using fun h => absurd h hr)]
    exact htaken r' room' hroom' j

/-- A player takes a seat, or leaves it. -/
theorem Kept.sit (h : Kept seatCount s) {p : ℕ} {old new : Sitter} {r : UInt32} {room : SeatRoom}
    {i : ℕ} {b : Bool} {sitter : UInt32 × ℕ → Option ℕ} {o : Option ℕ}
    (hold : s.players p = some old) (hroom : s.rooms r = some room)
    (htaken : ∀ r room, s.rooms r = some room → ∀ i,
      room.occupiedSeats[i]? = some true ↔ sitter (r, i) ≠ none)
    (hi : i < room.occupiedSeats.length) (hb : b = true ↔ o ≠ none)
    (hlinked : Linked (Function.update s.place p new.place) (Function.update sitter (r, i) o))
    (hmap : new.map = old.map) (hto : new.targetRoom = old.targetRoom) (hin : new.room = old.room)
    (hseat : new.seat ≠ 0xFFFF → new.targetRoom = none ∧ new.seat < seatCount new.map) :
    Kept seatCount ((s.setRoom r (some { room with
      occupiedSeats := room.occupiedSeats.set i b })).setPlayer p (some new)) where
  known q player hplayer := by
    have hmem : ∀ q player, s.players q = some player → ∀ r', player.room = some r' →
        ∃ room', (s.setRoom r (some { room with
          occupiedSeats := room.occupiedSeats.set i b })).rooms r' = some room' ∧
            q ∈ room'.sessions := by
      intro q player hplayer r' hr'
      obtain ⟨room', hroom', hq⟩ := (h.known q player hplayer).mem r' hr'
      by_cases he : r' = r
      · subst he
        obtain rfl := Option.some.inj (hroom.symm.trans hroom')
        exact ⟨_, Function.update_self .., hq⟩
      · exact ⟨room', (Function.update_of_ne he ..).trans hroom', hq⟩
    rw [setPlayer_players] at hplayer
    by_cases hq : q = p
    · subst hq
      rw [Function.update_self] at hplayer
      obtain rfl := Option.some.inj hplayer
      have hk := h.known q old hold
      refine ⟨?_, ?_, hseat, fun r' hr' => hmem q old hold r' (hin.symm.trans hr')⟩
      · rw [hto, hmap]
        exact hk.target
      · rw [hto, hmap, hin]
        exact hk.room
    · rw [Function.update_of_ne hq] at hplayer
      have hk := h.known q player hplayer
      exact ⟨hk.target, hk.room, hk.seat, hmem q player hplayer⟩
  length r' room' hroom' := by
    change (s.setRoom r _).rooms r' = _ at hroom'
    rw [setRoom_rooms] at hroom'
    by_cases he : r' = r
    · subst he
      rw [Function.update_self] at hroom'
      obtain rfl := Option.some.inj hroom'
      rw [List.length_set]
      exact h.length r' room hroom
    · rw [Function.update_of_ne he] at hroom'
      exact h.length r' room' hroom'
  linked := by
    refine ⟨Function.update sitter (r, i) o, ?_, taken_set htaken hroom hi hb⟩
    rw [place_setPlayer]
    exact hlinked

theorem clientSit_kept (h : Kept seatCount s) (p : ℕ) (id : UInt32) (has : Bool) :
    (s.clientSit p id has).Ensures fun res => Kept seatCount res.2 := by
  refine .bind (.deref fun player hp => hp) fun player hplayer => .andThen fun _ _ => ?_
  split
  · exact .pure h
  · split
    · exact .pure h
    · split
      · exact .pure h
      · refine .pure (h.setPlayer ?_ ?_)
        · rw [place, hplayer]
          rfl
        · rintro _ ⟨⟩
          have hk := h.known p player hplayer
          exact ⟨hk.target, hk.room, hk.seat, hk.mem⟩

theorem mapTryOccupySeat_spec (r : UInt32) (id : UInt16) :
    (s.mapTryOccupySeat r id).Ensures fun res =>
      (res.1 = true ∧ ∃ room, s.rooms r = some room ∧ id.toNat < room.occupiedSeats.length ∧
        room.occupiedSeats[id.toNat]? = some false ∧ res.2 = s.setRoom r
          (some { room with occupiedSeats := room.occupiedSeats.set id.toNat true })) ∨
      (res.1 = false ∧ res.2 = s) := by
  refine .bind (.deref fun room hroom => hroom) fun room hroom => Exec.within_spec.bind fun _ hi => ?_
  split
  · rename_i hfree
    exact .pure (.inl ⟨rfl, room, hroom, hi, hfree, rfl⟩)
  · exact .pure (.inr ⟨rfl, rfl⟩)

theorem mapTireSeat_spec (r : UInt32) (id : UInt16) :
    (s.mapTireSeat r id).Ensures fun s' => ∃ room, s.rooms r = some room ∧
      id.toNat < room.occupiedSeats.length ∧
      s' = s.setRoom r
        (some { room with occupiedSeats := room.occupiedSeats.set id.toNat false }) :=
  .bind (.deref fun _ hroom => hroom) fun room hroom => Exec.within_spec.bind fun _ hi =>
    .pure ⟨room, hroom, hi, rfl⟩

theorem clientSitOnMapSeat_kept (h : Kept seatCount s) {p : ℕ} {id : UInt16}
    (hhere : ∀ player, s.players p = some player → player.targetRoom = none) :
    (s.clientSitOnMapSeat seatCount p id).Ensures fun res => Kept seatCount res.2 := by
  refine .bind (.deref fun player hp => hp) fun player hplayer =>
    .bind (.deref fun r hr => hr) fun r hr => ?_
  have hk := h.known p player hplayer
  obtain rfl : player.map = r := Option.some.inj ((hk.room (hhere player hplayer)).symm.trans hr)
  split
  · exact .pure h
  · rename_i hid
    have hlt : id < seatCount player.map := UInt16.not_le.1 hid
    split
    · exact .pure h
    · rename_i hseat
      refine (mapTryOccupySeat_spec player.map id).bind ?_
      rintro ⟨ok, s'⟩ (⟨rfl, room, hroom, hi, hfree, rfl⟩ | ⟨rfl, rfl⟩)
      · obtain ⟨sitter, hlinked, htaken⟩ := h.linked
        have hnew : id ≠ 0xFFFF := by
          rintro rfl
          exact absurd hlt (UInt16.not_lt.2 (UInt16.le_iff_toNat_le.2 (by
            have := (seatCount player.map).toNat_lt
            change _ ≤ 65535
            omega)))
        have hnobody : sitter (player.map, id.toNat) = none := by
          by_contra hne
          rw [(htaken _ room hroom _).2 hne] at hfree
          cases hfree
        refine .pure (h.sit (o := some p) hplayer hroom htaken hi ?_ ?_ rfl rfl rfl fun _ =>
          ⟨hhere player hplayer, hlt⟩)
        · exact iff_of_true rfl nofun
        · have hplace : Sitter.place { player with seat := id } =
              some (player.map, id.toNat) := Sitter.place_eq_some.2 ⟨hnew, hr, rfl⟩
          rw [hplace]
          exact hlinked.put (place_eq_none hplayer (not_not.1 hseat)) hnobody
      · exact .pure h

theorem clientStandUp_kept (h : Kept seatCount s) (p : ℕ) :
    (s.clientStandUp p).Ensures fun res => Kept seatCount res.2 := by
  refine .bind (.deref fun player hp => hp) fun player hplayer =>
    .bind (.deref fun r hr => hr) fun r hr => ?_
  have hk := h.known p player hplayer
  split
  · refine .pure (h.setPlayer ?_ ?_)
    · rw [place, hplayer]
      rfl
    · rintro _ ⟨⟩
      exact ⟨hk.target, hk.room, hk.seat, hk.mem⟩
  · split
    · rename_i hseat
      refine (mapTireSeat_spec r player.seat).bind ?_
      rintro _ ⟨room, hroom, hi, rfl⟩
      obtain ⟨sitter, hlinked, htaken⟩ := h.linked
      have hplace : s.place p = some (r, player.seat.toNat) := by
        rw [place, hplayer, Option.bind_some]
        exact Sitter.place_eq_some.2 ⟨hseat, hr, rfl⟩
      refine .pure (h.sit (o := none) hplayer hroom htaken hi ?_ ?_ rfl rfl rfl fun hs => absurd rfl hs)
      · exact iff_of_false nofun fun hne => hne rfl
      · exact hlinked.take hplace
    · exact .pure h

theorem Kept.step (h : Kept seatCount s) (e : SeatEvent) (hkept : SeatKept e s) :
    (e.step seatCount s).Ensures (Kept seatCount) := by
  cases e with
  | login p map => exact clientLogin_kept h p map
  | newClient p => exact onNewClient_kept h p
  | join p ok => exact mapJoin_kept h p ok
  | sit p id has => exact .map (clientSit_kept h p id has)
  | sitOnMapSeat p id => exact .map (clientSitOnMapSeat_kept h hkept)
  | standUp p => exact .map (clientStandUp_kept h p)
  | warp p map => exact clientWarp_kept h hkept
  | transfer p => exact doTransfer_kept h p
  | logout p => exact clientLogout_kept h hkept
  | destroyRoom r => exact destroyRoom_kept h r

end SeatServer

instance (e : SeatEvent) (s : SeatServer) : Decidable (SeatKept e s) :=
  match e with
  | .warp p _ => decidable_of_iff ((s.players p).all fun player => player.seat = 0xFFFF)
      (by cases h : s.players p <;> simp [SeatKept, h])
  | .logout p => decidable_of_iff ((s.players p).all fun player => player.seat = 0xFFFF)
      (by cases h : s.players p <;> simp [SeatKept, h])
  | .sitOnMapSeat p _ => decidable_of_iff ((s.players p).all fun player => player.targetRoom = none)
      (by cases h : s.players p <;> simp [SeatKept, h])
  | .login .. | .newClient .. | .join .. | .sit .. | .standUp .. | .transfer .. | .destroyRoom .. =>
    inferInstanceAs (Decidable True)

end Syrup
