import Syrup.Lib.Fields
import Syrup.Writer

/-!
# Movement: `RECEIVE_OPCODE_MOVE` and `RECEIVE_OPCODE_MONSTER_MOVE`

A player, or a monster that a player controls, moves by some commands, which are counted by a byte. The handlers go
through the commands for the new position, add up how long they are, and forward so many bytes of the packet to the
others on the map.

What is modelled is the part of a handler after the check that the player is on a map. The response to the player that
controls a monster is left out.
-/

namespace Syrup

open Wire Fields

/-- Where a player or a monster is. -/
structure Position where
  x : Int16
  y : Int16
  fh : UInt16
  stance : UInt8
  deriving DecidableEq, Inhabited

/-- What comes of a packet: whether the session is not kicked for it, what has moved where, and what is broadcast to
    the room. -/
structure Relayed (σ : Type) where
  accepted : Bool
  state : σ
  sent : List (List UInt8)

/-! ## Players -/

/-- What is read and skipped of a command of a player. -/
def moveFields : UInt8 → List Field
  | 0 | 5 | 17 => [.num i16, .num i16, .skip 4, .num u16, .num u8, .skip 2]
  | 1 | 2 | 6 | 12 | 13 | 16 | 18 | 19 | 20 | 22 => [.skip 4, .num u8, .skip 2]
  | 3 | 4 | 7 | 8 | 9 | 11 => [.skip 8, .num u8]
  | 10 => [.skip 1]
  | 14 => [.skip 9]
  | 15 => [.skip 12, .num u8, .skip 2]
  | _ => []

/-- What is added to `len` after a command of a player. -/
def moveLen : UInt8 → ℕ
  | 0 | 5 | 17 => 13
  | 1 | 2 | 6 | 12 | 13 | 16 | 18 | 19 | 20 | 22 => 7
  | 3 | 4 | 7 | 8 | 9 | 11 => 9
  | 10 => 1
  | 14 => 9
  | 15 => 15
  | _ => 0

/-- The position that has been read. -/
def positionOf : List ℤ → Option Position
  | [x, y, fh, stance] => some ⟨Int16.ofInt x, Int16.ofInt y, UInt16.ofNat fh.toNat, UInt8.ofNat stance.toNat⟩
  | _ => none

/-- `client_update_player_pos`, for a command with a position, or with a stance only. -/
def clientUpdatePlayerPos (p : Position) : List ℤ → Position
  | [stance] => { p with stance := UInt8.ofNat stance.toNat }
  | vs => (positionOf vs).getD p

/-- A command of a player: the position, and `len`. -/
def moveCommand (code : UInt8) (vs : List ℤ) (s : Position × ℕ) : Position × ℕ :=
  (clientUpdatePlayerPos s.1 vs, s.2 + 1 + moveLen code)

/-- `MOVE_PLAYER_PACKET_MAX_LENGTH`. -/
def movePlayerPacketMaxLength : ℕ := 3863

/-- What `move_player_packet` writes before the data. -/
def movePlayerHead (id : UInt32) : List Write := [.num u16 0x00B9, .num u32 id.toNat, .num u32 0]

/-- `move_player_packet`. The size that the writer gets is not that of the array. -/
def movePlayerPacket (id : UInt32) (len : ℕ) (data : List UInt8) : Exec (List UInt8) :=
  if 10 + len ≤ movePlayerPacketMaxLength then
    packetOf (10 + len) (movePlayerHead id ++ [.array (UInt16.ofNat len) data])
  else .error .outOfBounds

/-- `RECEIVE_OPCODE_MOVE`. -/
def moveHandler (id : UInt32) (p : Position) (packet : List UInt8) : Exec (Relayed Position) :=
  match packet.drop 9 with
  | [] => .ok ⟨false, p, []⟩
  | count :: bs =>
    match parse moveFields moveCommand count.toNat bs (p, 1) with
    | ((p, _), none) => .ok ⟨false, p, []⟩
    | ((p, len), some _) => do
      let out ← movePlayerPacket id len (packet.drop 9)
      return ⟨true, p, [out]⟩

/-! ## Monsters -/

/-- What is read and skipped of a command of a monster. -/
def monsterFields : UInt8 → List Field
  | 0 | 5 | 17 => [.num i16, .num i16, .skip 4, .num u16, .num u8, .skip 2]
  | 1 | 2 | 6 | 12 | 13 | 16 | 18 | 19 | 20 | 22 => [.skip 7]
  | 3 | 4 | 7 | 8 | 9 | 11 | 14 => [.skip 9]
  | 10 => [.skip 1]
  | 15 => [.skip 15]
  | 21 => [.skip 3]
  | _ => []

/-- What is added to `len` after a command of a monster. -/
def monsterLen : UInt8 → ℕ
  | 0 | 5 | 17 => 13
  | 1 | 2 | 6 | 12 | 13 | 16 | 18 | 19 | 20 | 22 => 7
  | 3 | 4 | 7 | 8 | 9 | 11 | 14 => 9
  | 10 => 1
  | 15 => 15
  | 21 => 3
  | _ => 0

/-- A command of a monster: the position, if one has been read, and `len`. -/
def monsterCommand (code : UInt8) (vs : List ℤ) (s : Option Position × ℕ) : Option Position × ℕ :=
  (match positionOf vs with
    | some p => some p
    | none => s.1, s.2 + 1 + monsterLen code)

/-- What is read and skipped of a packet before the count: `oid`, `moveid`, `activity`, `skill_id`, `skill_level` and
    `option`. -/
def monsterMoveHead : List Field :=
  [.num u32, .num u16, .skip 1, .num u8, .num u8, .num u8, .num u16, .skip 17]

/-- `MOVE_MONSTER_PACKET_MAX_LENGTH`. -/
def moveMonsterPacketMaxLength : ℕ := 3843

/-- What `move_monster_packet` writes before the data. -/
def moveMonsterHead (oid activity skillId skillLevel option : ℤ) : List Write :=
  [.num u16 0x00EF, .num u32 oid, .num u8 0, .num u8 0, .num u8 activity, .num u8 skillId, .num u8 skillLevel,
    .num u16 option]

/-- `move_monster_packet`. -/
def moveMonsterPacket (oid activity skillId skillLevel option : ℤ) (len : ℕ) (data : List UInt8) :
    Exec (List UInt8) :=
  packetOf moveMonsterPacketMaxLength
    (moveMonsterHead oid activity skillId skillLevel option ++ [.array (UInt16.ofNat len) data])

/-- `map_move_monster`. Whether there is such a monster, alive and controlled by the player, does not depend on the
    position. Nothing is known of a position that is not initialised. -/
def mapMoveMonster (controlled : ℤ → Bool) (monsters : ℤ → Option Position) (oid : ℤ) (p : Option Position) :
    Bool × (ℤ → Option Position) :=
  if controlled oid then (true, Function.update monsters oid p) else (false, monsters)

/-- `RECEIVE_OPCODE_MONSTER_MOVE`. -/
def monsterMoveHandler (controlled : ℤ → Bool) (monsters : ℤ → Option Position) (packet : List UInt8) :
    Exec (Relayed (ℤ → Option Position)) :=
  match readFields monsterMoveHead packet with
  | some ([oid, _, activity, skillId, skillLevel, option], count :: bs) =>
    match parse monsterFields monsterCommand count.toNat bs (none, 5) with
    | (_, none) => .ok ⟨false, monsters, []⟩
    | ((p, len), some _) =>
      match mapMoveMonster controlled monsters oid p with
      | (false, monsters) => .ok ⟨true, monsters, []⟩
      | (true, monsters) => do
        let out ← moveMonsterPacket oid activity skillId skillLevel option len (packet.drop 25)
        return ⟨true, monsters, [out]⟩
  | _ => .ok ⟨false, monsters, []⟩

/-! ## The tables -/

/-- Both tables of a player's commands say the same of their length. -/
theorem moveLen_eq (code : UInt8) : moveLen code = widthOf (moveFields code) := by
  rw [moveLen.eq_def, moveFields.eq_def]
  split <;> rfl

/-- So do both tables of a monster's. -/
theorem monsterLen_eq (code : UInt8) : monsterLen code = widthOf (monsterFields code) := by
  rw [monsterLen.eq_def, monsterFields.eq_def]
  split <;> rfl

end Syrup
