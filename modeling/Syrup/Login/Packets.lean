import Mathlib.Tactic

/-!
# Packets of the login client

How the login server takes a packet apart (`reader.c`, and the switch of `on_client_packet`). A packet
that is too short or too long for its opcode is none, and its sender is kicked. An opcode that is not
known is ignored.
-/

namespace Syrup

/-! ## Readers -/

/-- `struct Reader`. -/
structure PacketReader where
  packet : List UInt8
  pos : ℕ

/-- What is read from a packet. -/
abbrev Parse (α : Type) := StateT PacketReader Option α

namespace Parse

/-- `reader_array`. -/
def array (len : ℕ) : Parse (List UInt8) := fun reader =>
  if reader.pos + len > reader.packet.length then none
  else some ((reader.packet.drop reader.pos).take len, { reader with pos := reader.pos + len })

/-- `reader_u8`. -/
def u8 : Parse UInt8 := do return (← array 1).headD 0

/-- A number in little endian. -/
def ofBytes (bytes : List UInt8) : ℕ := bytes.foldr (fun b n => b.toNat + 256 * n) 0

/-- `reader_u16`. -/
def u16 : Parse UInt16 := do return .ofNat (ofBytes (← array 2))

/-- `reader_u32`. -/
def u32 : Parse UInt32 := do return .ofNat (ofBytes (← array 4))

/-- `reader_sized_string`. -/
def sizedString (maxLen : ℕ) : Parse (List UInt8) := do
  let len ← u16
  if len.toNat > maxLen then failure else array len.toNat

/-- `reader_skip`. -/
def skip (len : ℕ) : Parse Unit := modify fun reader => { reader with pos := reader.pos + len }

/-- A string of which only the length is read. -/
def skipString : Parse Unit := do skip (← u16).toNat

/-- What is read from a packet to its end (`reader_end`). -/
def run {α : Type} (parse : Parse α) (packet : List UInt8) : Option α := do
  let (a, reader) ← parse ⟨packet, 0⟩
  if reader.pos = packet.length then some a else none

end Parse

/-! ## Packets -/

/-- `enum AccountGender`. -/
inductive AccountGender
  | male
  | female
  | unspecified
  deriving DecidableEq

/-- The packets of a login client. -/
inductive LoginPacket
  | login (name pass : List UInt8)
  | serverList
  | characterList (world channel : UInt8)
  | serverStatus
  | tos (accept : Bool)
  | gender (gender : AccountGender)
  | pin (c₂ c₃ : UInt8)
  | nameCheck (name : List UInt8)
  | createCharacter (name : List UInt8)
  | registerPic (id : UInt32) (pic : List UInt8)
  | verifyPic (pic : List UInt8) (id : UInt32)
  | unknown
  deriving DecidableEq

namespace LoginPacket

open Parse

/-- What comes after an opcode that is known, if it is read at all. -/
def parseBody : UInt16 → Option (Parse LoginPacket)
  | 0x0001 => some do
    let name ← sizedString 12
    let pass ← sizedString 12
    let _ ← array 10
    skip 17
    return login name pass
  | 0x0005 => some do
    skip 1
    let world ← u8
    let channel ← u8
    skip 4
    return characterList world channel
  | 0x0006 => some do
    let _ ← u8
    skip 1
    return serverStatus
  | 0x0007 => some do return tos ((← u8) = 1)
  | 0x0008 => some do
    if (← u8) = 1 then return gender (if (← u8) = 0 then .male else .female)
    else return gender .unspecified
  | 0x0009 => some do return pin (← u8) (← u8)
  | 0x0015 => some do return nameCheck (← sizedString 12)
  | 0x0016 => some do
    let name ← sizedString 12
    let _ ← array (9 * 4)
    let _ ← u8
    return createCharacter name
  | 0x001D => some do
    skip 1
    let id ← u32
    skipString
    skipString
    return registerPic id (← sizedString 16)
  | 0x001E => some do
    let pic ← sizedString 16
    let id ← u32
    skipString
    skipString
    return verifyPic pic id
  | _ => none

/-- The packet of these bytes. -/
def parse : List UInt8 → Option LoginPacket
  | b₀ :: b₁ :: body =>
    let opcode := UInt16.ofNat (ofBytes [b₀, b₁])
    if opcode = 0x0004 ∨ opcode = 0x000B then some serverList
    else match parseBody opcode with
      | some parse => parse.run body
      | none => some unknown
  | _ => none

end LoginPacket

end Syrup
