import Syrup.Crypt
import Syrup.Exec
import Syrup.Lib.Framing

/-!
# Packets on the wire

How both servers write packets to a connection, and read them. `session_write` writes the length of a
packet, in two bytes, and its bytes. The output filter takes packets off that, one at a time, and sends
each with a header of four bytes, from which its length can be told, and encrypted. The input filter
takes packets off what has come, decrypts them, and puts them into the buffer of the session: on the
channel server again with their lengths, on the login server without.

* `headerLength_header`: the length in a header is that which has been encoded, whatever the vector and
  the version;
* `plain_reads`, `wire_reads`: what is written is read, and a filter needs more until a whole packet has
  come.
-/

namespace Syrup

open Framing

/-- The packets, the length of which fits into a `uint16_t`. -/
abbrev PacketData := {data : List UInt8 // data.length ≤ 65535}

theorem PacketData.length_byte (b : UInt8) : [b].length ≤ 65535 := Nat.le_of_ble_eq_true rfl

/-- The length of a packet as a `uint16_t`. -/
def PacketData.len (p : PacketData) : UInt16 := UInt16.ofNat p.val.length

@[simp] theorem PacketData.toNat_len (p : PacketData) : p.len.toNat = p.val.length :=
  UInt16.toNat_ofNat_of_lt' (Nat.lt_succ_of_le p.2)

/-! ## Numbers in buffers -/

/-- The bytes of a `uint16_t`. -/
def bytes16 (n : UInt16) : List UInt8 := [n.toUInt8, (n >>> 8).toUInt8]

/-- The `uint16_t` of two bytes. -/
def ofBytes16 (b₀ b₁ : UInt8) : UInt16 := b₀.toUInt16 ||| b₁.toUInt16 <<< 8

/-- `packet_len` of the input filters, which is computed from the `uint32_t` of four bytes. -/
def headerLength (b₀ b₁ b₂ b₃ : UInt8) : UInt16 :=
  let header : UInt32 :=
    b₀.toUInt32 ||| b₁.toUInt32 <<< 8 ||| b₂.toUInt32 <<< 16 ||| b₃.toUInt32 <<< 24
  ((header >>> 16) ^^^ header).toUInt16

/-- `encryption_context_header`. -/
def encryptionContextHeader (context : EncryptionContext) (size : UInt16) : List UInt8 :=
  let iiv := (context.iv 3).toUInt16
  let iiv := iiv ||| (context.iv 2).toUInt16 <<< 8
  let iiv := iiv ^^^ context.mapleVersion
  let xorIv := iiv ^^^ (size <<< 8 ||| size >>> 8)
  [(iiv >>> 8).toUInt8, iiv.toUInt8, (xorIv >>> 8).toUInt8, xorIv.toUInt8]

theorem ofBytes16_bytes16 (n : UInt16) : ofBytes16 n.toUInt8 (n >>> 8).toUInt8 = n := by
  refine UInt16.toBitVec_inj.1 (BitVec.eq_of_getLsbD_eq fun i hi => ?_)
  simp only [ofBytes16, UInt8.toBitVec_toUInt16, UInt16.toBitVec_toUInt8, UInt16.toBitVec_shiftRight,
    UInt16.toBitVec_shiftLeft, UInt16.toBitVec_or, UInt16.toBitVec_ofNat, BitVec.reduceMod,
    BitVec.shiftLeft_eq', BitVec.ushiftRight_eq', BitVec.toNat_ofNat, BitVec.getLsbD_setWidth,
    BitVec.getLsbD_ushiftRight, BitVec.getLsbD_or, BitVec.getLsbD_shiftLeft, Nat.reducePow,
    Nat.reduceMod]
  interval_cases i <;> simp

/-- The other bytes of a header cancel: only the length is left. -/
theorem headerLength_xor (iiv size : UInt16) :
    headerLength (iiv >>> 8).toUInt8 iiv.toUInt8
      ((iiv ^^^ (size <<< 8 ||| size >>> 8)) >>> 8).toUInt8
      (iiv ^^^ (size <<< 8 ||| size >>> 8)).toUInt8 = size := by
  have hcancel (a b : Bool) : (a != (b != a)) = b := by decide +revert
  refine UInt16.toBitVec_inj.1 (BitVec.eq_of_getLsbD_eq fun i hi => ?_)
  simp only [headerLength, UInt32.toBitVec_toUInt16, UInt32.toBitVec_xor, UInt32.toBitVec_shiftRight,
    UInt32.toBitVec_or, UInt32.toBitVec_shiftLeft, UInt8.toBitVec_toUInt32, UInt16.toBitVec_toUInt8,
    UInt16.toBitVec_shiftRight, UInt16.toBitVec_shiftLeft, UInt16.toBitVec_xor, UInt16.toBitVec_or,
    UInt16.toBitVec_ofNat, UInt32.toBitVec_ofNat, BitVec.reduceMod, BitVec.shiftLeft_eq',
    BitVec.ushiftRight_eq', BitVec.toNat_ofNat, BitVec.getLsbD_setWidth, BitVec.getLsbD_xor,
    BitVec.getLsbD_ushiftRight, BitVec.getLsbD_or, BitVec.getLsbD_shiftLeft, Nat.reducePow,
    Nat.reduceMod]
  interval_cases i <;> simp [hcancel]

/-- The length in a header is that which has been encoded. -/
theorem headerLength_header (context : EncryptionContext) (size : UInt16) :
    ∃ b₀ b₁ b₂ b₃, encryptionContextHeader context size = [b₀, b₁, b₂, b₃] ∧
      headerLength b₀ b₁ b₂ b₃ = size :=
  ⟨_, _, _, _, rfl, headerLength_xor _ size⟩

/-! ## The filters -/

/-- The `output_filter` of both servers: what is sent for the first packet that has been written, and the
    context after it, with what is behind the packet; nothing is `BEV_NEED_MORE`. -/
def outputFilter (aes : Block → Block) (context : EncryptionContext) :
    List UInt8 → Option ((List UInt8 × EncryptionContext) × List UInt8)
  | b₀ :: b₁ :: src =>
    let packetLen := ofBytes16 b₀ b₁
    if src.length < packetLen.toNat then none
    else
      let header := encryptionContextHeader context packetLen
      let (data, context) := encryptionContextEncrypt aes context (src.take packetLen.toNat)
      some ((header ++ data, context), src.drop packetLen.toNat)
  | _ => none

/-- The `input_filter` of both servers, which `put` different things into the buffer of the session. -/
def inputFilter (aes : Block → Block) (put : UInt16 → List UInt8 → List UInt8)
    (context : DecryptionContext) :
    List UInt8 → Option ((List UInt8 × DecryptionContext) × List UInt8)
  | b₀ :: b₁ :: b₂ :: b₃ :: src =>
    let packetLen := headerLength b₀ b₁ b₂ b₃
    if src.length < packetLen.toNat then none
    else
      let (data, context) := decryptionContextDecrypt aes context (src.take packetLen.toNat)
      some ((put packetLen data, context), src.drop packetLen.toNat)
  | _ => none

/-- What the channel server puts: the packet with its length. -/
def putFramed (packetLen : UInt16) (data : List UInt8) : List UInt8 := bytes16 packetLen ++ data

/-- What the login server puts: the packet alone. -/
def putBare (_ : UInt16) (data : List UInt8) : List UInt8 := data

/-! ## What is on the wire -/

/-- What `session_write` writes for a packet. -/
def PacketData.framed (p : PacketData) : List UInt8 := bytes16 p.len ++ p.val

/-- Packets as they are written, while the contexts advance. -/
def plainCode (next : EncryptionContext → PacketData → EncryptionContext) :
    Code EncryptionContext UInt8 PacketData where
  word _ p := p.framed
  next := next

/-- Packets as they are sent. -/
def wireCode (aes : Block → Block) : Code EncryptionContext UInt8 PacketData where
  word context p :=
    encryptionContextHeader context p.len ++ (encryptionContextEncrypt aes context p.val).1
  next context p := (encryptionContextEncrypt aes context p.val).2

theorem plainCode_words (next : EncryptionContext → PacketData → EncryptionContext)
    (context : EncryptionContext) (ps : List PacketData) :
    (plainCode next).words context ps = ps.flatMap PacketData.framed := by
  induction ps generalizing context with
  | nil => rfl
  | cons p ps ih => rw [Code.words_cons, ih, List.flatMap_cons, plainCode]

/-- The output filter reads what has been written, and makes of it what is to be sent. -/
theorem plain_reads (aes : Block → Block) : (plainCode (wireCode aes).next).Reads
    (fun context p => ((wireCode aes).word context p, (wireCode aes).next context p))
    (outputFilter aes) where
  word context p l := by
    change outputFilter aes context (p.len.toUInt8 :: (p.len >>> 8).toUInt8 :: (p.val ++ l)) = _
    rw [outputFilter, ofBytes16_bytes16, PacketData.toNat_len, if_neg (by simp),
      List.take_left, List.drop_left]
    rfl
  more context p l hprefix hlt := by
    change l <+: p.len.toUInt8 :: (p.len >>> 8).toUInt8 :: p.val at hprefix
    change l.length < p.val.length + 2 at hlt
    match l, hprefix with
    | [], _ => rfl
    | [_], _ => rfl
    | b₀ :: b₁ :: l, hprefix =>
      simp only [List.cons_prefix_cons] at hprefix
      obtain ⟨rfl, rfl, -⟩ := hprefix
      rw [outputFilter, ofBytes16_bytes16, PacketData.toNat_len, if_pos (by simpa using hlt)]
  nil _ := rfl

/-- The input filter of a side with the same vector reads what has been sent. -/
theorem wire_reads (aes : Block → Block) (put : UInt16 → List UInt8 → List UInt8) :
    (wireCode aes).Reads
      (fun context p => (put p.len p.val, ⟨((wireCode aes).next context p).iv⟩))
      (fun context => inputFilter aes put ⟨context.iv⟩) where
  word context p l := by
    obtain ⟨b₀, b₁, b₂, b₃, hheader, hlen⟩ := headerLength_header context p.len
    have hlength := length_encrypt aes context p.val
    have hdata : (exchange aes context ⟨context.iv⟩ p.val).1 = p.val := (exchange_in_step aes rfl p.val).1
    change inputFilter aes put ⟨context.iv⟩ (encryptionContextHeader context p.len ++
      (encryptionContextEncrypt aes context p.val).1 ++ l) = _
    rw [hheader, List.append_assoc]
    change inputFilter aes put ⟨context.iv⟩ (b₀ :: b₁ :: b₂ :: b₃ ::
      ((encryptionContextEncrypt aes context p.val).1 ++ l)) = _
    rw [inputFilter, hlen, PacketData.toNat_len, if_neg (by simp [hlength]), List.take_left' hlength,
      List.drop_left' hlength]
    exact congrArg (fun data => some ((put p.len data, _), l)) hdata
  more context p l hprefix hlt := by
    obtain ⟨b₀, b₁, b₂, b₃, hheader, hlen⟩ := headerLength_header context p.len
    have hword : (wireCode aes).word context p =
        b₀ :: b₁ :: b₂ :: b₃ :: (encryptionContextEncrypt aes context p.val).1 := by
      change encryptionContextHeader context p.len ++ _ = _
      rw [hheader]
      rfl
    rw [hword] at hprefix hlt
    match l, hprefix with
    | [], _ => rfl
    | [_], _ => rfl
    | [_, _], _ => rfl
    | [_, _, _], _ => rfl
    | c₀ :: c₁ :: c₂ :: c₃ :: l, hprefix =>
      simp only [List.cons_prefix_cons] at hprefix
      obtain ⟨rfl, rfl, rfl, rfl, -⟩ := hprefix
      rw [inputFilter, hlen, PacketData.toNat_len, if_pos]
      simpa [length_encrypt] using hlt
  nil _ := rfl

end Syrup
