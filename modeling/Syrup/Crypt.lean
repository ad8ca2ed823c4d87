import Syrup.Exec

/-!
# Packet encryption

The encryption of `crypt.c`. A packet is encrypted in place: six passes over its
bytes, forwards and backwards in turn, each carrying the byte it has just made
(`remember`) and a counter that starts at the length (`uint8_t`, so truncated);
then the bytes are xored with a key stream (`crypt`). The key stream comes in
chunks, the first of `0x5B0` bytes and the others of `0x5B4`; in each chunk it is
the iterates of AES on the initialisation vector. After every packet the vector is
replaced. Decryption xors with the same key stream, then undoes the passes.

AES (`AES_ECB_encrypt` under the fixed round keys) is a parameter, `aes`: nothing
is used of it but that it is a function.

* `decryptPasses_encryptPasses`: the six passes are undone;
* `crypt_crypt`: xoring twice with the key stream of the same vector is the
  identity;
* `session_in_step`: over a whole session, every packet arrives as it was sent,
  and the two sides hold the same vector after each.

A packet is the list of its bytes; the source's `length` is a `uint16_t`, so that a
packet has at most 65535 of them, but this is not used.
-/

namespace Syrup

/-- The blocks AES works on. -/
abbrev Block := Fin 16 → UInt8

/-- `roll_left`. -/
def rollLeft (b count : UInt8) : UInt8 :=
  let tmp : UInt16 := b.toUInt16 <<< (count % 8).toUInt16
  (tmp ||| tmp >>> 8).toUInt8

/-- `roll_right`. -/
def rollRight (b count : UInt8) : UInt8 :=
  let tmp : UInt16 := (b.toUInt16 <<< 8) >>> (count % 8).toUInt16
  (tmp ||| tmp >>> 8).toUInt8

/-! ## The passes -/

/-- The loop of an even pass of the encryption, from a byte on. -/
def encryptEven (remember dataLength : UInt8) : List UInt8 → List UInt8
  | [] => []
  | b :: data =>
    let cur := (rollLeft b 3 + dataLength) ^^^ remember
    let dataLength' := dataLength - 1
    (~~~(rollRight cur (dataLength' + 1)) + 0x48) :: encryptEven cur dataLength' data

/-- The loop of an odd pass of the encryption, the bytes being visited backwards. -/
def encryptOdd (remember dataLength : UInt8) : List UInt8 → List UInt8
  | [] => []
  | b :: data =>
    let cur := (rollLeft b 4 + dataLength) ^^^ remember
    rollRight (cur ^^^ 0x13) 3 :: encryptOdd cur (dataLength - 1) data

/-- The loop of an even pass of the decryption. -/
def decryptEven (remember dataLength : UInt8) : List UInt8 → List UInt8
  | [] => []
  | b :: data =>
    let tmp := rollLeft (~~~(b - 0x48)) dataLength
    let cur := tmp ^^^ remember
    rollRight (cur - dataLength) 3 :: decryptEven tmp (dataLength - 1) data

/-- The loop of an odd pass of the decryption, the bytes being visited backwards. -/
def decryptOdd (remember dataLength : UInt8) : List UInt8 → List UInt8
  | [] => []
  | b :: data =>
    let tmp := rollLeft b 3 ^^^ 0x13
    let cur := tmp ^^^ remember
    rollRight (cur - dataLength) 4 :: decryptOdd tmp (dataLength - 1) data

/-- The pass `j` of the encryption. -/
def encryptPass (data : List UInt8) (j : ℕ) : List UInt8 :=
  let dataLength := UInt8.ofNat data.length
  if j % 2 = 0 then encryptEven 0 dataLength data
  else (encryptOdd 0 dataLength data.reverse).reverse

/-- The pass `j` of the decryption. -/
def decryptPass (data : List UInt8) (j : ℕ) : List UInt8 :=
  let dataLength := UInt8.ofNat data.length
  if j % 2 = 0 then decryptEven 0 dataLength data
  else (decryptOdd 0 dataLength data.reverse).reverse

/-- `for (int j = 0; j < 6; j++)`. -/
def encryptPasses (data : List UInt8) : List UInt8 := [0, 1, 2, 3, 4, 5].foldl encryptPass data

/-- `for (int j = 1; j <= 6; j++)`. -/
def decryptPasses (data : List UInt8) : List UInt8 := [1, 2, 3, 4, 5, 6].foldl decryptPass data

/-! ## The key stream -/

/-- The loop over the bytes of a chunk, from its byte `k` on: AES is applied to the
    block before every sixteenth byte. -/
def cryptChunk (aes : Block → Block) (myIv : Block) (k : ℕ) : List UInt8 → List UInt8
  | [] => []
  | b :: data =>
    let myIv := if k % 16 = 0 then aes myIv else myIv
    (b ^^^ myIv (Fin.ofNat 16 k)) :: cryptChunk aes myIv (k + 1) data

/-- The loop over the chunks, the next one having `llength` bytes, or as many as are
    left. -/
def cryptLoop (aes : Block → Block) (iv : Fin 4 → UInt8) (llength : ℕ+) (data : List UInt8) :
    List UInt8 :=
  if data = [] then []
  else cryptChunk aes (fun i => iv (Fin.ofNat 4 i)) 0 (data.take llength) ++
    cryptLoop aes iv 0x5B4 (data.drop llength)
termination_by data.length
decreasing_by
  rename_i hd
  have := List.length_pos_of_ne_nil hd
  have := llength.pos
  rw [List.length_drop]
  omega

set_option maxRecDepth 2000 in
/-- `FUNNY_BYTES`. -/
def funnyBytes : Vector UInt8 256 := #v[
  0xEC, 0x3F, 0x77, 0xA4, 0x45, 0xD0, 0x71, 0xBF, 0xB7, 0x98, 0x20, 0xFC, 0x4B, 0xE9, 0xB3, 0xE1,
  0x5C, 0x22, 0xF7, 0x0C, 0x44, 0x1B, 0x81, 0xBD, 0x63, 0x8D, 0xD4, 0xC3, 0xF2, 0x10, 0x19, 0xE0,
  0xFB, 0xA1, 0x6E, 0x66, 0xEA, 0xAE, 0xD6, 0xCE, 0x06, 0x18, 0x4E, 0xEB, 0x78, 0x95, 0xDB, 0xBA,
  0xB6, 0x42, 0x7A, 0x2A, 0x83, 0x0B, 0x54, 0x67, 0x6D, 0xE8, 0x65, 0xE7, 0x2F, 0x07, 0xF3, 0xAA,
  0x27, 0x7B, 0x85, 0xB0, 0x26, 0xFD, 0x8B, 0xA9, 0xFA, 0xBE, 0xA8, 0xD7, 0xCB, 0xCC, 0x92, 0xDA,
  0xF9, 0x93, 0x60, 0x2D, 0xDD, 0xD2, 0xA2, 0x9B, 0x39, 0x5F, 0x82, 0x21, 0x4C, 0x69, 0xF8, 0x31,
  0x87, 0xEE, 0x8E, 0xAD, 0x8C, 0x6A, 0xBC, 0xB5, 0x6B, 0x59, 0x13, 0xF1, 0x04, 0x00, 0xF6, 0x5A,
  0x35, 0x79, 0x48, 0x8F, 0x15, 0xCD, 0x97, 0x57, 0x12, 0x3E, 0x37, 0xFF, 0x9D, 0x4F, 0x51, 0xF5,
  0xA3, 0x70, 0xBB, 0x14, 0x75, 0xC2, 0xB8, 0x72, 0xC0, 0xED, 0x7D, 0x68, 0xC9, 0x2E, 0x0D, 0x62,
  0x46, 0x17, 0x11, 0x4D, 0x6C, 0xC4, 0x7E, 0x53, 0xC1, 0x25, 0xC7, 0x9A, 0x1C, 0x88, 0x58, 0x2C,
  0x89, 0xDC, 0x02, 0x64, 0x40, 0x01, 0x5D, 0x38, 0xA5, 0xE2, 0xAF, 0x55, 0xD5, 0xEF, 0x1A, 0x7C,
  0xA7, 0x5B, 0xA6, 0x6F, 0x86, 0x9F, 0x73, 0xE6, 0x0A, 0xDE, 0x2B, 0x99, 0x4A, 0x47, 0x9C, 0xDF,
  0x09, 0x76, 0x9E, 0x30, 0x0E, 0xE4, 0xB2, 0x94, 0xA0, 0x3B, 0x34, 0x1D, 0x28, 0x0F, 0x36, 0xE3,
  0x23, 0xB4, 0x03, 0xD8, 0x90, 0xC8, 0x3C, 0xFE, 0x5E, 0x32, 0x24, 0x50, 0x1F, 0x3A, 0x43, 0x8A,
  0x96, 0x41, 0x74, 0xAC, 0x52, 0x33, 0xF0, 0xD9, 0x29, 0x80, 0xB1, 0x16, 0xD3, 0xAB, 0x91, 0xB9,
  0x84, 0x7F, 0x61, 0x1E, 0xCF, 0xC5, 0xD1, 0x56, 0x3D, 0xCA, 0xF4, 0x05, 0xC6, 0xE5, 0x08, 0x49]

/-- `FUNNY_BYTES[b]`. -/
def funnyByte (b : UInt8) : UInt8 := funnyBytes.get b.toFin

/-- The step of the update of the vector that reads its byte `b`. -/
def updateIvStep (v : UInt8 × UInt8 × UInt8 × UInt8) (b : UInt8) :
    UInt8 × UInt8 × UInt8 × UInt8 :=
  let (v₀, v₁, v₂, v₃) := v
  let v₀ := v₀ + (funnyByte v₁ - b)
  let v₁ := v₁ - (v₂ ^^^ funnyByte b)
  let v₂ := v₂ ^^^ (funnyByte v₃ + b)
  let v₃ := v₃ - (v₀ - funnyByte b)
  let merry : UInt32 := v₀.toUInt32 ||| v₁.toUInt32 <<< 8 ||| v₂.toUInt32 <<< 16 |||
    v₃.toUInt32 <<< 24
  let merry := merry >>> 29 ||| merry <<< 3
  (merry.toUInt8, (merry >>> 8).toUInt8, (merry >>> 16).toUInt8, (merry >>> 24).toUInt8)

/-- The vector after a packet. -/
def updateIv (iv : Fin 4 → UInt8) : Fin 4 → UInt8 :=
  let (v₀, v₁, v₂, v₃) := [iv 0, iv 1, iv 2, iv 3].foldl updateIvStep (0xF2, 0x53, 0x50, 0xC6)
  ![v₀, v₁, v₂, v₃]

/-- `crypt`: the bytes xored with the key stream, and the next vector. -/
def crypt (aes : Block → Block) (iv : Fin 4 → UInt8) (data : List UInt8) :
    List UInt8 × (Fin 4 → UInt8) :=
  (cryptLoop aes iv 0x5B0 data, updateIv iv)

/-! ## The contexts -/

/-- `struct EncryptionContext`. -/
structure EncryptionContext where
  iv : Fin 4 → UInt8
  mapleVersion : UInt16

/-- `struct DecryptionContext`. -/
structure DecryptionContext where
  iv : Fin 4 → UInt8

/-- `encryption_context_new`. -/
def encryptionContextNew (iv : Fin 4 → UInt8) (mapleVersion : UInt16) : EncryptionContext where
  iv := iv
  mapleVersion := (mapleVersion >>> 8 &&& (0xFF : UInt16)) |||
    (mapleVersion <<< 8 &&& (0xFF00 : UInt16))

/-- `decryption_context_new`. -/
def decryptionContextNew (iv : Fin 4 → UInt8) : DecryptionContext where
  iv := iv

/-- `encryption_context_encrypt`. -/
def encryptionContextEncrypt (aes : Block → Block) (context : EncryptionContext)
    (data : List UInt8) : List UInt8 × EncryptionContext :=
  let (data', iv) := crypt aes context.iv (encryptPasses data)
  (data', { context with iv := iv })

/-- `decryption_context_decrypt`. -/
def decryptionContextDecrypt (aes : Block → Block) (context : DecryptionContext)
    (data : List UInt8) : List UInt8 × DecryptionContext :=
  let (data', iv) := crypt aes context.iv data
  (decryptPasses data', { context with iv := iv })

/-! ## Undoing the passes -/

/-- A count only matters modulo `8`, and modulo `8` it is one of eight. -/
theorem roll_count (c : UInt8) : ∃ k : Fin 8, ∀ b,
    rollLeft b c = rollLeft b (UInt8.ofNat k) ∧ rollRight b c = rollRight b (UInt8.ofNat k) := by
  have hall : ∀ c : Fin 256, UInt8.ofFin c % 8 = UInt8.ofNat (c.val % 8) % 8 := by
    decide +kernel
  refine ⟨⟨c.toNat % 8, Nat.mod_lt _ (by decide)⟩, fun b => ?_⟩
  have hc : c % 8 = UInt8.ofNat (c.toNat % 8) % 8 := hall c.toFin
  rw [rollLeft, rollLeft, rollRight, rollRight, hc]
  exact ⟨rfl, rfl⟩

/-- Rolling left undoes rolling right. -/
theorem rollLeft_rollRight (b c : UInt8) : rollLeft (rollRight b c) c = b := by
  have hall : ∀ b : Fin 256, ∀ k : Fin 8,
      rollLeft (rollRight (UInt8.ofFin b) (UInt8.ofNat k)) (UInt8.ofNat k) = UInt8.ofFin b := by
    decide +kernel
  obtain ⟨k, hk⟩ := roll_count c
  rw [(hk _).1, (hk _).2]
  exact hall b.toFin k

/-- Rolling right undoes rolling left. -/
theorem rollRight_rollLeft (b c : UInt8) : rollRight (rollLeft b c) c = b := by
  have hall : ∀ b : Fin 256, ∀ k : Fin 8,
      rollRight (rollLeft (UInt8.ofFin b) (UInt8.ofNat k)) (UInt8.ofNat k) = UInt8.ofFin b := by
    decide +kernel
  obtain ⟨k, hk⟩ := roll_count c
  rw [(hk _).1, (hk _).2]
  exact hall b.toFin k

theorem xor_xor_cancel (a b : UInt8) : a ^^^ b ^^^ b = a := by
  rw [UInt8.xor_assoc, UInt8.xor_self, UInt8.xor_zero]

/-- The decryption carries along what the encryption does: the byte before the
    last roll. -/
theorem decryptEven_encryptEven (remember dataLength : UInt8) (data : List UInt8) :
    decryptEven remember dataLength (encryptEven remember dataLength data) = data := by
  induction data generalizing remember dataLength with
  | nil => rfl
  | cons b data ih =>
    rw [encryptEven, decryptEven]
    have htmp : rollLeft (~~~(~~~(rollRight ((rollLeft b 3 + dataLength) ^^^ remember)
        (dataLength - 1 + 1)) + 0x48 - 0x48)) dataLength =
        (rollLeft b 3 + dataLength) ^^^ remember := by
      rw [UInt8.sub_add_cancel, UInt8.add_sub_cancel, UInt8.not_not, rollLeft_rollRight]
    simp only [htmp, ih]
    rw [xor_xor_cancel, UInt8.add_sub_cancel, rollRight_rollLeft]

theorem decryptOdd_encryptOdd (remember dataLength : UInt8) (data : List UInt8) :
    decryptOdd remember dataLength (encryptOdd remember dataLength data) = data := by
  induction data generalizing remember dataLength with
  | nil => rfl
  | cons b data ih =>
    rw [encryptOdd, decryptOdd]
    simp only [rollLeft_rollRight, xor_xor_cancel, ih]
    rw [UInt8.add_sub_cancel, rollRight_rollLeft]

theorem length_encryptEven (remember dataLength : UInt8) (data : List UInt8) :
    (encryptEven remember dataLength data).length = data.length := by
  induction data generalizing remember dataLength with
  | nil => rfl
  | cons b data ih => simp [encryptEven, ih]

theorem length_encryptOdd (remember dataLength : UInt8) (data : List UInt8) :
    (encryptOdd remember dataLength data).length = data.length := by
  induction data generalizing remember dataLength with
  | nil => rfl
  | cons b data ih => simp [encryptOdd, ih]

theorem length_encryptPasses (data : List UInt8) : (encryptPasses data).length = data.length := by
  have hpass (data : List UInt8) (j : ℕ) : (encryptPass data j).length = data.length := by
    rw [encryptPass]
    split
    · exact length_encryptEven ..
    · rw [List.length_reverse, length_encryptOdd, List.length_reverse]
  simp only [encryptPasses, List.foldl_cons, List.foldl_nil, hpass]

/-- A pass of the decryption undoes the passes of the encryption of its parity. -/
theorem decryptPass_encryptPass {j j' : ℕ} (hj : j' % 2 = j % 2) (data : List UInt8) :
    decryptPass (encryptPass data j) j' = data := by
  by_cases he : j % 2 = 0
  · rw [encryptPass, decryptPass, if_pos he, if_pos (hj.trans he), length_encryptEven,
      decryptEven_encryptEven]
  · rw [encryptPass, decryptPass, if_neg he, if_neg (hj ▸ he), List.length_reverse,
      length_encryptOdd, List.length_reverse, List.reverse_reverse, decryptOdd_encryptOdd,
      List.reverse_reverse]

/-- The last pass is undone first: pass `j` of the decryption undoes pass `6 - j`
    of the encryption. -/
theorem decryptPasses_encryptPasses (data : List UInt8) :
    decryptPasses (encryptPasses data) = data := by
  simp only [decryptPasses, encryptPasses, List.foldl_cons, List.foldl_nil]
  rw [decryptPass_encryptPass (by decide), decryptPass_encryptPass (by decide),
    decryptPass_encryptPass (by decide), decryptPass_encryptPass (by decide),
    decryptPass_encryptPass (by decide), decryptPass_encryptPass (by decide)]

/-! ## Undoing the key stream -/

section KeyStream

variable (aes : Block → Block)

theorem length_cryptChunk (myIv : Block) (k : ℕ) (data : List UInt8) :
    (cryptChunk aes myIv k data).length = data.length := by
  induction data generalizing myIv k with
  | nil => rfl
  | cons b data ih => simp [cryptChunk, ih]

theorem cryptChunk_cryptChunk (myIv : Block) (k : ℕ) (data : List UInt8) :
    cryptChunk aes myIv k (cryptChunk aes myIv k data) = data := by
  induction data generalizing myIv k with
  | nil => rfl
  | cons b data ih =>
    rw [cryptChunk, cryptChunk]
    simp only [ih, xor_xor_cancel]

theorem cryptLoop_cryptLoop (iv : Fin 4 → UInt8) (llength : ℕ+) (data : List UInt8) :
    cryptLoop aes iv llength (cryptLoop aes iv llength data) = data := by
  induction llength, data using cryptLoop.induct with
  | case1 llength => simp [cryptLoop]
  | case2 llength data hd ih =>
    -- The encrypted packet is cut into the same chunks.
    set chunk := cryptChunk aes (fun i => iv (Fin.ofNat 4 i)) 0 (data.take llength) with hchunk
    set rest := cryptLoop aes iv 0x5B4 (data.drop llength) with hrest
    have hlen : chunk.length = min (llength : ℕ) data.length := by
      rw [hchunk, length_cryptChunk, List.length_take]
    obtain ⟨htake, hdrop⟩ : (chunk ++ rest).take llength = chunk ∧
        (chunk ++ rest).drop llength = rest := by
      rcases Nat.lt_or_ge llength data.length with hlt | hge
      · have hll : (llength : ℕ) = chunk.length := by omega
        exact ⟨hll ▸ List.take_left .., hll ▸ List.drop_left ..⟩
      · have hnil : rest = [] := by
          rw [hrest, List.drop_eq_nil_of_le hge, cryptLoop, if_pos rfl]
        rw [hnil, List.append_nil]
        exact ⟨List.take_of_length_le (by omega), List.drop_eq_nil_of_le (by omega)⟩
    have hne : chunk ++ rest ≠ [] := by
      have := List.length_pos_of_ne_nil hd
      have := llength.pos
      exact List.append_ne_nil_of_left_ne_nil (List.ne_nil_of_length_pos (by omega)) _
    have hout : cryptLoop aes iv llength data = chunk ++ rest := by rw [cryptLoop, if_neg hd]
    rw [hout, cryptLoop, if_neg hne, htake, hdrop, hrest, ih, hchunk, cryptChunk_cryptChunk,
      List.take_append_drop]

theorem length_cryptLoop (iv : Fin 4 → UInt8) (llength : ℕ+) (data : List UInt8) :
    (cryptLoop aes iv llength data).length = data.length := by
  induction llength, data using cryptLoop.induct with
  | case1 llength => rw [cryptLoop, if_pos rfl]
  | case2 llength data hd ih =>
    rw [cryptLoop, if_neg hd, List.length_append, length_cryptChunk, ih, List.length_take,
      List.length_drop]
    omega

/-- Xoring twice with the key stream of one vector is the identity. -/
theorem crypt_crypt (iv : Fin 4 → UInt8) (data : List UInt8) :
    (crypt aes iv (crypt aes iv data).1).1 = data :=
  cryptLoop_cryptLoop aes iv 0x5B0 data

end KeyStream

theorem length_encrypt (aes : Block → Block) (context : EncryptionContext) (data : List UInt8) :
    (encryptionContextEncrypt aes context data).1.length = data.length :=
  (length_cryptLoop aes context.iv 0x5B0 _).trans (length_encryptPasses data)

/-! ## Sessions -/

/-- One packet sent from a side that encrypts to one that decrypts: the bytes that
    arrive, and the contexts after it. -/
def exchange (aes : Block → Block) (enc : EncryptionContext) (dec : DecryptionContext)
    (packet : List UInt8) : List UInt8 × EncryptionContext × DecryptionContext :=
  let (wire, enc') := encryptionContextEncrypt aes enc packet
  let (received, dec') := decryptionContextDecrypt aes dec wire
  (received, enc', dec')

/-- The packets of a session sent one after the other. -/
def session (aes : Block → Block) (enc : EncryptionContext) (dec : DecryptionContext) :
    List (List UInt8) → List (List UInt8 × EncryptionContext × DecryptionContext)
  | [] => []
  | packet :: packets =>
    let (received, enc', dec') := exchange aes enc dec packet
    (received, enc', dec') :: session aes enc' dec' packets

/-- A packet sent between two sides that hold the same vector arrives as it was
    sent, and the two sides hold the same vector after it. -/
theorem exchange_in_step (aes : Block → Block) {enc : EncryptionContext}
    {dec : DecryptionContext} (hiv : enc.iv = dec.iv) (packet : List UInt8) :
    (exchange aes enc dec packet).1 = packet ∧
      (exchange aes enc dec packet).2.1.iv = (exchange aes enc dec packet).2.2.iv := by
  refine ⟨?_, congrArg updateIv hiv⟩
  simp only [exchange, encryptionContextEncrypt, decryptionContextDecrypt]
  rw [hiv, crypt_crypt, decryptPasses_encryptPasses]

theorem session_of_iv_eq (aes : Block → Block) {enc : EncryptionContext}
    {dec : DecryptionContext} (hiv : enc.iv = dec.iv) (packets : List (List UInt8)) :
    (session aes enc dec packets).map Prod.fst = packets ∧
      ∀ s ∈ session aes enc dec packets, s.2.1.iv = s.2.2.iv := by
  induction packets generalizing enc dec with
  | nil => exact ⟨rfl, fun s hs => absurd hs List.not_mem_nil⟩
  | cons packet packets ih =>
    obtain ⟨hrec, hiv'⟩ := exchange_in_step aes hiv packet
    obtain ⟨hmap, hall⟩ := ih hiv'
    refine ⟨congrArg₂ List.cons hrec hmap, fun s hs => ?_⟩
    rcases List.mem_cons.1 hs with rfl | hs
    · exact hiv'
    · exact hall s hs

/-- Over a whole session between contexts made from one vector, every packet
    arrives as it was sent, and after each the contexts hold the same vector. -/
theorem session_in_step (aes : Block → Block) (iv : Fin 4 → UInt8) (mapleVersion : UInt16)
    (packets : List (List UInt8)) :
    let s := session aes (encryptionContextNew iv mapleVersion) (decryptionContextNew iv) packets
    s.map Prod.fst = packets ∧ ∀ x ∈ s, x.2.1.iv = x.2.2.iv :=
  session_of_iv_eq aes rfl packets

end Syrup
