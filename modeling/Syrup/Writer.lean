import Syrup.Exec
import Syrup.Lib.Wire

/-!
# `struct Writer`

The functions of `packet.c` fill a packet through a writer, which asserts before every number and every
string that it still fits; only `writer_zero` does not. What such a function writes is a list of
calls (`Write`), and it returns exactly when the strings are as long as they are said to be and all calls
together write no more than the size of the packet (`Writer.calls_eq_ok`).
-/

namespace Syrup

open Wire

/-- `uint8_t`, and `bool`. -/
def u8 : Format := ⟨1, false⟩

/-- `int8_t`. -/
def i8 : Format := ⟨1, true⟩

/-- `uint16_t`. -/
def u16 : Format := ⟨2, false⟩

/-- `int16_t`. -/
def i16 : Format := ⟨2, true⟩

/-- `uint32_t`. -/
def u32 : Format := ⟨4, false⟩

/-- `int32_t`. -/
def i32 : Format := ⟨4, true⟩

/-- `uint64_t`. -/
def u64 : Format := ⟨8, false⟩

/-- `int64_t`. -/
def i64 : Format := ⟨8, true⟩

@[simp] theorem width_u8 : u8.width = 1 := rfl

@[simp] theorem width_i8 : i8.width = 1 := rfl

@[simp] theorem width_u16 : u16.width = 2 := rfl

@[simp] theorem width_i16 : i16.width = 2 := rfl

@[simp] theorem width_u32 : u32.width = 4 := rfl

@[simp] theorem width_i32 : i32.width = 4 := rfl

@[simp] theorem width_u64 : u64.width = 8 := rfl

@[simp] theorem width_i64 : i64.width = 8 := rfl

/-- A call of a function of `writer.c`: of one of those that write a number (`writer_bool`, …,
    `writer_u64`), of `writer_zero`, `writer_sized_string` or `writer_array`. -/
inductive Write
  | num (format : Format) (data : ℤ)
  | zero (count : ℕ)
  | sizedString (size : UInt16) (data : List UInt8)
  | array (size : UInt16) (data : List UInt8)
  deriving DecidableEq

namespace Write

/-- What is written. -/
def bytes : Write → List UInt8
  | num format data => format.encode data
  | zero count => .replicate count 0
  | sizedString size data => u16.encode size.toNat ++ data.take size.toNat
  | array size data => data.take size.toNat

/-- How much is written. -/
def size : Write → ℕ
  | num format _ => format.width
  | zero count => count
  | sizedString size _ => 2 + size.toNat
  | array size _ => size.toNat

/-- Nothing is read beyond the end of a string. -/
def Sound : Write → Prop
  | num _ _ | zero _ => True
  | sizedString size data | array size data => size.toNat ≤ data.length

instance (w : Write) : Decidable w.Sound := by
  cases w <;> unfold Sound <;> infer_instance

@[simp] theorem size_num (format : Format) (data : ℤ) : (num format data).size = format.width := rfl

@[simp] theorem size_zero (count : ℕ) : (zero count).size = count := rfl

@[simp] theorem size_array (size : UInt16) (data : List UInt8) :
    (array size data).size = size.toNat := rfl

@[simp] theorem size_sizedString (size : UInt16) (data : List UInt8) :
    (sizedString size data).size = 2 + size.toNat := rfl

@[simp] theorem sound_num (format : Format) (data : ℤ) : (num format data).Sound := trivial

@[simp] theorem sound_zero (count : ℕ) : (zero count).Sound := trivial

@[simp] theorem sound_array {size : UInt16} {data : List UInt8} :
    (array size data).Sound ↔ size.toNat ≤ data.length := Iff.rfl

@[simp] theorem sound_sizedString {size : UInt16} {data : List UInt8} :
    (sizedString size data).Sound ↔ size.toNat ≤ data.length := Iff.rfl

theorem length_bytes {w : Write} (h : w.Sound) : w.bytes.length = w.size := by
  cases w with
  | num format data => exact Format.length_encode data
  | zero count => exact List.length_replicate
  | sizedString size data =>
    rw [bytes, List.length_append, Format.length_encode, List.length_take, min_eq_left h]
    rfl
  | array size data =>
    rw [bytes, List.length_take, min_eq_left h]
    rfl

end Write

/-- What some calls write. -/
def bytesOf (ws : List Write) : List UInt8 := ws.flatMap Write.bytes

/-- How much some calls write. -/
def lengthOf (ws : List Write) : ℕ := (ws.map Write.size).sum

@[simp] theorem bytesOf_nil : bytesOf [] = [] := rfl

@[simp] theorem bytesOf_cons (w : Write) (ws : List Write) :
    bytesOf (w :: ws) = w.bytes ++ bytesOf ws := rfl

@[simp] theorem bytesOf_append (ws ws' : List Write) :
    bytesOf (ws ++ ws') = bytesOf ws ++ bytesOf ws' := List.flatMap_append

@[simp] theorem lengthOf_nil : lengthOf [] = 0 := rfl

@[simp] theorem lengthOf_cons (w : Write) (ws : List Write) :
    lengthOf (w :: ws) = w.size + lengthOf ws := List.sum_cons

@[simp] theorem lengthOf_append (ws ws' : List Write) :
    lengthOf (ws ++ ws') = lengthOf ws + lengthOf ws' := by
  rw [lengthOf, List.map_append, List.sum_append]
  rfl

theorem lengthOf_flatMap {α : Type} (l : List α) (f : α → List Write) :
    lengthOf (l.flatMap f) = (l.map fun a => lengthOf (f a)).sum := by
  induction l with
  | nil => rfl
  | cons a l ih => rw [List.flatMap_cons, lengthOf_append, List.map_cons, List.sum_cons, ih]

theorem length_bytesOf {ws : List Write} (h : ∀ w ∈ ws, w.Sound) :
    (bytesOf ws).length = lengthOf ws := by
  induction ws with
  | nil => rfl
  | cons w ws ih =>
    obtain ⟨hw, hws⟩ := List.forall_mem_cons.1 h
    rw [bytesOf_cons, List.length_append, Write.length_bytes hw, ih hws, lengthOf_cons]

/-- `struct Writer`: the size of the packet, and what has been written, up to `pos`. -/
structure Writer where
  size : ℕ
  written : List UInt8
  deriving DecidableEq

namespace Writer

/-- `writer_init`. -/
def init (size : ℕ) : Writer := ⟨size, []⟩

/-- `writer->pos`. -/
def pos (w : Writer) : ℕ := w.written.length

/-- `assert(writer->pos + n <= writer->size);`. -/
def assertFits (w : Writer) (n : ℕ) : Exec Unit :=
  if w.pos + n ≤ w.size then .ok () else .error .assertion

/-- Writes some bytes at `pos`, and moves it behind them. -/
def put (w : Writer) (bs : List UInt8) : Writer := { w with written := w.written ++ bs }

/-- Writes the beginning of some data. -/
def copy (w : Writer) (n : ℕ) (data : List UInt8) : Exec Writer :=
  if n ≤ data.length then .ok (w.put (data.take n)) else .error .outOfBounds

/-- A call. -/
def call (w : Writer) : Write → Exec Writer
  | .num format data => do
    w.assertFits format.width
    return w.put (format.encode data)
  | .zero count =>
    if w.pos + count ≤ w.size then .ok (w.put (.replicate count 0)) else .error .outOfBounds
  | .sizedString size data => do
    w.assertFits 2
    let w := w.put (u16.encode size.toNat)
    w.assertFits size.toNat
    w.copy size.toNat data
  | .array size data => do
    w.assertFits size.toNat
    w.copy size.toNat data

/-- Some calls, one after the other. -/
def calls (w : Writer) (ws : List Write) : Exec Writer := ws.foldlM call w

/-- An assertion holds, and then the rest of a function returns. -/
theorem assertFits_bind {β : Type} {w : Writer} {n : ℕ} {x : Exec β} {b : β} :
    (w.assertFits n >>= fun _ => x) = .ok b ↔ w.pos + n ≤ w.size ∧ x = .ok b := by
  rw [assertFits]
  split
  · rename_i h
    exact (and_iff_right h).symm
  · rename_i h
    exact iff_of_false nofun fun h' => h h'.1

@[simp] theorem size_put (w : Writer) (bs : List UInt8) : (w.put bs).size = w.size := rfl

@[simp] theorem pos_put (w : Writer) (bs : List UInt8) : (w.put bs).pos = w.pos + bs.length :=
  List.length_append

@[simp] theorem put_put (w : Writer) (bs bs' : List UInt8) :
    (w.put bs).put bs' = w.put (bs ++ bs') := by
  rw [put, put, put, List.append_assoc]

theorem copy_eq_ok {w w' : Writer} {n : ℕ} {data : List UInt8} :
    w.copy n data = .ok w' ↔ n ≤ data.length ∧ w' = w.put (data.take n) := by
  rw [copy]
  split <;> simp_all [eq_comm]

/-- A call returns if it can read its data and what it writes fits. -/
theorem call_eq_ok {w w' : Writer} {c : Write} :
    w.call c = .ok w' ↔ c.Sound ∧ w.pos + c.size ≤ w.size ∧ w' = w.put c.bytes := by
  cases c with
  | num format data =>
    rw [call, assertFits_bind, Exec.pure_eq_ok, eq_comm (a := w')]
    exact (and_iff_right trivial).symm
  | zero count =>
    rw [call]
    split
    · rename_i h
      rw [Except.ok.injEq, eq_comm]
      exact ⟨fun hw => ⟨trivial, h, hw⟩, fun hw => hw.2.2⟩
    · rename_i h
      exact iff_of_false nofun fun h' => h h'.2.1
  | sizedString size data =>
    have hlen : (u16.encode size.toNat).length = 2 := Format.length_encode _
    rw [call, assertFits_bind, assertFits_bind, copy_eq_ok, pos_put, size_put, put_put, hlen,
      Write.Sound, Write.size, Write.bytes]
    constructor
    · rintro ⟨_, hfits, hdata, hw⟩
      exact ⟨hdata, by omega, hw⟩
    · rintro ⟨hdata, hfits, hw⟩
      exact ⟨by omega, by omega, hdata, hw⟩
  | array size data =>
    rw [call, assertFits_bind, copy_eq_ok]
    exact and_left_comm

/-- Calls return exactly if they can read their data and all that is written fits. -/
theorem calls_eq_ok {w w' : Writer} {cs : List Write} (hw : w.pos ≤ w.size) :
    w.calls cs = .ok w' ↔
      (∀ c ∈ cs, c.Sound) ∧ w.pos + lengthOf cs ≤ w.size ∧ w' = w.put (bytesOf cs) := by
  induction cs generalizing w with
  | nil =>
    have hnil : w.put (bytesOf []) = w := by rw [bytesOf, put, List.flatMap_nil, List.append_nil]
    rw [calls, List.foldlM_nil, Exec.pure_eq_ok, hnil, eq_comm (a := w')]
    exact ⟨fun h => ⟨List.forall_mem_nil _, hw, h⟩, fun h => h.2.2⟩
  | cons c cs ih =>
    have hstep : w.calls (c :: cs) = w.call c >>= fun w => w.calls cs := List.foldlM_cons
    have hlength : lengthOf (c :: cs) = c.size + lengthOf cs := List.sum_cons
    have hbytes : bytesOf (c :: cs) = c.bytes ++ bytesOf cs := List.flatMap_cons
    have hrest (hc : c.Sound) (hfits : w.pos + c.size ≤ w.size) := ih (w := w.put c.bytes)
      (by rwa [pos_put, size_put, Write.length_bytes hc])
    rw [hstep, Exec.bind_eq_ok, List.forall_mem_cons, hlength, hbytes, ← put_put]
    constructor
    · rintro ⟨w₁, hcall, hcalls⟩
      obtain ⟨hc, hfits, rfl⟩ := call_eq_ok.1 hcall
      obtain ⟨hcs, hfits', hw'⟩ := (hrest hc hfits).1 hcalls
      rw [pos_put, size_put, Write.length_bytes hc] at hfits'
      exact ⟨⟨hc, hcs⟩, by omega, hw'⟩
    · rintro ⟨⟨hc, hcs⟩, hfits, hw'⟩
      refine ⟨_, call_eq_ok.2 ⟨hc, by omega, rfl⟩, (hrest hc (by omega)).2 ⟨hcs, ?_, hw'⟩⟩
      rw [pos_put, size_put, Write.length_bytes hc]
      omega

end Writer

/-- What a function of `packet.c` writes into a packet of some size. -/
def packetOf (size : ℕ) (ws : List Write) : Exec (List UInt8) :=
  Writer.written <$> (Writer.init size).calls ws

/-- A packet is filled exactly if the strings are long enough and it is large enough. -/
theorem packetOf_eq_ok {size : ℕ} {ws : List Write} {bs : List UInt8} :
    packetOf size ws = .ok bs ↔
      (∀ w ∈ ws, w.Sound) ∧ lengthOf ws ≤ size ∧ bs = bytesOf ws := by
  rw [packetOf, Exec.map_eq_ok]
  simp only [Writer.calls_eq_ok (w := Writer.init size) (Nat.zero_le _)]
  constructor
  · rintro ⟨w, ⟨hs, hfits, rfl⟩, rfl⟩
    exact ⟨hs, by simpa [Writer.init, Writer.pos] using hfits, rfl⟩
  · rintro ⟨hs, hfits, rfl⟩
    exact ⟨_, ⟨hs, by simpa [Writer.init, Writer.pos] using hfits, rfl⟩, rfl⟩

end Syrup
