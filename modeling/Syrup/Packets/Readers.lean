import Syrup.Lib.Run
import Syrup.Packets

/-!
# One packet at a time

The login server, and the channel server before a session has a room, take one packet from the buffer of
a session whenever libevent calls them: `on_session_read` of the login server takes the whole buffer for
a packet, `on_pending_session_read` of the channel server the first packet in it. But libevent may call
the input filter several times before.

* `readers_run`: if it does not, every packet is handled by itself, whole and in order;
* `readers_merged`: if it does, the login server handles two packets as one, and the channel server leaves
  the second behind.
-/

namespace Syrup

open Framing

/-! ## Readers -/

/-- How a server reads packets: what its input filter puts into the buffer of a session, and what its
    read callback takes from there for the packet handler, with what it leaves. -/
structure Reader where
  put : UInt16 → List UInt8 → List UInt8
  take : List UInt8 → Exec (List UInt8 × List UInt8)

/-- `input_filter` and `on_session_read` of the login server. -/
def loginReader : Reader where
  put := putBare
  take input := return (input, [])

/-- `input_filter` and `on_pending_session_read` of the channel server. -/
def pendingReader : Reader where
  put := putFramed
  take
    | b₀ :: b₁ :: input =>
      let len := (ofBytes16 b₀ b₁).toNat
      if input.length < len then .error .outOfBounds else return (input.take len, input.drop len)
    | _ => .error .outOfBounds

/-- A packet that is alone in the buffer is read. -/
def Reader.ReadsOne (reader : Reader) : Prop :=
  ∀ p : PacketData, reader.take (reader.put p.len p.val) = .ok (p.val, [])

theorem loginReader_readsOne : loginReader.ReadsOne := fun _ => rfl

theorem pendingReader_readsOne : pendingReader.ReadsOne := by
  intro p
  change (if p.val.length < (ofBytes16 p.len.toUInt8 (p.len >>> 8).toUInt8).toNat then _ else _) = _
  rw [ofBytes16_bytes16, PacketData.toNat_len, if_neg (lt_irrefl _)]
  change Except.ok (p.val.take p.val.length, p.val.drop p.val.length) = _
  rw [List.take_length, List.drop_length]

/-! ## A client and its session -/

/-- A client, with what it has sent and is on the wire, and its session: what has come from the socket,
    the input of the filter, whether something has been put into that for which the read callback has
    not been called, whether the filter is read from (`EV_READ`), whether the session has got a room, and
    what has been handed to the packet handler. -/
structure Reading where
  sendContext : EncryptionContext
  wire : List UInt8
  recieveContext : DecryptionContext
  socket : List UInt8
  input : List UInt8
  fresh : Bool
  reading : Bool
  room : Bool
  sent : List PacketData
  handed : List (List UInt8)

/-- A session to which nothing has been sent, both sides of which have the same vector. -/
def Reading.start (iv : Fin 4 → UInt8) (mapleVersion : UInt16) : Reading where
  sendContext := encryptionContextNew iv mapleVersion
  wire := []
  recieveContext := decryptionContextNew iv
  socket := []
  input := []
  fresh := false
  reading := true
  room := false
  sent := []
  handed := []

/-- What a packet handler does: it waits for a file descriptor (`session_set_event`), or changes the room
    of the session, or nothing of this. It does not kick the session. -/
inductive Outcome
  | done
  | suspended
  | changeRoom
  deriving DecidableEq

/-- What happens to a session. `resume` is what is called when a file descriptor is ready that a packet
    handler waits for. -/
inductive ReadingEvent
  | send (p : PacketData)
  | deliver (n : ℕ)
  | filterInput
  | read (outcome : Outcome)
  | resume (outcome : Outcome)

namespace Reading

variable (aes : Block → Block) (reader : Reader) (s : Reading)

/-- The client sends a packet. -/
def send (p : PacketData) : Reading :=
  { s with
    sendContext := (wireCode aes).next s.sendContext p
    wire := s.wire ++ (wireCode aes).word s.sendContext p
    sent := s.sent ++ [p] }

/-- So many bytes come from the wire. -/
def deliver (n : ℕ) : Reading :=
  { s with wire := s.wire.drop n, socket := s.socket ++ s.wire.take n }

/-- A call of the input filter. -/
def filterInput : Reading :=
  match inputFilter aes reader.put s.recieveContext s.socket with
  | none => s
  | some ((added, context), socket) =>
    { s with recieveContext := context, socket := socket, input := s.input ++ added, fresh := true }

/-- What comes of what a packet handler does. The filter is freed when the session changes its room. -/
def handled : Outcome → Reading
  | .done => { s with reading := true }
  | .suspended => { s with reading := false }
  | .changeRoom => { s with room := true, input := [] }

/-- The read callback. -/
def read (outcome : Outcome) : Exec Reading := do
  let (data, input) ← reader.take s.input
  let s := { s with input := input, fresh := false, handed := s.handed ++ [data] }
  return s.handled outcome

end Reading

/-- The session after it. The read callback is called after something has been put into the input. -/
def ReadingEvent.step (aes : Block → Block) (reader : Reader) : ReadingEvent → Reading → Exec Reading
  | send p, s => return s.send aes p
  | deliver n, s => return s.deliver n
  | filterInput, s => return if s.reading ∧ ¬s.room then s.filterInput aes reader else s
  | read outcome, s => if s.reading ∧ ¬s.room ∧ s.fresh then s.read reader outcome else return s
  | resume outcome, s => return if s.reading ∨ s.room then s else s.handled outcome

/-! ## Packets under way -/

/-- Every packet that has been sent has been handled, is `ready` in the input of the filter, or `coming`. -/
structure Coming (aes : Block → Block) (reader : Reader) (s : Reading) (context : EncryptionContext)
    (ready : Option PacketData) (coming : List PacketData) : Prop where
  iv : s.recieveContext = ⟨context.iv⟩
  arriving : s.socket ++ s.wire = (wireCode aes).words context coming
  sendContext : s.sendContext = (wireCode aes).after context coming
  input : s.input = ready.elim [] fun p => reader.put p.len p.val
  fresh : s.fresh = ready.isSome
  reading : s.fresh = true → s.reading = true ∧ s.room = false
  sent : s.handed ++ (ready.toList ++ coming).map Subtype.val = s.sent.map Subtype.val

/-- There is at most one packet in the input of the filter. -/
def Reading.Single (aes : Block → Block) (reader : Reader) (s : Reading) : Prop :=
  ∃ context ready coming, Coming aes reader s context ready coming

/-- The input filter does not put a packet after another one for which the read callback has not been
    called. -/
def OneAtATime (aes : Block → Block) (reader : Reader) : ReadingEvent → Reading → Prop
  | .filterInput, s =>
    s.fresh = true → inputFilter aes reader.put s.recieveContext s.socket = none
  | _, _ => True

instance (aes : Block → Block) (reader : Reader) (e : ReadingEvent) (s : Reading) :
    Decidable (OneAtATime aes reader e s) :=
  match e with
  | .filterInput =>
    if hfresh : s.fresh = true then
      match hfilter : inputFilter aes reader.put s.recieveContext s.socket with
      | none => .isTrue fun _ => hfilter
      | some _ => .isFalse fun h => by
        have hnone := h hfresh
        rw [hfilter] at hnone
        cases hnone
    else .isTrue fun h => absurd h hfresh
  | .send _ | .deliver _ | .read _ | .resume _ => inferInstanceAs (Decidable True)

section Coming

variable {aes : Block → Block} {reader : Reader} {s : Reading} {context : EncryptionContext}
  {ready : Option PacketData} {coming : List PacketData}

theorem single_start (aes : Block → Block) (reader : Reader) (iv : Fin 4 → UInt8)
    (mapleVersion : UInt16) : (Reading.start iv mapleVersion).Single aes reader :=
  ⟨encryptionContextNew iv mapleVersion, none, [], rfl, rfl, rfl, rfl, rfl, nofun, rfl⟩

theorem Coming.send (h : Coming aes reader s context ready coming) (p : PacketData) :
    (s.send aes p).Single aes reader := by
  refine ⟨context, ready, coming ++ [p], h.iv, ?_, ?_, h.input, h.fresh, h.reading, ?_⟩
  · rw [Code.words_append, ← h.arriving, ← h.sendContext, Reading.send, List.append_assoc,
      Code.words_cons, Code.words_nil, List.append_nil]
  · rw [Code.after_append, ← h.sendContext]
    rfl
  · rw [← List.append_assoc, List.map_append, ← List.append_assoc, Reading.send, h.sent,
      List.map_append]

theorem Coming.deliver (h : Coming aes reader s context ready coming) (n : ℕ) :
    (s.deliver n).Single aes reader := by
  refine ⟨context, ready, coming, h.iv, ?_, h.sendContext, h.input, h.fresh, h.reading, h.sent⟩
  rw [← h.arriving, Reading.deliver, List.append_assoc, List.take_append_drop]

theorem Coming.filterInput (h : Coming aes reader s context ready coming)
    (hone : OneAtATime aes reader .filterInput s) (hreading : s.reading = true)
    (hroom : s.room = false) : (s.filterInput aes reader).Single aes reader := by
  have hsame : s.Single aes reader := ⟨context, ready, coming, h⟩
  rw [Reading.filterInput]
  cases hfresh : s.fresh with
  | true =>
    rw [hone hfresh]
    exact hsame
  | false =>
    obtain rfl : ready = none := by
      rw [← Option.isSome_eq_false_iff.trans Option.isNone_iff_eq_none, ← h.fresh, hfresh]
    rw [h.iv]
    rcases (wire_reads aes reader.put).read h.arriving with
      hnone | ⟨p, coming', socket', rfl, hsome, hrest⟩
    · rw [hnone]
      exact hsame
    · rw [hsome]
      refine ⟨(wireCode aes).next context p, some p, coming', rfl, hrest, h.sendContext, ?_, rfl,
        fun _ => ⟨hreading, hroom⟩, h.sent⟩
      rw [show s.input = [] from h.input]
      rfl

theorem Coming.handled (h : Coming aes reader s context none coming) (outcome : Outcome) :
    (s.handled outcome).Single aes reader := by
  have hfresh : s.fresh = false := h.fresh
  have hinput : s.input = [] := h.input
  cases outcome with
  | done | suspended =>
    exact ⟨context, none, coming, h.iv, h.arriving, h.sendContext, h.input, h.fresh,
      fun h => absurd (hfresh.symm.trans h) Bool.false_ne_true, h.sent⟩
  | changeRoom =>
    exact ⟨context, none, coming, h.iv, h.arriving, h.sendContext, rfl, h.fresh,
      fun h => absurd (hfresh.symm.trans h) Bool.false_ne_true, h.sent⟩

theorem Coming.read (h : Coming aes reader s context ready coming) (hreads : reader.ReadsOne)
    (hfresh : s.fresh = true) (outcome : Outcome) :
    ∃ s', s.read reader outcome = .ok s' ∧ s'.Single aes reader := by
  obtain ⟨p, rfl⟩ := Option.isSome_iff_exists.1 (h.fresh.symm.trans hfresh)
  have htake : reader.take s.input = .ok (p.val, []) := by
    rw [h.input]
    exact hreads p
  have hread : Coming aes reader { s with input := [], fresh := false, handed := s.handed ++ [p.val] }
      context none coming := by
    refine ⟨h.iv, h.arriving, h.sendContext, rfl, rfl, nofun, ?_⟩
    rw [← h.sent, List.append_assoc]
    rfl
  refine ⟨_, ?_, hread.handled outcome⟩
  rw [Reading.read, htake]
  rfl

theorem Reading.Single.step (h : s.Single aes reader) (hreads : reader.ReadsOne) (e : ReadingEvent)
    (hone : OneAtATime aes reader e s) : ∃ s', e.step aes reader s = .ok s' ∧ s'.Single aes reader := by
  obtain ⟨context, ready, coming, hcoming⟩ := h
  have hsame : s.Single aes reader := ⟨context, ready, coming, hcoming⟩
  cases e with
  | send p => exact ⟨_, rfl, hcoming.send p⟩
  | deliver n => exact ⟨_, rfl, hcoming.deliver n⟩
  | filterInput =>
    refine ⟨_, rfl, ?_⟩
    split
    · rename_i hopen
      exact hcoming.filterInput hone hopen.1 (Bool.not_eq_true _ ▸ hopen.2)
    · exact hsame
  | read outcome =>
    rw [ReadingEvent.step]
    split
    · rename_i hopen
      exact hcoming.read hreads hopen.2.2 outcome
    · exact ⟨_, rfl, hsame⟩
  | resume outcome =>
    refine ⟨_, rfl, ?_⟩
    split
    · exact hsame
    · rename_i hclosed
      obtain rfl : ready = none := by
        rw [← Option.isSome_eq_false_iff.trans Option.isNone_iff_eq_none, ← hcoming.fresh]
        by_contra hfresh
        exact hclosed (.inl (hcoming.reading (by simpa using hfresh)).1)
      exact hcoming.handled outcome

theorem Reading.Single.run {s' : Reading} (h : s.Single aes reader) (hreads : reader.ReadsOne)
    (hrun : Machine.Run (ReadingEvent.step aes reader) (OneAtATime aes reader) s s') :
    s'.Single aes reader :=
  hrun.invariant h fun e s s' hs hone hstep => by
    obtain ⟨s'', hs'', hsingle⟩ := hs.step hreads e hone
    rw [hstep] at hs''
    obtain rfl := Except.ok.inj hs''
    exact hsingle

end Coming

/-! ## Packets that are handled -/

/-- The packets that have been handled are the first ones that have been sent, each by itself, unmodified
    and in order; they are all when the read callback has been called for what has been put into the input,
    and no packet is left on the wire and in the socket; and whatever happens, as long as it meets the
    condition `ok`, does not fault. -/
structure Reading.OneByOne (aes : Block → Block) (reader : Reader)
    (ok : ReadingEvent → Reading → Prop) (s : Reading) : Prop where
  inOrder : s.handed <+: s.sent.map Subtype.val
  complete : s.fresh = false → s.wire = [] →
    inputFilter aes reader.put s.recieveContext s.socket = none → s.handed = s.sent.map Subtype.val
  returns : ∀ e, ok e s → ∃ s', e.step aes reader s = .ok s'

theorem Reading.Single.oneByOne {aes : Block → Block} {reader : Reader} {s : Reading}
    (h : s.Single aes reader) (hreads : reader.ReadsOne) :
    s.OneByOne aes reader (OneAtATime aes reader) := by
  obtain ⟨context, ready, coming, hcoming⟩ := h
  refine ⟨⟨_, hcoming.sent⟩, fun hfresh hwire hsocket => ?_, fun e hone => ?_⟩
  · obtain rfl : ready = none := by
      rw [← Option.isSome_eq_false_iff.trans Option.isNone_iff_eq_none, ← hcoming.fresh, hfresh]
    obtain rfl : coming = [] := by
      have harriving := hcoming.arriving
      rw [hwire, List.append_nil] at harriving
      refine (wire_reads aes reader.put).done (s := context) ?_
      rw [← harriving, ← hcoming.iv]
      exact hsocket
    simpa using hcoming.sent
  · obtain ⟨s', hs', -⟩ := Reading.Single.step ⟨context, ready, coming, hcoming⟩ hreads e hone
    exact ⟨s', hs'⟩

/-- On both servers, whatever vector both sides start with and however the stream is cut: if libevent
    calls the read callback after every packet that the input filter has put into the buffer, every
    packet is handled by itself, unmodified and in order. -/
theorem readers_run (aes : Block → Block) (iv : Fin 4 → UInt8) (mapleVersion : UInt16) :
    (∀ s, Machine.Run (ReadingEvent.step aes loginReader) (OneAtATime aes loginReader)
      (.start iv mapleVersion) s → s.OneByOne aes loginReader (OneAtATime aes loginReader)) ∧
    ∀ s, Machine.Run (ReadingEvent.step aes pendingReader) (OneAtATime aes pendingReader)
      (.start iv mapleVersion) s → s.OneByOne aes pendingReader (OneAtATime aes pendingReader) :=
  ⟨fun _ hrun => ((single_start aes _ iv mapleVersion).run loginReader_readsOne hrun).oneByOne
      loginReader_readsOne,
    fun _ hrun => ((single_start aes _ iv mapleVersion).run pendingReader_readsOne hrun).oneByOne
      pendingReader_readsOne⟩

/-- A packet of one byte. -/
def PacketData.byte (b : UInt8) : PacketData := ⟨[b], PacketData.length_byte b⟩

/-- Two packets are sent at once, and come in three segments. -/
def twoPackets : List ReadingEvent :=
  [.send (.byte 7), .send (.byte 8), .deliver 3, .filterInput, .deliver 3, .filterInput, .filterInput]

/-- The first packet is handled before the second has come. -/
theorem readers_run_two : (∃ s : Reading, s.OneByOne id loginReader (OneAtATime id loginReader) ∧
      s.handed = [[7], [8]]) ∧
    ∃ s : Reading, s.OneByOne id pendingReader (OneAtATime id pendingReader) ∧
      s.handed = [[7], [8]] := by
  have hrun (reader : Reader) (hreader : reader = loginReader ∨ reader = pendingReader) :
      ∃ s : Reading, (twoPackets ++ [ReadingEvent.read .suspended, .deliver 4, .resume .done, .filterInput, .read .done]).foldlM
        (Machine.checked (ReadingEvent.step id reader) (OneAtATime id reader) Fault.assertion)
        (Reading.start (fun _ => 0) 83) = .ok s ∧ s.handed = [[7], [8]] := by
    rw [← Exec.returns_iff]
    rcases hreader with rfl | rfl <;> decide +kernel
  obtain ⟨s, hs, hhanded⟩ := hrun loginReader (.inl rfl)
  obtain ⟨s', hs', hhanded'⟩ := hrun pendingReader (.inr rfl)
  exact ⟨⟨s, (readers_run id (fun _ => 0) 83).1 s (.of_checked hs), hhanded⟩,
    ⟨s', (readers_run id (fun _ => 0) 83).2 s' (.of_checked hs'), hhanded'⟩⟩

/-- Both packets have come before the read callback is called: the login server takes them for one
    packet, and the channel server does not handle the second. -/
theorem readers_merged : (∃ s, Machine.Run (ReadingEvent.step id loginReader) (fun _ _ => True)
      (.start (fun _ => 0) 83) s ∧ ¬s.OneByOne id loginReader fun _ _ => True) ∧
    ∃ s, Machine.Run (ReadingEvent.step id pendingReader) (fun _ _ => True)
      (.start (fun _ => 0) 83) s ∧ ¬s.OneByOne id pendingReader fun _ _ => True := by
  have hrun (reader : Reader) (hreader : reader = loginReader ∨ reader = pendingReader) :
      ∃ s : Reading, (twoPackets ++ [ReadingEvent.deliver 4, .filterInput, .read .done]).foldlM
        (fun s e => ReadingEvent.step id reader e s) (Reading.start (fun _ => 0) 83) = .ok s ∧
        s.fresh = false ∧ s.wire = [] ∧
        inputFilter id reader.put s.recieveContext s.socket = none ∧
        s.handed ≠ s.sent.map Subtype.val := by
    rw [← Exec.returns_iff]
    rcases hreader with rfl | rfl <;> decide +kernel
  obtain ⟨s, hs, hfresh, hwire, hsocket, hhanded⟩ := hrun loginReader (.inl rfl)
  obtain ⟨s', hs', hfresh', hwire', hsocket', hhanded'⟩ := hrun pendingReader (.inr rfl)
  exact ⟨⟨s, .of_foldlM (fun _ _ _ => trivial) hs, fun h =>
      hhanded (h.complete hfresh hwire hsocket)⟩,
    ⟨s', .of_foldlM (fun _ _ _ => trivial) hs', fun h =>
      hhanded' (h.complete hfresh' hwire' hsocket')⟩⟩

end Syrup
