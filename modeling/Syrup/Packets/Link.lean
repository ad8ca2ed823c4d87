import Syrup.Lib.Run
import Syrup.Packets

/-!
# A connection to the channel server

A peer writes packets to a connection, from which a session of the channel server reads them. Each side
has a filter, which libevent calls whenever it likes, and again until it needs more; after the input
filter has put something into the buffer of the session, `on_session_read` is called, which hands the
packets in it to the packet handler. The bytes on the wire come in any segments.

A packet handler may change the room of the session (`session_change_room`). The session can only go
when all has been sent that has been written; if something is pending, `on_session_write` is called
when that has been done. To go, the session gets rid of its filter (`filter` is then `none`); it gets a
new one on the thread of its new room (`WORKER_COMMAND_NEW_CLIENT`). Nothing is read from the socket of
a session that is to go.

What has been passed to `session_write`, and what has been handed to the packet handler, is kept for the
statements. No packet handler kicks the session.
-/

namespace Syrup

open Framing

/-! ## The session of the channel server -/

/-- Where a session is. -/
inductive Phase
  | inRoom
  | flushing
  | moving
  deriving DecidableEq

/-- What a packet handler does with the room; a change of room finds output pending in the filter, or
    in the socket under it. -/
inductive Handling
  | stay
  | changeRoom (filterPending socketPending : Bool)
  deriving DecidableEq

/-- A session of the channel server: what has come from its socket, the input of its filter, and whether
    something has been put into that for which `on_session_read` has not been called. -/
structure PacketSession where
  recieveContext : DecryptionContext
  socket : List UInt8
  filter : Option (List UInt8)
  fresh : Bool
  phase : Phase
  handed : List (List UInt8)

namespace PacketSession

variable (s : PacketSession)

/-- `do_transfer`. -/
def doTransfer : PacketSession := { s with phase := .moving }

/-- `session_change_room`. -/
def sessionChangeRoom (filterPending socketPending : Bool) : PacketSession :=
  if filterPending then { s with phase := .flushing }
  else
    let s := { s with filter := none }
    if socketPending then { s with phase := .flushing } else s.doTransfer

/-- What a packet handler does. -/
def handle : Handling → PacketSession
  | .stay => s
  | .changeRoom filterPending socketPending => s.sessionChangeRoom filterPending socketPending

/-- The loop of `on_session_read`, for so many rounds at most, the packet handler doing this. The buffer
    it reads from is that of the filter. -/
def readLoop (n : ℕ) (handlings : List Handling) (s : PacketSession) : Exec PacketSession :=
  match s.filter, n with
  | none, _ => .error .nullPointer
  | some [], _ => return s
  | some [_], _ => .error .outOfBounds
  | some (b₀ :: b₁ :: input), n + 1 =>
    let len := (ofBytes16 b₀ b₁).toNat
    if input.length < len then .error .outOfBounds
    else
      let s := { s with filter := some (input.drop len), handed := s.handed ++ [input.take len] }
      readLoop n handlings.tail (s.handle (handlings.headD .stay))
  | some (_ :: _ :: _), 0 => .error .divergence

/-- `on_session_read`. -/
def onSessionRead (handlings : List Handling) : Exec PacketSession := do
  let input ← Exec.deref s.filter
  readLoop input.length handlings { s with fresh := false }

/-- A call of the input filter. -/
def filterInput (aes : Block → Block) : PacketSession :=
  match s.filter with
  | none => s
  | some input =>
    match inputFilter aes putFramed s.recieveContext s.socket with
    | none => s
    | some ((added, context), socket) =>
      { s with
        recieveContext := context, socket := socket, filter := some (input ++ added), fresh := true }

/-- `on_session_write`, when nothing is pending any more in the filter, or in the socket if there is no
    filter. -/
def onSessionWrite (socketPending : Bool) : PacketSession :=
  match s.filter with
  | none => s.doTransfer
  | some _ =>
    let s := { s with filter := none }
    if socketPending then s else s.doTransfer

/-- `WORKER_COMMAND_NEW_CLIENT`. -/
def onNewClient : PacketSession := { s with filter := some [], phase := .inRoom }

end PacketSession

/-! ## The connection -/

/-- A connection: the peer, with what is left of the packet it is writing, what it has written and its
    filter has not taken, and what it has sent; and the session. -/
structure Link where
  sendContext : EncryptionContext
  writing : List UInt8
  output : List UInt8
  wire : List UInt8
  session : PacketSession
  sent : List PacketData

namespace Link

/-- A connection, both sides of which have the same vector. -/
def start (iv : Fin 4 → UInt8) (mapleVersion : UInt16) : Link where
  sendContext := encryptionContextNew iv mapleVersion
  writing := []
  output := []
  wire := []
  session := ⟨decryptionContextNew iv, [], some [], false, .inRoom, []⟩
  sent := []

variable (aes : Block → Block) (l : Link)

/-- The first part of `session_write`: the length is written. (Nothing is written of an empty packet.) -/
def writeLength (p : PacketData) : Link :=
  if p.val = [] then l
  else { l with writing := p.val, output := l.output ++ bytes16 p.len, sent := l.sent ++ [p] }

/-- The second part: the packet is written. -/
def writeData : Link := { l with writing := [], output := l.output ++ l.writing }

/-- A call of the output filter of the peer. -/
def filterOutput : Link :=
  match outputFilter aes l.sendContext l.output with
  | none => l
  | some ((added, context), output) =>
    { l with sendContext := context, output := output, wire := l.wire ++ added }

/-- So many bytes come from the wire. -/
def deliver (n : ℕ) : Link :=
  { l with wire := l.wire.drop n, session := { l.session with
    socket := l.session.socket ++ l.wire.take n } }

end Link

/-- What happens on a connection. A segment only comes, and a filter and `on_session_read` are only
    called, while the session is in a room; what is called while it is going is `on_session_write`. -/
inductive LinkEvent
  | writeLength (p : PacketData)
  | writeData
  | filterOutput
  | deliver (n : ℕ)
  | filterInput
  | read (handlings : List Handling)
  | written (socketPending : Bool)
  | newClient

/-- The connection after it. -/
def LinkEvent.step (aes : Block → Block) : LinkEvent → Link → Exec Link
  | writeLength p, l => return if l.writing = [] then l.writeLength p else l
  | writeData, l => return l.writeData
  | filterOutput, l => return l.filterOutput aes
  | deliver n, l => return if l.session.phase = .inRoom then l.deliver n else l
  | filterInput, l => return if l.session.phase = .inRoom then
      { l with session := l.session.filterInput aes } else l
  | read handlings, l =>
    if l.session.phase = .inRoom then do
      let session ← l.session.onSessionRead handlings
      return { l with session := session }
    else return l
  | written socketPending, l => return if l.session.phase = .flushing then
      { l with session := l.session.onSessionWrite socketPending } else l
  | newClient, l => return if l.session.phase = .moving then
      { l with session := l.session.onNewClient } else l

/-! ## What a reading session makes of the packets in its buffer -/

/-- The packet handler does not get rid of the filter: if it changes the room, output is pending in the
    filter. -/
def Handling.KeepsFilter : Handling → Prop
  | .stay => True
  | .changeRoom filterPending _ => filterPending = true

instance (h : Handling) : Decidable h.KeepsFilter :=
  match h with
  | .stay => inferInstanceAs (Decidable True)
  | .changeRoom .. => inferInstanceAs (Decidable (_ = _))

namespace PacketSession

variable {s : PacketSession}

theorem handle_keeps {h : Handling} (hh : h.KeepsFilter) :
    ∃ phase, s.handle h = { s with phase := phase } := by
  rcases h with - | ⟨filterPending, socketPending⟩
  · exact ⟨s.phase, rfl⟩
  · refine ⟨.flushing, ?_⟩
    rw [handle, sessionChangeRoom, if_pos (show filterPending = true from hh)]

theorem handle_frees {h : Handling} (hh : ¬h.KeepsFilter) : (s.handle h).filter = none := by
  rcases h with - | ⟨filterPending, socketPending⟩
  · exact absurd trivial hh
  · rw [handle, sessionChangeRoom, if_neg (show ¬filterPending = true from hh)]
    split <;> rfl

/-- A round of the loop. -/
theorem readLoop_cons {n : ℕ} {p : PacketData} {input : List UInt8} (handlings : List Handling)
    (hfilter : s.filter = some (p.framed ++ input)) : readLoop (n + 1) handlings s =
      readLoop n handlings.tail
        (PacketSession.handle { s with filter := some input, handed := s.handed ++ [p.val] }
          (handlings.headD .stay)) := by
  have hframed : p.framed ++ input =
      p.len.toUInt8 :: (p.len >>> 8).toUInt8 :: (p.val ++ input) := rfl
  rw [hframed] at hfilter
  rw [readLoop.eq_def, hfilter]
  dsimp only
  rw [ofBytes16_bytes16, PacketData.toNat_len, if_neg (by simp), List.take_left, List.drop_left]

/-- If the packet handler keeps the filter, all packets in the buffer are handed to it. -/
theorem readLoop_keeps {n : ℕ} {ready : List PacketData} {handlings : List Handling}
    (hfilter : s.filter = some (ready.flatMap PacketData.framed)) (hn : ready.length ≤ n)
    (hkeeps : ∀ h ∈ handlings.take ready.length, h.KeepsFilter) :
    ∃ phase, readLoop n handlings s = .ok { s with
      filter := some [], handed := s.handed ++ ready.map Subtype.val, phase := phase } := by
  induction ready generalizing n handlings s with
  | nil =>
    refine ⟨s.phase, ?_⟩
    rw [readLoop.eq_def, hfilter]
    simp only [List.flatMap_nil, List.map_nil, List.append_nil]
    rw [← show s.filter = some [] from hfilter]
    rfl
  | cons p ready ih =>
    obtain ⟨n, rfl⟩ := Nat.exists_eq_add_one_of_ne_zero (Nat.ne_of_gt (Nat.lt_of_lt_of_le
      (Nat.succ_pos _) hn))
    have hhead : (handlings.headD .stay).KeepsFilter := by
      cases handlings with
      | nil => exact trivial
      | cons h handlings => exact hkeeps h List.mem_cons_self
    have htail : ∀ h ∈ handlings.tail.take ready.length, h.KeepsFilter := by
      cases handlings with
      | nil => simp
      | cons h handlings => exact fun h' hh' => hkeeps h' (List.mem_cons_of_mem _ hh')
    rw [List.flatMap_cons] at hfilter
    rw [readLoop_cons handlings hfilter]
    obtain ⟨phase, hhandle⟩ := handle_keeps (s := { s with
      filter := some (ready.flatMap PacketData.framed), handed := s.handed ++ [p.val] }) hhead
    rw [hhandle]
    obtain ⟨phase', hloop⟩ := ih (s := { s with filter := some (ready.flatMap PacketData.framed)
                                                handed := s.handed ++ [p.val], phase := phase })
      rfl (Nat.le_of_succ_le_succ hn) htail
    refine ⟨phase', ?_⟩
    rw [hloop, List.map_cons, List.append_assoc]
    rfl

/-- If it does not, the buffer is read from after it has been freed. -/
theorem readLoop_frees {n : ℕ} {ready : List PacketData} {handlings : List Handling}
    (hfilter : s.filter = some (ready.flatMap PacketData.framed)) (hn : ready.length ≤ n)
    (hfrees : ∃ h ∈ handlings.take ready.length, ¬h.KeepsFilter) :
    readLoop n handlings s = .error .nullPointer := by
  induction ready generalizing n handlings s with
  | nil =>
    obtain ⟨h, hh, -⟩ := hfrees
    rw [List.length_nil, List.take_zero] at hh
    cases hh
  | cons p ready ih =>
    obtain ⟨n, rfl⟩ := Nat.exists_eq_add_one_of_ne_zero (Nat.ne_of_gt (Nat.lt_of_lt_of_le
      (Nat.succ_pos _) hn))
    rw [List.flatMap_cons] at hfilter
    rw [readLoop_cons handlings hfilter]
    obtain ⟨h, hh, hnot⟩ := hfrees
    cases handlings with
    | nil =>
      rw [List.take_nil] at hh
      cases hh
    | cons h₁ handlings =>
      by_cases hkeeps : h₁.KeepsFilter
      · obtain ⟨phase, hhandle⟩ := handle_keeps (s := { s with
          filter := some (ready.flatMap PacketData.framed), handed := s.handed ++ [p.val] }) hkeeps
        rw [List.headD_cons, hhandle]
        refine ih rfl (Nat.le_of_succ_le_succ hn) ⟨h, ?_, hnot⟩
        rcases List.mem_cons.1 hh with rfl | hh
        · exact absurd hkeeps hnot
        · exact hh
      · rw [List.headD_cons, readLoop.eq_def, handle_frees hkeeps]

theorem length_le_flatMap (ready : List PacketData) :
    ready.length ≤ (ready.flatMap PacketData.framed).length := by
  induction ready with
  | nil => exact le_rfl
  | cons p ready ih =>
    have hpos : 1 ≤ p.framed.length := Nat.le_add_left 1 _
    rw [List.flatMap_cons, List.length_append, List.length_cons]
    omega

theorem onSessionRead_keeps {ready : List PacketData} {handlings : List Handling}
    (hfilter : s.filter = some (ready.flatMap PacketData.framed))
    (hkeeps : ∀ h ∈ handlings.take ready.length, h.KeepsFilter) :
    ∃ phase, s.onSessionRead handlings = .ok { s with
      filter := some [], fresh := false, handed := s.handed ++ ready.map Subtype.val
      phase := phase } := by
  rw [onSessionRead, hfilter, Exec.deref, Exec.ok_bind, ← hfilter]
  exact readLoop_keeps (s := { s with fresh := false }) hfilter (length_le_flatMap ready) hkeeps

theorem onSessionRead_iff {ready : List PacketData} {handlings : List Handling}
    (hfilter : s.filter = some (ready.flatMap PacketData.framed)) :
    (∃ s', s.onSessionRead handlings = .ok s') ↔
      ∀ h ∈ handlings.take ready.length, h.KeepsFilter := by
  constructor
  · rintro ⟨s', hs'⟩
    by_contra hnot
    push Not at hnot
    rw [onSessionRead, hfilter, Exec.deref, Exec.ok_bind, ← hfilter,
      readLoop_frees (s := { s with fresh := false }) hfilter (length_le_flatMap ready) hnot] at hs'
    cases hs'
  · intro hkeeps
    obtain ⟨phase, hread⟩ := onSessionRead_keeps hfilter hkeeps
    exact ⟨_, hread⟩

end PacketSession

/-! ## Packets under way -/

/-- Every packet that has been sent has been handed over, is `ready` in the buffer of the session,
    `coming` from the wire, or not yet sent by the filter of the peer. The peer has encrypted the packets
    on the wire with the vectors that the session will have when it decrypts them. -/
structure Flow (aes : Block → Block) (l : Link) (context : EncryptionContext)
    (ready coming unsent : List PacketData) : Prop where
  iv : l.session.recieveContext = ⟨context.iv⟩
  arriving : l.session.socket ++ l.wire = (wireCode aes).words context coming
  sendContext : l.sendContext = (wireCode aes).after context coming
  written : l.output ++ l.writing = unsent.flatMap PacketData.framed
  buffer : l.session.filter.getD [] = ready.flatMap PacketData.framed
  fresh : l.session.fresh = false → ready = []
  filter : l.session.phase = .inRoom → l.session.filter ≠ none
  going : l.session.phase ≠ .inRoom → ready = []
  sent : l.session.handed ++ (ready ++ coming ++ unsent).map Subtype.val = l.sent.map Subtype.val

/-- The connection keeps its packets. -/
def Link.Flows (aes : Block → Block) (l : Link) : Prop :=
  ∃ context ready coming unsent, Flow aes l context ready coming unsent

/-- A packet handler that changes the room of a session finds output pending in the filter. -/
def FilterKept : LinkEvent → Link → Prop
  | .read handlings, l => ∀ ready : List PacketData,
    l.session.filter = some (ready.flatMap PacketData.framed) →
      ∀ h ∈ handlings.take ready.length, h.KeepsFilter
  | _, _ => True

section Flow

variable {aes : Block → Block} {l : Link} {context : EncryptionContext}
  {ready coming unsent : List PacketData}

theorem flows_start (aes : Block → Block) (iv : Fin 4 → UInt8) (mapleVersion : UInt16) :
    (Link.start iv mapleVersion).Flows aes :=
  ⟨encryptionContextNew iv mapleVersion, [], [], [], ⟨rfl, rfl, rfl, rfl, rfl, fun _ => rfl,
    fun _ => nofun, fun _ => rfl, rfl⟩⟩

theorem Flow.filter_eq (h : Flow aes l context ready coming unsent)
    (hphase : l.session.phase = .inRoom) :
    l.session.filter = some (ready.flatMap PacketData.framed) := by
  obtain ⟨input, hinput⟩ := Option.ne_none_iff_exists'.1 (h.filter hphase)
  rw [hinput, ← h.buffer, hinput, Option.getD_some]

theorem Flow.writeLength (h : Flow aes l context ready coming unsent) (hwriting : l.writing = [])
    (p : PacketData) : (l.writeLength p).Flows aes := by
  rw [Link.writeLength]
  split
  · exact ⟨context, ready, coming, unsent, h⟩
  · refine ⟨context, ready, coming, unsent ++ [p], h.iv, h.arriving, h.sendContext, ?_, h.buffer,
      h.fresh, h.filter, h.going, ?_⟩
    · have hwritten := h.written
      rw [hwriting, List.append_nil] at hwritten
      rw [List.flatMap_append, List.flatMap_singleton, ← hwritten, List.append_assoc]
      rfl
    · rw [← List.append_assoc, List.map_append, ← List.append_assoc, h.sent, List.map_append]

theorem Flow.writeData (h : Flow aes l context ready coming unsent) : l.writeData.Flows aes := by
  refine ⟨context, ready, coming, unsent, h.iv, h.arriving, h.sendContext, ?_, h.buffer, h.fresh,
    h.filter, h.going, h.sent⟩
  rw [← h.written, Link.writeData, List.append_nil]

theorem Flow.filterOutput (h : Flow aes l context ready coming unsent) :
    (l.filterOutput aes).Flows aes := by
  rw [Link.filterOutput]
  have hwords := h.written.trans (plainCode_words (wireCode aes).next l.sendContext unsent).symm
  rcases (plain_reads aes).read hwords with hnone | ⟨p, unsent', output', rfl, hsome, hrest⟩
  · rw [hnone]
    exact ⟨context, ready, coming, unsent, h⟩
  · rw [hsome]
    refine ⟨context, ready, coming ++ [p], unsent', h.iv, ?_, ?_, ?_, h.buffer, h.fresh, h.filter,
      h.going, ?_⟩
    · rw [Code.words_append, ← h.arriving, ← h.sendContext, List.append_assoc, Code.words_cons,
        Code.words_nil, List.append_nil]
    · rw [Code.after_append, ← h.sendContext]
      rfl
    · rw [hrest, plainCode_words]
    · rw [← h.sent, List.append_assoc, List.append_assoc, List.append_assoc, List.singleton_append]

theorem Flow.deliver (h : Flow aes l context ready coming unsent) (n : ℕ) :
    (l.deliver n).Flows aes := by
  refine ⟨context, ready, coming, unsent, h.iv, ?_, h.sendContext, h.written, h.buffer, h.fresh,
    h.filter, h.going, h.sent⟩
  rw [← h.arriving, Link.deliver, List.append_assoc, List.take_append_drop]

theorem Flow.filterInput (h : Flow aes l context ready coming unsent)
    (hphase : l.session.phase = .inRoom) :
    Link.Flows aes { l with session := l.session.filterInput aes } := by
  have hfilter := h.filter_eq hphase
  rw [PacketSession.filterInput, hfilter, h.iv]
  rcases (wire_reads aes putFramed).read h.arriving with hnone | ⟨p, coming', socket', rfl, hsome, hrest⟩
  · rw [hnone]
    exact ⟨context, ready, coming, unsent, h⟩
  · rw [hsome]
    refine ⟨(wireCode aes).next context p, ready ++ [p], coming', unsent, rfl, hrest, h.sendContext,
      h.written, ?_, nofun, fun _ => nofun, fun hne => absurd hphase hne, ?_⟩
    · rw [Option.getD_some, List.flatMap_append, List.flatMap_singleton]
      rfl
    · rw [← h.sent, List.append_assoc ready, List.singleton_append]

theorem Flow.read (h : Flow aes l context ready coming unsent) (hphase : l.session.phase = .inRoom)
    {handlings : List Handling} (hkept : FilterKept (.read handlings) l) :
    ∃ session, l.session.onSessionRead handlings = .ok session ∧
      Link.Flows aes { l with session := session } := by
  have hfilter := h.filter_eq hphase
  obtain ⟨phase, hread⟩ := PacketSession.onSessionRead_keeps hfilter (hkept ready hfilter)
  refine ⟨_, hread, context, [], coming, unsent, h.iv, h.arriving, h.sendContext, h.written, rfl,
    fun _ => rfl, fun _ => nofun, fun _ => rfl, ?_⟩
  change l.session.handed ++ ready.map Subtype.val ++ (coming ++ unsent).map Subtype.val = _
  rw [List.append_assoc, ← List.map_append, ← List.append_assoc ready, h.sent]

theorem Flow.written' (h : Flow aes l context ready coming unsent)
    (hphase : l.session.phase ≠ .inRoom) (socketPending : Bool) :
    Link.Flows aes { l with session := l.session.onSessionWrite socketPending } := by
  obtain rfl := h.going hphase
  rw [PacketSession.onSessionWrite]
  split
  · exact ⟨context, [], coming, unsent, h.iv, h.arriving, h.sendContext, h.written, h.buffer,
      h.fresh, nofun, fun _ => rfl, h.sent⟩
  · split
    · exact ⟨context, [], coming, unsent, h.iv, h.arriving, h.sendContext, h.written, rfl,
        h.fresh, fun hin => absurd hin hphase, fun _ => rfl, h.sent⟩
    · exact ⟨context, [], coming, unsent, h.iv, h.arriving, h.sendContext, h.written, rfl,
        h.fresh, nofun, fun _ => rfl, h.sent⟩

theorem Flow.newClient (h : Flow aes l context ready coming unsent)
    (hphase : l.session.phase ≠ .inRoom) :
    Link.Flows aes { l with session := l.session.onNewClient } := by
  obtain rfl := h.going hphase
  exact ⟨context, [], coming, unsent, h.iv, h.arriving, h.sendContext, h.written, rfl, fun _ => rfl,
    fun _ => nofun, fun _ => rfl, h.sent⟩

/-- Whatever happens, no packet is lost, as long as the filter is kept while packets are read. -/
theorem Link.Flows.step (h : l.Flows aes) (e : LinkEvent) (hkept : FilterKept e l) :
    ∃ l', e.step aes l = .ok l' ∧ l'.Flows aes := by
  obtain ⟨context, ready, coming, unsent, hflow⟩ := h
  have hsame : l.Flows aes := ⟨context, ready, coming, unsent, hflow⟩
  cases e with
  | writeLength p =>
    refine ⟨_, rfl, ?_⟩
    split
    · exact hflow.writeLength ‹_› p
    · exact hsame
  | writeData => exact ⟨_, rfl, hflow.writeData⟩
  | filterOutput => exact ⟨_, rfl, hflow.filterOutput⟩
  | deliver n =>
    refine ⟨_, rfl, ?_⟩
    split
    · exact hflow.deliver n
    · exact hsame
  | filterInput =>
    refine ⟨_, rfl, ?_⟩
    split
    · exact hflow.filterInput ‹_›
    · exact hsame
  | read handlings =>
    rw [LinkEvent.step]
    split
    · obtain ⟨session, hread, hflows⟩ := hflow.read ‹_› hkept
      exact ⟨_, by rw [hread]; rfl, hflows⟩
    · exact ⟨_, rfl, hsame⟩
  | written socketPending =>
    refine ⟨_, rfl, ?_⟩
    split
    · rename_i hphase
      exact hflow.written' (by rw [hphase]; exact nofun) socketPending
    · exact hsame
  | newClient =>
    refine ⟨_, rfl, ?_⟩
    split
    · rename_i hphase
      exact hflow.newClient (by rw [hphase]; exact nofun)
    · exact hsame

end Flow

/-! ## Packets that arrive -/

/-- Nothing is left to be done: all has been written and sent, all has come, the filters need more, and
    `on_session_read` has been called for all that has been put into the buffer. -/
structure Link.Idle (aes : Block → Block) (l : Link) : Prop where
  writing : l.writing = []
  output : outputFilter aes l.sendContext l.output = none
  wire : l.wire = []
  socket : inputFilter aes putFramed l.session.recieveContext l.session.socket = none
  fresh : l.session.fresh = false

/-- The packets that have been handed over are the first ones that have been sent, each once, unmodified
    and in order; they are all when nothing is left to be done; and whatever happens, as long as it meets
    the condition `ok`, does not fault. -/
structure Link.Delivers (aes : Block → Block) (ok : LinkEvent → Link → Prop) (l : Link) : Prop where
  inOrder : l.session.handed <+: l.sent.map Subtype.val
  complete : l.Idle aes → l.session.handed = l.sent.map Subtype.val
  returns : ∀ e, ok e l → ∃ l', e.step aes l = .ok l'

theorem Link.Flows.delivers {aes : Block → Block} {l : Link} (h : l.Flows aes) :
    l.Delivers aes FilterKept := by
  obtain ⟨context, ready, coming, unsent, hflow⟩ := h
  refine ⟨⟨_, hflow.sent⟩, fun hidle => ?_, fun e hkept => ?_⟩
  · obtain rfl : unsent = [] := by
      have hwritten := hflow.written
      rw [hidle.writing, List.append_nil] at hwritten
      refine (plain_reads aes).done (s := l.sendContext) ?_
      rw [plainCode_words, ← hwritten]
      exact hidle.output
    obtain rfl : coming = [] := by
      have harriving := hflow.arriving
      rw [hidle.wire, List.append_nil] at harriving
      refine (wire_reads aes putFramed).done (s := context) ?_
      rw [← harriving, ← hflow.iv]
      exact hidle.socket
    have hsent := hflow.sent
    rw [hflow.fresh hidle.fresh] at hsent
    simpa using hsent
  · obtain ⟨l', hl', -⟩ := Link.Flows.step ⟨context, ready, coming, unsent, hflow⟩ e hkept
    exact ⟨l', hl'⟩

theorem Link.Flows.run {aes : Block → Block} {l l' : Link} (h : l.Flows aes)
    (hrun : Machine.Run (LinkEvent.step aes) FilterKept l l') : l'.Flows aes :=
  hrun.invariant h fun e l l' hl hkept hstep => by
    obtain ⟨l'', hl'', hflows⟩ := hl.step e hkept
    rw [hstep] at hl''
    obtain rfl := Except.ok.inj hl''
    exact hflows

/-- No packet handler changes the room. -/
def RoomKept : LinkEvent → Link → Prop
  | .read handlings, _ => ∀ h ∈ handlings, h = .stay
  | _, _ => True

instance (e : LinkEvent) (l : Link) : Decidable (RoomKept e l) :=
  match e with
  | .read handlings => inferInstanceAs (Decidable (∀ h ∈ handlings, h = .stay))
  | .writeLength _ | .writeData | .filterOutput | .deliver _ | .filterInput | .written _ | .newClient =>
    inferInstanceAs (Decidable True)

theorem RoomKept.filterKept {e : LinkEvent} {l : Link} (h : RoomKept e l) : FilterKept e l := by
  cases e with
  | read handlings =>
    intro ready _ handling hmem
    rw [h handling (List.mem_of_mem_take hmem)]
    exact trivial
  | _ => exact trivial

/-- A packet of one byte is written. -/
def LinkEvent.writeByte (b : UInt8) : List LinkEvent :=
  [.writeLength ⟨[b], PacketData.length_byte b⟩, .filterOutput, .writeData, .filterOutput]

/-- As long as a packet handler that changes the room of a session finds output pending in its filter, no
    packet is lost; and exactly then is the buffer of the filter not read from after it has been freed. -/
theorem changeRoom_run (aes : Block → Block) (iv : Fin 4 → UInt8) (mapleVersion : UInt16) {l : Link}
    (hrun : Machine.Run (LinkEvent.step aes) FilterKept (.start iv mapleVersion) l) :
    l.Delivers aes FilterKept ∧ ∀ handlings, l.session.phase = .inRoom →
      ((∃ l', (LinkEvent.read handlings).step aes l = .ok l') ↔ FilterKept (.read handlings) l) := by
  have hflows := (flows_start aes iv mapleVersion).run hrun
  refine ⟨hflows.delivers, fun handlings hphase => ⟨?_, hflows.delivers.returns _⟩⟩
  rintro ⟨l', hl'⟩ ready hready
  rw [LinkEvent.step, if_pos hphase] at hl'
  obtain ⟨session, hsession, -⟩ := Exec.bind_eq_ok.1 hl'
  exact (PacketSession.onSessionRead_iff hready).1 ⟨session, hsession⟩

/-- All packet handlers keep the filter. -/
def AllKept : LinkEvent → Link → Prop
  | .read handlings, _ => ∀ h ∈ handlings, h.KeepsFilter
  | _, _ => True

instance (e : LinkEvent) (l : Link) : Decidable (AllKept e l) :=
  match e with
  | .read handlings => inferInstanceAs (Decidable (∀ h ∈ handlings, h.KeepsFilter))
  | .writeLength _ | .writeData | .filterOutput | .deliver _ | .filterInput | .written _ | .newClient =>
    inferInstanceAs (Decidable True)

theorem AllKept.filterKept {e : LinkEvent} {l : Link} (h : AllKept e l) : FilterKept e l := by
  cases e with
  | read handlings => exact fun _ _ handling hmem => h handling (List.mem_of_mem_take hmem)
  | _ => exact trivial

/-- Two packets come at once, the first of which changes the room while output is pending; another one
    comes when the session is in its new room. -/
theorem changeRoom_run_three : ∃ l : Link, l.Delivers id FilterKept ∧
    l.session.handed = [[7], [8], [9]] := by
  let es : List LinkEvent := LinkEvent.writeByte 7 ++ LinkEvent.writeByte 8 ++ LinkEvent.writeByte 9 ++
    [.deliver 12, .filterInput, .filterInput, .read [.changeRoom true true], .written true,
      .written false, .newClient, .deliver 4, .filterInput, .read []]
  have hes : ∃ l, es.foldlM (Machine.checked (LinkEvent.step id) AllKept Fault.assertion)
      (Link.start (fun _ => 0) 83) = .ok l ∧ l.session.handed = [[7], [8], [9]] := by
    rw [← Exec.returns_iff]
    decide +kernel
  obtain ⟨l, hl, hhanded⟩ := hes
  have hrun : Machine.Run (LinkEvent.step id) AllKept (.start (fun _ => 0) 83) l := .of_checked hl
  exact ⟨l, (changeRoom_run id (fun _ => 0) 83 (hrun.mono fun _ _ => AllKept.filterKept)).1, hhanded⟩

/-- The handler of a packet changes the room, and no output is pending: the buffer of the filter is read
    from after it has been freed. -/
theorem changeRoom_freed : ∃ l, Machine.Run (LinkEvent.step id) (fun _ _ => True)
    (.start (fun _ => 0) 83) l ∧ ¬l.Delivers id fun _ _ => True := by
  let es : List LinkEvent := LinkEvent.writeByte 7 ++ [.deliver 5, .filterInput]
  have hes : ∃ l, es.foldlM (fun l e => LinkEvent.step id e l) (Link.start (fun _ => 0) 83) = .ok l ∧
      ¬Exec.Returns ((LinkEvent.read [.changeRoom false false]).step id l) fun _ => True := by
    rw [← Exec.returns_iff]
    decide +kernel
  obtain ⟨l, hl, hfault⟩ := hes
  refine ⟨l, .of_foldlM (fun _ _ _ => trivial) hl, fun h => hfault ?_⟩
  obtain ⟨l', hl'⟩ := h.returns (.read [.changeRoom false false]) trivial
  exact Exec.returns_iff.2 ⟨l', hl', trivial⟩

end Syrup
