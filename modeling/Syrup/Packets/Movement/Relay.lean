import Syrup.Packets.Movement

/-!
# What is relayed of a movement

What is forwarded of an accepted packet should be in it, the count and the commands and nothing else, and fit the
packet that it is sent in; and a packet that is cut off should move neither the player nor a monster (`RelaysMove`,
`RelaysMonster`).

What goes wrong:
* what is skipped at the end need not be there, neither in the last command nor after it;
* the longest commands are longer than the packets are made for;
* a player has moved by the commands that come before the one that is missing;
* a monster moves to a position that has not been read if no command has one.

`relays_iff` says exactly for which packets nothing goes wrong.
-/

namespace Syrup

open Wire Fields

/-! ## Packets -/

/-- A packet has all its bytes: some before the count, the commands, and some after them. -/
def Complete (fields : UInt8 → List Field) (before after : ℕ) (packet : List UInt8) : Prop :=
  ∃ head count rs rest, packet = head ++ count :: (flat rs ++ rest) ∧ head.length = before ∧
    rs.length = count.toNat ∧ Whole fields rs ∧ after ≤ rest.length

/-- What is sent is the count and the commands of a packet, which are all in it, after what is sent before them and what
    the packet has from some offset up to the count; and it is not too long. -/
def Forwards (fields : UInt8 → List Field) (before offset max : ℕ) (packet : List UInt8) (head out : List UInt8)
    (rs : List (UInt8 × List UInt8)) : Prop :=
  ∃ count rest, packet.drop before = count :: (flat rs ++ rest) ∧ rs.length = count.toNat ∧ Whole fields rs ∧
    out = head ++ ((packet.drop offset).take (before - offset) ++ count :: flat rs) ∧ out.length ≤ max

section Packets

variable {fields : UInt8 → List Field} {before after offset max : ℕ} {packet bs : List UInt8} {count : UInt8}

/-- Whether a packet is complete can be seen from the commands that can be read. -/
theorem complete_iff (h : packet.drop before = count :: bs) : Complete fields before after packet ↔
    (recordsRead fields count.toNat bs).length = count.toNat ∧
      recordsSize fields (recordsRead fields count.toNat bs) + after ≤ bs.length := by
  constructor
  · rintro ⟨head, count', rs, rest, rfl, hhead, hlen, hwhole, hafter⟩
    rw [List.drop_left' hhead] at h
    cases h
    have hread := @recordsRead_flat fields rs rest hwhole
    have hflat := length_flat hwhole
    rw [← hlen, hread, List.length_map, List.length_append]
    exact ⟨rfl, by omega⟩
  · rintro ⟨hall, hsize⟩
    obtain ⟨rs, rest, hlen, hwhole, rfl⟩ := exists_flat hall (by omega)
    have hread := @recordsRead_flat fields rs rest hwhole
    have hflat := length_flat hwhole
    rw [← hlen, hread, List.length_append] at hsize
    have htake : (packet.take before).length = before := by
      have hpos := congrArg List.length h
      rw [List.length_drop, List.length_cons] at hpos
      exact List.length_take_of_le (by omega)
    refine ⟨packet.take before, count, rs, rest, ?_, htake, hlen, hwhole, by omega⟩
    rw [← h, List.take_append_drop]

end Packets

/-- The bytes of the count and of commands that are there. -/
theorem exists_forward {fields : UInt8 → List Field} {count : UInt8} {bs : List UInt8}
    (hall : (recordsRead fields count.toNat bs).length = count.toNat)
    (hsize : recordsSize fields (recordsRead fields count.toNat bs) ≤ bs.length) : ∃ rs rest,
      (count :: bs).take (1 + recordsSize fields (recordsRead fields count.toNat bs)) = count :: flat rs ∧
        rs.length = count.toNat ∧ Whole fields rs ∧ bs = flat rs ++ rest := by
  obtain ⟨rs, rest, hlen, hwhole, rfl⟩ := exists_flat hall hsize
  refine ⟨rs, rest, ?_, hlen, hwhole, rfl⟩
  rw [← hlen, recordsRead_flat hwhole, ← length_flat hwhole, Nat.add_comm, List.take_succ_cons, List.take_left']
  rfl

/-- Commands are not long. -/
theorem recordsSize_le {fields : UInt8 → List Field} (h : ∀ code, widthOf (fields code) ≤ 15) (codes : List UInt8) :
    recordsSize fields codes ≤ 16 * codes.length := by
  rw [recordsSize]
  induction codes with
  | nil => exact le_rfl
  | cons code codes ih =>
    have hcode := h code
    rw [List.map_cons, List.sum_cons, List.length_cons]
    omega

/-! ## Players -/

/-- A packet is handled; what is accepted is forwarded, and what is not complete does not move the player, wherever it
    is. -/
def RelaysMove (id : UInt32) (packet : List UInt8) : Prop :=
  ∀ p, ∃ r, moveHandler id p packet = .ok r ∧
    (r.accepted = true → ∃ out rs, r.sent = [out] ∧
      Forwards moveFields 9 9 movePlayerPacketMaxLength packet (bytesOf (movePlayerHead id)) out rs) ∧
    (¬Complete moveFields 9 18 packet → r.state = p)

/-- A command changes the position of a player, or its stance. -/
def MovesPlayer (code : UInt8) : Prop := needs (moveFields code) ≠ 0

/-- If all commands can be read, they are there, and not too long; and if one that can be read moves the player, the
    packet is complete. -/
def MoveFits (packet : List UInt8) : Prop :=
  match packet.drop 9 with
  | [] => True
  | count :: bs =>
    let codes := recordsRead moveFields count.toNat bs
    (codes.length = count.toNat → recordsSize moveFields codes ≤ bs.length ∧
      11 + recordsSize moveFields codes ≤ movePlayerPacketMaxLength) ∧
    ((∃ code ∈ codes, MovesPlayer code) → codes.length = count.toNat ∧
      recordsSize moveFields codes + 18 ≤ bs.length)

section Players

variable {id : UInt32} {p : Position} {packet bs : List UInt8} {count : UInt8}

theorem movePlayerPacket_eq_ok {len : ℕ} {data out : List UInt8} : movePlayerPacket id len data = .ok out ↔
    10 + len ≤ movePlayerPacketMaxLength ∧ len ≤ data.length ∧
      out = bytesOf (movePlayerHead id) ++ data.take len := by
  rw [movePlayerPacket]
  split
  · rename_i hmax
    have hlen : (UInt16.ofNat len).toNat = len := by
      rw [movePlayerPacketMaxLength] at hmax
      exact Nat.mod_eq_of_lt (by change len < 65536; omega)
    rw [packetOf_eq_ok, and_iff_right hmax]
    simp only [movePlayerHead, List.forall_mem_append, List.forall_mem_cons, Write.sound_num, Write.sound_array,
      List.not_mem_nil, false_implies, implies_true, and_true, true_and, lengthOf_append, lengthOf_cons, lengthOf_nil,
      Write.size_num, Write.size_array, hlen, bytesOf_append, bytesOf_cons, bytesOf_nil, List.append_nil, Write.bytes,
      width_u16, width_u32]
    exact ⟨fun h => ⟨h.1, h.2.2⟩, fun h => ⟨h.1, by omega, h.2⟩⟩
  · rename_i hmax
    exact iff_of_false (fun h => by cases h) fun h => hmax h.1

/-- A command that moves a player has a position and a stance, or a stance; others have nothing that is read. -/
theorem numbersIn_moveFields (code : UInt8) :
    (MovesPlayer code ∧ (numbersIn (moveFields code) = 4 ∨ numbersIn (moveFields code) = 1)) ∨
      (¬MovesPlayer code ∧ numbersIn (moveFields code) = 0) := by
  rw [MovesPlayer, moveFields.eq_def]
  split <;> decide

/-- The stance after a command follows from the command and the stance before. -/
theorem stance_update {p' : Position} (h : p.stance = p'.stance) (vs : List ℤ) :
    (clientUpdatePlayerPos p vs).stance = (clientUpdatePlayerPos p' vs).stance := by
  rcases vs with _ | ⟨_, _ | ⟨_, _ | ⟨_, _ | ⟨_, _ | ⟨_, _⟩⟩⟩⟩⟩
  · exact h
  · rfl
  · exact h
  · exact h
  · rfl
  · exact h

/-- The stance after a command that moves a player follows from the command. -/
theorem stance_moves (p p' : Position) {vs : List ℤ} (h : vs.length = 4 ∨ vs.length = 1) :
    (clientUpdatePlayerPos p vs).stance = (clientUpdatePlayerPos p' vs).stance := by
  rcases vs with _ | ⟨_, _ | ⟨_, _ | ⟨_, _ | ⟨_, _ | ⟨_, _⟩⟩⟩⟩⟩
  · rcases h with h | h <;> cases h
  · rfl
  · rcases h with h | h <;> cases h
  · rcases h with h | h <;> cases h
  · rfl
  · rcases h with h | h <;> cases h

/-- Where a player is after the commands that can be read. -/
def placeAfter (n : ℕ) (bs : List UInt8) (p : Position) : Position := (parse moveFields moveCommand n bs (p, 1)).1.1

/-- Commands that do not move a player leave it where it is. -/
theorem placeAfter_quiet {n : ℕ} (h : ∀ code ∈ recordsRead moveFields n bs, ¬MovesPlayer code) :
    placeAfter n bs p = p := by
  refine @parse_invariant moveFields _ moveCommand n bs (p, 1) (fun s => s.1 = p) rfl ?_
  intro code hcode bs' rest vs s hread hs
  have hlen := length_readFields hread
  obtain ⟨hmoves, _⟩ | ⟨_, hnone⟩ := numbersIn_moveFields code
  · exact absurd hmoves (h code hcode)
  · rw [hnone] at hlen
    rw [moveCommand, List.eq_nil_of_length_eq_zero hlen]
    exact hs

/-- Commands of which one moves a player do not leave every player where it is. -/
theorem placeAfter_moves {n : ℕ} (h : ∃ code ∈ recordsRead moveFields n bs, MovesPlayer code) :
    ∃ p, placeAfter n bs p ≠ p := by
  by_contra hall
  have hstay (p : Position) : placeAfter n bs p = p := not_not.1 fun hne => hall ⟨p, hne⟩
  have hsame : (placeAfter n bs ⟨0, 0, 0, 0⟩).stance = (placeAfter n bs ⟨0, 0, 0, 1⟩).stance :=
    @parse_determined moveFields _ moveCommand n bs (⟨0, 0, 0, 0⟩, 1) _ (fun s => s.1.stance) (⟨0, 0, 0, 1⟩, 1)
      MovesPlayer (fun _ vs _ _ hs => stance_update hs vs) (fun code bs' vs rest s s' hmoves hread => by
        obtain ⟨_, hlen⟩ | ⟨hquiet, _⟩ := numbersIn_moveFields code
        · rw [← length_readFields hread] at hlen
          exact stance_moves _ _ hlen
        · exact absurd hmoves hquiet) h
  rw [hstay, hstay] at hsame
  cases hsame

/-- What comes of a packet that has a count. -/
theorem moveHandler_eq (h : packet.drop 9 = count :: bs) : moveHandler id p packet =
    if (recordsRead moveFields count.toNat bs).length = count.toNat then do
      let out ← movePlayerPacket id (1 + recordsSize moveFields (recordsRead moveFields count.toNat bs)) (count :: bs)
      return ⟨true, placeAfter count.toNat bs p, [out]⟩
    else .ok ⟨false, placeAfter count.toNat bs p, []⟩ := by
  have hrest := @parse_rest moveFields _ moveCommand count.toNat bs (p, 1)
  have hlen := @parse_count moveFields _ moveCommand count.toNat bs (p, 1) Prod.snd fun code vs s => by
    rw [moveCommand, moveLen_eq]
    omega
  rw [moveHandler, h, placeAfter]
  simp only
  rcases hparse : parse moveFields moveCommand count.toNat bs (p, 1) with ⟨⟨p', len⟩, rest⟩
  rw [hparse] at hrest hlen
  simp only at hrest hlen ⊢
  by_cases hall : (recordsRead moveFields count.toNat bs).length = count.toNat
  · rw [if_pos hall] at hrest ⊢
    rw [hrest, hlen]
  · rw [if_neg hall] at hrest ⊢
    rw [hrest]

/-- A packet of a player is handled as it should be exactly if it is safe. -/
theorem relaysMove_iff (id : UInt32) (packet : List UInt8) : RelaysMove id packet ↔ MoveFits packet := by
  rw [MoveFits]
  rcases hdrop : packet.drop 9 with _ | ⟨count, bs⟩
  · -- Nothing is read of a packet without a count.
    refine iff_of_true (fun p => ⟨⟨false, p, []⟩, ?_, fun h => absurd h Bool.false_ne_true, fun _ => rfl⟩) trivial
    rw [moveHandler, hdrop]
  · simp only
    have hcomplete := @complete_iff moveFields 9 18 packet bs count hdrop
    constructor
    · intro h
      refine ⟨fun hall => ?_, fun hmoves => ?_⟩
      · obtain ⟨r, hr, _⟩ := h default
        rw [moveHandler_eq hdrop, if_pos hall] at hr
        obtain ⟨out, hout, _⟩ := Exec.bind_eq_ok.1 hr
        obtain ⟨hmax, hlen, _⟩ := movePlayerPacket_eq_ok.1 hout
        rw [List.length_cons] at hlen
        exact ⟨by omega, by omega⟩
      · rw [← hcomplete]
        -- Somewhere the player stands where the commands that can be read move it.
        by_contra hcut
        obtain ⟨p, hp⟩ := placeAfter_moves hmoves
        obtain ⟨r, hr, _, hstay⟩ := h p
        refine hp ((?_ : _ = r.state).trans (hstay hcut))
        rw [moveHandler_eq hdrop] at hr
        split at hr
        · obtain ⟨out, _, hr⟩ := Exec.bind_eq_ok.1 hr
          cases hr
          rfl
        · cases hr
          rfl
    · rintro ⟨hfits, hmoves⟩ p
      have hstay : ¬Complete moveFields 9 18 packet → placeAfter count.toNat bs p = p := fun hcut =>
        placeAfter_quiet fun code hcode hmove => hcut (hcomplete.2 (hmoves ⟨code, hcode, hmove⟩))
      rw [moveHandler_eq hdrop]
      by_cases hall : (recordsRead moveFields count.toNat bs).length = count.toNat
      · obtain ⟨hsize, hmax⟩ := hfits hall
        obtain ⟨rs, rest, hforward, hlen, hwhole, hbs⟩ := exists_forward hall hsize
        have hout : movePlayerPacket id (1 + recordsSize moveFields (recordsRead moveFields count.toNat bs))
            (count :: bs) = .ok (bytesOf (movePlayerHead id) ++ count :: flat rs) := by
          refine movePlayerPacket_eq_ok.2 ⟨by omega, by rw [List.length_cons]; omega, ?_⟩
          rw [hforward]
        rw [if_pos hall, hout, Exec.ok_bind]
        refine ⟨_, rfl, fun _ => ⟨_, rs, rfl, count, rest, by rw [hdrop, hbs], hlen, hwhole, rfl, ?_⟩, hstay⟩
        have hcount := congrArg List.length hforward
        rw [List.length_take_of_le (by rw [List.length_cons]; omega)] at hcount
        rw [List.length_append, ← hcount]
        change 10 + _ ≤ _
        omega
      · -- The client is kicked, and has not moved.
        rw [if_neg hall]
        exact ⟨_, rfl, fun h => absurd h Bool.false_ne_true, hstay⟩

end Players

/-! ## Monsters -/

/-- A packet is handled; what is accepted is forwarded, a monster moves to a position of one of the commands, and what
    is not complete moves no monster, whichever the player controls and wherever they are. -/
def RelaysMonster (packet : List UInt8) : Prop :=
  ∀ controlled monsters, ∃ r, monsterMoveHandler controlled monsters packet = .ok r ∧
    (r.accepted = true → ∃ oid moveid activity skillId skillLevel option rest rs,
      readFields monsterMoveHead packet = some ([oid, moveid, activity, skillId, skillLevel, option], rest) ∧
      r.sent.length = (controlled oid).toNat ∧
      (∀ out ∈ r.sent, Forwards monsterFields 29 25 moveMonsterPacketMaxLength packet
        (bytesOf (moveMonsterHead oid activity skillId skillLevel option)) out rs) ∧
      ∀ oid, r.state oid = monsters oid ∨
        ∃ p, r.state oid = some p ∧ ∃ record ∈ rs, positionOf (numbers monsterFields record) = some p) ∧
    (¬Complete monsterFields 29 9 packet → r.state = monsters)

/-- A command has a position. -/
def MovesMonster (code : UInt8) : Prop := needs (monsterFields code) ≠ 0

/-- If all commands can be read, the packet is complete and not too long, and one of them has a position. -/
def MonsterFits (packet : List UInt8) : Prop :=
  match packet.drop 29 with
  | [] => True
  | count :: bs =>
    let codes := recordsRead monsterFields count.toNat bs
    codes.length = count.toNat → recordsSize monsterFields codes + 9 ≤ bs.length ∧
      18 + recordsSize monsterFields codes ≤ moveMonsterPacketMaxLength ∧ ∃ code ∈ codes, MovesMonster code

section Monsters

variable {controlled : ℤ → Bool} {monsters : ℤ → Option Position} {packet bs : List UInt8} {count : UInt8}
  {oid activity skillId skillLevel option : ℤ}

theorem moveMonsterPacket_eq_ok {len : ℕ} (hlen : len < 65536) {data out : List UInt8} :
    moveMonsterPacket oid activity skillId skillLevel option len data = .ok out ↔
      13 + len ≤ moveMonsterPacketMaxLength ∧ len ≤ data.length ∧
        out = bytesOf (moveMonsterHead oid activity skillId skillLevel option) ++ data.take len := by
  have hsize : (UInt16.ofNat len).toNat = len := Nat.mod_eq_of_lt hlen
  rw [moveMonsterPacket, packetOf_eq_ok]
  simp only [moveMonsterHead, List.forall_mem_append, List.forall_mem_cons, Write.sound_num, Write.sound_array,
    List.not_mem_nil, false_implies, implies_true, and_true, true_and, lengthOf_append, lengthOf_cons, lengthOf_nil,
    Write.size_num, Write.size_array, hsize, bytesOf_append, bytesOf_cons, bytesOf_nil, List.append_nil, Write.bytes,
    width_u8, width_u16, width_u32]
  exact ⟨fun h => ⟨by omega, h.1, h.2.2⟩, fun h => ⟨h.2.1, by omega, h.2.2⟩⟩

/-- The packet is read up to the count, or has none. -/
theorem readFields_monsterMoveHead (packet : List UInt8) : (packet.drop 29 = [] ∧
      ∀ vs count bs, readFields monsterMoveHead packet ≠ some (vs, count :: bs)) ∨
    ∃ oid moveid activity skillId skillLevel option count bs, packet.drop 29 = count :: bs ∧
      readFields monsterMoveHead packet =
        some ([oid, moveid, activity, skillId, skillLevel, option], count :: bs) := by
  cases hread : readFields monsterMoveHead packet with
  | none =>
    have hlt := readFields_eq_none.1 hread
    refine .inl ⟨List.drop_eq_nil_of_le (hlt.le.trans (by decide)), fun _ _ _ h => by cases h⟩
  | some r =>
    obtain ⟨vs, rest⟩ := r
    have hrest : rest = packet.drop 29 := readFields_rest hread
    have hlen : vs.length = 6 := length_readFields hread
    cases hdrop : packet.drop 29 with
    | nil =>
      refine .inl ⟨rfl, fun _ _ _ h => ?_⟩
      rw [hrest, hdrop] at h
      cases h
    | cons count bs =>
      rcases vs with _ | ⟨oid, _ | ⟨moveid, _ | ⟨activity, _ | ⟨skillId, _ | ⟨skillLevel, _ | ⟨option, _ | ⟨_, _⟩⟩⟩⟩⟩⟩⟩ <;>
        cases hlen
      exact .inr ⟨oid, moveid, activity, skillId, skillLevel, option, count, bs, rfl, by rw [hrest, hdrop]⟩

/-- A command that has a position has nothing else; others have nothing that is read. -/
theorem numbersIn_monsterFields (code : UInt8) :
    (MovesMonster code ∧ numbersIn (monsterFields code) = 4) ∨
      (¬MovesMonster code ∧ numbersIn (monsterFields code) = 0) := by
  rw [MovesMonster, monsterFields.eq_def]
  split <;> decide

/-- The last position that is read of the commands. -/
def positionAfter (n : ℕ) (bs : List UInt8) : Option Position := (parse monsterFields monsterCommand n bs (none, 5)).1.1

/-- Four numbers are a position. -/
theorem positionOf_isSome {vs : List ℤ} (h : vs.length = 4) : ∃ p, positionOf vs = some p := by
  rcases vs with _ | ⟨x, _ | ⟨y, _ | ⟨fh, _ | ⟨stance, _ | ⟨_, _⟩⟩⟩⟩⟩ <;> cases h
  exact ⟨_, rfl⟩

/-- If no command has a position, none is read. -/
theorem positionAfter_quiet {n : ℕ} (h : ∀ code ∈ recordsRead monsterFields n bs, ¬MovesMonster code) :
    positionAfter n bs = none := by
  refine @parse_invariant monsterFields _ monsterCommand n bs (none, 5) (fun s => s.1 = none) rfl ?_
  intro code hcode bs' rest vs s hread hs
  have hlen := length_readFields hread
  obtain ⟨hmoves, _⟩ | ⟨_, hnone⟩ := numbersIn_monsterFields code
  · exact absurd hmoves (h code hcode)
  · rw [hnone] at hlen
    rw [monsterCommand, List.eq_nil_of_length_eq_zero hlen]
    exact hs

/-- If a command has a position, one is read. -/
theorem positionAfter_moves {n : ℕ} (h : ∃ code ∈ recordsRead monsterFields n bs, MovesMonster code) :
    ∃ p, positionAfter n bs = some p := by
  have hsame : positionAfter n bs = (parse monsterFields monsterCommand n bs (some default, 5)).1.1 :=
    @parse_determined monsterFields _ monsterCommand n bs (none, 5) _ (fun s => s.1) (some default, 5) MovesMonster
      (fun code vs s s' hs => by
        rw [monsterCommand, monsterCommand]
        cases positionOf vs with
        | none => exact hs
        | some p => rfl)
      (fun code bs' vs rest s s' hmoves hread => by
        obtain ⟨_, hlen⟩ | ⟨hquiet, _⟩ := numbersIn_monsterFields code
        · obtain ⟨p, hp⟩ := positionOf_isSome ((length_readFields hread).trans hlen)
          rw [monsterCommand, monsterCommand, hp]
        · exact absurd hmoves hquiet) h
  rw [hsame]
  refine @parse_invariant monsterFields _ monsterCommand n bs (some default, 5) (fun s => ∃ p, s.1 = some p)
    ⟨default, rfl⟩ ?_
  intro code _ bs' rest vs s _ hs
  rw [monsterCommand]
  cases positionOf vs with
  | none => exact hs
  | some p => exact ⟨p, rfl⟩

/-- A position that is read is that of a command. -/
theorem positionAfter_flat {rs : List (UInt8 × List UInt8)} {rest : List UInt8} (h : Whole monsterFields rs)
    {p : Position} (hp : positionAfter rs.length (flat rs ++ rest) = some p) :
    ∃ record ∈ rs, positionOf (numbers monsterFields record) = some p := by
  rw [positionAfter, parse_flat h] at hp
  have hfold : ∀ (rs : List (UInt8 × List UInt8)) (s : Option Position × ℕ),
      (rs.foldl (fun s r => monsterCommand r.1 (numbers monsterFields r) s) s).1 = some p →
        s.1 = some p ∨ ∃ record ∈ rs, positionOf (numbers monsterFields record) = some p := by
    intro rs
    induction rs with
    | nil => exact fun s hs => .inl hs
    | cons record rs ih =>
      intro s hs
      obtain hfirst | ⟨later, hlater, hplace⟩ := ih _ hs
      · change (monsterCommand record.1 (numbers monsterFields record) s).1 = some p at hfirst
        rw [monsterCommand] at hfirst
        cases hplace : positionOf (numbers monsterFields record) with
        | none =>
          rw [hplace] at hfirst
          exact .inl hfirst
        | some q =>
          rw [hplace] at hfirst
          exact .inr ⟨record, List.mem_cons_self, hplace.trans hfirst⟩
      · exact .inr ⟨later, List.mem_cons_of_mem _ hlater, hplace⟩
  exact (hfold rs _ hp).resolve_left fun h => by cases h

/-- What comes of a packet that has a count. -/
theorem monsterMoveHandler_eq {moveid : ℤ} (h : readFields monsterMoveHead packet =
    some ([oid, moveid, activity, skillId, skillLevel, option], count :: bs)) :
    monsterMoveHandler controlled monsters packet =
      if (recordsRead monsterFields count.toNat bs).length = count.toNat then
        if controlled oid then do
          let out ← moveMonsterPacket oid activity skillId skillLevel option
            (5 + recordsSize monsterFields (recordsRead monsterFields count.toNat bs)) (packet.drop 25)
          return ⟨true, Function.update monsters oid (positionAfter count.toNat bs), [out]⟩
        else .ok ⟨true, monsters, []⟩
      else .ok ⟨false, monsters, []⟩ := by
  have hrest := @parse_rest monsterFields _ monsterCommand count.toNat bs (none, 5)
  have hlen := @parse_count monsterFields _ monsterCommand count.toNat bs (none, 5) Prod.snd fun code vs s => by
    rw [monsterCommand, monsterLen_eq]
    omega
  rw [monsterMoveHandler, h, positionAfter]
  simp only
  -- What is left, and what has been counted, follow from the commands that can be read.
  rcases hparse : parse monsterFields monsterCommand count.toNat bs (none, 5) with ⟨⟨p, len⟩, rest⟩
  rw [hparse] at hrest hlen
  simp only at hrest hlen ⊢
  by_cases hall : (recordsRead monsterFields count.toNat bs).length = count.toNat
  · rw [if_pos hall] at hrest ⊢
    rw [hrest, hlen]
    simp only [mapMoveMonster]
    cases controlled oid with
    | false => rfl
    | true => rfl
  · rw [if_neg hall] at hrest ⊢
    rw [hrest]

/-- A packet that has no count is not accepted. -/
theorem monsterMoveHandler_short (h : ∀ vs count bs, readFields monsterMoveHead packet ≠ some (vs, count :: bs)) :
    monsterMoveHandler controlled monsters packet = .ok ⟨false, monsters, []⟩ := by
  rw [monsterMoveHandler]
  split
  · rename_i hread
    exact absurd hread (h _ _ _)
  · rfl

/-- What is forwarded of a packet whose commands are there. -/
theorem forwards_monster {rs : List (UInt8 × List UInt8)} {rest : List UInt8} (hdrop : packet.drop 29 = count :: bs)
    (htake : (count :: bs).take (1 + recordsSize monsterFields (recordsRead monsterFields count.toNat bs)) =
      count :: flat rs)
    (hlen : rs.length = count.toNat) (hrs : Whole monsterFields rs) (hbs : bs = flat rs ++ rest)
    (hsize : recordsSize monsterFields (recordsRead monsterFields count.toNat bs) ≤ bs.length)
    (hmax : 18 + recordsSize monsterFields (recordsRead monsterFields count.toNat bs) ≤
      moveMonsterPacketMaxLength) : ∃ out,
    moveMonsterPacket oid activity skillId skillLevel option
        (5 + recordsSize monsterFields (recordsRead monsterFields count.toNat bs)) (packet.drop 25) = .ok out ∧
      Forwards monsterFields 29 25 moveMonsterPacketMaxLength packet
        (bytesOf (moveMonsterHead oid activity skillId skillLevel option)) out rs := by
  have hpacket : (packet.drop 25).length = 4 + (1 + bs.length) := by
    have hlength := congrArg List.length hdrop
    rw [List.length_drop, List.length_cons] at hlength
    rw [List.length_drop]
    omega
  -- The start position is before the count.
  have hdata : (packet.drop 25).take (5 + recordsSize monsterFields (recordsRead monsterFields count.toNat bs)) =
      (packet.drop 25).take 4 ++ count :: flat rs := by
    rw [show 5 + recordsSize monsterFields (recordsRead monsterFields count.toNat bs) =
      4 + (1 + recordsSize monsterFields (recordsRead monsterFields count.toNat bs)) by omega, List.take_add,
      List.drop_drop, hdrop, htake]
  have hmax' := hmax
  rw [moveMonsterPacketMaxLength] at hmax'
  refine ⟨bytesOf (moveMonsterHead oid activity skillId skillLevel option) ++
    ((packet.drop 25).take 4 ++ count :: flat rs), (moveMonsterPacket_eq_ok (by omega)).2
      ⟨by omega, by omega, by rw [hdata]⟩, count, rest, by rw [hdrop, hbs], hlen, hrs, rfl, ?_⟩
  have hlength := congrArg List.length hdata
  rw [List.length_take_of_le (by omega)] at hlength
  rw [List.length_append, ← hlength]
  change 13 + _ ≤ _
  omega

/-- A packet of a monster that is handled as it should be is safe. -/
theorem monsterFits_of_relays {moveid : ℤ} (hdrop : packet.drop 29 = count :: bs)
    (hread : readFields monsterMoveHead packet =
      some ([oid, moveid, activity, skillId, skillLevel, option], count :: bs)) (h : RelaysMonster packet)
    (hall : (recordsRead monsterFields count.toNat bs).length = count.toNat) :
    recordsSize monsterFields (recordsRead monsterFields count.toNat bs) + 9 ≤ bs.length ∧
      18 + recordsSize monsterFields (recordsRead monsterFields count.toNat bs) ≤ moveMonsterPacketMaxLength ∧
      ∃ code ∈ recordsRead monsterFields count.toNat bs, MovesMonster code := by
  have hcomplete := @complete_iff monsterFields 29 9 packet bs count hdrop
  have hsmall := @recordsSize_le monsterFields (fun code => by
    rw [monsterFields.eq_def]
    split <;> decide) (recordsRead monsterFields count.toNat bs)
  have hcount : count.toNat < 256 := count.toNat_lt
  -- A monster that has been somewhere else is moved.
  obtain ⟨q, hq⟩ : ∃ q : Position, positionAfter count.toNat bs ≠ some q := by
    by_contra hevery
    have hsome (q : Position) : positionAfter count.toNat bs = some q := not_not.1 fun hne => hevery ⟨q, hne⟩
    have hsame := (hsome ⟨0, 0, 0, 0⟩).symm.trans (hsome ⟨0, 0, 0, 1⟩)
    cases hsame
  obtain ⟨r, hr, hforward, hstay⟩ := h (fun _ => true) fun _ => some q
  rw [monsterMoveHandler_eq hread, if_pos hall, if_pos rfl] at hr
  obtain ⟨out, hout, hr⟩ := Exec.bind_eq_ok.1 hr
  cases hr
  obtain ⟨hmax, _, _⟩ := (moveMonsterPacket_eq_ok (by omega)).1 hout
  refine ⟨?_, by omega, ?_⟩
  · by_contra hcut
    have hstate := congrFun (hstay fun hc => hcut (hcomplete.1 hc).2) oid
    simp only [Function.update_self] at hstate
    exact hq hstate
  · by_contra hquiet
    have hnone := @positionAfter_quiet bs count.toNat fun code hcode hmoves => hquiet ⟨code, hcode, hmoves⟩
    obtain ⟨_, _, _, _, _, _, _, rs, _, _, _, hplaces⟩ := hforward rfl
    rcases hplaces oid with hsame | ⟨p, hp, _⟩
    · simp only [Function.update_self] at hsame
      exact hq hsame
    · simp only [Function.update_self, hnone] at hp
      cases hp

/-- A packet of a monster is handled as it should be exactly if it is safe. -/
theorem relaysMonster_iff (packet : List UInt8) : RelaysMonster packet ↔ MonsterFits packet := by
  rw [MonsterFits]
  obtain ⟨hdrop, hshort⟩ | ⟨oid, moveid, activity, skillId, skillLevel, option, count, bs, hdrop, hread⟩ :=
    readFields_monsterMoveHead packet
  · rw [hdrop]
    exact iff_of_true (fun _ monsters => ⟨_, monsterMoveHandler_short hshort, fun h => absurd h Bool.false_ne_true,
      fun _ => rfl⟩) trivial
  · rw [hdrop]
    refine ⟨fun h hall => monsterFits_of_relays hdrop hread h hall, fun hsafe controlled monsters => ?_⟩
    rw [monsterMoveHandler_eq hread]
    by_cases hall : (recordsRead monsterFields count.toNat bs).length = count.toNat
    · obtain ⟨hsize, hmax, hmoves⟩ := hsafe hall
      have hwhole : Complete monsterFields 29 9 packet := (complete_iff hdrop).2 ⟨hall, hsize⟩
      obtain ⟨rs, rest, htake, hlen, hrs, hbs⟩ := exists_forward hall (by omega)
      obtain ⟨p, hp⟩ := positionAfter_moves hmoves
      have hposition := @positionAfter_flat rs rest hrs p (by rw [hlen, ← hbs]; exact hp)
      rw [if_pos hall]
      -- Only who controls the monster moves it.
      cases hown : controlled oid with
      | true =>
        obtain ⟨out, hout, hforwards⟩ := @forwards_monster packet bs count oid activity skillId skillLevel option rs
          rest hdrop htake hlen hrs hbs (by omega) hmax
        rw [if_pos rfl, hout, Exec.ok_bind]
        refine ⟨_, rfl, fun _ => ⟨oid, moveid, activity, skillId, skillLevel, option, _, rs, hread, ?_, ?_, ?_⟩,
          fun hcut => absurd hwhole hcut⟩
        · rw [hown]
          rfl
        · intro out hmem
          cases List.mem_singleton.1 hmem
          exact hforwards
        · intro oid'
          by_cases hoid : oid' = oid
          · rw [hoid]
            exact .inr ⟨p, (Function.update_self ..).trans hp, hposition⟩
          · exact .inl (Function.update_of_ne hoid ..)
      | false =>
        rw [if_neg Bool.false_ne_true]
        refine ⟨_, rfl, fun _ => ⟨oid, moveid, activity, skillId, skillLevel, option, _, rs, hread, ?_,
          fun _ hmem => absurd hmem List.not_mem_nil, fun _ => .inl rfl⟩, fun _ => rfl⟩
        rw [hown]
        rfl
    · rw [if_neg hall]
      exact ⟨_, rfl, fun h => absurd h Bool.false_ne_true, fun _ => rfl⟩

end Monsters

/-- Movement of players and of monsters is relayed as it should be exactly for safe packets. -/
theorem relays_iff (id : UInt32) (packet : List UInt8) :
    (RelaysMove id packet ↔ MoveFits packet) ∧ (RelaysMonster packet ↔ MonsterFits packet) :=
  ⟨relaysMove_iff id packet, relaysMonster_iff packet⟩

/-- A packet of a player whose last command lacks a byte, and a packet of a monster without commands. -/
theorem relays_fails : ¬RelaysMove 1 (.replicate 9 0 ++ [1, 10]) ∧ ¬RelaysMonster (.replicate 39 0) := by
  refine ⟨fun h => ?_, fun h => ?_⟩
  · obtain ⟨hfits, _⟩ := (relaysMove_iff 1 (.replicate 9 0 ++ [1, 10])).1 h
    exact absurd (hfits rfl).1 (by decide)
  · obtain ⟨_, _, code, hcode, _⟩ := (relaysMonster_iff (.replicate 39 0)).1 h rfl
    exact absurd hcode List.not_mem_nil

end Syrup
