import Syrup.Lib.Framing
import Syrup.Online

/-!
# What is on the way

The bytes on the way are messages and tokens. What the login server has of the characters when it will have
read the messages on the way (`after`) is what the channel server takes it to have (`Agrees`): a token on
the way is waited for, and one that the channel server has is not.

What the channel server does, is to acknowledge tokens that come, to tell that a character has left, and to
forget (`Reports`). The login server can read what it is told (`Reports.agrees`).
-/

namespace Syrup

open Framing

/-! ## Bytes -/

theorem ofBytes32_bytes32 (n : UInt32) :
    ofBytes32 n.toUInt8 (n >>> 8).toUInt8 (n >>> 16).toUInt8 (n >>> 24).toUInt8 = n := by
  refine UInt32.toBitVec_inj.1 (BitVec.eq_of_getLsbD_eq fun i hi => ?_)
  simp only [ofBytes32, UInt8.toBitVec_toUInt32, UInt32.toBitVec_toUInt8, UInt32.toBitVec_shiftRight,
    UInt32.toBitVec_shiftLeft, UInt32.toBitVec_or, UInt32.toBitVec_ofNat, BitVec.reduceMod,
    BitVec.shiftLeft_eq', BitVec.ushiftRight_eq', BitVec.toNat_ofNat, BitVec.getLsbD_setWidth,
    BitVec.getLsbD_ushiftRight, BitVec.getLsbD_or, BitVec.getLsbD_shiftLeft, Nat.reducePow,
    Nat.reduceMod]
  interval_cases i <;> simp

/-- Messages are sent one after the other. -/
def messageCode : Code Unit UInt8 TokenMessage := ⟨fun _ m => m.bytes, fun _ _ => ()⟩

/-- So are tokens. -/
def tokenCode : Code Unit UInt8 UInt32 := ⟨fun _ token => bytes32 token, fun _ _ => ()⟩

theorem take_word (m : TokenMessage) (input : List UInt8) :
    TokenMessage.take (messageCode.word () m ++ input) = some (m, input) := by
  change some (TokenMessage.mk m.action _, input) = _
  rw [ofBytes32_bytes32]

theorem take_eq_none {input : List UInt8} (h : input.length < 5) : TokenMessage.take input = none := by
  match input, h with
  | [], _ => rfl
  | [_], _ => rfl
  | [_, _], _ => rfl
  | [_, _, _], _ => rfl
  | [_, _, _, _], _ => rfl

theorem messagesOf_words (ms : List TokenMessage) : messagesOf (messageCode.words () ms) = ms := by
  induction ms with
  | nil => rfl
  | cons m ms ih =>
    change TokenMessage.mk m.action _ :: messagesOf (messageCode.words () ms) = _
    rw [ofBytes32_bytes32, ih]

theorem tokensOf_words (tokens : List UInt32) : tokensOf (tokenCode.words () tokens) = tokens := by
  induction tokens with
  | nil => rfl
  | cons token tokens ih =>
    change ofBytes32 _ _ _ _ :: tokensOf (tokenCode.words () tokens) = _
    rw [ofBytes32_bytes32, ih]

/-! ## Agreement -/

/-- What the login server has of each character. -/
abbrev Roster := UInt32 → Option LoggedInCharacter

namespace TokenMessage

/-- What a message does. -/
def apply (m : TokenMessage) (roster : Roster) : Roster :=
  Function.update roster m.token
    (if m.action = 0 then (roster m.token).map fun chr => { chr with fd := none } else none)

/-- A token is acknowledged while it is waited for, and leaves when it is not. -/
def Fits (m : TokenMessage) (roster : Roster) : Prop :=
  (m.action = 0 ∧ ∃ chr fd, roster m.token = some chr ∧ chr.fd = some fd) ∨
    (m.action = 1 ∧ ∃ chr, roster m.token = some chr ∧ chr.fd = none)

end TokenMessage

/-- The messages can be read one after the other. -/
def Accepts : Roster → List TokenMessage → Prop
  | _, [] => True
  | roster, m :: ms => m.Fits roster ∧ Accepts (m.apply roster) ms

/-- When they have been read. -/
def after (roster : Roster) (ms : List TokenMessage) : Roster := ms.foldl (fun roster m => m.apply roster) roster

/-- A token is waited for while it is on the way to the channel server, and not when that has it. -/
structure Agrees (roster : Roster) (tokens known : List UInt32) : Prop where
  tokens_nodup : tokens.Nodup
  known_nodup : known.Nodup
  waiting : ∀ token ∈ tokens, ∃ chr fd, roster token = some chr ∧ chr.fd = some fd
  held : ∀ token ∈ known, ∃ chr, roster token = some chr ∧ chr.fd = none

/-- Every token that is waited for is on the way to the channel server. -/
def Answerable (roster : Roster) (tokens : List UInt32) : Prop :=
  ∀ token chr, roster token = some chr → chr.fd ≠ none → token ∈ tokens

/-- What the channel server does with the tokens that come and those that it has, and what it tells. -/
inductive Reports : List UInt32 → List UInt32 → List TokenMessage → List UInt32 → List UInt32 → Prop
  | nothing (tokens known : List UInt32) : Reports tokens known [] tokens known
  | acknowledge {token : UInt32} {tokens known known' : List UInt32} {ms : List TokenMessage}
      {tokens' known'' : List UInt32} : known'.Subperm (token :: known) → Reports tokens known' ms tokens' known'' →
      Reports (token :: tokens) known (.acknowledgement token :: ms) tokens' known''
  | leave {token : UInt32} {tokens known known' : List UInt32} {ms : List TokenMessage}
      {tokens' known'' : List UInt32} : (token :: known').Subperm known → Reports tokens known' ms tokens' known'' →
      Reports tokens known (.leave token :: ms) tokens' known''
  | forget {tokens known known' : List UInt32} {ms : List TokenMessage} {tokens' known'' : List UInt32} :
      known'.Subperm known → Reports tokens known' ms tokens' known'' → Reports tokens known ms tokens' known''

section Agreement

variable {roster : Roster} {tokens known : List UInt32} {ms ms' : List TokenMessage}

theorem accepts_append : Accepts roster (ms ++ ms') ↔ Accepts roster ms ∧ Accepts (after roster ms) ms' := by
  induction ms generalizing roster with
  | nil => exact ⟨fun h => ⟨trivial, h⟩, And.right⟩
  | cons m ms ih =>
    change m.Fits roster ∧ Accepts (m.apply roster) (ms ++ ms') ↔ (_ ∧ _) ∧ _
    rw [ih, and_assoc]
    rfl

theorem after_append : after roster (ms ++ ms') = after (after roster ms) ms' := List.foldl_append

/-- A message does not bring in characters. -/
theorem TokenMessage.apply_ne_none {m : TokenMessage} {token : UInt32} (h : m.apply roster token ≠ none) :
    roster token ≠ none := by
  rw [TokenMessage.apply] at h
  rcases eq_or_ne token m.token with rfl | hne
  · rw [Function.update_self] at h
    split at h
    · exact fun hnone => h (by rw [hnone]; rfl)
    · exact absurd rfl h
  · rwa [Function.update_of_ne hne] at h

theorem after_ne_none {token : UInt32} (h : after roster ms token ≠ none) : roster token ≠ none := by
  induction ms generalizing roster with
  | nil => exact h
  | cons m ms ih => exact TokenMessage.apply_ne_none (ih h)

/-- A character for whom there is no message is let in. -/
theorem Accepts.update {token : UInt32} (chr : LoggedInCharacter) (h : Accepts roster ms)
    (hnone : roster token = none) :
    Accepts (Function.update roster token (some chr)) ms ∧
      after (Function.update roster token (some chr)) ms =
        Function.update (after roster ms) token (some chr) := by
  induction ms generalizing roster with
  | nil => exact ⟨trivial, rfl⟩
  | cons m ms ih =>
    obtain ⟨hfits, hms⟩ := h
    have hne : m.token ≠ token := by
      rintro rfl
      rcases hfits with ⟨-, chr, fd, hchr, -⟩ | ⟨-, chr, hchr, -⟩ <;> cases hnone.symm.trans hchr
    have happly : m.apply (Function.update roster token (some chr)) =
        Function.update (m.apply roster) token (some chr) := by
      rw [TokenMessage.apply, TokenMessage.apply, Function.update_of_ne hne, Function.update_comm hne]
    have hfits' : m.Fits (Function.update roster token (some chr)) := by
      rwa [TokenMessage.Fits, Function.update_of_ne hne]
    have hnone' : m.apply roster token = none := by
      rw [TokenMessage.apply, Function.update_of_ne hne.symm]
      exact hnone
    obtain ⟨haccepts, hafter⟩ := ih hms hnone'
    refine ⟨⟨hfits', ?_⟩, ?_⟩
    · rwa [happly]
    · change after (m.apply _) ms = _
      rw [happly]
      exact hafter

/-- A token that is waited for is on the way, or its acknowledgement is. -/
theorem Accepts.acknowledged {token : UInt32} {chr : LoggedInCharacter} (h : Accepts roster ms)
    (hchr : roster token = some chr) (hfd : chr.fd ≠ none) :
    .acknowledgement token ∈ ms ∨ after roster ms token = some chr := by
  induction ms generalizing roster with
  | nil => exact .inr hchr
  | cons m ms ih =>
    obtain ⟨hfits, hms⟩ := h
    rcases eq_or_ne token m.token with rfl | hne
    · rcases hfits with ⟨haction, -⟩ | ⟨-, chr', hchr', hfd'⟩
      · refine .inl (List.mem_cons.2 (.inl ?_))
        rw [TokenMessage.acknowledgement, ← haction]
      · obtain rfl := Option.some.inj (hchr.symm.trans hchr')
        exact absurd hfd' hfd
    · refine (ih hms ?_).imp (List.mem_cons_of_mem _) id
      rw [TokenMessage.apply, Function.update_of_ne hne]
      exact hchr

theorem nodup_of_subperm {l l' : List UInt32} (h : l.Subperm l') (hnodup : l'.Nodup) : l.Nodup := by
  obtain ⟨l'', hperm, hsublist⟩ := h
  exact hperm.nodup_iff.1 (hsublist.nodup hnodup)

namespace Agrees

theorem mono (h : Agrees roster tokens known) {known' : List UInt32} (hknown : known'.Subperm known) :
    Agrees roster tokens known' :=
  ⟨h.tokens_nodup, nodup_of_subperm hknown h.known_nodup, h.waiting,
    fun token ht => h.held token (hknown.subset ht)⟩

/-- If what is on the way to the channel server is lost. -/
theorem lost (h : Agrees roster tokens known) : Agrees roster [] known :=
  ⟨List.nodup_nil, h.known_nodup, nofun, h.held⟩

/-- What is on the way to the channel server, it does not have. -/
theorem nodup (h : Agrees roster tokens known) : (tokens ++ known).Nodup := by
  refine List.nodup_append.2 ⟨h.tokens_nodup, h.known_nodup, ?_⟩
  rintro token ht _ hk rfl
  obtain ⟨chr, fd, hchr, hfd⟩ := h.waiting token ht
  obtain ⟨chr', hchr', hnone⟩ := h.held token hk
  obtain rfl := Option.some.inj (hchr.symm.trans hchr')
  cases hfd.symm.trans hnone

theorem ne_none (h : Agrees roster tokens known) {token : UInt32} (ht : token ∈ tokens ++ known) :
    roster token ≠ none := by
  rcases List.mem_append.1 ht with ht | ht
  · obtain ⟨chr, fd, hchr, -⟩ := h.waiting token ht
    rw [hchr]
    exact nofun
  · obtain ⟨chr, hchr, -⟩ := h.held token ht
    rw [hchr]
    exact nofun

/-- The first token that comes is acknowledged. -/
theorem acknowledge {token : UInt32} (h : Agrees roster (token :: tokens) known) :
    (TokenMessage.acknowledgement token).Fits roster ∧
      Agrees ((TokenMessage.acknowledgement token).apply roster) tokens (token :: known) := by
  obtain ⟨chr, fd, hchr, hfd⟩ := h.waiting token List.mem_cons_self
  have hnodup := h.nodup
  rw [List.cons_append, List.nodup_cons, List.mem_append, not_or] at hnodup
  obtain ⟨⟨ht, hk⟩, -⟩ := hnodup
  have hother {other : UInt32} (hne : other ≠ token) :
      (TokenMessage.acknowledgement token).apply roster other = roster other :=
    Function.update_of_ne hne ..
  refine ⟨.inl ⟨rfl, chr, fd, hchr, hfd⟩, (List.nodup_cons.1 h.tokens_nodup).2,
    List.nodup_cons.2 ⟨hk, h.known_nodup⟩, fun other hmem => ?_, fun other hmem => ?_⟩
  · rw [hother fun he => ht (he ▸ hmem)]
    exact h.waiting other (List.mem_cons_of_mem _ hmem)
  · rcases List.mem_cons.1 hmem with rfl | hmem
    · refine ⟨{ chr with fd := none }, ?_, rfl⟩
      refine (Function.update_self ..).trans ?_
      exact (if_pos rfl).trans (congrArg (Option.map _) hchr)
    · rw [hother fun he => hk (he ▸ hmem)]
      exact h.held other hmem

/-- A character leaves. -/
theorem leave {token : UInt32} (h : Agrees roster tokens (token :: known)) :
    (TokenMessage.leave token).Fits roster ∧
      Agrees ((TokenMessage.leave token).apply roster) tokens known := by
  obtain ⟨chr, hchr, hfd⟩ := h.held token List.mem_cons_self
  have hnodup := h.nodup
  have hother {other : UInt32} (hne : other ≠ token) :
      (TokenMessage.leave token).apply roster other = roster other :=
    Function.update_of_ne hne ..
  refine ⟨.inr ⟨rfl, chr, hchr, hfd⟩, h.tokens_nodup, (List.nodup_cons.1 h.known_nodup).2,
    fun other hmem => ?_, fun other hmem => ?_⟩
  · rw [hother]
    · exact h.waiting other hmem
    · rintro rfl
      exact (List.nodup_append.1 hnodup).2.2 other hmem other List.mem_cons_self rfl
  · rw [hother fun he => (List.nodup_cons.1 h.known_nodup).1 (he ▸ hmem)]
    exact h.held other (List.mem_cons_of_mem _ hmem)

end Agrees

theorem Answerable.acknowledge {token : UInt32} (h : Answerable roster (token :: tokens)) :
    Answerable ((TokenMessage.acknowledgement token).apply roster) tokens := by
  intro other chr hchr hfd
  change Function.update roster token ((roster token).map fun chr => { chr with fd := none }) other = _ at hchr
  rcases eq_or_ne other token with rfl | hne
  · rw [Function.update_self] at hchr
    obtain ⟨chr', -, rfl⟩ := Option.map_eq_some_iff.1 hchr
    exact absurd rfl hfd
  · rw [Function.update_of_ne hne] at hchr
    exact (List.mem_cons.1 (h other chr hchr hfd)).resolve_left hne

theorem Answerable.leave {token : UInt32} (h : Answerable roster tokens) :
    Answerable ((TokenMessage.leave token).apply roster) tokens := by
  intro other chr hchr hfd
  change Function.update roster token none other = _ at hchr
  rcases eq_or_ne other token with rfl | hne
  · rw [Function.update_self] at hchr
    cases hchr
  · rw [Function.update_of_ne hne] at hchr
    exact h other chr hchr hfd

namespace Reports

variable {tokens' known' : List UInt32}

/-- What the channel server tells can be read, and both agree when it has been. -/
theorem agrees (h : Reports tokens known ms tokens' known') {roster : Roster}
    (hagrees : Agrees roster tokens known) :
    Accepts roster ms ∧ Agrees (after roster ms) tokens' known' ∧
      (Answerable roster tokens → Answerable (after roster ms) tokens') := by
  induction h generalizing roster with
  | nothing => exact ⟨trivial, hagrees, id⟩
  | acknowledge hknown _ ih =>
    obtain ⟨hfits, hagrees'⟩ := hagrees.acknowledge
    obtain ⟨haccepts, hafter, hanswerable⟩ := ih (hagrees'.mono hknown)
    exact ⟨⟨hfits, haccepts⟩, hafter, fun h => hanswerable h.acknowledge⟩
  | leave hknown _ ih =>
    obtain ⟨hfits, hagrees'⟩ := (hagrees.mono hknown).leave
    obtain ⟨haccepts, hafter, hanswerable⟩ := ih hagrees'
    exact ⟨⟨hfits, haccepts⟩, hafter, fun h => hanswerable h.leave⟩
  | forget hknown _ ih => exact ih (hagrees.mono hknown)

/-- The channel server has, or is sent, no tokens but those that there were. -/
theorem subperm (h : Reports tokens known ms tokens' known') : (tokens' ++ known').Subperm (tokens ++ known) := by
  induction h with
  | nothing => exact .refl _
  | @acknowledge token tokens known known' _ _ _ hknown _ ih =>
    refine ih.trans (((List.subperm_append_left tokens).2 hknown).trans ?_)
    exact List.perm_middle.subperm
  | @leave token tokens known known' _ _ _ hknown _ ih =>
    refine ih.trans ((List.subperm_append_left tokens).2 ?_)
    exact (List.sublist_cons_self token known').subperm.trans hknown
  | @forget tokens _ _ _ _ _ hknown _ ih =>
    exact ih.trans ((List.subperm_append_left tokens).2 hknown)

end Reports

end Agreement

end Syrup
