import Syrup.Client.Scripts

/-!
# Scripts are resumed for what they wait for

As long as nobody interferes (`Unmixed`), a script is resumed by what it waits for, and who only
answers dialogues and completes transfers is not banned (`scripts_run`). A dialogue packet that is sent
while the script waits for a warp resumes it before the player has joined the map
(`scripts_fail`). In every run there is at most one script of a client, and all are freed once.
-/

namespace Syrup

open ScriptClient

variable {σ : Type}

/-- What has happened is what the script has waited for. -/
def ScriptWait.Met : Option ScriptWait → Cause → Prop
  | some (.dialogue d), .packet prev action selection => d.Answered prev action selection
  | some (.warp map), .joined map' => map' = map
  | _, _ => False

/-- What is said of the scripts of a client. -/
structure ScriptsRight (s : ScriptClient σ) : Prop where
  /-- A script is resumed for what it waits for. -/
  resumed : ∀ wait cause, .resumed wait cause ∈ s.log → ScriptWait.Met wait cause
  /-- Who has been honest has not been banned. -/
  banned : s.honest = true → ∀ cause, .banned cause ∉ s.log
  /-- All instances but the one of the client have been freed, once; and that one has, too, when the
      client has logged out. -/
  freed : ∀ k < s.allocs,
    s.frees k = if s.online = true ∧ s.script.map Prod.fst = some k then 0 else 1

/-- A step that does not interfere. No script is launched before the player has joined the map. While
    a warp is awaited, a dialogue packet only ends the chat; and if a number is to be chosen, `1` is
    within the bounds if and only if the number is. When the player has joined a map, it is the one
    to which the script has warped it, and the script shows no dialogue that could be answered with
    `0`; and there is memory for the player. -/
def Unmixed : ScriptAction σ → ScriptClient σ → Prop
  | .launch _ _ _, s => s.joined = true
  | .dialogue _ action selection, s => s.script ≠ none →
    (s.scriptState = .warp → action = 255) ∧
      (s.scriptState.isEmptyDialogue = true → action = 1 →
        (s.min ≤ 1 ∧ 1 ≤ s.max ↔ s.min ≤ selection ∧ selection ≤ s.max))
  | .mapTransferComplete .joined _, s => s.script ≠ none →
    (s.scriptState = .warp → s.waits = some (.warp s.room)) ∧
      s.scriptState ≠ .prevNext ∧ s.scriptState ≠ .prev
  | .mapTransferComplete .noMemory _, _ => False
  | _, _ => True

instance : (a : ScriptAction σ) → (s : ScriptClient σ) → Decidable (Unmixed a s)
  | .launch _ _ _, s => inferInstanceAs (Decidable (s.joined = true))
  | .dialogue _ action selection, s => inferInstanceAs (Decidable (s.script ≠ none →
      (s.scriptState = .warp → action = 255) ∧
        (s.scriptState.isEmptyDialogue = true → action = 1 →
          (s.min ≤ 1 ∧ 1 ≤ s.max ↔ s.min ≤ selection ∧ selection ≤ s.max))))
  | .mapTransferComplete .joined _, s => inferInstanceAs (Decidable (s.script ≠ none →
      (s.scriptState = .warp → s.waits = some (.warp s.room)) ∧
        s.scriptState ≠ .prevNext ∧ s.scriptState ≠ .prev))
  | .mapTransferComplete .noMemory _, _ => .isFalse id
  | .mapTransferComplete (.redirected _) _, _ | .warp _, _ | .eventWarp _ _, _ | .arrive, _
  | .logout, _ => .isTrue trivial

/-! ## Dialogues -/

theorem Dialogue.accepts_iff (d : Dialogue) {prev : UInt8} :
    d.state.accepts prev = true ↔ prev = d.type := by
  unfold ScriptState.accepts
  cases d <;> split <;> simp_all [Dialogue.state, Dialogue.type]

namespace Dialogue

variable (d : Dialogue) {prev action : UInt8} {selection : UInt32} {b : UInt32 × UInt32}

theorem isEmpty_of_bounds (hb : b ∈ d.bounds) : d.state.isEmptyDialogue = true := by
  cases d <;> first | rfl | cases hb

theorem bounds_of_isEmpty (h : d.state.isEmptyDialogue = true) : ∃ b, b ∈ d.bounds := by
  cases d <;> first | exact ⟨_, rfl⟩ | cases h

/-- What is accepted, and not the end of the chat, is an answer if the number is within the bounds. -/
theorem answered_of_accepted (hprev : d.state.accepts prev = true)
    (hallows : d.state.allows action = true)
    (hbounds : ∀ b ∈ d.bounds, action = 1 ∧ b.1 ≤ selection ∧ selection ≤ b.2) :
    d.Answered prev action selection := by
  refine ⟨d.accepts_iff.1 hprev, ?_⟩
  cases d with
  | ok | next => exact .inl (of_decide_eq_true hallows)
  | yesNo | prevNext | prev | acceptDecline =>
    rcases Bool.or_eq_true_iff.1 hallows with h | h
    · exact .inl (of_decide_eq_true h)
    · exact .inr (.inl (of_decide_eq_true h))
  | simple selectionCount => exact .inr (hbounds _ rfl)
  | getNumber min max => exact .inr (hbounds _ rfl)

theorem chosen_of_answered (h : d.Answered prev action selection)
    (hend : d.state.ends action ≠ true) (hb : b ∈ d.bounds) :
    action = 1 ∧ b.1 ≤ selection ∧ selection ≤ b.2 := by
  obtain ⟨-, h⟩ := h
  cases d with
  | simple selectionCount | getNumber min max =>
    cases hb
    exact h.resolve_left fun h0 => hend (decide_eq_true h0)
  | ok | next | yesNo | prevNext | prev | acceptDecline => cases hb

theorem allows_of_answered (h : d.Answered prev action selection)
    (hend : d.state.ends action ≠ true) : d.state.allows action = true := by
  obtain ⟨-, h⟩ := h
  cases d with
  | simple selectionCount | getNumber min max => rfl
  | ok | next => exact decide_eq_true (h.resolve_right fun h => hend (decide_eq_true h))
  | yesNo | prevNext | prev | acceptDecline =>
    rcases h with h | h | h
    · exact Bool.or_eq_true_iff.2 (.inl (decide_eq_true h))
    · exact Bool.or_eq_true_iff.2 (.inr (decide_eq_true h))
    · exact absurd (decide_eq_true h) hend

end Dialogue

/-! ## The invariant -/

/-- The instances have been freed, up to the one of the client. -/
structure ScriptsCounted (s : ScriptClient σ) : Prop where
  resumed : ∀ wait cause, .resumed wait cause ∈ s.log → ScriptWait.Met wait cause
  banned : s.honest = true → ∀ cause, .banned cause ∉ s.log
  freed : ∀ k < s.allocs, s.frees k = if s.script.map Prod.fst = some k then 0 else 1
  fresh : ∀ k, s.allocs ≤ k → s.frees k = 0
  index : ∀ k script, s.script = some (k, script) → k < s.allocs
  offline : s.online = false → s.script = none

/-- Besides, the state of a client that has a script is the one in which its dialogue or a warp has put
    it. -/
structure ScriptsKept (s : ScriptClient σ) : Prop extends ScriptsCounted s where
  state : s.script ≠ none → s.scriptState = .warp ∨ ∃ d, s.waits = some (.dialogue d) ∧
    s.scriptState = d.state ∧ s.joined = true ∧ ∀ b ∈ d.bounds, s.min = b.1 ∧ s.max = b.2

variable {s : ScriptClient σ}

@[simp] theorem closeScript_script : s.closeScript.script = none := by
  rw [ScriptClient.closeScript]
  split
  · assumption
  · rfl

@[simp] theorem closeScript_honest : s.closeScript.honest = s.honest := by
  rw [ScriptClient.closeScript]
  split <;> rfl

@[simp] theorem closeScript_joined : s.closeScript.joined = s.joined := by
  rw [ScriptClient.closeScript]
  split <;> rfl

@[simp] theorem closeScript_online : s.closeScript.online = s.online := by
  rw [ScriptClient.closeScript]
  split <;> rfl

/-- A script whose run succeeds is gone. -/
theorem ran_success {k : ℕ} {o : ScriptOutcome σ} (h : (s.ran k o).2 = .success) :
    (s.ran k o).1 = s.closeScript := by
  cases o with
  | finished => rfl
  | failed | dialogue _ _ | warp _ _ => cases h

/-- A call of `client_script_cont` that succeeds leaves no script. -/
theorem scriptCont_success {resume : σ → ℤ → ScriptOutcome σ} {cause : Cause} {prev action : UInt8}
    {selection : UInt32} (h : (s.scriptCont resume cause prev action selection).2 = .success) :
    (s.scriptCont resume cause prev action selection).1.script = none ∧
      (s.scriptCont resume cause prev action selection).1.joined = s.joined ∧
      (s.scriptCont resume cause prev action selection).1.online = s.online := by
  rw [ScriptClient.scriptCont] at h ⊢
  split at h
  · exact ⟨by assumption, rfl, rfl⟩
  · split_ifs at h ⊢
    · exact ⟨closeScript_script, closeScript_joined, closeScript_online⟩
    · rw [ran_success h]
      exact ⟨closeScript_script, closeScript_joined, closeScript_online⟩

namespace ScriptsCounted

theorem right (h : ScriptsCounted s) : ScriptsRight s where
  resumed := h.resumed
  banned := h.banned
  freed k hk := by
    rw [h.freed k hk]
    refine if_congr ⟨fun e => ⟨Bool.eq_true_of_not_eq_false fun hoff => ?_, e⟩, And.right⟩ rfl rfl
    rw [h.offline hoff] at e
    cases e

/-- An event is noted. -/
theorem record (h : ScriptsCounted s) {e : ScriptEvent}
    (hresumed : ∀ wait cause, e = .resumed wait cause → ScriptWait.Met wait cause)
    (hbanned : s.honest = true → ∀ cause, e ≠ .banned cause) : ScriptsCounted (s.record e) := by
  refine { h with resumed := fun wait cause he => ?_, banned := fun hhonest cause he => ?_ }
  · rcases List.mem_append.1 he with he | he
    · exact h.resumed wait cause he
    · exact hresumed wait cause (List.mem_singleton.1 he).symm
  · rcases List.mem_append.1 he with he | he
    · exact h.banned hhonest cause he
    · exact hbanned hhonest cause (List.mem_singleton.1 he).symm

theorem closeScript (h : ScriptsCounted s) : ScriptsCounted s.closeScript := by
  rw [ScriptClient.closeScript]
  split
  · exact h
  · rename_i k script hscript
    have hk := h.index k script hscript
    refine ⟨h.resumed, h.banned, fun k' hk' => ?_, fun k' hk' => ?_, nofun, fun _ => rfl⟩
    · have hfreed := h.freed k' hk'
      rw [hscript] at hfreed
      rcases eq_or_ne k' k with rfl | hne
      · simp_all
      · simp_all [hne.symm]
    · change Function.update s.frees k _ k' = 0
      rw [Function.update_of_ne (by change s.allocs ≤ k' at hk'; omega)]
      exact h.fresh k' hk'

/-- A script has been run, by a player who has joined the map. -/
theorem ran {k : ℕ} {script : σ} (h : ScriptsCounted s) (hscript : s.script = some (k, script))
    (hjoined : s.joined = true) (honline : s.online = true) (o : ScriptOutcome σ) :
    ScriptsKept (s.ran k o).1 := by
  have hfreed (k' : ℕ) (hk' : k' < s.allocs) : s.frees k' = if some k = some k' then 0 else 1 := by
    rw [h.freed k' hk', hscript]
    rfl
  have hindex (k' : ℕ) (script₁ script' : σ) (e : some (k, script₁) = some (k', script')) :
      k' < s.allocs := by
    cases e
    exact h.index k script hscript
  have hoff {P : Prop} (hoff : s.online = false) : P := nomatch honline.symm.trans hoff
  cases o with
  | finished => exact ⟨h.closeScript, fun hne => absurd closeScript_script hne⟩
  | failed => exact ⟨h.closeScript, fun hne => absurd closeScript_script hne⟩
  | dialogue d script' =>
    rw [ScriptClient.ran, ScriptClient.send]
    cases hbounds : d.bounds with
    | none =>
      refine ⟨⟨h.resumed, h.banned, hfreed, h.fresh, fun k' _ => hindex k' _ _, hoff⟩, fun _ => ?_⟩
      exact .inr ⟨d, rfl, rfl, hjoined, fun b hb => nomatch hbounds.symm.trans hb⟩
    | some bounds =>
      refine ⟨⟨h.resumed, h.banned, hfreed, h.fresh, fun k' _ => hindex k' _ _, hoff⟩, fun _ => ?_⟩
      refine .inr ⟨d, rfl, rfl, hjoined, fun b hb => ?_⟩
      obtain rfl := Option.some.inj (hbounds.symm.trans hb)
      exact ⟨rfl, rfl⟩
  | warp map script' =>
    exact ⟨⟨h.resumed, h.banned, hfreed, h.fresh, fun k' _ => hindex k' _ _, hoff⟩,
      fun _ => .inl rfl⟩

/-- A script is launched by a player who has joined the map and has none. -/
theorem launch (h : ScriptsCounted s) (hscript : s.script = none) (hjoined : s.joined = true)
    (honline : s.online = true) (resume : σ → ℤ → ScriptOutcome σ) (script : σ) :
    ScriptsKept (s.launch resume script).1 := by
  refine ran (s := { s with script := some (s.allocs, script), allocs := s.allocs + 1 })
    ⟨h.resumed, h.banned, fun k hk => ?_, fun k hk => ?_, ?_, ?_⟩ rfl hjoined honline _
  · change s.frees k = if some s.allocs = some k then 0 else 1
    rcases eq_or_ne k s.allocs with rfl | hne
    · rw [if_pos rfl, h.fresh _ le_rfl]
    · have hlt : k < s.allocs := by
        change k < s.allocs + 1 at hk
        omega
      rw [h.freed k hlt, hscript, if_neg fun e => hne (Option.some.inj e).symm]
      rfl
  · exact h.fresh k (by change s.allocs + 1 ≤ k at hk; omega)
  · rintro _ _ ⟨⟩
    exact Nat.lt_succ_self _
  · exact fun hoff => nomatch honline.symm.trans hoff

end ScriptsCounted

namespace ScriptsKept

variable {resume : σ → ℤ → ScriptOutcome σ}

theorem start (state : ScriptState) (min max map : UInt32) :
    ScriptsKept (start state min max map : ScriptClient σ) :=
  ⟨⟨nofun, fun _ _ => nofun, nofun, fun _ _ => rfl, nofun, nofun⟩, fun h => absurd rfl h⟩

theorem warp (h : ScriptsKept s) (map : UInt32) : ScriptsKept (s.warp map) :=
  { h with state := fun _ => .inl rfl }

theorem closeScript (h : ScriptsKept s) : ScriptsKept s.closeScript :=
  ⟨h.toScriptsCounted.closeScript, fun hne => absurd closeScript_script hne⟩

/-- `client_script_cont`, for a cause that is what the script waits for if the script is resumed, and
    that does not lead to a ban if the player is honest. -/
theorem scriptCont {cause : Cause} {prev action : UInt8} {selection : UInt32} (h : ScriptsKept s)
    (honline : s.online = true) (hjoined : s.script ≠ none →
      s.scriptState.ends action ≠ true → s.joined = true)
    (hmet : s.script ≠ none → (s.scriptState = .warp ∨ s.scriptState.accepts prev = true) →
      s.scriptState.ends action ≠ true →
      (s.scriptState.isEmptyDialogue = true →
        action = 1 ∧ s.min ≤ action.toUInt32 ∧ action.toUInt32 ≤ s.max) →
      s.scriptState.allows action = true → ScriptWait.Met s.waits cause)
    (hban : s.honest = true → s.script ≠ none →
      (s.scriptState = .warp ∨ s.scriptState.accepts prev = true) ∧
      (s.scriptState.ends action ≠ true →
        (s.scriptState.isEmptyDialogue = true →
          action = 1 ∧ s.min ≤ action.toUInt32 ∧ action.toUInt32 ≤ s.max) ∧
        s.scriptState.allows action = true)) :
    ScriptsKept (s.scriptCont resume cause prev action selection).1 := by
  rw [ScriptClient.scriptCont]
  split
  · exact h
  · rename_i k script hscript
    have hsome : s.script ≠ none := hscript ▸ Option.some_ne_none _
    have hdishonest (hno : s.honest = true → False) {s' : ScriptClient σ}
        (h' : ScriptsKept s') (e : s'.honest = s.honest) :
        ScriptsKept (s'.record (.banned cause)) :=
      ⟨h'.toScriptsCounted.record nofun fun hhonest => (hno (e ▸ hhonest)).elim, h'.state⟩
    split
    · rename_i hprev
      refine hdishonest (fun hhonest => ?_) h rfl
      rcases (hban hhonest hsome).1 with hwarp | haccepts
      · exact hprev.1 hwarp
      · cases haccepts.symm.trans hprev.2
    rename_i hprev
    have hprev : s.scriptState = .warp ∨ s.scriptState.accepts prev = true := by
      rcases eq_or_ne s.scriptState .warp with hwarp | hne
      · exact .inl hwarp
      · exact .inr (Bool.eq_true_of_not_eq_false fun hfalse => hprev ⟨hne, hfalse⟩)
    split
    · exact h.closeScript
    rename_i hend
    split
    · rename_i hempty
      refine hdishonest (fun hhonest => ?_) h.closeScript closeScript_honest
      exact hempty.2 (((hban hhonest hsome).2 hend).1 hempty.1).1
    rename_i hempty
    split
    · rename_i hallows
      refine hdishonest (fun hhonest => ?_) h.closeScript closeScript_honest
      cases ((hban hhonest hsome).2 hend).2.symm.trans hallows
    rename_i hallows
    split
    · rename_i hrange
      refine hdishonest (fun hhonest => ?_) h.closeScript closeScript_honest
      obtain ⟨-, hmin, hmax⟩ := ((hban hhonest hsome).2 hend).1 hrange.1
      rcases hrange.2 with hlt | hlt
      · exact absurd hmin (UInt32.not_le.2 hlt)
      · exact absurd hmax (UInt32.not_le.2 hlt)
    rename_i hrange
    have hin (he : s.scriptState.isEmptyDialogue = true) :
        action = 1 ∧ s.min ≤ action.toUInt32 ∧ action.toUInt32 ≤ s.max := by
      refine ⟨by_contra fun hne => hempty ⟨he, hne⟩, ?_, ?_⟩
      · exact UInt32.not_lt.1 fun hlt => hrange ⟨he, .inl hlt⟩
      · exact UInt32.not_lt.1 fun hlt => hrange ⟨he, .inr hlt⟩
    have hmet := hmet hsome hprev hend hin (Bool.eq_true_of_not_eq_false hallows)
    have hrecord : ScriptsCounted (s.record (.resumed s.waits cause)) := by
      refine h.toScriptsCounted.record ?_ fun _ _ => nofun
      rintro _ _ ⟨⟩
      exact hmet
    exact hrecord.ran hscript (hjoined hsome hend) honline _

/-- A dialogue packet. -/
theorem answer {prev action : UInt8} {selection : UInt32} (h : ScriptsKept s)
    (honline : s.online = true) (ha : Unmixed (.dialogue prev action selection : ScriptAction σ) s) :
    ScriptsKept (ScriptAction.answer resume prev action selection s) := by
  rw [ScriptAction.answer]
  have h₁ : ScriptsKept { s with honest := s.honest && ScriptAction.offered s prev action selection } :=
    { h with banned := fun hhonest => h.banned (Bool.and_eq_true_iff.1 hhonest).1 }
  have hends (hne : s.script ≠ none) (hend : s.scriptState.ends action ≠ true) :
      s.scriptState ≠ .warp := by
    intro hwarp
    rw [hwarp, (ha hne).1 hwarp] at hend
    exact hend rfl
  refine h₁.scriptCont honline (fun hne hend => ?_) (fun hne hprev hend hin hallows => ?_)
    fun hhonest hne => ?_
  · obtain ⟨d, -, -, hjoined, -⟩ := (h.state hne).resolve_left (hends hne hend)
    exact hjoined
  · obtain ⟨d, hwaits, hstate, -, hbounds⟩ := (h.state hne).resolve_left (hends hne hend)
    change ScriptWait.Met s.waits _
    rw [hwaits]
    refine d.answered_of_accepted ?_ ?_ ?_
    · rw [← hstate]
      exact hprev.resolve_left (hends hne hend)
    · rwa [← hstate]
    · rintro b hb
      obtain ⟨hmin, hmax⟩ := hbounds b hb
      have hempty : s.scriptState.isEmptyDialogue = true := hstate ▸ d.isEmpty_of_bounds hb
      obtain ⟨rfl, hlo, hhi⟩ := hin hempty
      have hchosen := ((ha hne).2 hempty rfl).1 ⟨hlo, hhi⟩
      exact ⟨rfl, hmin ▸ hchosen.1, hmax ▸ hchosen.2⟩
  · obtain ⟨k, hk⟩ := Option.ne_none_iff_exists'.1 hne
    have hoffered := (Bool.and_eq_true_iff.1 hhonest).2
    have hanswered (d : Dialogue) (hwaits : s.waits = some (.dialogue d)) :
        d.Answered prev action selection := by
      change s.script = some k at hk
      rw [ScriptAction.offered, hk, hwaits] at hoffered
      exact of_decide_eq_true hoffered
    refine ⟨?_, fun hend => ?_⟩
    · rcases h.state hne with hwarp | ⟨d, hwaits, hstate, -, -⟩
      · exact .inl hwarp
      · refine .inr ?_
        change s.scriptState.accepts prev = true
        rw [hstate]
        exact d.accepts_iff.2 (hanswered d hwaits).1
    · obtain ⟨d, hwaits, hstate, -, hbounds⟩ := (h.state hne).resolve_left (hends hne hend)
      change (s.scriptState.isEmptyDialogue = true → action = 1 ∧ s.min ≤ action.toUInt32 ∧
        action.toUInt32 ≤ s.max) ∧ s.scriptState.allows action = true
      change s.scriptState.ends action ≠ true at hend
      rw [hstate] at hend
      refine ⟨fun hempty => ?_, ?_⟩
      · obtain ⟨b, hb⟩ := d.bounds_of_isEmpty (hstate ▸ hempty)
        obtain ⟨hmin, hmax⟩ := hbounds b hb
        obtain ⟨rfl, hlo, hhi⟩ := d.chosen_of_answered (hanswered d hwaits) hend hb
        exact ⟨rfl, ((ha hne).2 hempty rfl).2 ⟨hmin ▸ hlo, hmax ▸ hhi⟩⟩
      · rw [hstate]
        exact d.allows_of_answered (hanswered d hwaits) hend

/-- A player has joined the map to which the script has warped it. -/
theorem joins {enter : Option σ} (h : ScriptsKept s) (resume : σ → ℤ → ScriptOutcome σ)
    (honline : s.online = true)
    (ha : Unmixed (.mapTransferComplete .joined enter) s) :
    ScriptsKept ({ s with honest := s.honest && !s.joined, joined := true }.scriptCont resume
      (.joined s.room) 0 0 0).1 := by
  have h₁ : ScriptsKept { s with honest := s.honest && !s.joined, joined := true } :=
    { h with
      banned := fun hhonest => h.banned (Bool.and_eq_true_iff.1 hhonest).1
      state := fun hne => (h.state hne).imp_right fun ⟨d, hwaits, hstate, _, hbounds⟩ =>
        ⟨d, hwaits, hstate, rfl, hbounds⟩ }
  refine h₁.scriptCont honline (fun _ _ => rfl) (fun hne hprev hend _ hallows => ?_)
    fun hhonest hne => ?_
  · obtain ⟨hwarp, hprevNext, hprev'⟩ := ha hne
    change ScriptWait.Met s.waits _
    rcases hprev with hstate | hprev
    · rw [hwarp hstate]
      exact rfl
    · change s.scriptState.accepts 0 = true at hprev
      change s.scriptState.allows 0 = true at hallows
      cases hstate : s.scriptState <;> simp_all [ScriptState.accepts, ScriptState.allows]
  · have hjoined := (Bool.and_eq_true_iff.1 hhonest).2
    have hwarp : s.scriptState = .warp := (h.state hne).resolve_right fun ⟨d, _, _, hj, _⟩ => by
      rw [hj] at hjoined
      cases hjoined
    refine ⟨.inl hwarp, fun _ => ⟨fun hempty => ?_, ?_⟩⟩
    · change s.scriptState.isEmptyDialogue = true at hempty
      rw [hwarp] at hempty
      cases hempty
    · change s.scriptState.allows 0 = true
      rw [hwarp]
      rfl

theorem transferComplete {join : MapJoin} {enter : Option σ} (h : ScriptsKept s)
    (honline : s.online = true) (ha : Unmixed (.mapTransferComplete join enter) s) :
    ScriptsKept (ScriptAction.transferComplete resume join enter s) := by
  cases join with
  | noMemory => exact ha.elim
  | redirected map =>
    have h₁ : ScriptsKept { s with honest := s.honest && !s.joined } :=
      { h with banned := fun hhonest => h.banned (Bool.and_eq_true_iff.1 hhonest).1 }
    exact h₁.warp map
  | joined =>
    have h₁ := h.joins resume honline ha
    rw [ScriptAction.transferComplete]
    dsimp only
    split
    · rename_i script hres
      obtain ⟨hscript, hjoined, honline'⟩ := scriptCont_success hres
      exact (h₁.toScriptsCounted.launch hscript hjoined (honline'.trans honline) resume script)
    · exact h₁

theorem run {a : ScriptAction σ} {s' : ScriptClient σ} (h : ScriptsKept s) (honline : s.online = true)
    (ha : Unmixed a s) (hcall : a.run resume s = .ok s') : ScriptsKept s' := by
  cases a with
  | launch byNpc alloc script =>
    rw [ScriptAction.run] at hcall
    split at hcall
    · cases hcall
      exact h
    · rename_i hnone
      split at hcall
      · cases hcall
        refine h.toScriptsCounted.launch ?_ ha honline resume script
        exact Option.not_isSome_iff_eq_none.1 fun hsome => hnone (.inr hsome)
      · split at hcall
        · cases hcall
          exact h
        · cases hcall
  | dialogue prev action selection =>
    cases hcall
    split
    · exact h
    · exact h.answer honline ha
  | mapTransferComplete join enter =>
    cases hcall
    split
    · exact h
    · exact h.transferComplete honline ha
  | warp map =>
    cases hcall
    split
    · exact h
    · exact h.warp map
  | eventWarp close map =>
    cases hcall
    split
    · split
      · exact h.closeScript.warp map
      · exact h.warp map
    · exact h
  | arrive =>
    rw [ScriptAction.run] at hcall
    split at hcall
    · cases hcall
      exact h
    · cases hcall
      exact { h with }
  | logout =>
    cases hcall
    exact { h.closeScript with offline := fun _ => closeScript_script }

end ScriptsKept

end Syrup

/-!
## The answers that resume a script

In a dialogue with a selection or a number, what the player has chosen is the `selection` of the packet,
and `action` only says that something has been chosen. `client_script_cont` compares the bounds of the
dialogue with `action`, though: what resumes the script is any selection at all, if `1` is within the
bounds, and none otherwise (`resumed_iff`).
-/

namespace Syrup

namespace ScriptClient

variable {σ : Type} (resume : σ → ℤ → ScriptOutcome σ) (s : ScriptClient σ) (prev action : UInt8)
  (selection : UInt32)

/-- A dialogue packet resumes the script. -/
def Resumed : Prop :=
  (s.scriptCont resume (.packet prev action selection) prev action selection).1.log =
    s.log ++ [.resumed s.waits (.packet prev action selection)]

/-- The selection is one that the dialogue has offered. -/
def Offered : Prop := s.min ≤ selection ∧ selection ≤ s.max

instance : Decidable (s.Offered selection) := inferInstanceAs (Decidable (_ ∧ _))

/-- A script that waits for a selection or a number is resumed with one that has been offered, and with
    any of these, when it is sent as it should be. -/
def AnswersRight : Prop :=
  s.script.isSome = true → s.scriptState.isEmptyDialogue = true →
    (s.Resumed resume prev action selection → s.Offered selection) ∧
    (s.scriptState.accepts prev = true → action = 1 → s.Offered selection →
      s.Resumed resume prev action selection)

@[simp] theorem closeScript_log : s.closeScript.log = s.log := by
  unfold closeScript
  split <;> rfl

@[simp] theorem send_log (d : Dialogue) : (s.send d).log = s.log := by
  unfold send
  split <;> rfl

theorem ran_log (k : ℕ) (o : ScriptOutcome σ) : (s.ran k o).1.log = s.log := by
  cases o with
  | finished | failed => exact s.closeScript_log
  | dialogue d script => exact s.send_log d
  | warp map script => rfl

/-- Where somebody is banned, the script is not resumed. -/
theorem not_resumed_of_banned {s' : ScriptClient σ} {cause : Cause}
    (hlog : s'.log = s.log) :
    (s'.record (.banned cause)).log ≠ s.log ++ [.resumed s.waits cause] := by
  rw [record, hlog]
  simp

variable {s} {prev action} {selection}

/-- In a dialogue with a selection or a number, it is `action` that has to be within the bounds. -/
theorem resumed_iff (hscript : s.script.isSome = true)
    (hempty : s.scriptState.isEmptyDialogue = true) :
    s.Resumed resume prev action selection ↔
      s.scriptState.accepts prev = true ∧ action = 1 ∧ s.min ≤ 1 ∧ 1 ≤ s.max := by
  obtain ⟨⟨k, script⟩, hs⟩ := Option.isSome_iff_exists.1 hscript
  have hwarp : s.scriptState ≠ .warp := by
    rintro h
    rw [h] at hempty
    cases hempty
  have hends : s.scriptState.ends action = decide (action = 0) := by
    rw [ScriptState.ends, if_pos hempty]
  have hallows : s.scriptState.allows action = true := by
    rcases Bool.or_eq_true_iff.1 hempty with h | h
    · rw [of_decide_eq_true h]
      rfl
    · rw [of_decide_eq_true h]
      rfl
  rw [Resumed, scriptCont]
  simp only [hs, hends, hallows, hempty]
  by_cases hprev : s.scriptState.accepts prev = true
  · rw [if_neg (by simp [hprev])]
    by_cases hzero : action = 0
    · -- The chat is ended.
      subst hzero
      simp
    rw [if_neg (by simpa using hzero)]
    by_cases hone : action = 1
    · -- It is `action` that is compared with the bounds.
      subst hone
      by_cases hbounds : s.min ≤ 1 ∧ 1 ≤ s.max
      · have hin : ¬((1 : UInt8).toUInt32 < s.min ∨ s.max < (1 : UInt8).toUInt32) :=
          fun h => h.elim (UInt32.not_lt.2 hbounds.1) (UInt32.not_lt.2 hbounds.2)
        simp only [ne_eq, not_true_eq_false, and_false, if_false, true_and, if_neg hin, Bool.true_eq_false,
          ran_log]
        exact iff_of_true rfl ⟨hprev, hbounds⟩
      · have hout : (1 : UInt8).toUInt32 < s.min ∨ s.max < (1 : UInt8).toUInt32 := by
          rcases not_and_or.1 hbounds with h | h
          · exact .inl (UInt32.not_le.1 h)
          · exact .inr (UInt32.not_le.1 h)
        simp only [ne_eq, not_true_eq_false, and_false, if_false, true_and, if_pos hout, Bool.true_eq_false]
        exact iff_of_false (s.not_resumed_of_banned s.closeScript_log) fun h => hbounds h.2
    · rw [if_pos ⟨trivial, hone⟩]
      exact iff_of_false (s.not_resumed_of_banned s.closeScript_log) fun h => hone h.2.1
  · rw [if_pos ⟨hwarp, by simpa using hprev⟩]
    exact iff_of_false (s.not_resumed_of_banned rfl) fun h => hprev h.1

variable (s prev action selection)

/-- An answer does what it should if and only if the selection is within the bounds where `1` is, and only
    there. What is no answer with a selection does nothing else. -/
theorem answersRight_iff :
    s.AnswersRight resume prev action selection ↔
      (s.script.isSome = true → s.scriptState.isEmptyDialogue = true →
        s.scriptState.accepts prev = true → action = 1 → (s.Offered 1 ↔ s.Offered selection)) := by
  constructor
  · intro h hscript hempty hprev haction
    obtain ⟨honly, hall⟩ := h hscript hempty
    constructor
    · exact fun hone => honly ((resumed_iff resume hscript hempty).2 ⟨hprev, haction, hone⟩)
    · intro hoffered
      exact ((resumed_iff resume hscript hempty).1 (hall hprev haction hoffered)).2.2
  · intro h hscript hempty
    rw [resumed_iff resume hscript hempty]
    refine ⟨fun ⟨hprev, haction, hone⟩ => (h hscript hempty hprev haction).1 hone, ?_⟩
    exact fun hprev haction hoffered =>
      ⟨hprev, haction, (h hscript hempty hprev haction).2 hoffered⟩

end ScriptClient

/-- A script that goes on asking. -/
def askingAgain (d : Dialogue) (_ : ℤ) : ScriptOutcome Dialogue := .dialogue d d

/-- Of three selections the seventh one is accepted, and of the numbers from 5 to 10 the number 7 is not. -/
theorem answersRight_fails :
    (∃ s : ScriptClient Dialogue, s.scriptState = .simple ∧ s.min = 1 ∧ s.max = 3 ∧
      s.Resumed askingAgain 4 1 7 ∧ ¬s.AnswersRight askingAgain 4 1 7) ∧
    ∃ s : ScriptClient Dialogue, s.scriptState = .getNumber ∧ s.min = 5 ∧ s.max = 10 ∧
      ¬s.Resumed askingAgain 3 1 7 ∧ ¬s.AnswersRight askingAgain 3 1 7 := by
  let asked (d : Dialogue) : ScriptClient Dialogue :=
    ((ScriptClient.start .ok 0 0 100).launch askingAgain d).1
  have hseven : (asked (.simple 3)).Resumed askingAgain 4 1 7 := by
    rw [ScriptClient.Resumed]
    decide +kernel
  have hrefused : ¬(asked (.getNumber 5 10)).Resumed askingAgain 3 1 7 := by
    rw [ScriptClient.Resumed]
    decide +kernel
  refine ⟨⟨asked (.simple 3), rfl, rfl, rfl, hseven, fun h => ?_⟩,
    ⟨asked (.getNumber 5 10), rfl, rfl, rfl, hrefused, fun h => ?_⟩⟩
  · exact absurd ((h rfl rfl).1 hseven) (by decide +kernel)
  · exact hrefused ((h rfl rfl).2 rfl rfl (by decide +kernel))

end Syrup
