import Syrup.Client.AbilityPoints
import Syrup.Client.HitPoints
import Syrup.Client.Shop
import Syrup.Client.Skills
import Syrup.Encoders.StatChange

/-!
# The player's copy of the stats

The program of the player has a copy of the stats of its character, which it changes by the `STAT_CHANGE`
packets it gets. A call either sends what it has changed, or marks it as pending in `stats`, and
`client_commit_stats` sends all that is pending. So the copy shows, at any time between two calls, what is
not pending (`Shows`): each call keeps that (`KeepsCopy`), and after a run that ends with a
`client_commit_stats` the copy shows all stats (`statCopy_follows`).
-/

namespace Syrup

open Wire

/-! ## The copy -/

/-- What the program of the player makes of a packet. -/
def Packet.receive (copy : StatCopy) : Packet → Option StatCopy
  | .statChange stats values =>
    (statChangePacket true stats values).toOption.bind (readStatChange · copy)
  | _ => some copy

/-- What the program of the player makes of some packets. -/
def receive (copy : StatCopy) (ps : List Packet) : Option StatCopy := ps.foldlM Packet.receive copy

/-- A packet in which no stats are sent. -/
def Packet.Other (p : Packet) : Prop := ∀ stats values, p ≠ .statChange stats values

/-- A copy shows the stats that are not pending. -/
def Shows (copy : StatCopy) (c : Client) : Prop :=
  ∀ s, ¬Sends c.stats s → copy s = c.character.value s

/-- Packets have been sent to a client by which any copy that has shown what is not pending
    does so again. -/
structure KeepsCopy (c c' : Client) : Prop where
  known : OnlyStats c.stats → OnlyStats c'.stats
  receive : ∃ ps, c'.sent = c.sent ++ ps ∧ (OnlyStats c.stats → ∀ copy, Shows copy c →
    ∃ copy', Syrup.receive copy ps = some copy' ∧ Shows copy' c')

/-- Nothing has been sent, and what has been changed is pending, but for the stats in a mask. -/
structure Pends (hidden : UInt32) (c c' : Client) : Prop where
  sent : c'.sent = c.sent
  known : OnlyStats c.stats → OnlyStats c'.stats
  mono : ∀ s, Sends c.stats s → Sends c'.stats s
  value : ∀ s, ¬Sends c'.stats s → ¬Sends hidden s → c'.character.value s = c.character.value s

/-- A stat on which points are spent is one that is sent. -/
def BaseStat.toStat : BaseStat → Stat
  | str => .str
  | dex => .dex
  | int => .int
  | luk => .luk

/-! ## Other things of a character -/

section Other

variable (chr : Character)

@[simp] theorem value_setWorn (i : Fin equipSlotCount) (c : Cell Equipment) :
    (chr.setWorn i c).value = chr.value := funext fun s => by cases s <;> rfl

@[simp] theorem value_setEquip (i : Fin maxItemCount) (c : Cell Equipment) :
    (chr.setEquip i c).value = chr.value := funext fun s => by cases s <;> rfl

@[simp] theorem value_setItem (k : Fin inventoryCount) (i : Fin maxItemCount)
    (c : Cell InventoryItem) : (chr.setItem k i c).value = chr.value :=
  funext fun s => by cases s <;> rfl

@[simp] theorem value_setActiveProjectile (a : UInt8) :
    (chr.setActiveProjectile a).value = chr.value := funext fun s => by cases s <;> rfl

@[simp] theorem value_setItemQuests (set : HashSet UInt32) :
    (chr.setItemQuests set).value = chr.value := funext fun s => by cases s <;> rfl

@[simp] theorem value_addBonuses (e : Equipment) : (chr.addBonuses e).value = chr.value :=
  funext fun s => by cases s <;> rfl

@[simp] theorem value_subBonuses (e : Equipment) : (chr.subBonuses e).value = chr.value :=
  funext fun s => by cases s <;> rfl

@[simp] theorem value_writeBack (g : Gain) : (g.writeBack chr).value = chr.value :=
  funext fun s => by cases s <;> rfl

@[simp] theorem value_removeStack (k : Fin inventoryCount) (i : Fin maxItemCount) (amount : Int16) :
    (removeStack chr k i amount).value = chr.value := by
  rw [removeStack]
  split <;> simp

@[simp] theorem value_rechargeStack (info : ItemInfo) (i : Fin maxItemCount) :
    (rechargeStack chr info i).value = chr.value := by
  rw [rechargeStack]
  simp

@[simp] theorem value_putOn (src : Fin maxItemCount) (dst : Fin equipSlotCount) :
    (putOn chr src dst).value = chr.value := by
  rw [putOn]
  split <;> simp

@[simp] theorem value_takeOff (src : Fin equipSlotCount) (dst : Fin maxItemCount) :
    (takeOff chr src dst).value = chr.value := by
  rw [takeOff]
  split <;> simp

@[simp] theorem value_dropProjectile (slot : UInt32) :
    (dropProjectile chr slot).value = chr.value := by
  rw [dropProjectile]
  split <;> simp

end Other

/-! ## Any values can be sent -/

/-- The stats of a character are in range. -/
theorem inRange_value (chr : Character) (s : Stat) : s.format.InRange (chr.value s) := by
  have h8 (n : UInt8) : u8.InRange n.toNat := ⟨by positivity, by exact_mod_cast n.toNat_lt⟩
  have h16 (n : UInt16) : u16.InRange n.toNat := ⟨by positivity, by exact_mod_cast n.toNat_lt⟩
  have h32 (n : UInt32) : u32.InRange n.toNat := ⟨by positivity, by exact_mod_cast n.toNat_lt⟩
  have hi16 (n : Int16) : i16.InRange n.toInt := by
    have hle := n.le_toInt
    have hlt := n.toInt_lt
    change -65536 ≤ n.toInt * 2 ∧ n.toInt * 2 < 65536
    omega
  have hi32 (n : Int32) : i32.InRange n.toInt := by
    have hle := n.le_toInt
    have hlt := n.toInt_lt
    change -4294967296 ≤ n.toInt * 2 ∧ n.toInt * 2 < 4294967296
    omega
  cases s with
  | skin | level => exact h8 _
  | face | hair => exact h32 _
  | job => exact h16 _
  | exp | meso => exact hi32 _
  | str | dex | int | luk | hp | maxHp | mp | maxMp | ap | sp | fame => exact hi16 _

/-- What the player makes of the values of some stats. -/
theorem receive_statChange {stats : UInt32} (h : OnlyStats stats) (chr : Character)
    (copy : StatCopy) :
    Packet.receive copy (.statChange stats ((sent stats).map chr.value)) =
      some fun s => if Sends stats s then chr.value s else copy s :=
  readStatChange_statChangePacket h (fun s _ => inRange_value chr s) copy

theorem Packet.Other.receive {p : Packet} (h : p.Other) (copy : StatCopy) :
    p.receive copy = some copy := by
  cases p with
  | statChange stats values => exact absurd rfl (h stats values)
  | _ => rfl

theorem receive_append {copy copy₁ copy₂ : StatCopy} {ps qs : List Packet}
    (h : receive copy ps = some copy₁) (h' : receive copy₁ qs = some copy₂) :
    receive copy (ps ++ qs) = some copy₂ := by
  rw [receive, List.foldlM_append]
  exact Option.bind_eq_some_iff.2 ⟨copy₁, h, h'⟩

/-! ## Calls that send nothing -/

namespace Pends

variable {hidden : UInt32} {c c₁ c₂ : Client} {chr : Character}

theorem refl (hidden : UInt32) (c : Client) : Pends hidden c c :=
  ⟨rfl, id, fun _ => id, fun _ _ _ => rfl⟩

theorem trans (h : Pends hidden c c₁) (h' : Pends hidden c₁ c₂) : Pends hidden c c₂ where
  sent := h'.sent.trans h.sent
  known := h'.known ∘ h.known
  mono s := h'.mono s ∘ h.mono s
  value s hs hhidden := (h'.value s hs hhidden).trans (h.value s (hs ∘ h'.mono s) hhidden)

/-- Marking what has been changed. -/
theorem mark {flags : UInt32} (hflags : OnlyStats flags)
    (h : ∀ s, ¬Sends flags s → ¬Sends hidden s → chr.value s = c.character.value s) :
    Pends hidden c ((c.setCharacter chr).mark flags) where
  sent := rfl
  known hknown := onlyStats_or hknown hflags
  mono _ hs := sends_or.2 (.inl hs)
  value s hs := h s fun hflag => hs (sends_or.2 (.inr hflag))

/-- Changing no other stats. -/
theorem set (h : ∀ s, ¬Sends hidden s → chr.value s = c.character.value s) :
    Pends hidden c (c.setCharacter chr) :=
  ⟨rfl, id, fun _ => id, fun s _ => h s⟩

end Pends

theorem not_sends_zero (s : Stat) : ¬Sends 0 s := fun h => h UInt32.zero_and

namespace KeepsCopy

variable {c c₁ c₂ : Client}

theorem refl (c : Client) : KeepsCopy c c :=
  ⟨id, [], (List.append_nil _).symm, fun _ copy hcopy => ⟨copy, rfl, hcopy⟩⟩

theorem trans (h : KeepsCopy c c₁) (h' : KeepsCopy c₁ c₂) : KeepsCopy c c₂ := by
  obtain ⟨hknown, ps, hps, hreceive⟩ := h
  obtain ⟨hknown', qs, hqs, hreceive'⟩ := h'
  refine ⟨hknown' ∘ hknown, ps ++ qs, by rw [hqs, hps, List.append_assoc], fun hc copy hcopy => ?_⟩
  obtain ⟨copy₁, h₁, hcopy₁⟩ := hreceive hc copy hcopy
  obtain ⟨copy₂, h₂, hcopy₂⟩ := hreceive' (hknown hc) copy₁ hcopy₁
  exact ⟨copy₂, receive_append h₁ h₂, hcopy₂⟩

theorem of_pends (h : Pends 0 c c₁) : KeepsCopy c c₁ :=
  ⟨h.known, [], by rw [h.sent, List.append_nil], fun _ copy hcopy => ⟨copy, rfl, fun s hs =>
    (hcopy s (hs ∘ h.mono s)).trans (h.value s hs (not_sends_zero s)).symm⟩⟩

/-- Sending what is not pending. -/
theorem tell {stats : UInt32} {values : List ℤ} (h : Pends stats c c₁)
    (hstats : OnlyStats stats) (hvalues : values = (sent stats).map c₁.character.value) :
    KeepsCopy c (c₁.send (.statChange stats values)) := by
  subst hvalues
  refine ⟨h.known, [_], by rw [Client.send, h.sent], fun _ copy hcopy => ?_⟩
  refine ⟨fun s => if Sends stats s then c₁.character.value s else copy s, ?_, fun s hs => ?_⟩
  · rw [Syrup.receive, List.foldlM_cons, receive_statChange hstats]
    rfl
  · simp only [Client.character_send]
    split
    · rfl
    · rename_i hstat
      exact (hcopy s (hs ∘ h.mono s)).trans (h.value s hs hstat).symm

/-- Sending something else. -/
theorem send (c : Client) {p : Packet} (hp : p.Other) : KeepsCopy c (c.send p) :=
  ⟨id, [p], rfl, fun _ copy hcopy => ⟨copy, by
    rw [Syrup.receive, List.foldlM_cons, hp.receive]
    rfl, hcopy⟩⟩

/-- Sending something else after something that keeps the copy. -/
theorem andSend (h : KeepsCopy c c₁) {p : Packet} (hp : p.Other) : KeepsCopy c (c₁.send p) :=
  h.trans (send c₁ hp)

/-- Rewriting other things of a character. -/
theorem set (c : Client) {chr : Character} (h : chr.value = c.character.value) :
    KeepsCopy c (c.setCharacter chr) :=
  of_pends (.set fun s _ => congrFun h s)

end KeepsCopy

/-! ## Calls that mark, or send, what they change -/

section Calls

variable {env : Env} (c : Client)

/-- The values of the stats in a mask, as they are gathered. -/
theorem map_sent (stats : UInt32) (v : Stat → ℤ) :
    (sent stats).map v = Stat.all.flatMap fun s => if stats &&& s.flag ≠ 0 then [v s] else [] := by
  rw [sent]
  generalize Stat.all = ss
  induction ss with
  | nil => rfl
  | cons s ss ih =>
    rw [List.flatMap_cons, ← ih]
    change _ = (if Sends stats s then [v s] else []) ++ _
    by_cases hs : Sends stats s
    · rw [List.filter_cons_of_pos (p := fun s => decide (Sends stats s)) (decide_eq_true hs), if_pos hs]
      rfl
    · rw [List.filter_cons_of_neg (p := fun s => decide (Sends stats s)) (by simpa using hs), if_neg hs]
      rfl

theorem clientCommitStats_eq : clientCommitStats c =
    { c.send (.statChange c.stats ((sent c.stats).map c.character.value)) with stats := 0 } := by
  rw [map_sent, clientCommitStats]
  simp only [Stat.all, List.flatMap_cons, List.flatMap_nil, List.append_nil, List.append_assoc]
  rfl

theorem keeps_commitStats : KeepsCopy c (clientCommitStats c) := by
  rw [clientCommitStats_eq]
  refine ⟨fun _ => UInt32.zero_and, [_], rfl, fun hknown copy hcopy =>
    ⟨fun s => if Sends c.stats s then c.character.value s else copy s, ?_, ?_⟩⟩
  · rw [receive, List.foldlM_cons, receive_statChange hknown]
    rfl
  · intro s _
    change (if Sends c.stats s then c.character.value s else copy s) = c.character.value s
    split
    · rfl
    · rename_i hs
      exact hcopy s hs

theorem Sends.flag (t : Stat) : Sends t.flag t := by
  cases t <;> decide

/-- A stat that is not in the mask of another is another one. -/
theorem ne_of_not_sends {s t : Stat} (h : ¬Sends t.flag s) : s ≠ t :=
  fun hst => h (hst ▸ Sends.flag t)

/-- Points change no other stats than those that they are spent on. -/
theorem value_setBase (base : BaseStat) (chr : Character) (n : Int16) {s : Stat} (h : s ≠ base.toStat) :
    (characterSetStat base chr n).value s = chr.value s := by
  rw [characterSetStat]
  generalize (if n < 0 then 0 else n) = n'
  cases base <;> cases s <;> first | exact absurd rfl h | rfl

theorem value_setAp (chr : Character) (n : Int16) {s : Stat} (h : s ≠ .ap) :
    (characterSetAp chr n).value s = chr.value s := by
  cases s <;> first | exact absurd rfl h | rfl

theorem keeps_setHp (hp : Int16) : KeepsCopy c (clientSetHp c hp) := by
  rw [clientSetHp]
  split
  · exact .refl c
  · refine .of_pends (.mark (OnlyStats.flag .hp) fun s hs _ => ?_)
    cases s <;> first | exact absurd (by decide) hs | rfl

theorem keeps_setHpNow (hp : Int16) : KeepsCopy c (clientSetHpNow c hp) := by
  refine .tell (.set fun s hs => ?_) (OnlyStats.flag .hp) rfl
  cases s <;> first | exact absurd (by decide) hs | rfl

theorem keeps_setMp (mp : Int16) : KeepsCopy c (clientSetMp c mp) := by
  rw [clientSetMp]
  split
  · exact .refl c
  · refine .of_pends (.mark (OnlyStats.flag .mp) fun s hs _ => ?_)
    cases s <;> first | exact absurd (by decide) hs | rfl

theorem keeps_setMpNow (mp : Int16) : KeepsCopy c (clientSetMpNow c mp) := by
  refine .tell (.set fun s hs => ?_) (OnlyStats.flag .mp) rfl
  cases s <;> first | exact absurd (by decide) hs | rfl

theorem pends_adjustSp (sp : Int16) : Pends 0 c (clientAdjustSp c sp) := by
  refine .mark (OnlyStats.flag .sp) fun s hs _ => ?_
  cases s <;> first | exact absurd (by decide) hs | rfl

theorem keeps_adjustFame (fame : Int16) : KeepsCopy c (clientAdjustFame c fame) := by
  refine .of_pends (.mark (OnlyStats.flag .fame) fun s hs _ => ?_)
  cases s <;> first | exact absurd (by decide) hs | rfl

theorem keeps_resetStats : KeepsCopy c (clientResetStats c) := by
  have hstats : OnlyStats (statStr ||| statDex ||| statInt ||| statLuk ||| statAp ||| statSp) := by
    decide
  refine .tell (.set fun s hs => ?_) hstats rfl
  rw [resetMain]
  split
  · cases s <;> first | exact absurd (by decide) hs | rfl
  · rename_i stat n level _
    cases stat <;> cases s <;> first | exact absurd (by decide) hs | rfl

theorem keeps_adjust (base : BaseStat) (amount : Int16) :
    KeepsCopy c (defineStatAdjust base (characterSetStat base) base.toStat.flag c amount) := by
  rw [defineStatAdjust]
  split
  · exact .refl c
  · simp only
    split
    · have hflags : OnlyStats (base.toStat.flag ||| statAp) := onlyStats_or (.flag _) (.flag .ap)
      refine .of_pends (.mark hflags fun s hs _ => ?_)
      obtain ⟨hbase, hap⟩ := not_or.1 (sends_or.not.1 hs)
      rw [value_setAp _ _ (ne_of_not_sends (t := .ap) hap), value_setBase _ _ _ (ne_of_not_sends hbase)]
    · exact .refl c

theorem keeps_gainMeso (mesos : Int32) (pickup reward : Bool) :
    KeepsCopy c (clientGainMeso c mesos pickup reward) := by
  have hmark (m : Int32) :
      KeepsCopy c ((c.setCharacter (characterSetMeso c.character m)).mark statMeso) := by
    refine .of_pends (.mark (OnlyStats.flag .meso) fun s hs _ => ?_)
    cases s <;> first | exact absurd (by decide) hs | rfl
  rw [clientGainMeso]
  split
  · exact (hmark _).andSend (by rintro _ _ ⟨⟩)
  · split
    · exact (hmark _).andSend (by rintro _ _ ⟨⟩)
    · exact hmark _

/-- Marking, gaining skill points and raising maxima, before all that is pending is sent. -/
theorem keeps_changeJob (job : UInt16) (r : ℕ × ℕ) : KeepsCopy c (clientChangeJob c job r) := by
  have hjob : Pends 0 c ((c.setCharacter { c.character with job := job }).mark statJob) := by
    refine .mark (OnlyStats.flag .job) fun s hs _ => ?_
    cases s <;> first | exact absurd (by decide) hs | rfl
  have hmax : OnlyStats (statMaxHp ||| statMaxMp) := by decide
  rw [clientChangeJob]
  refine KeepsCopy.andSend (KeepsCopy.trans ?_ (keeps_commitStats _)) nofun
  refine .of_pends ((hjob.trans (pends_adjustSp _ _)).trans (.mark hmax fun s hs _ => ?_))
  simp only
  split <;> split <;> cases s <;> first | exact absurd (by decide) hs | rfl

theorem keeps_consume (info : ConsumableInfo) : KeepsCopy c (consume c info) := by
  rw [consume]
  cases info.hp != 0 || info.hpR != 0 <;> cases info.mp != 0 || info.mpR != 0
  · refine .tell (.set fun s _ => ?_) (by decide) rfl
    cases s <;> rfl
  · refine .tell (.set fun s hs => ?_) (by decide) rfl
    cases s <;> first | exact absurd (by decide) hs | rfl
  · refine .tell (.set fun s hs => ?_) (by decide) rfl
    cases s <;> first | exact absurd (by decide) hs | rfl
  · refine .tell (.set fun s hs => ?_) (by decide) rfl
    cases s <;> first | exact absurd (by decide) hs | rfl

theorem keeps_useItem (slot : UInt8) (id : UInt32) : KeepsCopy c (clientUseItem env c slot id).2 := by
  rw [clientUseItem]
  split
  · exact .refl c
  · split
    · exact .refl c
    · simp only
      split
      · exact .refl c
      · exact ((keeps_consume c _).trans (.set _ (by simp))).andSend (by rintro _ _ ⟨⟩)

/-- Lowering what is too high. -/
theorem keeps_clampHpMp : KeepsCopy c (clampHpMp c) := by
  rw [clampHpMp]
  cases decide (characterGetEffectiveHp c.character < c.character.hp) <;>
    cases decide (characterGetEffectiveMp c.character < c.character.mp)
  · exact .set c (funext fun s => by cases s <;> rfl)
  · refine .tell (.set fun s hs => ?_) (by decide) rfl
    cases s <;> first | exact absurd (by decide) hs | rfl
  · refine .tell (.set fun s hs => ?_) (by decide) rfl
    cases s <;> first | exact absurd (by decide) hs | rfl
  · refine .tell (.set fun s hs => ?_) (by decide) rfl
    cases s <;> first | exact absurd (by decide) hs | rfl

/-! ## Calls that change inventories -/

theorem keeps_sendMods (mods : List InventoryModify) (n : ℕ) : KeepsCopy c (sendMods mods n c) := by
  induction n using Nat.strong_induction_on generalizing c with
  | _ n ih =>
    rw [sendMods]
    split
    · exact (KeepsCopy.send c (by rintro _ _ ⟨⟩)).trans (ih (n - 255) (by omega) _)
    · exact .send c (by rintro _ _ ⟨⟩)

theorem keeps_foldl_send (items : Amounts) :
    KeepsCopy c (items.foldl (fun c r => c.send (.itemGainInChat r.1 r.2)) c) := by
  induction items generalizing c with
  | nil => exact .refl c
  | cons r items ih => exact (KeepsCopy.send c (by nofun)).trans (ih _)

variable {c} {c' : Client}

theorem keeps_gainItems {alloc reward : Bool} {items : Amounts} {ret : Option Bool}
    (h : clientGainItems env alloc c items reward = .ok (ret, c')) : KeepsCopy c c' := by
  rw [clientGainItems] at h
  split at h
  · obtain ⟨o, _, h⟩ := Exec.bind_eq_ok.1 h
    cases o with
    | none =>
      cases h
      exact .refl c
    | some o =>
      obtain ⟨rest, g⟩ := o
      obtain ⟨o, _, h⟩ := Exec.bind_eq_ok.1 h
      cases o with
      | none =>
        cases h
        exact .refl c
      | some g =>
        simp only at h
        split at h
        · cases h
        · cases h
          have hback : KeepsCopy c { c with character := g.writeBack c.character } :=
            .set c (value_writeBack ..)
          have hmods := hback.trans (keeps_sendMods _ g.mods g.mods.length)
          split
          · exact hmods.trans (keeps_foldl_send _ _)
          · exact hmods
  · cases h
    exact .refl c

theorem keeps_removeItem {alloc : Bool} {inventory src : UInt8} {amount : Int16}
    {r : Option (Bool × Option InventoryItem)}
    (h : clientRemoveItem env alloc c inventory src amount = .ok (r, c')) : KeepsCopy c c' := by
  rw [clientRemoveItem] at h
  split at h
  · cases h
    exact .refl c
  · simp only at h
    split at h
    · cases h
      exact .refl c
    · split at h
      · cases h
        exact .refl c
      · split at h
        · cases h
          exact .refl c
        · obtain ⟨chr, hchr, h⟩ := Exec.bind_eq_ok.1 h
          obtain ⟨set, rfl⟩ := startItemQuest_cases hchr
          cases h
          exact (KeepsCopy.set c (by simp)).andSend (by rintro _ _ ⟨⟩)

theorem keeps_removeEquip {equipped : Bool} {src : UInt8} {r : Option (Bool × Option Equipment)}
    (h : clientRemoveEquip c equipped src = (r, c')) : KeepsCopy c c' := by
  rw [clientRemoveEquip] at h
  split at h
  · simp only at h
    split at h
    · split at h
      · cases h
        exact .refl c
      · cases h
        exact (KeepsCopy.set c (by simp)).andSend (by rintro _ _ ⟨⟩)
    · cases h
      exact .refl c
  · split at h
    · cases h
      exact .refl c
    · simp only at h
      split at h
      · cases h
        exact .refl c
      · cases h
        exact (KeepsCopy.set c (by simp)).andSend (by rintro _ _ ⟨⟩)

theorem keeps_equip {src : UInt8} {slot : UInt32} {b : Bool}
    (h : clientEquip c src slot = .ok (b, c')) : KeepsCopy c c' := by
  rw [clientEquip] at h
  simp only at h
  split at h
  · cases h
    exact .refl c
  · split at h
    · cases h
      exact .refl c
    · split at h
      · cases h
        exact .refl c
      · obtain ⟨dst, _, h⟩ := Exec.bind_eq_ok.1 h
        cases h
        exact ((KeepsCopy.set c (by simp)).andSend (by rintro _ _ ⟨⟩)).andSend (by rintro _ _ ⟨⟩)

theorem keeps_unequip {slot : UInt32} {dst : UInt8} {b : Bool}
    (h : clientUnequip c slot dst = .ok (b, c')) : KeepsCopy c c' := by
  rw [clientUnequip] at h
  simp only at h
  split at h
  · cases h
    exact .refl c
  · split at h
    · cases h
      exact .refl c
    · rename_i dst _
      obtain ⟨src, _, h⟩ := Exec.bind_eq_ok.1 h
      cases h
      have hclamp := (KeepsCopy.set c (by simp)).trans (keeps_clampHpMp (c.setCharacter
        (takeOff (dropProjectile c.character slot) src dst)))
      exact (hclamp.andSend (by rintro _ _ ⟨⟩)).andSend (by rintro _ _ ⟨⟩)

/-! ## Shops -/

/-- Paying, or being paid, in a shop. -/
theorem keeps_pay (c : Client) (mesos : Int32) (code : UInt8) :
    KeepsCopy c ((clientCommitStats (clientGainMeso c mesos false false)).send
      (.shopActionResponse code)) :=
  ((keeps_gainMeso c mesos false false).trans (keeps_commitStats _)).andSend nofun

theorem keeps_buy {alloc : Bool} {pos : UInt16} {id : UInt32} {quantity : Int16} {price : Int32}
    {r : ClientResult} (h : clientBuy env alloc c pos id quantity price = .ok (r, c')) :
    KeepsCopy c c' := by
  rw [clientBuy] at h
  split at h
  · cases h
    exact .refl c
  · obtain ⟨shop, _, h⟩ := Exec.bind_eq_ok.1 h
    split at h
    · cases h
      exact .refl c
    · split_ifs at h
      all_goals try
        cases h
        exact .refl c
      · cases h
        exact .send c nofun
      · rw [buyItems] at h
        obtain ⟨⟨o, c₁⟩, hgain, h⟩ := Exec.bind_eq_ok.1 h
        have hitems := keeps_gainItems hgain
        cases o with
        | none =>
          cases h
          exact hitems
        | some success =>
          simp only at h
          split at h
          · cases h
            exact hitems.trans ((keeps_gainMeso c₁ _ false false).trans (keeps_commitStats _))
          · cases h
            exact hitems.trans (keeps_pay c₁ _ 0)

theorem keeps_sell {alloc : Bool} {pos : UInt16} {id : UInt32} {quantity : Int16} {r : ClientResult}
    (h : clientSell env alloc c pos id quantity = .ok (r, c')) : KeepsCopy c c' := by
  rw [clientSell] at h
  split at h
  · cases h
    exact .refl c
  · split at h
    · cases h
      exact .refl c
    · split at h
      · split at h
        · cases h
          exact .refl c
        · split at h
          · rename_i hremove
            cases h
            exact keeps_removeEquip hremove
          · rename_i hremove
            have hequip := keeps_removeEquip hremove
            split at h
            · cases h
              exact hequip
            · cases h
              exact hequip.trans (keeps_pay _ _ 8)
      · obtain ⟨⟨o, c₁⟩, hremove, h⟩ := Exec.bind_eq_ok.1 h
        have hitem := keeps_removeItem hremove
        cases o with
        | none =>
          cases h
          exact hitem
        | some o =>
          simp only at h
          split at h
          · cases h
            exact hitem
          · cases h
            exact hitem.trans (keeps_pay _ _ 8)

theorem keeps_recharge {slot : UInt16} {r : ClientResultType}
    (h : clientRecharge env c slot = .ok (r, c')) : KeepsCopy c c' := by
  rw [clientRecharge] at h
  simp only at h
  split at h
  · cases h
    exact .refl c
  · split at h
    · cases h
      exact .refl c
    · obtain ⟨info, _, h⟩ := Exec.bind_eq_ok.1 h
      split at h
      · cases h
        exact .refl c
      · cases h
        rw [recharge]
        simp only
        split
        · exact .send c (by rintro _ _ ⟨⟩)
        · exact ((KeepsCopy.set c (by simp)).andSend (by rintro _ _ ⟨⟩)).trans (keeps_pay _ _ 8)

/-! ## Levels and skills -/

/-- The stats that are raised with a level. -/
def hpMpFlags : UInt32 := statMaxHp ||| statMaxMp ||| statHp ||| statMp

section Levels

variable {chr : Character} {s : Stat} (hs : ¬Sends hpMpFlags s) (n : Int16)
include hs

theorem value_setMaxHp : (characterSetMaxHp chr n).value s = chr.value s := by
  cases s <;> first | exact absurd (by decide) hs | rfl

theorem value_setMaxMp : (characterSetMaxMp chr n).value s = chr.value s := by
  cases s <;> first | exact absurd (by decide) hs | rfl

theorem value_setHp : (characterSetHp chr n).value s = chr.value s := by
  cases s <;> first | exact absurd (by decide) hs | rfl

theorem value_setMp : (characterSetMp chr n).value s = chr.value s := by
  cases s <;> first | exact absurd (by decide) hs | rfl

omit n in
theorem value_gainHpMp (r : ℕ × ℕ) : (gainHpMp env r chr).value s = chr.value s := by
  have hlevel : (raiseByLevel r chr).value s = chr.value s := by
    rw [raiseByLevel]
    split
    · rfl
    · exact (value_setMaxMp hs _).trans (value_setMaxHp hs _)
  have hskill (chr : Character) : (raiseBySkill env chr).value s = chr.value s := by
    rw [raiseBySkill]
    split
    · rfl
    · exact value_setMaxMp hs _
  rw [gainHpMp]
  exact (value_setMp hs _).trans ((value_setHp hs _).trans ((value_setMaxMp hs _).trans
    ((hskill _).trans hlevel)))

end Levels

theorem pends_gainPoints (c : Client) : Pends statLevel c (gainPoints c) := by
  have hap (c : Client) (ap : Int16) :
      Pends statLevel c
        ((c.setCharacter { c.character with ap := c.character.ap + ap }).mark statAp) := by
    refine .mark (OnlyStats.flag .ap) fun s hs _ => ?_
    cases s <;> first | exact absurd (by decide) hs | rfl
  rw [gainPoints]
  simp only
  split
  · split
    · refine .mark (OnlyStats.flag .str) fun s hs _ => ?_
      cases s <;> first | exact absurd (by decide) hs | rfl
    · have hflags : OnlyStats (statStr ||| statDex) := by decide
      refine .mark hflags fun s hs _ => ?_
      cases s <;> first | exact absurd (by decide) hs | rfl
  · split
    · exact hap c _
    · refine Pends.trans (.mark (OnlyStats.flag .sp) fun s hs _ => ?_) (hap _ _)
      cases s <;> first | exact absurd (by decide) hs | rfl

/-- The level is sent when all else that has been gained with it is pending. -/
theorem keeps_gainLevel {c c₁ : Client} (r : ℕ × ℕ) (h : Pends statLevel c c₁) :
    KeepsCopy c (gainLevel env r c₁) ∧ ∀ s, Sends c.stats s → Sends (gainLevel env r c₁).stats s := by
  have hflags : OnlyStats hpMpFlags := by decide
  have hraise : Pends statLevel (gainPoints c₁) (((gainPoints c₁).setCharacter
      (gainHpMp env r (gainPoints c₁).character)).mark hpMpFlags) :=
    .mark hflags fun s hs _ => value_gainHpMp hs r
  have hpends := (h.trans (pends_gainPoints c₁)).trans hraise
  exact ⟨(KeepsCopy.tell hpends (OnlyStats.flag .level) rfl).andSend nofun, hpends.mono⟩

theorem keeps_gainLevels {rand : ℕ → ℕ × ℕ} {n : ℕ} {exp : Int32} (hexp : Sends c.stats .exp)
    (h : gainLevels env rand n c exp = .ok c') : KeepsCopy c c' := by
  induction n generalizing c exp with
  | zero => cases h
  | succ n ih =>
    obtain ⟨⟨left, chr⟩, hgain, h⟩ := Exec.bind_eq_ok.1 h
    obtain ⟨hneg, e, rfl⟩ | ⟨hpos, rfl⟩ := characterGainExp_cases hgain
    · simp only [if_pos hneg] at h
      cases h
      refine .of_pends ⟨rfl, id, fun _ => id, fun s hs _ => ?_⟩
      cases s <;> first | exact absurd hexp hs | rfl
    · simp only [if_neg hpos] at h
      have hpends : Pends statLevel c
          (c.setCharacter { c.character with exp := 0, level := c.character.level + 1 }) := by
        refine ⟨rfl, id, fun _ => id, fun s hs hlevel => ?_⟩
        cases s <;> first | exact absurd hexp hs | exact absurd (by decide) hlevel | rfl
      obtain ⟨hkeeps, hmono⟩ := @keeps_gainLevel env c _ (rand n) hpends
      exact hkeeps.trans (ih (hmono _ hexp) h)

theorem keeps_gainExp {rand : ℕ → ℕ × ℕ} {exp : Int32} {reward : Bool}
    (h : clientGainExp env rand c exp reward = .ok c') : KeepsCopy c c' := by
  have hsend : KeepsCopy c (c.send (if reward then .expGainInChat exp else .expGain exp)) := by
    split <;> exact .send c nofun
  have hmark (c : Client) : KeepsCopy c ((c.setCharacter c.character).mark statExp) :=
    .of_pends (.mark (OnlyStats.flag .exp) fun _ _ _ => rfl)
  have hexp (c : Client) : Sends (c.mark statExp).stats .exp :=
    sends_or.2 (.inr (by decide))
  exact (hsend.trans (hmark _)).trans (keeps_gainLevels (hexp _) h)

theorem keeps_raiseSkill {alloc b : Bool} {info : SkillInfo} {id : UInt32}
    (h : raiseSkill env alloc info c id = .ok (b, c')) : KeepsCopy c c' := by
  have hskills (set : HashSet Skill) : { c.character with skills := set }.value = c.character.value :=
    funext fun s => by cases s <;> rfl
  rw [raiseSkill] at h
  split at h
  · split at h
    · cases h
      exact .refl c
    · obtain ⟨⟨_, set⟩, _, h⟩ := Exec.bind_eq_ok.1 h
      obtain ⟨skill, _, h⟩ := Exec.bind_eq_ok.1 h
      cases h
      exact (KeepsCopy.set c (hskills set)).andSend (by rintro _ _ ⟨⟩)
  · split at h
    · cases h
      exact (KeepsCopy.set c (hskills _)).andSend (by rintro _ _ ⟨⟩)
    · cases h
      exact .refl c

/-- The point that is taken is sent, whether or not it is spent. -/
theorem keeps_assignSp {skillInfo : UInt32 → Option SkillInfo} {alloc b : Bool} {id : UInt32}
    (h : clientAssignSp env skillInfo alloc c id = .ok (b, c')) : KeepsCopy c c' := by
  rw [clientAssignSp] at h
  split at h
  · cases h
    exact .refl c
  · split at h
    · have hnone : KeepsCopy c (c.send (.statChange 0 [])) := .tell (.refl 0 c) (by decide) rfl
      exact hnone.trans (keeps_raiseSkill h)
    · simp only at h
      split at h
      · refine KeepsCopy.trans (.tell (.set fun s hs => ?_) (OnlyStats.flag .sp) rfl) (keeps_raiseSkill h)
        cases s <;> first | exact absurd (by decide) hs | rfl
      · cases h
        exact .refl c

end Calls

/-! ## Runs -/

/-- A call that changes stats, or sends them. -/
inductive StatAction
  | setHp (hp : Int16)
  | setHpNow (hp : Int16)
  | adjustHp (hp : Int32)
  | adjustHpNow (hp : Int32)
  | setMp (mp : Int16)
  | setMpNow (mp : Int16)
  | adjustMp (mp : Int16)
  | adjustMpNow (mp : Int32)
  | adjustStr (amount : Int16)
  | adjustDex (amount : Int16)
  | adjustInt (amount : Int16)
  | adjustLuk (amount : Int16)
  | adjustSp (sp : Int16)
  | adjustFame (fame : Int16)
  | assignSp (alloc : Bool) (id : UInt32)
  | gainExp (rand : ℕ → ℕ × ℕ) (exp : Int32) (reward : Bool)
  | gainMeso (mesos : Int32) (pickup reward : Bool)
  | resetStats
  | changeJob (job : UInt16) (r : ℕ × ℕ)
  | useItem (slot : UInt8) (id : UInt32)
  | equip (src : UInt8) (slot : UInt32)
  | unequip (slot : UInt32) (dst : UInt8)
  | buy (alloc : Bool) (pos : UInt16) (id : UInt32) (quantity : Int16) (price : Int32)
  | sell (alloc : Bool) (pos : UInt16) (id : UInt32) (quantity : Int16)
  | recharge (slot : UInt16)
  | commitStats

/-- The client after a call that returns. -/
def StatAction.step (env : Env) (skillInfo : UInt32 → Option SkillInfo) :
    StatAction → Client → Exec Client
  | setHp hp, c => return clientSetHp c hp
  | setHpNow hp, c => return clientSetHpNow c hp
  | adjustHp hp, c => return clientAdjustHp c hp
  | adjustHpNow hp, c => return clientAdjustHpNow c hp
  | setMp mp, c => return clientSetMp c mp
  | setMpNow mp, c => return clientSetMpNow c mp
  | adjustMp mp, c => return clientAdjustMp c mp
  | adjustMpNow mp, c => return clientAdjustMpNow c mp
  | adjustStr amount, c => return clientAdjustStr c amount
  | adjustDex amount, c => return clientAdjustDex c amount
  | adjustInt amount, c => return clientAdjustInt c amount
  | adjustLuk amount, c => return clientAdjustLuk c amount
  | adjustSp sp, c => return clientAdjustSp c sp
  | adjustFame fame, c => return clientAdjustFame c fame
  | assignSp alloc id, c => Prod.snd <$> clientAssignSp env skillInfo alloc c id
  | gainExp rand exp reward, c => clientGainExp env rand c exp reward
  | gainMeso mesos pickup reward, c => return clientGainMeso c mesos pickup reward
  | resetStats, c => return clientResetStats c
  | changeJob job r, c => return clientChangeJob c job r
  | useItem slot id, c => return (clientUseItem env c slot id).2
  | equip src slot, c => Prod.snd <$> clientEquip c src slot
  | unequip slot dst, c => Prod.snd <$> clientUnequip c slot dst
  | buy alloc pos id quantity price, c =>
    Prod.snd <$> clientBuy env alloc c pos id quantity price
  | sell alloc pos id quantity, c => Prod.snd <$> clientSell env alloc c pos id quantity
  | recharge slot, c => Prod.snd <$> clientRecharge env c slot
  | commitStats, c => return clientCommitStats c

/-- A call keeps the copy. -/
theorem keeps_step {env : Env} {skillInfo : UInt32 → Option SkillInfo} {a : StatAction}
    {c c' : Client} (h : a.step env skillInfo c = .ok c') : KeepsCopy c c' := by
  have hsnd {α : Type} {x : Exec (α × Client)} (h : Prod.snd <$> x = .ok c') :
      ∃ r, x = .ok (r, c') := by
    obtain ⟨⟨r, _⟩, hx, rfl⟩ := Exec.map_eq_ok.1 h
    exact ⟨r, hx⟩
  cases a with
  | setHp hp => cases h; exact keeps_setHp c hp
  | setHpNow hp => cases h; exact keeps_setHpNow c hp
  | adjustHp hp => cases h; exact keeps_setHp c _
  | adjustHpNow hp => cases h; exact keeps_setHpNow c _
  | setMp mp => cases h; exact keeps_setMp c mp
  | setMpNow mp => cases h; exact keeps_setMpNow c mp
  | adjustMp mp => cases h; exact keeps_setMp c _
  | adjustMpNow mp => cases h; exact keeps_setMpNow c _
  | adjustStr amount => cases h; exact keeps_adjust c .str amount
  | adjustDex amount => cases h; exact keeps_adjust c .dex amount
  | adjustInt amount => cases h; exact keeps_adjust c .int amount
  | adjustLuk amount => cases h; exact keeps_adjust c .luk amount
  | adjustSp sp => cases h; exact .of_pends (pends_adjustSp c sp)
  | adjustFame fame => cases h; exact keeps_adjustFame c fame
  | assignSp alloc id =>
    obtain ⟨_, hcall⟩ := hsnd h
    exact keeps_assignSp hcall
  | gainExp rand exp reward => exact keeps_gainExp h
  | gainMeso mesos pickup reward => cases h; exact keeps_gainMeso c mesos pickup reward
  | resetStats => cases h; exact keeps_resetStats c
  | changeJob job r => cases h; exact keeps_changeJob c job r
  | useItem slot id => cases h; exact keeps_useItem c slot id
  | equip src slot =>
    obtain ⟨_, hcall⟩ := hsnd h
    exact keeps_equip hcall
  | unequip slot dst =>
    obtain ⟨_, hcall⟩ := hsnd h
    exact keeps_unequip hcall
  | buy alloc pos id quantity price =>
    obtain ⟨_, hcall⟩ := hsnd h
    exact keeps_buy hcall
  | sell alloc pos id quantity =>
    obtain ⟨_, hcall⟩ := hsnd h
    exact keeps_sell hcall
  | recharge slot =>
    obtain ⟨_, hcall⟩ := hsnd h
    exact keeps_recharge hcall
  | commitStats => cases h; exact keeps_commitStats c

/-- A run keeps the copy. -/
theorem keeps_run {env : Env} {skillInfo : UInt32 → Option SkillInfo} {c c' : Client}
    (h : Machine.Run (StatAction.step env skillInfo) (fun _ _ => True) c c') : KeepsCopy c c' :=
  h.invariant (I := KeepsCopy c) (.refl c) fun _ _ _ hkept _ hstep => hkept.trans (keeps_step hstep)

/-- After a run that ends by sending what is pending, a copy that has been taken before the run shows
    all stats. -/
theorem statCopy_follows {env : Env} {skillInfo : UInt32 → Option SkillInfo} {c c' : Client}
    (hknown : OnlyStats c.stats)
    (hrun : Machine.Run (StatAction.step env skillInfo) (fun _ _ => True) c c') :
    ∃ ps, (clientCommitStats c').sent = c.sent ++ ps ∧
      receive c.character.value ps = some (clientCommitStats c').character.value := by
  obtain ⟨_, ps, hps, hreceive⟩ := (keeps_run hrun).trans (keeps_commitStats c')
  obtain ⟨copy, hcopy, hshows⟩ := hreceive hknown c.character.value fun _ _ => rfl
  refine ⟨ps, hps, hcopy.trans (congrArg some (funext fun s => hshows s (not_sends_zero s)))⟩

/-- Two levels are gained, a skill point is spent and the stats are taken back. -/
theorem statCopy_follows_levels : ∃ c ps, c.character.level = 3 ∧
    (clientCommitStats c).sent = ps ∧
      receive (Client.new { (default : Character) with sp := 1 }).character.value ps =
        some (clientCommitStats c).character.value := by
  let es : List StatAction :=
    [.gainExp (fun n => (n, n)) 60 false, .assignSp true 1000001, .adjustHpNow (-3), .adjustStr 4,
      .gainMeso 100 true false, .resetStats, .adjustFame 1]
  have hlevel : (es.foldlM (fun c a => StatAction.step (.ofLists [] [] [] [])
      (fun _ => some ⟨1, 0, 0⟩) a c) (.new { (default : Character) with sp := 1 })).Returns
        fun c => c.character.level = 3 := by
    decide +kernel
  obtain ⟨c, hrun, hc⟩ := Exec.returns_iff.1 hlevel
  obtain ⟨ps, hps, hreceive⟩ := statCopy_follows (by decide : OnlyStats (Client.new _).stats)
    (.of_foldlM (fun _ _ _ => trivial) hrun)
  exact ⟨c, ps, hc, hps, hreceive⟩

end Syrup
