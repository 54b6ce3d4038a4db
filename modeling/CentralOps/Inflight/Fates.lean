import CentralOps.Inflight.Detections

namespace CentralOps
set_option autoImplicit true

/-- Where a key that was pending when the flush began ends up. -/
inductive Fate where
  | presence
  | sequenceUnavailable | sequenceBelow
  | windowUnavailable | windowBelow
  | flushCap | flushLost
  | recorded
  deriving DecidableEq

instance : Fintype Fate where
  elems := {.presence, .sequenceUnavailable, .sequenceBelow, .windowUnavailable, .windowBelow,
    .flushCap, .flushLost, .recorded}
  complete f := by cases f <;> decide

/-- The reason under which a fate is counted. -/
def Fate.reason : Fate → Option ErrorReason
  | .presence | .recorded => none
  | .sequenceUnavailable => some .sequenceUnavailable
  | .sequenceBelow => some .sequenceBelow
  | .windowUnavailable => some .windowUnavailable
  | .windowBelow => some .windowBelow
  | .flushCap => some .flushCap
  | .flushLost => some .flushLost

theorem Fate.reason_injective {f g : Fate} (hf : f.reason = some r) (hg : g.reason = some r) :
    f = g := by
  cases f <;> cases hf <;> cases g <;> first | rfl | cases hg

@[simp] theorem recordCall_dedupKey (item : PendingItem) (org : Int) (key : String) :
    (item.recordCall org key).dedupKey = key := rfl

/-- What the database does with one call of `record`. The table is the one that the call's
transaction finds; other workers may match the same row before it is read back. -/
inductive RecordTurn where
  | refused
  | interrupted (now : Rat) (found : DetectionTable)
  | completed (now : Rat) (found : DetectionTable) (others : Nat)

/-- The calls that became durable, and whether each created its row. -/
abbrev Journal := List (String × Bool)

/-- A flush in which Redis answers as it pleases, and the database takes its turns. -/
def flushReply (redis : (q : InflightAsk) → InflightReply q) (turn : String → RecordTurn)
    (journal : Journal) : (q : InflightAsk) → InflightReply q × Journal
  | .record call =>
    match turn call.dedupKey with
    | .refused => (none, journal)
    | .interrupted now found => (none, journal ++ [(call.dedupKey, found.creates now call)])
    | .completed now found others =>
      let row := found.committed now call
      (some ⟨row.id, row.count + others⟩, journal ++ [(call.dedupKey, found.creates now call)])
  | q => (redis q, journal)

namespace InflightAccumulator

def ownerOf (item : PendingItem) : Int := item.rule.ruleId

def roster (acc : InflightAccumulator) : List (String × Int) :=
  acc.pending.roster ownerOf

theorem roster_drop (acc : InflightAccumulator) (key : String) :
    (acc.drop key).roster = acc.roster.filter (fun e => decide (e.1 ≠ key)) :=
  Dict.roster_filterKeys ownerOf acc.pending _

@[simp] theorem roster_amend (acc : InflightAccumulator) (key : String) (f : Obj → Obj) :
    (acc.amend key f).roster = acc.roster := by
  apply Dict.roster_mapEntries ownerOf
  intro k item
  by_cases h : k = key
  · rw [if_pos h]
    rfl
  · rw [if_neg h]

abbrev SettlesTo (acc out : InflightAccumulator) (why : String → Option Fate) : Prop :=
  Settles Fate.reason acc.roster acc.errors out.roster out.errors why

theorem settlesTo_gone {acc : InflightAccumulator} {after : List (String × Int)}
    {errors : Ledger ErrorReason Int} (q : String × PendingItem → Bool) (fate : Fate)
    (hkept : after = acc.roster.filter
      (fun e => decide (e.1 ∉ (acc.pending.entries.filter q).map Prod.fst)))
    (hcount : ∀ reason owner, errors.count reason owner = acc.errors.count reason owner +
      if fate.reason = some reason then
        (acc.pending.entries.filter q).countP (fun e => decide (e.2.rule.ruleId = owner))
      else 0) :
    Settles Fate.reason acc.roster acc.errors after errors
      (fun k => if k ∈ (acc.pending.entries.filter q).map Prod.fst then some fate else none) where
  kept := by
    rw [hkept]
    apply List.filter_congr
    intro e _
    by_cases h : e.1 ∈ (acc.pending.entries.filter q).map Prod.fst
    · simp only [h, not_true_eq_false, decide_false, if_true, Option.isNone_some]
    · simp only [h, not_false_eq_true, decide_true, if_false, Option.isNone_none]
  charged other reason owner hreason := by
    rw [hcount, roster, Dict.countP_roster]
    congr 1
    by_cases hf : fate = other
    · subst hf
      rw [if_pos hreason, List.countP_filter]
      apply List.countP_congr
      intro e he
      have hmem : e.1 ∈ (acc.pending.entries.filter q).map Prod.fst ↔ q e = true := by
        constructor
        · intro h
          obtain ⟨e', he', hk⟩ := List.mem_map.1 h
          obtain ⟨hin, hq⟩ := List.mem_filter.1 he'
          have hsame : e' = e :=
            List.inj_on_of_nodup_map acc.pending.nodup hin he hk
          exact hsame ▸ hq
        · exact fun h => List.mem_map_of_mem (List.mem_filter.2 ⟨he, h⟩)
      simp only [Bool.and_eq_true, decide_eq_true_eq, hmem]
      by_cases hq : q e = true
      · simp only [hq, and_true, if_true]
        exact Iff.rfl
      · simp [hq]
    · have hne : fate.reason ≠ some reason := fun h => hf (Fate.reason_injective h hreason)
      rw [if_neg hne]
      symm
      rw [List.countP_eq_zero]
      intro e _
      simp [hf]

theorem foldl_settles {step : InflightAccumulator → String × PendingItem → InflightAccumulator}
    {keep : String × PendingItem → Bool} {reason : ErrorReason}
    (hkeep : ∀ acc e, keep e = true →
      (step acc e).roster = acc.roster ∧ (step acc e).errors = acc.errors)
    (hdrop : ∀ acc e, keep e = false →
      step acc e = (acc.countError reason e.2.rule.ruleId 1).drop e.1)
    (entries : List (String × PendingItem)) (acc : InflightAccumulator) :
    let gone := entries.filter (fun e => !keep e)
    (entries.foldl step acc).roster =
        acc.roster.filter (fun e => decide (e.1 ∉ gone.map Prod.fst)) ∧
      ∀ reason' owner, (entries.foldl step acc).errors.count reason' owner =
        acc.errors.count reason' owner +
          if reason' = reason then gone.countP (fun e => decide (e.2.rule.ruleId = owner))
          else 0 := by
  induction entries generalizing acc with
  | nil => simp
  | cons e entries ih =>
    obtain ⟨hroster, hcount⟩ := ih (step acc e)
    cases hk : keep e with
    | true =>
      obtain ⟨hr, he⟩ := hkeep acc e hk
      simp only [List.foldl_cons, List.filter_cons, hk, Bool.not_true, Bool.false_eq_true,
        if_false]
      rw [hr] at hroster
      rw [he] at hcount
      exact ⟨hroster, hcount⟩
    | false =>
      simp only [List.foldl_cons, List.filter_cons, hk, Bool.not_false, if_true, List.map_cons,
        List.countP_cons]
      rw [hdrop acc e hk] at hroster hcount ⊢
      constructor
      · rw [hroster, roster_drop, List.filter_filter]
        apply List.filter_congr
        intro e' _
        apply Bool.eq_iff_iff.2
        simp [and_comm]
      · intro reason' owner
        rw [hcount reason' owner]
        change (acc.errors.charge reason e.2.rule.ruleId 1).count reason' owner + _ = _
        rw [Ledger.count_charge]
        by_cases hr : reason' = reason
        · by_cases ho : e.2.rule.ruleId = owner
          · simp [hr, ho]
            omega
          · have hne : owner ≠ e.2.rule.ruleId := fun h => ho h.symm
            simp [hr, ho, hne]
        · simp [hr]

/-- A stage that goes over its targets, and counts and removes those it does not keep. -/
theorem targets_settle {step : InflightAccumulator → String × PendingItem → InflightAccumulator}
    (keep : String × PendingItem → Bool) {fate : Fate} {reason : ErrorReason}
    (hreason : fate.reason = some reason)
    (hkeep : ∀ acc e, keep e = true →
      (step acc e).roster = acc.roster ∧ (step acc e).errors = acc.errors)
    (hdrop : ∀ acc e, keep e = false →
      step acc e = (acc.countError reason e.2.rule.ruleId 1).drop e.1)
    (acc : InflightAccumulator) (p : CompiledInflightRule → Bool) :
    ∃ why, SettlesTo acc ((acc.targets p).foldl step acc) why ∧
      ∀ k f, why k = some f → f = fate := by
  obtain ⟨hroster, hcount⟩ := foldl_settles hkeep hdrop (acc.targets p) acc
  have hgone : (acc.targets p).filter (fun e => !keep e) =
      acc.pending.entries.filter (fun e => !keep e && p e.2.rule) := by
    rw [targets, List.filter_filter]
  refine ⟨_, settlesTo_gone (fun e => !keep e && p e.2.rule) fate ?_ ?_, ?_⟩
  · rw [hroster, hgone]
  · intro reason' owner
    rw [hcount, hgone, hreason]
    simp only [Option.some.injEq, eq_comm]
  · intro k f hf
    by_cases hk : k ∈ (acc.pending.entries.filter (fun e => !keep e && p e.2.rule)).map Prod.fst
    · rw [if_pos hk] at hf
      exact (Option.some.inj hf).symm
    · rw [if_neg hk] at hf
      cases hf

theorem discard_settles (acc : InflightAccumulator) {fate : Fate} {reason : ErrorReason}
    (hreason : fate.reason = some reason) (p : CompiledInflightRule → Bool) :
    ∃ why, SettlesTo acc (acc.discard reason (acc.targets p)) why ∧
      ∀ k f, why k = some f → f = fate :=
  targets_settle (fun _ => false) hreason (fun _ _ h => nomatch h) (fun _ _ _ => rfl) acc p

theorem settleSequence_settles (acc : InflightAccumulator) (state : String → List (Nat × Obj))
    (p : CompiledInflightRule → Bool) :
    ∃ why, SettlesTo acc ((acc.targets p).foldl (settleSequence state) acc) why ∧
      ∀ k f, why k = some f → f = .sequenceBelow := by
  apply targets_settle (complete state) rfl
  · intro acc e h
    rw [settleSequence, if_pos h]
    exact ⟨roster_amend acc e.1 _, rfl⟩
  · intro acc e h
    rw [settleSequence, h]
    rfl

theorem settleWindow_settles (acc : InflightAccumulator) (totals : String → Nat)
    (p : CompiledInflightRule → Bool) :
    ∃ why, SettlesTo acc ((acc.targets p).foldl (settleWindow totals) acc) why ∧
      ∀ k f, why k = some f → f = .windowBelow := by
  apply targets_settle (fun e => !decide ((totals e.1 : Int) < e.2.rule.minCount)) rfl
  · intro acc e h
    rw [Bool.not_eq_true', decide_eq_false_iff_not] at h
    rw [settleWindow, if_neg h]
    exact ⟨roster_amend acc e.1 _, rfl⟩
  · intro acc e h
    rw [Bool.not_eq_false', decide_eq_true_eq] at h
    rw [settleWindow, if_pos h]

theorem foldl_countError (reason : ErrorReason) (f : α → Int) (n : α → Nat) (as : List α)
    (acc : InflightAccumulator) :
    (as.foldl (fun acc a => acc.countError reason (f a) (n a)) acc).pending = acc.pending ∧
      (as.foldl (fun acc a => acc.countError reason (f a) (n a)) acc).errors =
        as.foldl (fun l a => l.charge reason (f a) (n a)) acc.errors := by
  induction as generalizing acc with
  | nil => exact ⟨rfl, rfl⟩
  | cons a as ih => exact ih (acc.countError reason (f a) (n a))

/-- `_apply_flush_cap` counts every key that it cuts. -/
theorem applyFlushCap_settles (cfg : InflightSettings) (acc : InflightAccumulator) :
    ∃ why, SettlesTo acc (acc.applyFlushCap cfg) why ∧ ∀ k f, why k = some f → f = .flushCap := by
  rw [applyFlushCap]
  by_cases hcap : acc.pending.entries.length ≤ cfg.maxDetectionsPerFlush
  · rw [if_pos hcap]
    exact ⟨_, Settles.refl, fun k f h => nomatch h⟩
  · rw [if_neg hcap]
    let q : String × PendingItem → Bool := fun e => decide (e.1 ∉ acc.capKept cfg)
    obtain ⟨hpending, herrors⟩ := foldl_countError .flushCap Prod.fst Prod.snd
      ((acc.pending.entries.filter q).foldl (fun d e => d.bump e.2.rule.ruleId 1)
        (.empty : Dict Int Nat)).entries
      { acc with pending := acc.pending.filterKeys (fun k => decide (k ∈ acc.capKept cfg)) }
    refine ⟨_, settlesTo_gone q .flushCap ?_ ?_, ?_⟩
    · rw [roster, hpending]
      refine (Dict.roster_filterKeys ownerOf acc.pending _).trans ?_
      apply List.filter_congr
      intro e he
      have hgone := acc.pending.mem_keys_filter ownerOf (fun k => decide (k ∉ acc.capKept cfg)) he
      rw [decide_eq_decide, hgone, decide_eq_true_eq, not_not]
    · intro reason owner
      rw [herrors, Ledger.count_chargeEach, Dict.get?_foldl_bump]
      simp [Fate.reason, eq_comm]
    · intro k f hf
      by_cases hk : k ∈ (acc.pending.entries.filter q).map Prod.fst
      · rw [if_pos hk] at hf
        exact (Option.some.inj hf).symm
      · rw [if_neg hk] at hf
        cases hf

/-- What `flush_lost` is counted for: the pending keys that were not written. -/
theorem countLost_settles (acc : InflightAccumulator) (out : FlushOutcome)
    (h : out.interrupted = false → ∀ e ∈ acc.pending.entries, e.1 ∈ out.written) :
    Settles Fate.reason acc.roster acc.errors
      (acc.roster.filter (fun e => decide (e.1 ∈ out.written)))
      (acc.countLost out).errors
      (fun k => if k ∈ (acc.pending.entries.filter
        (fun e => decide (e.1 ∉ out.written))).map Prod.fst then some .flushLost else none) := by
  apply settlesTo_gone
  · apply List.filter_congr
    intro e he
    have hgone := acc.pending.mem_keys_filter ownerOf (fun k => decide (k ∉ out.written)) he
    rw [decide_eq_decide, hgone, decide_eq_true_eq, not_not]
  · intro reason owner
    cases hi : out.interrupted with
    | true =>
      obtain ⟨-, herrors⟩ := foldl_countError .flushLost
        (fun e : String × PendingItem => e.2.rule.ruleId) (fun _ => 1)
        (acc.pending.entries.filter (fun e => decide (e.1 ∉ out.written))) acc
      rw [countLost, hi, if_pos rfl, herrors, Ledger.count_chargeOnes]
      simp [Fate.reason, eq_comm]
    | false =>
      have hnil : acc.pending.entries.filter (fun e => decide (e.1 ∉ out.written)) = [] := by
        rw [List.filter_eq_nil_iff]
        intro e he
        simpa using h hi e he
      rw [countLost, hi, hnil]
      simp

section Play
variable (redis : (q : InflightAsk) → InflightReply q) (turn : String → RecordTurn)

/-- `_apply_sequences` removes keys for two reasons, and calls no `record`. -/
theorem applySequences_settles (acc : InflightAccumulator) (journal : Journal) :
    ∃ why, SettlesTo acc (acc.applySequences.play (flushReply redis turn) journal).1 why ∧
      (acc.applySequences.play (flushReply redis turn) journal).2 = journal ∧
      ∀ k f, why k = some f → f = .sequenceUnavailable ∨ f = .sequenceBelow := by
  rw [applySequences]
  by_cases ht : acc.targets (fun rule => rule.isLeg) = []
  · rw [if_pos ht]
    exact ⟨_, Settles.refl, rfl, fun k f h => nomatch h⟩
  · rw [if_neg ht]
    obtain ⟨gone, hgone, hfate⟩ :=
      acc.discard_settles (show Fate.sequenceUnavailable.reason = some _ from rfl)
        (fun rule => rule.isLeg)
    simp only [ask, Dialog.play_query, flushReply]
    generalize redis (.writeLegs ((acc.targets (fun rule => rule.isLeg)).map
      (fun e => LegWrite.mk e.1 e.2.legs (e.2.rule.windowSeconds + 5)))) = written
    cases written with
    | none => exact ⟨gone, hgone, rfl, fun k f h => .inl (hfate k f h)⟩
    | some u =>
      simp only [Dialog.play_query, flushReply]
      generalize redis (.readLegs ((acc.targets (fun rule => rule.isLeg)).map Prod.fst)) = read
      cases read with
      | none => exact ⟨gone, hgone, rfl, fun k f h => .inl (hfate k f h)⟩
      | some state =>
        obtain ⟨below, hbelow, hfate'⟩ := acc.settleSequence_settles state (fun rule => rule.isLeg)
        have hfates : ∀ k f, below k = some f → f = .sequenceUnavailable ∨ f = .sequenceBelow :=
          fun k f h => .inr (hfate' k f h)
        by_cases hc : (acc.targets (fun rule => rule.isLeg)).filter (complete state) = []
        · simp only [hc, if_true]
          exact ⟨below, hbelow, rfl, hfates⟩
        · simp only [hc, if_false]
          exact ⟨below, hbelow, rfl, hfates⟩

theorem applyWindows_play (items : List (String × PendingItem)) (journal : Journal) :
    ∃ totals, (applyWindows items).play (flushReply redis turn) journal = (totals, journal) := by
  rw [applyWindows]
  simp only [ask, Dialog.play_query, flushReply]
  generalize redis (.bumpWindows _) = bumped
  cases bumped with
  | none => exact ⟨none, rfl⟩
  | some u =>
    simp only [Dialog.play_query, flushReply]
    generalize redis (.readWindows _) = read
    cases read with
    | none => exact ⟨none, rfl⟩
    | some value => exact ⟨_, rfl⟩

/-- `_apply_sliding_windows` removes keys for two reasons, and calls no `record`. -/
theorem applySlidingWindows_settles (acc : InflightAccumulator) (journal : Journal) :
    ∃ why, SettlesTo acc (acc.applySlidingWindows.play (flushReply redis turn) journal).1 why ∧
      (acc.applySlidingWindows.play (flushReply redis turn) journal).2 = journal ∧
      ∀ k f, why k = some f → f = .windowUnavailable ∨ f = .windowBelow := by
  rw [applySlidingWindows]
  by_cases ht : acc.targets (fun rule => rule.windowed) = []
  · rw [if_pos ht]
    exact ⟨_, Settles.refl, rfl, fun k f h => nomatch h⟩
  · rw [if_neg ht]
    obtain ⟨totals, hplay⟩ := applyWindows_play redis turn
      (acc.targets (fun rule => rule.windowed)) journal
    rw [Dialog.play_bind, hplay]
    cases totals with
    | none =>
      obtain ⟨gone, hgone, hfate⟩ :=
        acc.discard_settles (show Fate.windowUnavailable.reason = some _ from rfl)
          (fun rule => rule.windowed)
      exact ⟨gone, hgone, rfl, fun k f h => .inl (hfate k f h)⟩
    | some totals =>
      obtain ⟨below, hbelow, hfate⟩ := acc.settleWindow_settles totals (fun rule => rule.windowed)
      exact ⟨below, hbelow, rfl, fun k f h => .inr (hfate k f h)⟩

def Untracked (reason : ErrorReason) : Prop := ∀ fate : Fate, fate.reason ≠ some reason

theorem foldl_untracked {f : InflightAccumulator → α → InflightAccumulator}
    (hf : ∀ acc a, (f acc a).roster = acc.roster ∧ ∀ reason owner, ¬ Untracked reason →
      (f acc a).errors.count reason owner = acc.errors.count reason owner)
    (as : List α) (acc : InflightAccumulator) :
    (as.foldl f acc).roster = acc.roster ∧ ∀ reason owner, ¬ Untracked reason →
      (as.foldl f acc).errors.count reason owner = acc.errors.count reason owner := by
  induction as generalizing acc with
  | nil => exact ⟨rfl, fun _ _ _ => rfl⟩
  | cons a as ih =>
    obtain ⟨hr, hc⟩ := ih (f acc a)
    obtain ⟨hr', hc'⟩ := hf acc a
    exact ⟨hr.trans hr', fun reason owner h =>
      (hc reason owner h).trans (hc' reason owner h)⟩

theorem countError_untracked (acc : InflightAccumulator) {reason : ErrorReason} (ruleId : Int)
    (n : Nat) (h : Untracked reason) (reason' : ErrorReason) (owner : Int)
    (h' : ¬ Untracked reason') :
    (acc.countError reason ruleId n).errors.count reason' owner =
      acc.errors.count reason' owner := by
  change (acc.errors.charge reason ruleId n).count reason' owner = _
  rw [Ledger.count_charge]
  by_cases hr : reason' = reason
  · subst hr
    exact absurd h h'
  · simp [hr]

theorem untracked_absenceKeyCap : Untracked .absenceKeyCap := by
  intro fate
  cases fate <;> simp [Fate.reason]

theorem untracked_absenceUnavailable : Untracked .absenceUnavailable := by
  intro fate
  cases fate <;> simp [Fate.reason]

theorem countRefused_untracked (cfg : InflightSettings) (acc out : InflightAccumulator)
    (view : SeenView) :
    (acc.countRefused cfg view out).roster = out.roster ∧ ∀ reason owner, ¬ Untracked reason →
      (acc.countRefused cfg view out).errors.count reason owner =
        out.errors.count reason owner := by
  apply foldl_untracked
  intro out p
  by_cases h : (acc.admitted cfg view p.1).2 = 0
  · simp [h]
  · simp only [h, if_false]
    exact ⟨rfl, fun reason owner hr => countError_untracked out p.1 _ untracked_absenceKeyCap
      reason owner hr⟩

theorem countUnavailable_untracked (acc out : InflightAccumulator) :
    (acc.countUnavailable out).roster = out.roster ∧ ∀ reason owner, ¬ Untracked reason →
      (acc.countUnavailable out).errors.count reason owner = out.errors.count reason owner := by
  apply foldl_untracked
  intro out p
  exact ⟨rfl, fun reason owner hr => countError_untracked out p.1 1 untracked_absenceUnavailable
    reason owner hr⟩

def presenceFate (acc : InflightAccumulator) (k : String) : Option Fate :=
  if ((acc.pending.get? k).map (fun item => item.rule.absence)).getD false then some .presence
  else none

theorem presence_settles {acc out : InflightAccumulator}
    (hroster : out.roster = acc.withoutPresences.roster)
    (hcount : ∀ reason owner, ¬ Untracked reason →
      out.errors.count reason owner = acc.errors.count reason owner) :
    SettlesTo acc out acc.presenceFate where
  kept := by
    rw [hroster, withoutPresences]
    refine (Dict.roster_filterKeys ownerOf acc.pending _).trans ?_
    apply List.filter_congr
    intro e _
    rw [presenceFate]
    cases acc.pending.get? e.1 with
    | none => rfl
    | some item => cases h : item.rule.absence <;> simp [h]
  charged fate reason owner hreason := by
    rw [hcount reason owner (fun h => h fate hreason)]
    symm
    rw [Nat.add_eq_left, List.countP_eq_zero]
    intro e _
    rw [presenceFate]
    have hne : fate ≠ .presence := by
      rintro rfl
      cases hreason
    split <;> simp [hne.symm]

/-- `apply_absence_presence` removes the keys of absence rules, whatever Redis does. -/
theorem applyAbsencePresence_settles (cfg : InflightSettings) (org : Int)
    (acc : InflightAccumulator) (journal : Journal) :
    SettlesTo acc ((acc.applyAbsencePresence cfg org).play (flushReply redis turn) journal).1
        acc.presenceFate ∧
      ((acc.applyAbsencePresence cfg org).play (flushReply redis turn) journal).2 = journal := by
  rw [applyAbsencePresence]
  simp only [ask, Dialog.play_query, flushReply]
  by_cases hr : acc.watchedRules = []
  · rw [if_pos hr]
    exact ⟨presence_settles rfl (fun _ _ _ => rfl), rfl⟩
  · rw [if_neg hr]
    simp only [Dialog.play_query, flushReply]
    generalize redis (.readSeen _ _) = read
    obtain ⟨hroster, hcount⟩ := acc.countUnavailable_untracked acc.withoutPresences
    cases read with
    | none => exact ⟨presence_settles hroster hcount, rfl⟩
    | some view =>
      simp only [Dialog.play_query, flushReply]
      generalize redis (.writeSeen _ _ _ _) = written
      obtain ⟨hroster', hcount'⟩ := acc.countRefused_untracked cfg acc.withoutPresences view
      cases written with
      | none =>
        obtain ⟨hroster'', hcount''⟩ :=
          acc.countUnavailable_untracked (acc.countRefused cfg view acc.withoutPresences)
        exact ⟨presence_settles (hroster''.trans hroster') (fun reason owner h =>
          (hcount'' reason owner h).trans (hcount' reason owner h)), rfl⟩
      | some u => exact ⟨presence_settles hroster' hcount', rfl⟩

def createsRow (org : Int) (e : String × PendingItem) : Bool :=
  match turn e.1 with
  | .refused => false
  | .interrupted now found | .completed now found _ => found.creates now (e.2.recordCall org e.1)

def readsNew (org : Int) (e : String × PendingItem) : Bool :=
  match turn e.1 with
  | .completed now found others => found.creates now (e.2.recordCall org e.1) && decide (others = 0)
  | _ => false

/-- No call that the write loop makes commits and then raises, and no row that it creates is
matched by another worker before it is read back. -/
def WritesCleanly (org : Int) : List (String × PendingItem) → Prop
  | [] => True
  | e :: rest =>
    match turn e.1 with
    | .refused => True
    | .interrupted _ _ => False
    | .completed now found others =>
      (found.creates now (e.2.recordCall org e.1) = true → others = 0) ∧ WritesCleanly org rest

/-- A write loop over `entries`: those written, the one that was committed and then raised, and
those that were lost. -/
structure WriteRun (org : Int) (entries : List (String × PendingItem)) (out : FlushOutcome)
    (journal : Journal) (done cut lost : List (String × PendingItem)) : Prop where
  split : entries = done ++ cut ++ lost
  written : out.written = done.map Prod.fst
  emits : out.emits.map (fun t => t.dedupKey) = (done.filter (readsNew turn org)).map Prod.fst
  journal : journal = (done ++ cut).map (fun e => (e.1, createsRow turn org e))
  interrupted : cut ++ lost ≠ [] → out.interrupted = true
  cut : cut.length ≤ 1

theorem recordAll_play (org : Int) (entries : List (String × PendingItem)) (out : FlushOutcome)
    (journal : Journal) :
    let run := (recordAll org entries out).play (flushReply redis turn) journal
    ∃ done cut lost, entries = done ++ cut ++ lost ∧
      run.1.written = out.written ++ done.map Prod.fst ∧
      run.1.emits.map (fun t => t.dedupKey) =
        out.emits.map (fun t => t.dedupKey) ++ (done.filter (readsNew turn org)).map Prod.fst ∧
      run.2 = journal ++ (done ++ cut).map (fun e => (e.1, createsRow turn org e)) ∧
      (cut ++ lost ≠ [] → run.1.interrupted = true) ∧ cut.length ≤ 1 ∧
      (WritesCleanly turn org entries ↔
        cut = [] ∧ ∀ e ∈ done, createsRow turn org e = true → readsNew turn org e = true) := by
  induction entries generalizing out journal with
  | nil => exact ⟨[], [], [], by simp [recordAll, Dialog.play_pure, WritesCleanly]⟩
  | cons e rest ih =>
    simp only [recordAll, ask, Dialog.play_query, flushReply, recordCall_dedupKey]
    cases h : turn e.1 with
    | refused =>
      refine ⟨[], [], e :: rest, ?_⟩
      simp [h, Dialog.play_pure, WritesCleanly]
    | interrupted now found =>
      refine ⟨[], [e], rest, ?_⟩
      simp [h, Dialog.play_pure, WritesCleanly, createsRow]
    | completed now found others =>
      let call := e.2.recordCall org e.1
      let det : RecordedRow := ⟨(found.committed now call).id,
        (found.committed now call).count + others⟩
      obtain ⟨done, cut, lost, hsplit, hw, he, hj, hi, hc, hclean⟩ :=
        ih (out.add e.1 e.2 det) (journal ++ [(e.1, found.creates now call)])
      have hcreates : createsRow turn org e = found.creates now call := by rw [createsRow, h]
      have hreads : readsNew turn org e = (found.creates now call && decide (others = 0)) := by
        rw [readsNew, h]
      have hnew : det.count = 1 ↔ readsNew turn org e = true := by
        rw [hreads, Bool.and_eq_true, decide_eq_true_eq, ← found.committed_count now call]
        have hpos := found.committed_pos now call
        simp only [det]
        omega
      refine ⟨e :: done, cut, lost, ?_, ?_, ?_, ?_, hi, hc, ?_⟩
      · rw [hsplit]
        rfl
      · rw [hw, FlushOutcome.add, List.map_cons, List.append_assoc]
        rfl
      · rw [he, List.filter_cons, FlushOutcome.add]
        by_cases hn : readsNew turn org e = true
        · rw [if_pos hn, if_pos (hnew.2 hn)]
          simp [PendingItem.emit]
        · rw [if_neg hn, if_neg (fun hd => hn (hnew.1 hd))]
      · rw [hj, List.cons_append, List.map_cons, List.append_assoc, hcreates]
        rfl
      · simp only [WritesCleanly, h, hclean, List.forall_mem_cons, hcreates, hreads,
          Bool.and_eq_true, decide_eq_true_eq]
        constructor
        · exact fun ⟨ho, hcut, hdone⟩ => ⟨hcut, fun hn => ⟨hn, ho hn⟩, hdone⟩
        · exact fun ⟨hcut, ho, hdone⟩ => ⟨fun hn => (ho hn).2, hcut, hdone⟩

/-- What the flush writes after its four filters. -/
theorem flushSync_play (org : Int) (pending : Pending) :
    ∃ done cut lost,
      WriteRun turn org pending.entries
        ((flushSync org pending).play (flushReply redis turn) []).1
        ((flushSync org pending).play (flushReply redis turn) []).2 done cut lost ∧
      ((redis .openSession = none ∨ WritesCleanly turn org pending.entries) ↔
        cut = [] ∧ ∀ e ∈ done, createsRow turn org e = true → readsNew turn org e = true) := by
  simp only [flushSync, ask, Dialog.play_query, flushReply]
  cases hopen : redis .openSession with
  | none =>
    refine ⟨[], [], pending.entries, ⟨rfl, rfl, rfl, rfl, fun _ => rfl, Nat.zero_le 1⟩, ?_⟩
    simp
  | some u =>
    obtain ⟨done, cut, lost, hsplit, hw, he, hj, hi, hc, hclean⟩ :=
      recordAll_play redis turn org pending.entries {} []
    refine ⟨done, cut, lost, ?_, ?_⟩
    · rw [Dialog.play_bind]
      simp only [Dialog.play_query, flushReply]
      cases redis .closeSession with
      | none => exact ⟨hsplit, hw, he, hj, fun _ => rfl, hc⟩
      | some v => exact ⟨hsplit, hw, he, hj, hi, hc⟩
    · simpa using hclean

theorem capFlush_play (cfg : InflightSettings) (acc : InflightAccumulator) (journal : Journal) :
    (acc.capFlush cfg).play (flushReply redis turn) journal = (acc.applyFlushCap cfg, journal) := by
  rw [capFlush]
  by_cases hcap : acc.pending.entries.length ≤ cfg.maxDetectionsPerFlush
  · rw [if_pos hcap, applyFlushCap, if_pos hcap]
    rfl
  · rw [if_neg hcap]
    rfl

/-- The filters together: each key goes at most once, none as recorded or lost. -/
theorem flushFilters_settles (cfg : InflightSettings) (org : Int) (acc : InflightAccumulator) :
    ∃ why, SettlesTo acc ((flushFilters cfg org acc).play (flushReply redis turn) []).1 why ∧
      ((flushFilters cfg org acc).play (flushReply redis turn) []).2 = [] ∧
      (∀ k f, why k = some f → f ≠ .recorded ∧ f ≠ .flushLost) ∧
      ∀ k, why k = some .presence ↔ acc.presenceFate k = some .presence := by
  obtain ⟨hpresence, hj₁⟩ := applyAbsencePresence_settles redis turn cfg org acc []
  rw [flushFilters, Dialog.play_bind, hj₁]
  generalize ((acc.applyAbsencePresence cfg org).play (flushReply redis turn) []).1 = acc₁
    at hpresence ⊢
  obtain ⟨why₂, hsequences, hj₂, hfate₂⟩ := applySequences_settles redis turn acc₁ []
  rw [Dialog.play_bind, hj₂]
  generalize (acc₁.applySequences.play (flushReply redis turn) []).1 = acc₂ at hsequences ⊢
  obtain ⟨why₃, hwindows, hj₃, hfate₃⟩ := applySlidingWindows_settles redis turn acc₂ []
  rw [Dialog.play_bind, hj₃]
  generalize (acc₂.applySlidingWindows.play (flushReply redis turn) []).1 = acc₃ at hwindows ⊢
  rw [capFlush_play]
  obtain ⟨why₄, hcap, hfate₄⟩ := applyFlushCap_settles cfg acc₃
  have hlater : ∀ k f, ((why₂ k).or (why₃ k)).or (why₄ k) = some f →
      f ≠ .recorded ∧ f ≠ .flushLost ∧ f ≠ .presence := by
    intro k f hf
    rw [Option.or_eq_some_iff, Option.or_eq_some_iff] at hf
    obtain (h₂ | ⟨-, h₃⟩) | ⟨-, h₄⟩ := hf
    · obtain rfl | rfl := hfate₂ k f h₂ <;> decide
    · obtain rfl | rfl := hfate₃ k f h₃ <;> decide
    · obtain rfl := hfate₄ k f h₄
      decide
  refine ⟨_, hpresence.trans ((hsequences.trans hwindows).trans hcap), rfl, ?_, ?_⟩
  · intro k f hf
    rw [Option.or_eq_some_iff] at hf
    obtain h₁ | ⟨-, h⟩ := hf
    · rw [presenceFate] at h₁
      split at h₁
      · cases h₁
        decide
      · cases h₁
    · exact ⟨(hlater k f h).1, (hlater k f h).2.1⟩
  · intro k
    rw [Option.or_eq_some_iff]
    exact or_iff_left (fun h => (hlater k .presence h.2).2.2 rfl)

end Play

end InflightAccumulator

/-- Every pending key has one fate, the fates are counted once for each rule, the recorded keys
are the durable ones, and the tickets those of the rows that were created. -/
structure FatesCounted (acc : InflightAccumulator) (errors : Ledger ErrorReason Int)
    (journal : Journal) (emits : List DetectionEmit) (fate : String → Fate) : Prop where
  presence : ∀ e ∈ acc.pending.entries, fate e.1 = .presence ↔ e.2.rule.absence = true
  counted : ∀ f reason ruleId, Fate.reason f = some reason →
    errors.count reason ruleId = acc.errors.count reason ruleId +
      acc.roster.countP (fun e => decide (e.2 = ruleId) && decide (fate e.1 = f))
  recorded : ∀ e ∈ acc.roster, fate e.1 = .recorded ↔ e.1 ∈ journal.map Prod.fst
  once : (journal.map Prod.fst).Sublist (acc.roster.map Prod.fst)
  emitted : emits.map (fun t => t.dedupKey) = (journal.filter Prod.snd).map Prod.fst

/-- The pending keys that the write loop goes over. -/
def writtenPending (cfg : InflightSettings) (org : Int) (acc : InflightAccumulator)
    (redis : (q : InflightAsk) → InflightReply q) (turn : String → RecordTurn) :
    List (String × PendingItem) :=
  ((flushFilters cfg org acc).play (flushReply redis turn) []).1.pending.entries

section Exact
variable {cfg : InflightSettings} {org : Int} {acc filtered : InflightAccumulator}
  {redis : (q : InflightAsk) → InflightReply q} {turn : String → RecordTurn}
  {why : String → Option Fate} {out : FlushOutcome} {journal : Journal}
  {done cut lost : List (String × PendingItem)}

open InflightAccumulator

def codeFate (why : String → Option Fate) (out : FlushOutcome) (k : String) : Fate :=
  (why k).getD (if k ∈ out.written then .recorded else .flushLost)

theorem codeFate_counted (hfilter : SettlesTo acc filtered why)
    (hrun : WriteRun turn org filtered.pending.entries out journal done cut lost)
    (hreason : Fate.reason f = some reason) (ruleId : Int) :
    (filtered.countLost out).errors.count reason ruleId =
      acc.errors.count reason ruleId +
        acc.roster.countP (fun e => decide (e.2 = ruleId) && decide (codeFate why out e.1 = f)) := by
  have hwritten : out.interrupted = false → ∀ e ∈ filtered.pending.entries, e.1 ∈ out.written := by
    intro hi e he
    have hnil : cut ++ lost = [] := by
      by_contra hne
      rw [hrun.interrupted hne] at hi
      cases hi
    obtain ⟨rfl, rfl⟩ := List.append_eq_nil_iff.1 hnil
    rw [hrun.split, List.append_nil, List.append_nil] at he
    rw [hrun.written]
    exact List.mem_map_of_mem he
  have hlost := filtered.countLost_settles out hwritten
  rw [(hfilter.trans hlost).charged f reason ruleId hreason]
  congr 1
  apply List.countP_congr
  intro e he
  have hf : f ≠ .recorded := by
    rintro rfl
    cases hreason
  simp only [Bool.and_eq_true, decide_eq_true_eq]
  apply and_congr_right
  intro _
  rw [codeFate]
  cases hw : why e.1 with
  | some g => simp
  | none =>
    have hkept : e ∈ filtered.roster := by
      rw [hfilter.kept]
      exact List.mem_filter.2 ⟨he, by rw [hw]; rfl⟩
    have hgone := filtered.pending.mem_keys_filter ownerOf
      (fun k => decide (k ∉ out.written)) hkept
    rw [decide_eq_true_eq] at hgone
    by_cases hin : e.1 ∈ out.written
    · rw [if_pos hin, if_neg (fun h => hgone.1 h hin)]
      simp [hf.symm]
    · rw [if_neg hin, if_pos (hgone.2 hin)]
      simp

theorem codeFate_recorded (hfilter : SettlesTo acc filtered why)
    (hrun : WriteRun turn org filtered.pending.entries out journal done cut lost)
    (hlate : ∀ k f, why k = some f → f ≠ .recorded ∧ f ≠ .flushLost) (e : String × Int) :
    codeFate why out e.1 = .recorded ↔ e.1 ∈ out.written := by
  rw [codeFate]
  cases hw : why e.1 with
  | some g =>
    have hne := (hlate e.1 g hw).1
    refine iff_of_false hne ?_
    intro hin
    rw [hrun.written] at hin
    obtain ⟨e', he', hk⟩ := List.mem_map.1 hin
    have hmem : (e'.1, ownerOf e'.2) ∈ filtered.roster := by
      apply List.mem_map_of_mem (f := fun p : String × PendingItem => (p.1, ownerOf p.2))
      rw [hrun.split, List.append_assoc]
      exact List.mem_append_left _ he'
    rw [hfilter.kept] at hmem
    have hnone := (List.mem_filter.1 hmem).2
    rw [hk, hw] at hnone
    cases hnone
  | none =>
    by_cases hin : e.1 ∈ out.written
    · simp [hin]
    · simp [hin]

theorem codeFate_presence
    (hpresence : ∀ k, why k = some .presence ↔ acc.presenceFate k = some .presence)
    {e : String × PendingItem} (he : e ∈ acc.pending.entries) :
    codeFate why out e.1 = .presence ↔ e.2.rule.absence = true := by
  have hget : acc.pending.get? e.1 = some e.2 := acc.pending.mem_entries_iff.1 he
  have hfate : acc.presenceFate e.1 = some .presence ↔ e.2.rule.absence = true := by
    rw [presenceFate, hget]
    cases h : e.2.rule.absence <;> simp [h]
  rw [← hfate, ← hpresence, codeFate]
  cases why e.1 with
  | some g => simp
  | none =>
    by_cases hin : e.1 ∈ out.written
    · simp [hin]
    · simp [hin]

theorem codeFate_exact (hfilter : SettlesTo acc filtered why)
    (hrun : WriteRun turn org filtered.pending.entries out journal done [] lost)
    (hlate : ∀ k f, why k = some f → f ≠ .recorded ∧ f ≠ .flushLost)
    (hpresence : ∀ k, why k = some .presence ↔ acc.presenceFate k = some .presence)
    (hnew : ∀ e ∈ done, createsRow turn org e = true → readsNew turn org e = true) :
    FatesCounted acc (filtered.countLost out).errors journal out.emits (codeFate why out) := by
  have hjournal : journal.map Prod.fst = out.written := by
    rw [hrun.journal, hrun.written, List.append_nil, List.map_map]
    rfl
  refine ⟨fun e he => codeFate_presence hpresence he,
    fun f reason ruleId hreason => codeFate_counted hfilter hrun hreason ruleId,
    fun e _ => ?_, ?_, ?_⟩
  · rw [hjournal]
    exact codeFate_recorded hfilter hrun hlate e
  · have hsub : (filtered.roster.map Prod.fst).Sublist (acc.roster.map Prod.fst) := by
      rw [hfilter.kept]
      exact List.filter_sublist.map Prod.fst
    refine List.Sublist.trans ?_ hsub
    rw [hjournal, hrun.written, roster, Dict.roster, List.map_map, hrun.split]
    simp only [List.append_nil, List.map_append]
    exact List.sublist_append_left _ _
  · rw [hrun.emits, hrun.journal, List.append_nil, List.filter_map, List.map_map]
    have hsame : done.filter (readsNew turn org) = done.filter (createsRow turn org) := by
      apply List.filter_congr
      intro e he
      apply Bool.eq_iff_iff.2
      constructor
      · intro hr
        rw [readsNew] at hr
        rw [createsRow]
        cases h : turn e.1 with
        | completed now found others =>
          rw [h] at hr
          exact (Bool.and_eq_true _ _ ▸ hr).1
        | _ =>
          rw [h] at hr
          cases hr
      · exact hnew e he
    rw [hsame]
    rfl

theorem cut_eq_nil (hfilter : SettlesTo acc filtered why)
    (hrun : WriteRun turn org filtered.pending.entries out journal done cut lost)
    (hlate : ∀ k f, why k = some f → f ≠ .recorded ∧ f ≠ .flushLost)
    (hpresence : ∀ k, why k = some .presence ↔ acc.presenceFate k = some .presence)
    (h : FatesCounted acc (filtered.countLost out).errors journal emits fate) : cut = [] := by
  cases cut with
  | nil => rfl
  | cons c rest =>
    obtain rfl : rest = [] := by
      have hlen := hrun.cut
      rw [List.length_cons] at hlen
      exact List.length_eq_zero_iff.1 (by omega)
    let mine : String × Int → Bool := fun e => decide (e.2 = c.2.rule.ruleId)
    have hother : ∀ f, f ≠ .recorded →
        acc.roster.countP (fun e => mine e && decide (fate e.1 = f)) =
          acc.roster.countP (fun e => mine e && decide (codeFate why out e.1 = f)) := by
      intro f hf
      cases hreason : Fate.reason f with
      | some reason =>
        have hs := h.counted f reason c.2.rule.ruleId hreason
        rw [codeFate_counted hfilter hrun hreason c.2.rule.ruleId] at hs
        exact (Nat.add_left_cancel hs).symm
      | none =>
        obtain rfl : f = .presence := by cases f <;> first | rfl | exact absurd rfl hf | cases hreason
        apply List.countP_congr
        intro e he
        obtain ⟨e', he', rfl⟩ := List.mem_map.1 he
        simp only [Bool.and_eq_true, decide_eq_true_eq, h.presence e' he',
          codeFate_presence hpresence he']
    have hrec := countP_class_eq acc.roster mine (fun e => fate e.1)
      (fun e => codeFate why out e.1) .recorded hother
    have hc : (c.1, c.2.rule.ruleId) ∈ acc.roster := by
      have hmem : (c.1, c.2.rule.ruleId) ∈ filtered.roster := by
        apply List.mem_map_of_mem (f := fun p : String × PendingItem => (p.1, ownerOf p.2))
        rw [hrun.split]
        simp
      rw [hfilter.kept] at hmem
      exact (List.mem_filter.1 hmem).1
    have hfresh : c.1 ∉ out.written := by
      intro hin
      rw [hrun.written] at hin
      obtain ⟨e, he, hk⟩ := List.mem_map.1 hin
      have hnodup := filtered.pending.nodup
      rw [hrun.split, List.map_append, List.map_append, List.append_assoc] at hnodup
      exact (List.disjoint_of_nodup_append hnodup) (List.mem_map_of_mem he) (by simp [hk])
    have hsplit := countP_or (p := fun e => mine e && decide (fate e.1 = .recorded))
      (q := fun e => mine e && decide (codeFate why out e.1 = .recorded))
      (r := fun e => mine e && decide (e.1 = c.1)) (l := acc.roster)
      (fun e he => by
        apply Bool.eq_iff_iff.2
        simp only [Bool.or_eq_true, Bool.and_eq_true, decide_eq_true_eq, h.recorded e he,
          codeFate_recorded hfilter hrun hlate e, hrun.journal, hrun.written, List.map_map,
          List.map_append, List.mem_append, List.map_cons, List.map_nil, List.mem_singleton,
          ← and_or_left]
        exact Iff.rfl)
      (fun e _ hq => by
        simp only [Bool.and_eq_true, decide_eq_true_eq,
          codeFate_recorded hfilter hrun hlate e] at hq
        rw [Bool.and_eq_false_iff]
        exact .inr (decide_eq_false (fun hk => hfresh (hk ▸ hq.2))))
    have hpos : 0 < acc.roster.countP (fun e => mine e && decide (e.1 = c.1)) :=
      List.countP_pos_iff.2 ⟨(c.1, c.2.rule.ruleId), hc, by simp [mine]⟩
    omega

theorem readsNew_of_emitted (hrun : WriteRun turn org filtered.pending.entries out journal done []
      lost)
    (h : FatesCounted acc ledger journal out.emits fate) :
    ∀ e ∈ done, createsRow turn org e = true → readsNew turn org e = true := by
  intro e he hc
  have hemitted := h.emitted
  rw [hrun.emits, hrun.journal, List.append_nil, List.filter_map, List.map_map] at hemitted
  have hmem : e.1 ∈ (done.filter (readsNew turn org)).map Prod.fst := by
    rw [hemitted]
    exact List.mem_map.2 ⟨e, List.mem_filter.2 ⟨he, hc⟩, rfl⟩
  obtain ⟨e', he', hk⟩ := List.mem_map.1 hmem
  obtain ⟨hin, hr⟩ := List.mem_filter.1 he'
  have hentry : ∀ d ∈ done, d ∈ filtered.pending.entries := by
    intro d hd
    rw [hrun.split, List.append_assoc]
    exact List.mem_append_left _ hd
  have hsame : e' = e :=
    List.inj_on_of_nodup_map filtered.pending.nodup (hentry e' hin) (hentry e he) hk
  exact hsame ▸ hr

end Exact

/-- The fates of a flush are exact just when no `record` that its write loop makes commits and
then raises, and no row that it creates is matched by another worker before it is read back. -/
theorem flush_accounting_exact_iff (cfg : InflightSettings) (org : Int) (acc : InflightAccumulator)
    (redis : (q : InflightAsk) → InflightReply q) (turn : String → RecordTurn) :
    let run := (flushInflight cfg org acc).play (flushReply redis turn) []
    (∃ fate, FatesCounted acc run.1.1.errors run.2 run.1.2 fate) ↔
      redis .openSession = none ∨
        InflightAccumulator.WritesCleanly turn org (writtenPending cfg org acc redis turn) := by
  obtain ⟨why, hfilter, hjournal, hlate, hpresence⟩ :=
    InflightAccumulator.flushFilters_settles redis turn cfg org acc
  rw [writtenPending, flushInflight, Dialog.play_bind, hjournal]
  generalize ((flushFilters cfg org acc).play (flushReply redis turn) []).1 = filtered
    at hfilter ⊢
  have hrun : ∃ out journal done cut lost,
      (if filtered.pending.isEmpty then pure (filtered, [])
        else do
          let out ← flushSync org filtered.pending
          pure (filtered.countLost out, out.emits) :
        InflightTask (InflightAccumulator × List DetectionEmit)).play
          (flushReply redis turn) [] = ((filtered.countLost out, out.emits), journal) ∧
      InflightAccumulator.WriteRun turn org filtered.pending.entries out journal done cut lost ∧
      ((redis .openSession = none ∨
          InflightAccumulator.WritesCleanly turn org filtered.pending.entries) ↔
        cut = [] ∧ ∀ e ∈ done, InflightAccumulator.createsRow turn org e = true →
          InflightAccumulator.readsNew turn org e = true) := by
    cases hempty : filtered.pending.isEmpty with
    | true =>
      have hnil : filtered.pending.entries = [] := List.isEmpty_iff.1 hempty
      refine ⟨{}, [], [], [], [], rfl, ⟨?_, rfl, rfl, rfl, fun h => absurd rfl h, Nat.zero_le 1⟩,
        ?_⟩
      · rw [hnil]
        rfl
      · rw [hnil]
        simp [InflightAccumulator.WritesCleanly]
    | false =>
      obtain ⟨done, cut, lost, hwrite, hclean⟩ :=
        InflightAccumulator.flushSync_play redis turn org filtered.pending
      refine ⟨_, _, done, cut, lost, ?_, hwrite, hclean⟩
      rw [if_neg Bool.false_ne_true, Dialog.play_bind]
      rfl
  obtain ⟨out, journal, done, cut, lost, hplay, hwrite, hclean⟩ := hrun
  rw [hplay, hclean]
  constructor
  · rintro ⟨fate, hfate⟩
    obtain rfl := cut_eq_nil hfilter hwrite hlate hpresence hfate
    exact ⟨rfl, readsNew_of_emitted hwrite hfate⟩
  · rintro ⟨rfl, hnew⟩
    exact ⟨codeFate why out, codeFate_exact hfilter hwrite hlate hpresence hnew⟩

def userRule : CompiledInflightRule where
  ruleId := 7
  name := "user"
  severityId := 4
  suppressionWindowSeconds := 3600
  groupByPath := some ["raw", "user"]
  clauses := []

def onePending : InflightAccumulator :=
  { pending := Dict.empty.set "inflight:1:7:root"
      { rule := userRule, integrationId := none, source := [], token := "root" } }

/-- A Redis that is up, and a database that opens and closes its session. -/
def quietRedis : (q : InflightAsk) → InflightReply q
  | .clock => 0
  | .openSession | .closeSession => some ()
  | .warnFlushCap _ => ()
  | .tickLock _ | .lagging _ _ _ _ | .closeDetection _ => false
  | .readSeen _ _ | .writeSeen _ _ _ _ | .writeLegs _ | .readLegs _ | .dropLegs _
  | .bumpWindows _ | .readWindows _ | .record _ | .readWatch _ _ | .forget _ _ _ _
  | .clearAlerted _ _ _ | .markAlerted _ _ _ _ | .writeTick _ _ _ => none

/-- A refresh that raises after its commit: the row is there, counted as lost and without ticket. -/
theorem committed_row_counted_lost :
    let run := (flushInflight {} 1 onePending).play
      (flushReply quietRedis (fun _ => .interrupted 0 ⟨[], by simp⟩)) []
    run.2 = [("inflight:1:7:root", true)] ∧ run.1.2 = [] ∧
      run.1.1.errors.count .flushLost 7 = 1 ∧
      ¬ ∃ fate, FatesCounted onePending run.1.1.errors run.2 run.1.2 fate := by
  intro run
  have hjournal : run.2 = [("inflight:1:7:root", true)] := by decide +kernel
  have hlost : run.1.1.errors.count .flushLost 7 = 1 := by decide +kernel
  refine ⟨hjournal, by decide +kernel, hlost, ?_⟩
  rintro ⟨fate, h⟩
  have hroster : onePending.roster = [("inflight:1:7:root", 7)] := rfl
  have hrecorded : fate "inflight:1:7:root" = .recorded := by
    apply (h.recorded ("inflight:1:7:root", 7) (by rw [hroster]; exact List.mem_singleton_self _)).2
    rw [hjournal]
    exact List.mem_singleton_self _
  have hcounted := h.counted .flushLost .flushLost 7 rfl
  rw [hlost, hroster] at hcounted
  simp [hrecorded, onePending, Ledger.count, Dict.get?, Dict.empty] at hcounted

end CentralOps
