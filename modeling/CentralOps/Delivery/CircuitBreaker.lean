import Mathlib.Data.Nat.Cast.Order.Basic
import Mathlib.Tactic.Linarith
import CentralOps.Lib.ExpiringValue
import CentralOps.Lib.Stages
import CentralOps.Delivery.Dispatch

namespace CentralOps
set_option autoImplicit true

/-- The `breaker` part of a destination's configuration, within the bounds of its validation. -/
structure BreakerConfig where
  failureThreshold : Nat := 5
  cooldownS : Nat := 30
  windowS : Nat := 60
  threshold_mem : 1 ≤ failureThreshold ∧ failureThreshold ≤ 1000 := by decide
  cooldown_mem : 1 ≤ cooldownS ∧ cooldownS ≤ 3600 := by decide
  window_mem : 1 ≤ windowS ∧ windowS ≤ 86400 := by decide

inductive BreakerAsk where
  | existsOpen
  | acquireProbe (ttl : Nat)
  | deleteKeys
  | countFailure (window : Nat)
  | setOpen (cooldown : Nat)

abbrev BreakerAnswer : BreakerAsk → Type
  | .existsOpen => Bool
  | .acquireProbe _ => Bool
  | .deleteKeys => Unit
  | .countFailure _ => Nat
  | .setOpen _ => Unit

abbrev BreakerTask := Dialog BreakerAsk BreakerAnswer (Except DispatchError Unit)

namespace CircuitBreaker

/-- `check`: it returns where the send is let through. -/
def check (probeTtlS : Nat) : BreakerTask := do
  let isOpen : Bool ← Dialog.query BreakerAsk.existsOpen
  if !isOpen then pure (.ok ())
  else
    let acquired : Bool ← Dialog.query (BreakerAsk.acquireProbe probeTtlS)
    if acquired then pure (.ok ()) else pure (.error .breakerOpen)

def recordSuccess : BreakerTask := do
  Dialog.query BreakerAsk.deleteKeys
  pure (.ok ())

def recordFailure (threshold cooldownS windowS : Nat) : BreakerTask := do
  let failCount : Nat ← Dialog.query (BreakerAsk.countFailure windowS)
  if threshold ≤ failCount then
    Dialog.query (BreakerAsk.setOpen cooldownS)
    pure (.ok ())
  else pure (.ok ())

end CircuitBreaker

inductive BreakerCall where
  | check
  | recordSuccess
  | recordFailure

/-- The `_for_config` functions. -/
def BreakerCall.program (cfg : BreakerConfig) : BreakerCall → BreakerTask
  | .check => CircuitBreaker.check cfg.cooldownS
  | .recordSuccess => CircuitBreaker.recordSuccess
  | .recordFailure => CircuitBreaker.recordFailure cfg.failureThreshold cfg.cooldownS cfg.windowS

/-- The keys of a destination, and beside them when sends were let through, whose last one is a
probe, and whether the breaker was closed since it last opened. -/
structure BreakerWorld (ι : Type) where
  now : Rat := 0
  fail : Option (ExpiringValue Nat) := none
  opened : Option (ExpiringValue Unit) := none
  probe : Option (ExpiringValue Unit) := none
  admitted : List Rat := []
  probing : ι → Bool := fun _ => false
  healed : Bool := false

namespace BreakerWorld

variable {ι : Type} [DecidableEq ι]

/-- `INCR` answers one more than it reads. -/
def nextCount (w : BreakerWorld ι) : Nat := (ExpiringValue.read w.now w.fail).getD 0 + 1

/-- The answer to a command of a worker, and what it leaves. -/
def reply (i : ι) (w : BreakerWorld ι) : (q : BreakerAsk) → BreakerAnswer q × BreakerWorld ι
  | .existsOpen =>
    if (ExpiringValue.read w.now w.opened).isSome then
      (true, { w with probing := Function.update w.probing i false })
    else
      (false, { w with
        admitted := w.now :: w.admitted
        probing := Function.update w.probing i false })
  | .acquireProbe ttl =>
    if (ExpiringValue.read w.now w.probe).isSome then (false, w)
    else
      (true, { w with
        probe := ExpiringValue.setEx w.now ttl ()
        admitted := w.now :: w.admitted
        probing := Function.update w.probing i true })
  | .deleteKeys => ((), { w with fail := none, opened := none, probe := none, healed := true })
  | .countFailure window =>
    (w.nextCount, { w with fail := ExpiringValue.setEx w.now window w.nextCount })
  | .setOpen cooldown => ((), { w with opened := ExpiringValue.setEx w.now cooldown (), healed := false })

end BreakerWorld

variable {ι : Type} [DecidableEq ι]

abbrev BreakerCrew (ι : Type) :=
  Crew (BreakerWorld ι) ι BreakerCall BreakerAsk BreakerAnswer (Except DispatchError Unit)

def idleBreaker : BreakerCrew ι := ⟨{}, fun _ => none⟩

/-- Which commands of a worker are let happen. -/
abbrev BreakerLaw (ι : Type) := ι → BreakerWorld ι → BreakerAsk → Prop

def breakerRules (cfg : BreakerConfig) (allowed : BreakerLaw ι) :
    CrewRules (BreakerWorld ι) ι BreakerCall BreakerAsk BreakerAnswer
      (Except DispatchError Unit) where
  program := BreakerCall.program cfg
  starts _ _ _ := True
  answers i w q r u := allowed i w q ∧ (r, u) = w.reply i q
  moves w u := ∃ t, w.now ≤ t ∧ u = { w with now := t }

def Stands : BreakerLaw ι := fun _ w q => (ExpiringValue.read w.now w.opened).isSome = true ∧ q ≠ .deleteKeys

def Unclosed : BreakerLaw ι := fun _ _ q => q ≠ .deleteKeys

/-- A probe that fails is counted to the threshold, unless the breaker was closed meanwhile. -/
def Counted (cfg : BreakerConfig) : BreakerLaw ι := fun i w q =>
  match q with
  | .countFailure _ =>
    w.probing i = true → w.healed = false → cfg.failureThreshold ≤ w.nextCount
  | _ => True

/-- A worker's `record_failure` ends with the step from one crew to the next. -/
def FailureEnds (i : ι) (x y : BreakerCrew ι) : Prop :=
  (∃ q next, x.running i = some (.recordFailure, .ask q next)) ∧
    ∃ a, y.running i = some (.recordFailure, .done a)

/-- While the flag stands the sends that are let through are a cooldown apart, and a probe that
fails opens the breaker for another cooldown. -/
structure Protects (ι : Type) [DecidableEq ι] (cfg : BreakerConfig) (allowed : BreakerLaw ι) :
    Prop where
  spaced : ∀ x y : BreakerCrew ι,
    Crew.Reaches (breakerRules cfg allowed) idleBreaker x →
    Crew.Reaches (breakerRules cfg Stands) x y →
    ∀ sent, y.shared.admitted = sent ++ x.shared.admitted →
      sent.Pairwise (fun later earlier : Rat => earlier + cfg.cooldownS ≤ later)
  reopens : ∀ (x y : BreakerCrew ι) (i : ι),
    Crew.Reaches (breakerRules cfg allowed) idleBreaker x →
    Crew.Step (breakerRules cfg allowed) x y → FailureEnds i x y →
    x.shared.probing i = true → x.shared.healed = false →
    ∀ z : BreakerCrew ι, Crew.Reaches (breakerRules cfg Unclosed) y z →
      z.shared.now ≤ y.shared.now + cfg.cooldownS →
      (ExpiringValue.read z.shared.now z.shared.opened).isSome = true

section Programs
variable {cfg : BreakerConfig} {allowed : BreakerLaw ι} {w u : BreakerWorld ι} {x y : BreakerCrew ι}

def Configured (cfg : BreakerConfig) : BreakerAsk → Prop
  | .acquireProbe ttl => ttl = cfg.cooldownS
  | .setOpen cooldown => cooldown = cfg.cooldownS
  | _ => True

theorem program_asks (cfg : BreakerConfig) (c : BreakerCall) :
    (c.program cfg).Asks (Configured cfg) := by
  cases c with
  | check =>
    apply Dialog.Asks.query trivial
    intro isOpen
    cases isOpen with
    | false => exact trivial
    | true =>
      have hprobe : Configured cfg (.acquireProbe cfg.cooldownS) := rfl
      apply Dialog.Asks.query hprobe
      intro acquired
      cases acquired <;> exact trivial
  | recordSuccess => exact Dialog.Asks.query trivial (fun _ => trivial)
  | recordFailure =>
    apply Dialog.Asks.query trivial
    intro failCount
    split
    · exact Dialog.Asks.query rfl (fun _ => trivial)
    · exact trivial

theorem idle_underway (allowed : BreakerLaw ι) :
    Crew.Underway (breakerRules cfg allowed) (idleBreaker : BreakerCrew ι) := by
  intro i c t hi
  cases hi

theorem reached_underway (h : Crew.Reaches (breakerRules cfg allowed) idleBreaker x) :
    Crew.Underway (breakerRules cfg allowed) x := h.underway (idle_underway allowed)

/-- What is left of `record_failure` once it has begun. -/
theorem recordFailure_leaves {threshold cooldownS windowS : Nat} {t : BreakerTask}
    (h : (CircuitBreaker.recordFailure threshold cooldownS windowS).Leaves t) :
    t = CircuitBreaker.recordFailure threshold cooldownS windowS ∨
      t = (Dialog.query (BreakerAsk.setOpen cooldownS) >>= fun _ => pure (.ok ())) ∨
      t = pure (.ok ()) := by
  induction h with
  | refl => exact .inl rfl
  | @answer q next r _ ih =>
    obtain hfirst | hsecond | hlast := ih
    · cases hfirst
      apply Or.inr
      change (if threshold ≤ r then _ else _) = _ ∨ (if threshold ≤ r then _ else _) = _
      split
      · exact .inl rfl
      · exact .inr rfl
    · cases hsecond
      exact .inr (.inr rfl)
    · cases hlast

end Programs
section Spacing
variable {cfg : BreakerConfig} {allowed : BreakerLaw ι} {w u : BreakerWorld ι} {before : List Rat}

/-- The sends let through since some moment are a cooldown apart, and the probe key outlasts the
cooldown of each. -/
def Spaced (cfg : BreakerConfig) (before : List Rat) (w : BreakerWorld ι) : Prop :=
  ∃ sent, w.admitted = sent ++ before ∧
    sent.Pairwise (fun later earlier : Rat => earlier + cfg.cooldownS ≤ later) ∧
    ∀ at_ ∈ sent, ExpiringValue.Lasts w.probe (at_ + cfg.cooldownS)

theorem Spaced.answer {i : ι} {q : BreakerAsk} {r : BreakerAnswer q} (h : Spaced cfg before w)
    (hq : Configured cfg q) (hstands : Stands i w q) (hr : (r, u) = w.reply i q) :
    Spaced cfg before u := by
  obtain ⟨sent, hsent, hpairs, hlasts⟩ := h
  cases q with
  | existsOpen =>
    rw [BreakerWorld.reply, if_pos hstands.1] at hr
    cases hr
    exact ⟨sent, hsent, hpairs, hlasts⟩
  | acquireProbe ttl =>
    obtain rfl : ttl = cfg.cooldownS := hq
    rw [BreakerWorld.reply] at hr
    split at hr
    · cases hr
      exact ⟨sent, hsent, hpairs, hlasts⟩
    · next hgone =>
      cases hr
      have hlater : ∀ at_ ∈ sent, at_ + (cfg.cooldownS : Rat) < w.now := by
        intro at_ hat
        apply (hlasts at_ hat).lt_of_gone
        rw [Option.isNone_iff_eq_none]
        exact Option.not_isSome_iff_eq_none.1 hgone
      refine ⟨w.now :: sent, ?_, ?_, ?_⟩
      · exact congrArg (w.now :: ·) hsent
      · exact List.pairwise_cons.2 ⟨fun at_ hat => (hlater at_ hat).le, hpairs⟩
      · intro at_ hat
        have hlast : ExpiringValue.Lasts (ExpiringValue.setEx w.now cfg.cooldownS ()) (w.now + cfg.cooldownS) :=
          ExpiringValue.lasts_setEx _ _ _
        obtain rfl | hat := List.mem_cons.1 hat
        · exact hlast
        · apply hlast.mono
          exact (hlater at_ hat).le.trans (le_add_of_nonneg_right (Nat.cast_nonneg _))
  | deleteKeys => exact absurd rfl hstands.2
  | countFailure window =>
    cases hr
    exact ⟨sent, hsent, hpairs, hlasts⟩
  | setOpen cooldown =>
    cases hr
    exact ⟨sent, hsent, hpairs, hlasts⟩

theorem breaker_spaced {x y : BreakerCrew ι}
    (hx : Crew.Reaches (breakerRules cfg allowed) idleBreaker x)
    (hy : Crew.Reaches (breakerRules cfg Stands) x y) {sent : List Rat}
    (hsent : y.shared.admitted = sent ++ x.shared.admitted) :
    sent.Pairwise (fun later earlier : Rat => earlier + cfg.cooldownS ≤ later) := by
  have hunder : Crew.Underway (breakerRules cfg Stands) x :=
    fun i c t hi => reached_underway hx i c t hi
  have hspaced : Spaced cfg x.shared.admitted y.shared := by
    apply hy.keeps (program_asks cfg)
    · exact fun i w q r u hq hw hr => hw.answer hq hr.1 hr.2
    · rintro w u hw ⟨t, -, rfl⟩
      exact hw
    · exact hunder
    · exact ⟨[], rfl, .nil, fun at_ hat => absurd hat List.not_mem_nil⟩
  obtain ⟨sent', hsame, hpairs, -⟩ := hspaced
  obtain rfl := List.append_cancel_right (hsent.symm.trans hsame)
  exact hpairs

end Spacing
section Reopening
variable {cfg : BreakerConfig} {allowed : BreakerLaw ι} {x y z : BreakerCrew ι} {i : ι}

theorem failure_opens (hallowed : ∀ i w q, allowed i w q → Counted cfg i w q)
    (hx : Crew.Reaches (breakerRules cfg allowed) idleBreaker x)
    (hstep : Crew.Step (breakerRules cfg allowed) x y) (hend : FailureEnds i x y)
    (hprobing : x.shared.probing i = true) (hhealed : x.shared.healed = false) :
    ExpiringValue.Lasts y.shared.opened (y.shared.now + cfg.cooldownS) := by
  obtain ⟨⟨q, next, hrun⟩, a, hdone⟩ := hend
  obtain ⟨r, u, ⟨hlaw, hr⟩, hnext, hu⟩ := hstep.ends hrun hdone
  obtain hfirst | hsecond | hlast := recordFailure_leaves (reached_underway hx i _ _ hrun)
  · cases hfirst
    have hcounted : cfg.failureThreshold ≤ x.shared.nextCount :=
      hallowed _ _ _ hlaw hprobing hhealed
    cases hr
    change (if cfg.failureThreshold ≤ x.shared.nextCount then _ else _) = _ at hnext
    rw [if_pos hcounted] at hnext
    cases hnext
  · cases hsecond
    cases hr
    rw [hu]
    exact ExpiringValue.lasts_setEx _ _ _
  · cases hlast

/-- The flag lasts as long as nobody closes the breaker. -/
theorem opened_lasts (hy : Crew.Underway (breakerRules cfg Unclosed) y)
    (hz : Crew.Reaches (breakerRules cfg Unclosed) y z)
    (h : ExpiringValue.Lasts y.shared.opened (y.shared.now + cfg.cooldownS)) :
    ExpiringValue.Lasts z.shared.opened (y.shared.now + cfg.cooldownS) := by
  have hkept : y.shared.now ≤ z.shared.now ∧
      ExpiringValue.Lasts z.shared.opened (y.shared.now + cfg.cooldownS) := by
    apply hz.keeps (I := fun w => y.shared.now ≤ w.now ∧ ExpiringValue.Lasts w.opened _) (program_asks cfg)
    · rintro j w q r u hq ⟨hnow, hlasts⟩ ⟨hlaw, hr⟩
      cases q with
      | existsOpen =>
        rw [BreakerWorld.reply] at hr
        split at hr <;> cases hr <;> exact ⟨hnow, hlasts⟩
      | acquireProbe ttl =>
        rw [BreakerWorld.reply] at hr
        split at hr <;> cases hr <;> exact ⟨hnow, hlasts⟩
      | deleteKeys => exact absurd rfl hlaw
      | countFailure window =>
        cases hr
        exact ⟨hnow, hlasts⟩
      | setOpen cooldown =>
        obtain rfl : cooldown = cfg.cooldownS := hq
        cases hr
        have hset : ExpiringValue.Lasts (ExpiringValue.setEx w.now cfg.cooldownS ()) (w.now + cfg.cooldownS) :=
          ExpiringValue.lasts_setEx _ _ _
        exact ⟨hnow, hset.mono (by linarith)⟩
    · rintro w u ⟨hnow, hlasts⟩ ⟨t, ht, rfl⟩
      exact ⟨hnow.trans ht, hlasts⟩
    · exact hy
    · exact ⟨le_refl _, h⟩
  exact hkept.2

theorem protects_of_counted (hallowed : ∀ i w q, allowed i w q → Counted cfg i w q) :
    Protects ι cfg allowed where
  spaced x y hx hy sent hsent := breaker_spaced hx hy hsent
  reopens x y i hx hstep hend hprobing hhealed z hz hle := by
    have hy : Crew.Underway (breakerRules cfg Unclosed) y :=
      fun j c t hj => reached_underway (hx.tail hstep) j c t hj
    have hlasts := opened_lasts hy hz (failure_opens hallowed hx hstep hend hprobing hhealed)
    exact ExpiringValue.isSome_read_iff.2 (hlasts.mono hle)

end Reopening
section SlowProbe
variable (cfg : BreakerConfig)

def failuresAtOnce (k : Nat) : BreakerWorld ι where
  fail := if k = 0 then none else ExpiringValue.setEx 0 cfg.windowS k
  opened := if cfg.failureThreshold ≤ k then ExpiringValue.setEx 0 cfg.cooldownS () else none

/-- Whatever is asked is let happen. -/
def anyCommand : BreakerLaw ι := fun _ _ _ => True

variable {cfg}

omit [DecidableEq ι] in
theorem nextCount_failuresAtOnce (k : Nat) :
    (failuresAtOnce cfg k : BreakerWorld ι).nextCount = k + 1 := by
  cases k with
  | zero => rfl
  | succ k =>
    have hread : ExpiringValue.read 0 (ExpiringValue.setEx 0 cfg.windowS (k + 1)) = some (k + 1) := by
      rw [ExpiringValue.read, ExpiringValue.setEx, Option.filter_some, if_pos]
      · rfl
      · exact decide_eq_true (by simp)
    change (ExpiringValue.read 0 (ExpiringValue.setEx 0 cfg.windowS (k + 1))).getD 0 + 1 = k + 1 + 1
    rw [hread]
    rfl

theorem failuresAtOnce_runs (i : ι) (k : Nat) :
    Dialog.Runs ((breakerRules cfg anyCommand).answers i) (BreakerCall.recordFailure.program cfg)
      (failuresAtOnce cfg k) (.ok ()) (failuresAtOnce cfg (k + 1)) := by
  apply Dialog.Runs.ask (r := k + 1)
    (t := { (failuresAtOnce cfg k : BreakerWorld ι) with fail := ExpiringValue.setEx 0 cfg.windowS (k + 1) })
  · refine ⟨trivial, ?_⟩
    rw [BreakerWorld.reply, nextCount_failuresAtOnce]
    rfl
  · change Dialog.Runs _ (if cfg.failureThreshold ≤ k + 1 then _ else _) _ _ _
    by_cases h : cfg.failureThreshold ≤ k + 1
    · rw [if_pos h]
      apply Dialog.Runs.ask (r := ()) (t := failuresAtOnce cfg (k + 1))
      · refine ⟨trivial, ?_⟩
        rw [BreakerWorld.reply, failuresAtOnce, failuresAtOnce, if_pos h]
        rfl
      · exact .done
    · have hbefore : ¬ cfg.failureThreshold ≤ k := fun hk => h (Nat.le_succ_of_le hk)
      rw [if_neg h, failuresAtOnce, failuresAtOnce, if_neg h, if_neg hbefore]
      exact .done

theorem failuresAtOnce_reached [Inhabited ι] (cfg : BreakerConfig) (k : Nat) :
    Crew.Reaches (breakerRules cfg anyCommand) (idleBreaker : BreakerCrew ι)
      ⟨failuresAtOnce cfg k, fun _ => none⟩ := by
  induction k with
  | zero =>
    have hnone : ¬ cfg.failureThreshold ≤ 0 := by
      have hmem := cfg.threshold_mem.1
      omega
    have hstart : (failuresAtOnce cfg 0 : BreakerWorld ι) = {} := by
      rw [failuresAtOnce, if_neg hnone]
      rfl
    rw [hstart]
    exact .refl
  | succ k ih =>
    exact ih.trans (Crew.reaches_of_ended_call (i := default) (c := .recordFailure) rfl trivial
      (failuresAtOnce_runs default k))

theorem check_runs_probe {w : BreakerWorld ι} (i : ι)
    (hopened : (ExpiringValue.read w.now w.opened).isSome = true)
    (hprobe : (ExpiringValue.read w.now w.probe).isSome = false) :
    Dialog.Runs ((breakerRules cfg anyCommand).answers i) (BreakerCall.check.program cfg) w (.ok ())
      { w with
        probe := ExpiringValue.setEx w.now cfg.cooldownS ()
        admitted := w.now :: w.admitted
        probing := Function.update w.probing i true } := by
  have hprobing : Function.update w.probing i true =
      Function.update (Function.update w.probing i false) i true := (Function.update_idem ..).symm
  rw [hprobing]
  apply Dialog.Runs.ask (r := true) (t := { w with probing := Function.update w.probing i false })
  · refine ⟨trivial, ?_⟩
    rw [BreakerWorld.reply, if_pos hopened]
  · apply Dialog.Runs.ask (r := true)
    · refine ⟨trivial, ?_⟩
      rw [BreakerWorld.reply, if_neg (by rw [hprobe]; exact Bool.false_ne_true)]
    · exact .done

/-- A worker whose probe fails when the counter has run out: the counter and the flag were last set
at instant zero. -/
structure SlowProbe (cfg : BreakerConfig) (i : ι) (x : BreakerCrew ι) : Prop where
  reached : Crew.Reaches (breakerRules cfg anyCommand) idleBreaker x
  running : x.running i = some (.recordFailure, BreakerCall.recordFailure.program cfg)
  now : x.shared.now = cfg.windowS + 1
  counter : x.shared.fail = ExpiringValue.setEx 0 cfg.windowS cfg.failureThreshold
  flag : x.shared.opened = ExpiringValue.setEx 0 cfg.cooldownS ()
  probing : x.shared.probing i = true
  healed : x.shared.healed = false

theorem exists_slowProbe [Inhabited ι] (cfg : BreakerConfig) :
    ∃ x : BreakerCrew ι, SlowProbe cfg default x := by
  have hopened : (failuresAtOnce cfg cfg.failureThreshold : BreakerWorld ι).opened =
      ExpiringValue.setEx 0 cfg.cooldownS () := if_pos (le_refl _)
  have hcounter : (failuresAtOnce cfg cfg.failureThreshold : BreakerWorld ι).fail =
      ExpiringValue.setEx 0 cfg.windowS cfg.failureThreshold := by
    apply if_neg
    have hmem := cfg.threshold_mem.1
    omega
  have hflag : (ExpiringValue.read 0 (ExpiringValue.setEx 0 (cfg.cooldownS : Rat) ())).isSome = true := by
    apply ExpiringValue.isSome_read_iff.2
    apply (ExpiringValue.lasts_setEx 0 (cfg.cooldownS : Rat) ()).mono
    exact le_add_of_nonneg_right (Nat.cast_nonneg _)
  have hcheck : Dialog.Runs ((breakerRules cfg anyCommand).answers default)
      (BreakerCall.check.program cfg) (failuresAtOnce cfg cfg.failureThreshold : BreakerWorld ι)
      (.ok ()) _ := check_runs_probe default (by rw [hopened]; exact hflag) rfl
  have hreached := (failuresAtOnce_reached cfg cfg.failureThreshold).trans
    (Crew.reaches_of_ended_call (i := default) (c := .check) rfl trivial hcheck)
  have hlate : (0 : Rat) ≤ cfg.windowS + 1 := by positivity
  have hcall := (hreached.tail (.move ⟨cfg.windowS + 1, hlate, rfl⟩)).tail
    (.start (i := default) (c := .recordFailure) rfl trivial)
  exact ⟨_, hcall, Crew.put_running_self .., rfl, hcounter, hopened, Function.update_self .., rfl⟩

theorem SlowProbe.nextCount {x : BreakerCrew ι} {i : ι} (hx : SlowProbe cfg i x) :
    x.shared.nextCount = 1 := by
  have hgone : ExpiringValue.read x.shared.now x.shared.fail = none := by
    rw [hx.counter, hx.now, ExpiringValue.read, ExpiringValue.setEx, Option.filter_some, if_neg]
    · rfl
    · rw [decide_eq_true_iff]
      intro hle
      change (cfg.windowS + 1 : Rat) ≤ 0 + cfg.windowS at hle
      linarith
  rw [BreakerWorld.nextCount, hgone]
  rfl

theorem SlowProbe.ends {x : BreakerCrew ι} {i : ι} (hx : SlowProbe cfg i x)
    (h : cfg.failureThreshold ≠ 1) :
    ∃ y : BreakerCrew ι, Crew.Step (breakerRules cfg anyCommand) x y ∧ FailureEnds i x y ∧
      y.shared.now = x.shared.now ∧ y.shared.opened = x.shared.opened := by
  have hdone : (if cfg.failureThreshold ≤ x.shared.nextCount then
      (Dialog.query (BreakerAsk.setOpen cfg.cooldownS) >>= fun _ => pure (.ok ()) : BreakerTask)
      else pure (.ok ())) = .done (.ok ()) := by
    apply if_neg
    have hmem := cfg.threshold_mem.1
    have hone := hx.nextCount
    omega
  have hstep : Crew.Step (breakerRules cfg anyCommand) x
      { (x.put i (some (.recordFailure, .done (.ok ())))) with
        shared := { x.shared with
          fail := ExpiringValue.setEx x.shared.now cfg.windowS x.shared.nextCount } } := by
    rw [← hdone]
    exact .answer hx.running ⟨trivial, rfl⟩
  exact ⟨_, hstep, ⟨⟨_, _, hx.running⟩, .ok (), Crew.put_running_self x i _⟩, rfl, rfl⟩

theorem not_protects_of_slow [Inhabited ι] (h : cfg.failureThreshold ≠ 1) :
    ¬ Protects ι cfg anyCommand := by
  intro hprotects
  obtain ⟨x, hx⟩ : ∃ x : BreakerCrew ι, SlowProbe cfg default x := exists_slowProbe cfg
  obtain ⟨y, hstep, hend, hnow, hopened⟩ := hx.ends h
  have hstands := hprotects.reopens x y default hx.reached hstep hend hx.probing hx.healed
    _ (.single (.move ⟨_, le_add_of_nonneg_right (Nat.cast_nonneg cfg.cooldownS), rfl⟩)) (le_refl _)
  obtain ⟨l, hl, hle⟩ := ExpiringValue.isSome_read_iff.1 hstands
  rw [hopened, hx.flag] at hl
  cases hl
  change y.shared.now + (cfg.cooldownS : Rat) ≤ 0 + cfg.cooldownS at hle
  rw [hnow, hx.now] at hle
  linarith [(Nat.cast_nonneg cfg.windowS : (0 : Rat) ≤ cfg.windowS)]

end SlowProbe
/-- The breaker protects in every run that counts a failed probe to the threshold, and in all runs
exactly where the threshold is one. -/
theorem breaker_protects (ι : Type) [DecidableEq ι] [Inhabited ι] (cfg : BreakerConfig) :
    Protects ι cfg (Counted cfg) ∧ (Protects ι cfg anyCommand ↔ cfg.failureThreshold = 1) := by
  constructor
  · exact protects_of_counted fun _ _ _ h => h
  · constructor
    · intro h
      by_contra hmany
      exact not_protects_of_slow hmany h
    · intro hone
      apply protects_of_counted
      intro i w q _
      cases q with
      | countFailure window =>
        intro _ _
        rw [hone]
        exact Nat.le_add_left 1 _
      | _ => exact trivial

/-- A counter that runs out a second after each failure. -/
def shortWindow : BreakerConfig where
  windowS := 1

theorem failed_probe_leaves_closed : ¬ Protects Nat shortWindow anyCommand := by
  have hmany : shortWindow.failureThreshold ≠ 1 := by decide
  exact not_protects_of_slow hmany

end CentralOps
