import CentralOps.Collection.Suppression
import CentralOps.Lib.System

namespace CentralOps
set_option autoImplicit true

/-- Where a worker stands in `claim_suppress`: `expiring` is between an `INCR` that answered 1
and its `EXPIRE`. -/
inductive ClaimPhase where
  | idle | calling | expiring
  deriving DecidableEq

structure CounterKey where
  count : Nat
  expiry : Option Nat
  deriving DecidableEq

/-- The key as Redis holds it, the workers, and the answers given so far. -/
structure WindowState where
  now : Nat
  key : Option CounterKey
  phase : Nat → ClaimPhase
  kept : Nat
  suppressed : Nat

def WindowState.init : WindowState := ⟨0, none, fun _ => .idle, 0, 0⟩

/-- The steps of the workers and of Redis. An error leaves open whether Redis had executed the
command (`took`). -/
inductive ClaimAct where
  | tick
  | arrive (w : Nat)
  | incr (w : Nat)
  | incrError (w : Nat) (took : Bool)
  | expire (w : Nat)
  | expireError (w : Nat) (took : Bool)
  | crash (w : Nat)

/-- `INCR`: a new key starts at 1 without expiry, an existing one keeps its expiry. -/
def incrKey : Option CounterKey → CounterKey
  | none => ⟨1, none⟩
  | some c => { c with count := c.count + 1 }

section Step
variable (allow windowS : Int)

def windowTicks : Nat := (max windowS 1).toNat

def expireKey (now : Nat) (key : Option CounterKey) : Option CounterKey :=
  key.map (fun c => { c with expiry := some (now + windowTicks windowS) })

def WindowState.setPhase (s : WindowState) (w : Nat) (p : ClaimPhase) : WindowState :=
  { s with phase := Function.update s.phase w p }

/-- The call returns. -/
def WindowState.answer (s : WindowState) (w : Nat) (keep : Bool) : WindowState :=
  { s.setPhase w .idle with
    kept := if keep then s.kept + 1 else s.kept
    suppressed := if keep then s.suppressed else s.suppressed + 1 }

def claimEnabled (s : WindowState) : ClaimAct → Prop
  | .tick => True
  | .arrive w => s.phase w = .idle
  | .incr w | .incrError w _ => s.phase w = .calling
  | .expire w | .expireError w _ => s.phase w = .expiring
  | .crash w => s.phase w ≠ .idle

/-- `claim_suppress`, with the fail-open of its caller: an error means the event is kept. -/
def claimNext (s : WindowState) : ClaimAct → WindowState
  | .tick =>
    { s with
      now := s.now + 1
      key := s.key.filter (fun c => c.expiry.all (fun e => decide (s.now + 1 < e))) }
  | .arrive w => s.setPhase w .calling
  | .incr w =>
    let c := incrKey s.key
    if c.count = 1 then { s with key := some c }.setPhase w .expiring
    else { s with key := some c }.answer w (decide ((c.count : Int) ≤ allow))
  | .incrError w took =>
    { s with key := if took then some (incrKey s.key) else s.key }.answer w true
  | .expire w =>
    { s with key := expireKey windowS s.now s.key }.answer w (decide (1 ≤ allow))
  | .expireError w took =>
    { s with key := if took then expireKey windowS s.now s.key else s.key }.answer w true
  | .crash w => s.setPhase w .idle

def claimSystem : System WindowState ClaimAct := ⟨claimEnabled, claimNext allow windowS⟩

end Step

def Clean (_ : WindowState) : ClaimAct → Prop
  | .tick | .arrive _ | .incr _ | .expire _ => True
  | .incrError _ _ | .expireError _ _ | .crash _ => False

/-- No step loses the `EXPIRE` that a new key needs. -/
def Arms (s : WindowState) : ClaimAct → Prop
  | .crash w => s.phase w ≠ .expiring
  | .expireError _ took => took = true
  | .incrError _ took => took = true → s.key ≠ none
  | _ => True

/-- No `claim_suppress` is in progress. -/
def Quiet (s : WindowState) : Prop := ∀ w, s.phase w = .idle

/-- What the suppression window promises in a state: without a call in progress the key has
an expiry; it is gone within the window; and from then on the first occurrences pass. -/
structure WindowReopens (allow windowS : Int) (s : WindowState) : Prop where
  no_orphan : Quiet s → ∀ c, s.key = some c → c.expiry ≠ none
  reopens : Quiet s → ∀ s', (claimSystem allow windowS).Reaches Clean s s' →
    s.now + windowTicks windowS ≤ s'.now →
    ∃ t, (claimSystem allow windowS).Reaches Clean s t ∧
      (claimSystem allow windowS).Reaches Clean t s' ∧
      t.now ≤ s.now + windowTicks windowS ∧ t.key = none
  first_pass : s.key = none → ∀ s', (claimSystem allow windowS).Reaches Clean s s' → Quiet s' →
    min allow ((s'.kept + s'.suppressed : Nat) - (s.kept + s.suppressed : Nat)) ≤
      s'.kept - s.kept

/-- The key and the pending `EXPIRE`: a key without expiry has exactly one worker that is about
to set it. -/
def KeyArmed (windowS : Int) (s : WindowState) : Prop :=
  match s.key with
  | none => ∀ w, s.phase w ≠ .expiring
  | some c => 1 ≤ c.count ∧
    match c.expiry with
    | none => ∃ w, s.phase w = .expiring ∧ ∀ v, s.phase v = .expiring → v = w
    | some e => s.now < e ∧ e ≤ s.now + windowTicks windowS ∧ ∀ w, s.phase w ≠ .expiring

section Phases
variable (s : WindowState)

theorem setPhase_self {p : ClaimPhase} : (s.setPhase w p).phase w = p := by
  simp only [WindowState.setPhase, Function.update_self]

theorem setPhase_ne {p : ClaimPhase} (hv : v ≠ w) : (s.setPhase w p).phase v = s.phase v := by
  simp only [WindowState.setPhase, Function.update_of_ne hv]

/-- Moving a worker between two phases other than `expiring` leaves the expiring ones alone. -/
theorem setPhase_expiring_iff {p : ClaimPhase} (hw : s.phase w ≠ .expiring)
    (hp : p ≠ .expiring) (v : Nat) :
    (s.setPhase w p).phase v = .expiring ↔ s.phase v = .expiring := by
  by_cases hv : v = w
  · subst hv
    rw [setPhase_self]
    exact ⟨fun h => absurd h hp, fun h => absurd h hw⟩
  · rw [setPhase_ne s hv]

end Phases

section Armed
variable {allow windowS : Int} {s s' : WindowState}

theorem KeyArmed.init : KeyArmed windowS .init := by
  intro w h
  cases h

theorem windowTicks_pos (windowS : Int) : 0 < windowTicks windowS := by
  unfold windowTicks
  omega

theorem keyArmed_none (hk : s.key = none) :
    KeyArmed windowS s ↔ ∀ w, s.phase w ≠ .expiring := by
  rw [KeyArmed, hk]

theorem keyArmed_pending (hk : s.key = some ⟨n, none⟩) :
    KeyArmed windowS s ↔
      1 ≤ n ∧ ∃ w, s.phase w = .expiring ∧ ∀ v, s.phase v = .expiring → v = w := by
  rw [KeyArmed, hk]

theorem keyArmed_live (hk : s.key = some ⟨n, some e⟩) :
    KeyArmed windowS s ↔ 1 ≤ n ∧ s.now < e ∧ e ≤ s.now + windowTicks windowS ∧
      ∀ w, s.phase w ≠ .expiring := by
  rw [KeyArmed, hk]

theorem KeyArmed.count_pos (h : KeyArmed windowS s) (hk : s.key = some ⟨n, ex⟩) : 1 ≤ n := by
  cases ex with
  | none => exact ((keyArmed_pending hk).1 h).1
  | some e => exact ((keyArmed_live hk).1 h).1

theorem KeyArmed.frame (h : KeyArmed windowS s) (hnow : s'.now = s.now)
    (hphase : ∀ v, s'.phase v = .expiring ↔ s.phase v = .expiring)
    (hkey : s'.key = s.key ∨
      ∃ n ex, s.key = some ⟨n, ex⟩ ∧ s'.key = some ⟨n + 1, ex⟩) :
    KeyArmed windowS s' := by
  rcases hkey with hk | ⟨n, ex, hk, hk'⟩
  · simp only [KeyArmed, hk, hnow, hphase, ne_eq] at h ⊢
    exact h
  · cases ex with
    | none =>
      rw [keyArmed_pending hk] at h
      rw [keyArmed_pending hk']
      simp only [hphase]
      exact ⟨Nat.le_add_left 1 n, h.2⟩
    | some e =>
      rw [keyArmed_live hk] at h
      rw [keyArmed_live hk']
      simp only [hphase, hnow, ne_eq]
      exact ⟨Nat.le_add_left 1 n, h.2⟩

/-- A worker that is expiring means that the key exists, without expiry, and it is the only
one. -/
theorem KeyArmed.expiring (h : KeyArmed windowS s) (hw : s.phase w = .expiring) :
    ∃ n, s.key = some ⟨n, none⟩ ∧ 1 ≤ n ∧ ∀ v, s.phase v = .expiring → v = w := by
  cases hk : s.key with
  | none => exact absurd hw ((keyArmed_none hk).1 h w)
  | some c =>
    obtain ⟨n, ex⟩ := c
    cases ex with
    | some e => exact absurd hw (((keyArmed_live hk).1 h).2.2.2 w)
    | none =>
      obtain ⟨hn, u, hu, huniq⟩ := (keyArmed_pending hk).1 h
      refine ⟨n, rfl, hn, ?_⟩
      intro v hv
      rw [huniq v hv, huniq w hw]

theorem KeyArmed.tick (h : KeyArmed windowS s) :
    KeyArmed windowS (claimNext allow windowS s .tick) := by
  cases hk : s.key with
  | none =>
    have hk' : (claimNext allow windowS s .tick).key = none := by
      simp only [claimNext, hk, Option.filter_none]
    rw [keyArmed_none hk']
    exact (keyArmed_none hk).1 h
  | some c =>
    obtain ⟨n, ex⟩ := c
    cases ex with
    | none =>
      have hk' : (claimNext allow windowS s .tick).key = some ⟨n, none⟩ := by
        simp only [claimNext, hk, Option.filter_some, Option.all_none, if_true]
      rw [keyArmed_pending hk']
      exact (keyArmed_pending hk).1 h
    | some e =>
      obtain ⟨hn, hlt, hle, hph⟩ := (keyArmed_live hk).1 h
      by_cases he : s.now + 1 < e
      · have hk' : (claimNext allow windowS s .tick).key = some ⟨n, some e⟩ := by
          simp only [claimNext, hk, Option.filter_some, Option.all_some, he, decide_true, if_true]
        rw [keyArmed_live hk']
        exact ⟨hn, he, by simp only [claimNext]; omega, hph⟩
      · have hk' : (claimNext allow windowS s .tick).key = none := by
          simp only [claimNext, hk, Option.filter_some, Option.all_some, he, decide_false,
            Bool.false_eq_true, if_false]
        rw [keyArmed_none hk']
        exact hph

/-- The counter moves on: a first `INCR` leaves its worker expiring, a later one answers. -/
theorem KeyArmed.incr (h : KeyArmed windowS s) (hw : s.phase w = .calling) :
    KeyArmed windowS (claimNext allow windowS s (.incr w)) := by
  have hne : s.phase w ≠ .expiring := by rw [hw]; decide
  cases hk : s.key with
  | none =>
    have hnone := (keyArmed_none hk).1 h
    have hnext : claimNext allow windowS s (.incr w) =
        { s with key := some ⟨1, none⟩ }.setPhase w .expiring := by
      simp only [claimNext, hk, incrKey, if_true]
    rw [hnext, keyArmed_pending rfl]
    refine ⟨Nat.le_refl 1, w, setPhase_self _, ?_⟩
    intro v hv
    by_contra hvw
    rw [setPhase_ne _ hvw] at hv
    exact hnone v hv
  | some c =>
    obtain ⟨n, ex⟩ := c
    have hn := h.count_pos hk
    have hone : ¬ n + 1 = 1 := by omega
    have hnext : claimNext allow windowS s (.incr w) =
        { s with key := some ⟨n + 1, ex⟩ }.answer w (decide (((n + 1 : Nat) : Int) ≤ allow)) := by
      simp only [claimNext, hk, incrKey, if_neg hone]
    rw [hnext]
    exact h.frame rfl (setPhase_expiring_iff s hne (by decide)) (.inr ⟨n, ex, hk, rfl⟩)

/-- `EXPIRE` took effect and the call returns. -/
theorem KeyArmed.expire (h : KeyArmed windowS s) (hw : s.phase w = .expiring) (keep : Bool) :
    KeyArmed windowS ({ s with key := expireKey windowS s.now s.key }.answer w keep) := by
  obtain ⟨n, hk, hn, huniq⟩ := h.expiring hw
  have hpos := windowTicks_pos windowS
  have hkey : ({ s with key := expireKey windowS s.now s.key }.answer w keep).key =
      some ⟨n, some (s.now + windowTicks windowS)⟩ := by
    simp only [WindowState.answer, WindowState.setPhase, expireKey, hk, Option.map_some]
  rw [keyArmed_live hkey]
  refine ⟨hn, ?_, Nat.le_refl _, ?_⟩
  · exact Nat.lt_add_of_pos_right hpos
  · intro v hv
    have hidle : (s.setPhase w .idle).phase v = .expiring := hv
    by_cases hvw : v = w
    · rw [hvw, setPhase_self] at hidle
      cases hidle
    · rw [setPhase_ne s hvw] at hidle
      exact hvw (huniq v hidle)

/-- Every step that loses no `EXPIRE` keeps the key armed. -/
theorem KeyArmed.next (h : KeyArmed windowS s) (he : claimEnabled s a) (ha : Arms s a) :
    KeyArmed windowS (claimNext allow windowS s a) := by
  cases a with
  | tick => exact h.tick
  | arrive w =>
    have hw : s.phase w ≠ .expiring := by rw [show s.phase w = .idle from he]; decide
    exact h.frame rfl (setPhase_expiring_iff s hw (by decide)) (.inl rfl)
  | incr w => exact h.incr he
  | incrError w took =>
    have hw : s.phase w ≠ .expiring := by rw [show s.phase w = .calling from he]; decide
    refine h.frame rfl (setPhase_expiring_iff s hw (by decide : ClaimPhase.idle ≠ _)) ?_
    cases took with
    | false => exact .inl rfl
    | true =>
      obtain ⟨⟨n, ex⟩, hk⟩ := Option.ne_none_iff_exists'.1 (ha rfl)
      refine .inr ⟨n, ex, hk, ?_⟩
      simp only [claimNext, WindowState.answer, WindowState.setPhase, hk, incrKey, if_true]
  | expire w => exact h.expire he _
  | expireError w took =>
    obtain rfl : took = true := ha
    exact h.expire he true
  | crash w => exact h.frame rfl (setPhase_expiring_iff s ha (by decide)) (.inl rfl)

theorem Clean.arms (ha : Clean s a) : Arms s a := by
  cases a <;> trivial

theorem KeyArmed.clean_run (h : (claimSystem allow windowS).Reaches Clean s s')
    (hs : KeyArmed windowS s) : KeyArmed windowS s' :=
  h.invariant (fun _ _ hi he ha => hi.next he ha.arms) hs

theorem KeyArmed.reached (h : (claimSystem allow windowS).Reaches Arms .init s) :
    KeyArmed windowS s :=
  h.invariant (fun _ _ hi he ha => hi.next he ha) .init

theorem KeyArmed.quiet_key (h : KeyArmed windowS s) (hq : Quiet s) (hk : s.key = some ⟨n, ex⟩) :
    ∃ e, ex = some e ∧ s.now < e ∧ e ≤ s.now + windowTicks windowS := by
  cases ex with
  | none =>
    obtain ⟨-, w, hw, -⟩ := (keyArmed_pending hk).1 h
    rw [hq w] at hw
    cases hw
  | some e =>
    obtain ⟨-, hlt, hle, -⟩ := (keyArmed_live hk).1 h
    exact ⟨e, rfl, hlt, hle⟩

end Armed

section Reopens
variable {allow windowS : Int} {s s' : WindowState}

/-- The key still has the expiry `e`. -/
def Holds (e : Nat) (s : WindowState) : Prop := s.now < e ∧ ∃ n, s.key = some ⟨n, some e⟩

/-- While Redis answers, a key with an expiry goes away at that instant and not otherwise. -/
theorem Holds.leaves (h : KeyArmed windowS s) (hh : Holds e s) (he : claimEnabled s a)
    (ha : Clean s a) (hn : ¬ Holds e (claimNext allow windowS s a)) :
    (claimNext allow windowS s a).now ≤ e ∧ (claimNext allow windowS s a).key = none := by
  obtain ⟨hlt, n, hk⟩ := hh
  cases a with
  | tick =>
    refine ⟨hlt, ?_⟩
    by_cases hnow : s.now + 1 < e
    · refine absurd ⟨hnow, n, ?_⟩ hn
      simp only [claimNext, hk, Option.filter_some, Option.all_some, hnow, decide_true, if_true]
    · simp only [claimNext, hk, Option.filter_some, Option.all_some, hnow, decide_false,
        Bool.false_eq_true, if_false]
  | arrive w => exact absurd ⟨hlt, n, hk⟩ hn
  | incr w =>
    have hpos := ((keyArmed_live hk).1 h).1
    have hone : ¬ n + 1 = 1 := by omega
    refine absurd ?_ hn
    simp only [claimNext, hk, incrKey, if_neg hone]
    exact ⟨hlt, n + 1, rfl⟩
  | expire w => exact absurd he (((keyArmed_live hk).1 h).2.2.2 w)
  | incrError w took => cases ha
  | expireError w took => cases ha
  | crash w => cases ha

theorem reopens_of_armed (h : KeyArmed windowS s) (hq : Quiet s)
    (hrun : (claimSystem allow windowS).Reaches Clean s s')
    (hnow : s.now + windowTicks windowS ≤ s'.now) :
    ∃ t, (claimSystem allow windowS).Reaches Clean s t ∧
      (claimSystem allow windowS).Reaches Clean t s' ∧
      t.now ≤ s.now + windowTicks windowS ∧ t.key = none := by
  cases hk : s.key with
  | none => exact ⟨s, .refl, hrun, Nat.le_add_right _ _, hk⟩
  | some c =>
    obtain ⟨n, ex⟩ := c
    obtain ⟨e, rfl, hlt, hle⟩ := h.quiet_key hq hk
    have hend : ¬ Holds e s' := fun hh => by have := hh.1; omega
    obtain ⟨t, a, hst, hPt, hen, hcl, hnot, hrest⟩ := hrun.exit ⟨hlt, n, hk⟩ hend
    obtain ⟨hte, hkey⟩ := Holds.leaves (KeyArmed.clean_run hst h) hPt hen hcl hnot
    exact ⟨_, hst.step a hen hcl, hrest, Nat.le_trans hte hle, hkey⟩

end Reopens

section FirstPass
variable {allow windowS : Int} {s s' : WindowState}

def countOf : Option CounterKey → Nat
  | none => 0
  | some c => c.count

def owed : Option CounterKey → Nat
  | some ⟨_, none⟩ => 1
  | _ => 0

/-- Answers given since the key was absent: all the first ones are `keep`. -/
structure Allowance (allow : Int) (kept₀ suppressed₀ : Nat) (s : WindowState) : Prop where
  kept_le : kept₀ ≤ s.kept
  suppressed_le : suppressed₀ ≤ s.suppressed
  first : min allow (countOf s.key) + kept₀ ≤ s.kept + owed s.key
  full : suppressed₀ < s.suppressed → allow + kept₀ ≤ s.kept + owed s.key

theorem Allowance.start (hk : s.key = none) : Allowance allow s.kept s.suppressed s := by
  refine ⟨Nat.le_refl _, Nat.le_refl _, ?_, fun h => absurd h (Nat.lt_irrefl _)⟩
  simp only [hk, countOf, owed]
  omega

theorem Allowance.frame (h : Allowance allow k p s) (hcount : countOf s'.key ≤ countOf s.key)
    (howed : owed s'.key = owed s.key) (hkept : s'.kept = s.kept)
    (hsup : s'.suppressed = s.suppressed) : Allowance allow k p s' := by
  obtain ⟨hk, hp, hfirst, hfull⟩ := h
  refine ⟨by omega, by omega, by omega, ?_⟩
  intro hlt
  rw [hsup] at hlt
  have := hfull hlt
  omega

theorem tick_key : (claimNext allow windowS s .tick).key = s.key ∨
    (claimNext allow windowS s .tick).key = none ∧ owed s.key = 0 := by
  cases hk : s.key with
  | none => exact .inl (by simp only [claimNext, hk, Option.filter_none])
  | some c =>
    obtain ⟨n, ex⟩ := c
    cases ex with
    | none => exact .inl (by simp only [claimNext, hk, Option.filter_some, Option.all_none,
        if_true])
    | some e =>
      by_cases he : s.now + 1 < e
      · exact .inl (by simp only [claimNext, hk, Option.filter_some, Option.all_some, he,
          decide_true, if_true])
      · exact .inr ⟨by simp only [claimNext, hk, Option.filter_some, Option.all_some, he,
          decide_false, Bool.false_eq_true, if_false], rfl⟩

theorem Allowance.incr (h : Allowance allow k p s) (hs : KeyArmed windowS s) (hallow : 1 ≤ allow) :
    Allowance allow k p (claimNext allow windowS s (.incr w)) := by
  obtain ⟨hk, hp, hfirst, hfull⟩ := h
  cases hkey : s.key with
  | none =>
    rw [hkey] at hfirst hfull
    simp only [countOf, owed] at hfirst hfull
    have hnext : claimNext allow windowS s (.incr w) =
        { s with key := some ⟨1, none⟩ }.setPhase w .expiring := by
      simp only [claimNext, hkey, incrKey, if_true]
    rw [hnext]
    refine ⟨hk, hp, ?_, ?_⟩
    · simp only [WindowState.setPhase, countOf, owed]
      omega
    · intro hlt
      have := hfull hlt
      simp only [WindowState.setPhase, owed]
      omega
  | some c =>
    obtain ⟨n, ex⟩ := c
    rw [hkey] at hfirst hfull
    have howed : owed (some ⟨n + 1, ex⟩) = owed (some ⟨n, ex⟩) := by cases ex <;> rfl
    have hpos := hs.count_pos hkey
    have hone : ¬ n + 1 = 1 := by omega
    have hnext : claimNext allow windowS s (.incr w) =
        { s with key := some ⟨n + 1, ex⟩ }.answer w (decide (((n + 1 : Nat) : Int) ≤ allow)) := by
      simp only [claimNext, hkey, incrKey, if_neg hone]
    rw [hnext]
    simp only [countOf] at hfirst
    by_cases hle : ((n + 1 : Nat) : Int) ≤ allow
    · refine ⟨?_, ?_, ?_, ?_⟩ <;>
        simp only [WindowState.answer, WindowState.setPhase, countOf, hle, decide_true, if_true,
          howed]
      · omega
      · omega
      · omega
      · intro hlt
        have := hfull hlt
        omega
    · refine ⟨?_, ?_, ?_, ?_⟩ <;>
        simp only [WindowState.answer, WindowState.setPhase, countOf, hle, decide_false,
          Bool.false_eq_true, if_false, howed]
      · omega
      · omega
      · omega
      · intro _
        omega

theorem Allowance.expire (h : Allowance allow k p s) (hs : KeyArmed windowS s)
    (hw : s.phase w = .expiring) (hallow : 1 ≤ allow) :
    Allowance allow k p (claimNext allow windowS s (.expire w)) := by
  obtain ⟨hk, hp, hfirst, hfull⟩ := h
  obtain ⟨n, hkey, -, -⟩ := hs.expiring hw
  rw [hkey] at hfirst hfull
  simp only [countOf, owed] at hfirst hfull
  refine ⟨?_, ?_, ?_, ?_⟩ <;>
    simp only [claimNext, WindowState.answer, WindowState.setPhase, expireKey, hkey,
      Option.map_some, countOf, owed, hallow, decide_true, if_true]
  · omega
  · omega
  · omega
  · intro hlt
    have := hfull hlt
    omega

theorem Allowance.next (h : Allowance allow k p s) (hs : KeyArmed windowS s) (hallow : 1 ≤ allow)
    (he : claimEnabled s a) (ha : Clean s a) :
    Allowance allow k p (claimNext allow windowS s a) := by
  cases a with
  | tick =>
    rcases @tick_key allow windowS s with hk | ⟨hk, hz⟩
    · exact h.frame (by rw [hk]) (by rw [hk]) rfl rfl
    · exact h.frame (by rw [hk]; exact Nat.zero_le _) (by rw [hk, hz]; rfl) rfl rfl
  | arrive w => exact h.frame (Nat.le_refl _) rfl rfl rfl
  | incr w => exact h.incr hs hallow
  | expire w => exact h.expire hs he hallow
  | incrError w took => cases ha
  | expireError w took => cases ha
  | crash w => cases ha

theorem first_pass_of_armed (hs : KeyArmed windowS s) (hallow : 1 ≤ allow) (hk : s.key = none)
    (hrun : (claimSystem allow windowS).Reaches Clean s s') (hq : Quiet s') :
    min allow ((s'.kept + s'.suppressed : Nat) - (s.kept + s.suppressed : Nat)) ≤
      s'.kept - s.kept := by
  have hboth : KeyArmed windowS s' ∧ Allowance allow s.kept s.suppressed s' := by
    refine hrun.invariant
      (I := fun t => KeyArmed windowS t ∧ Allowance allow s.kept s.suppressed t) ?_
      ⟨hs, Allowance.start hk⟩
    intro t a ht he ha
    exact ⟨ht.1.next he ha.arms, ht.2.next ht.1 hallow he ha⟩
  obtain ⟨harmed, hkept, hsup, hfirst, hfull⟩ := hboth
  have howed : owed s'.key = 0 := by
    cases hkey : s'.key with
    | none => rfl
    | some c =>
      obtain ⟨n, ex⟩ := c
      obtain ⟨e, rfl, -, -⟩ := harmed.quiet_key hq hkey
      rfl
  by_cases hlt : s.suppressed < s'.suppressed
  · have := hfull hlt
    omega
  · omega

end FirstPass

section Sequential
variable {allow windowS : Int} {s : WindowState}

def sequentialCall (allow windowS : Int) (s : WindowState) (w : Nat) : WindowState :=
  let called := claimNext allow windowS (claimNext allow windowS s (.arrive w)) (.incr w)
  if called.phase w = .expiring then claimNext allow windowS called (.expire w) else called

end Sequential

theorem window_reopens (allow windowS : Int) (hallow : 1 ≤ allow) (s : WindowState)
    (h : (claimSystem allow windowS).Reaches Arms .init s) : WindowReopens allow windowS s := by
  have harmed : KeyArmed windowS s := KeyArmed.reached h
  refine ⟨?_, ?_, ?_⟩
  · intro hq c hk hnone
    obtain ⟨n, ex⟩ := c
    obtain ⟨e, he, -, -⟩ := harmed.quiet_key hq hk
    rw [show ex = none from hnone] at he
    cases he
  · intro hq s' hrun hnow
    exact reopens_of_armed harmed hq hrun hnow
  · intro hk s' hrun hq
    exact first_pass_of_armed harmed hallow hk hrun hq

/-- One worker counts the first event of a window and arms the key. -/
def armedRun : WindowState :=
  claimNext 1 30 (claimNext 1 30 (claimNext 1 30 .init (.arrive 0)) (.incr 0)) (.expire 0)

theorem window_reopens_armedRun :
    (claimSystem 1 30).Reaches Arms .init armedRun ∧ WindowReopens 1 30 armedRun := by
  have h0 : (claimSystem 1 30).Reaches Arms .init .init := .refl
  have h1 := h0.step (.arrive 0) rfl trivial
  have h2 := h1.step (.incr 0) rfl trivial
  have hrun : (claimSystem 1 30).Reaches Arms .init armedRun := h2.step (.expire 0) rfl trivial
  exact ⟨hrun, window_reopens 1 30 (by decide) armedRun hrun⟩

def crashedRun : WindowState :=
  claimNext 1 30 (claimNext 1 30 (claimNext 1 30 .init (.arrive 0)) (.incr 0)) (.crash 0)

theorem crash_leaves_orphan_key :
    ¬ ∀ s, (claimSystem 1 30).Reaches (fun _ _ => True) .init s → WindowReopens 1 30 s := by
  intro h
  have h0 : (claimSystem 1 30).Reaches (fun _ _ => True) .init .init := .refl
  have h1 := h0.step (.arrive 0) rfl trivial
  have h2 := h1.step (.incr 0) rfl trivial
  have hrun : (claimSystem 1 30).Reaches (fun _ _ => True) .init crashedRun :=
    h2.step (.crash 0) (fun hidle => by cases hidle) trivial
  have hq : Quiet crashedRun := by
    intro w
    simp [crashedRun, claimNext, WindowState.setPhase, WindowState.init, incrKey]
  exact (h crashedRun hrun).no_orphan hq ⟨1, none⟩ rfl rfl

end CentralOps
