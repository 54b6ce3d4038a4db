import Mathlib.Algebra.Order.Ring.Cast
import CentralOps.Lib.Decimal
import CentralOps.Lib.ExpiringValue
import CentralOps.Lib.Stages
import CentralOps.Lib.Typestate

namespace CentralOps
set_option autoImplicit true

/-- What `refresh_fn` returns. -/
structure RefreshedTokens where
  accessToken : String
  expiresIn : Option Int := none

def RefreshedTokens.lifetime (tokens : RefreshedTokens) : Int := tokens.expiresIn.getD 3600

structure CachedToken where
  accessToken : String
  expiresIn : Int

inductive OauthAsk where
  | get
  | acquire
  | sleep
  | startRefresh
  | endRefresh
  | setToken (value : CachedToken) (ex : Int)
  | unlock
  | delToken

abbrev OauthReply : OauthAsk → Type
  | .get => Option CachedToken
  | .acquire => Bool
  | .endRefresh => Option RefreshedTokens
  | _ => Unit

inductive OauthResult where
  | token (accessToken : String)
  | timeoutError (message : String)
  | refreshError
  | invalidated
  deriving DecidableEq

abbrev OauthTask := Dialog OauthAsk OauthReply

def oauth (q : OauthAsk) : OauthTask (OauthReply q) := Dialog.query q

namespace OauthCache

def lockTtl : Rat := 15

def skewSeconds : Int := 60

def pollMaxIter : Nat := 30

def ttl (expiresIn : Int) : Int := max 60 (expiresIn - skewSeconds)

/-- The iterations of the poll that are left. -/
def poll (integrationId : Int) : Nat → OauthTask OauthResult
  | 0 => pure (.timeoutError
      ("timeout aguardando refresh de token integration=" ++ integrationId.repr))
  | n + 1 => do
    oauth .sleep
    match ← oauth .get with
    | some cached => pure (.token cached.accessToken)
    | none => poll integrationId n

/-- The `try` of the worker that has the lock. -/
def refresh : OauthTask OauthResult := do
  oauth .startRefresh
  match ← oauth .endRefresh with
  | none =>
    oauth .unlock
    pure .refreshError
  | some tokens =>
    oauth (.setToken ⟨tokens.accessToken, tokens.lifetime⟩ (ttl tokens.lifetime))
    oauth .unlock
    pure (.token tokens.accessToken)

def getOrRefreshToken (integrationId : Int) : OauthTask OauthResult := do
  match ← oauth .get with
  | some cached => pure (.token cached.accessToken)
  | none =>
    if ← oauth .acquire then refresh
    else poll integrationId pollMaxIter

def invalidate : OauthTask OauthResult := do
  oauth .delToken
  pure .invalidated

end OauthCache

inductive OauthCall where
  | getOrRefreshToken | invalidate

def OauthCall.program (integrationId : Int) : OauthCall → OauthTask OauthResult
  | .getOrRefreshToken => OauthCache.getOrRefreshToken integrationId
  | .invalidate => OauthCache.invalidate

/-- How far a call has come: it has no lock to use, or it has acquired the lock, or its refresh
runs, or its token is not stored yet. -/
inductive RefreshStage where
  | idle | holding | refreshing | fetched
  deriving DecidableEq

/-- The keys of an integration, the token with the instant to which it is valid and the lock with
its worker, who stands for the text of `uuid4`. Beside them: the stage of each worker, when its
refresh began and how long its token is valid; the cached tokens that were returned, with the
instant and their validity; of each refresh that began, whether the cache held no token and
whether the token of the last one was gone. -/
structure OauthWorld where
  now : Rat := 0
  token : Option (ExpiringValue (CachedToken × Rat)) := none
  lock : Option (ExpiringValue Nat) := none
  stage : Nat → RefreshStage := fun _ => .idle
  began : Nat → Rat := fun _ => 0
  validUntil : Nat → Rat := fun _ => 0
  served : List (Rat × Rat) := []
  started : List (Bool × Bool) := []
  due : Bool := true

namespace OauthWorld

def cached (w : OauthWorld) : Option (CachedToken × Rat) := ExpiringValue.read w.now w.token

def holder (w : OauthWorld) : Option Nat := ExpiringValue.read w.now w.lock

def enter (w : OauthWorld) (i : Nat) (stage : RefreshStage) : OauthWorld :=
  { w with stage := Function.update w.stage i stage }

/-- What is answered to a worker, where the refresh that ends returns `o`. -/
def reply (o : Option RefreshedTokens) (i : Nat) (w : OauthWorld) :
    (q : OauthAsk) → OauthReply q × OauthWorld
  | .get =>
    match w.cached with
    | none => (none, w)
    | some v => (some v.1, { w with served := (w.now, v.2) :: w.served })
  | .acquire =>
    match w.holder with
    | some _ => (false, w)
    | none =>
      (true, { w.enter i .holding with lock := ExpiringValue.setEx w.now OauthCache.lockTtl i })
  | .sleep => ((), w)
  | .startRefresh =>
    ((), { w.enter i .refreshing with
      began := Function.update w.began i w.now
      started := (w.cached.isNone, w.due) :: w.started
      due := false })
  | .endRefresh =>
    match o with
    | none => (none, { w.enter i .idle with due := true })
    | some tokens =>
      (some tokens, { w.enter i .fetched with
        validUntil := Function.update w.validUntil i (w.now + tokens.lifetime) })
  | .setToken value ex =>
    ((), { w.enter i .idle with
      token := ExpiringValue.setEx w.now ex (value, w.validUntil i)
      due := false })
  | .unlock => ((), if w.holder = some i then { w with lock := none } else w)
  | .delToken => ((), { w with token := none, due := true })

/-- The clock goes on. -/
def pass (w : OauthWorld) (t : Rat) : OauthWorld :=
  { w with
    now := t
    due := w.due || (w.cached.isSome && (ExpiringValue.read t w.token).isNone) }

def Brief (w : OauthWorld) (t : Rat) : Prop :=
  ∀ i, w.stage i = .refreshing → t < w.began i + OauthCache.lockTtl

/-- No cached token was returned after its validity. -/
def Fresh (w : OauthWorld) : Prop := ∀ p ∈ w.served, p.1 ≤ p.2

/-- No two refreshes overlap. -/
def Single (w : OauthWorld) : Prop :=
  ∀ i j, w.stage i = .refreshing → w.stage j = .refreshing → i = j

/-- Every refresh began without a token in the cache. -/
def StartsEmpty (w : OauthWorld) : Prop := ∀ s ∈ w.started, s.1 = true

/-- Every refresh began after the last one had failed or its token was gone. -/
def Once (w : OauthWorld) : Prop := ∀ s ∈ w.started, s.2 = true

end OauthWorld

/-- What may be answered, and how far the clock may go on. -/
structure OauthLaw where
  asks : Nat → OauthWorld → OauthAsk → Prop := fun _ _ _ => True
  passes : OauthWorld → Rat → Prop := fun _ _ => True

namespace OauthLaw

def all : OauthLaw := {}

def roomy : OauthLaw where
  asks i w q :=
    match q with
    | .setToken value _ => w.now + max 60 (value.expiresIn - 60 : Int) ≤ w.validUntil i
    | _ => True

/-- From the acquisition of the lock to the storing of the token the lock does not run out. -/
def prompt : OauthLaw where
  passes w t := ∀ i, w.stage i ≠ .idle → ExpiringValue.Lasts w.lock t

/-- The lock is acquired only while the cache still holds no token. -/
def missed : OauthLaw where
  asks _ w q :=
    match q with
    | .acquire => w.holder = none → w.cached = none
    | _ => True

def both (a b : OauthLaw) : OauthLaw where
  asks i w q := a.asks i w q ∧ b.asks i w q
  passes w t := a.passes w t ∧ b.passes w t

end OauthLaw

abbrev OauthCrew := Crew OauthWorld Nat OauthCall OauthAsk OauthReply OauthResult

def OauthCrew.initial : OauthCrew := ⟨{}, fun _ => none⟩

def oauthRules (integrationId : Int) (law : OauthLaw) :
    CrewRules OauthWorld Nat OauthCall OauthAsk OauthReply OauthResult where
  program := OauthCall.program integrationId
  starts _ _ _ := True
  answers i w q r u :=
    law.asks i w q ∧ ∃ o, (∀ tokens, o = some tokens → 1 ≤ tokens.lifetime) ∧
      (r, u) = w.reply o i q
  moves w u := ∃ t, w.now ≤ t ∧ w.Brief t ∧ law.passes w t ∧ u = w.pass t

/-- In every run under the law. -/
def OauthLaw.Keeps (law : OauthLaw) (integrationId : Int) (P : OauthWorld → Prop) : Prop :=
  ∀ x, Crew.Reaches (oauthRules integrationId law) OauthCrew.initial x → P x.shared

section Programs

def OauthAsk.Suits : RefreshStage → OauthAsk → Prop
  | .idle, .get | .idle, .acquire | .idle, .sleep | .idle, .unlock | .idle, .delToken => True
  | .holding, .startRefresh => True
  | .refreshing, .endRefresh => True
  | .fetched, .setToken value ex => ex = OauthCache.ttl value.expiresIn
  | _, _ => False

def RefreshStage.next : RefreshStage → (q : OauthAsk) → OauthReply q → RefreshStage
  | _, .acquire, true => .holding
  | _, .startRefresh, _ => .refreshing
  | _, .endRefresh, some _ => .fetched
  | _, .endRefresh, none => .idle
  | _, .setToken .., _ => .idle
  | p, _, _ => p

def oauthStates : Typestate RefreshStage OauthAsk OauthReply where
  mayAsk := OauthAsk.Suits
  next := RefreshStage.next

abbrev OauthTask.Follows (t : OauthTask OauthResult) (p : RefreshStage) : Prop :=
  Dialog.Follows oauthStates (fun p _ => p = .idle) t p

namespace OauthCache

theorem poll_follows (integrationId : Int) (n : Nat) :
    OauthTask.Follows (poll integrationId n) .idle := by
  induction n with
  | zero => exact rfl
  | succ n ih =>
    refine ⟨trivial, fun _ => ⟨trivial, fun cached => ?_⟩⟩
    cases cached with
    | none => exact ih
    | some cached => exact rfl

theorem refresh_follows : OauthTask.Follows refresh .holding := by
  refine ⟨trivial, fun _ => ⟨trivial, fun tokens => ?_⟩⟩
  cases tokens with
  | none => exact ⟨trivial, fun _ => rfl⟩
  | some tokens => exact ⟨rfl, fun _ => ⟨trivial, fun _ => rfl⟩⟩

end OauthCache

theorem OauthCall.program_follows (integrationId : Int) (c : OauthCall) :
    OauthTask.Follows (c.program integrationId) .idle := by
  cases c with
  | getOrRefreshToken =>
    refine ⟨trivial, fun cached => ?_⟩
    cases cached with
    | some cached => exact rfl
    | none =>
      refine ⟨trivial, fun acquired => ?_⟩
      cases acquired with
      | true => exact OauthCache.refresh_follows
      | false => exact OauthCache.poll_follows integrationId _
  | invalidate => exact ⟨trivial, fun _ => rfl⟩

namespace OauthAsk.Suits

theorem idle (hq : unlock.Suits p) : p = .idle := by
  cases p with
  | idle => rfl
  | _ => cases hq

theorem holding (hq : startRefresh.Suits p) : p = .holding := by
  cases p with
  | holding => rfl
  | _ => cases hq

theorem refreshing (hq : endRefresh.Suits p) : p = .refreshing := by
  cases p with
  | refreshing => rfl
  | _ => cases hq

theorem fetched {value : CachedToken} {ex : Int} (hq : (setToken value ex).Suits p) :
    p = .fetched ∧ ex = OauthCache.ttl value.expiresIn := by
  cases p with
  | fetched => exact ⟨rfl, hq⟩
  | _ => cases hq

end OauthAsk.Suits

end Programs

section Runs
variable {w u : OauthWorld} {law : OauthLaw} {integrationId : Int} {i : Nat} {q : OauthAsk}
  {o : Option RefreshedTokens} {t : Rat}

namespace OauthWorld

theorem enter_stage_self (w : OauthWorld) (i : Nat) (stage : RefreshStage) :
    (w.enter i stage).stage i = stage := Function.update_self ..

theorem enter_stage_ne (w : OauthWorld) (stage : RefreshStage) (h : j ≠ i) :
    (w.enter i stage).stage j = w.stage j := Function.update_of_ne h ..

/-- The stage of a worker goes on with its answer. -/
theorem reply_stage_self (h : q.Suits (w.stage i)) :
    (w.reply o i q).2.stage i = (w.stage i).next q (w.reply o i q).1 := by
  generalize hp : w.stage i = p at h
  cases q with
  | get =>
    rw [reply]
    cases w.cached with
    | none => exact hp
    | some v => exact hp
  | acquire =>
    rw [reply]
    cases w.holder with
    | none => exact enter_stage_self w i _
    | some j => exact hp
  | startRefresh => exact enter_stage_self w i _
  | endRefresh =>
    cases o with
    | none => exact enter_stage_self w i _
    | some tokens => exact enter_stage_self w i _
  | setToken value ex => exact enter_stage_self w i _
  | unlock =>
    rw [reply]
    simp only []
    split
    · exact hp
    · exact hp
  | sleep => exact hp
  | delToken => exact hp

theorem reply_stage_ne (h : j ≠ i) : (w.reply o i q).2.stage j = w.stage j := by
  cases q with
  | get =>
    rw [reply]
    cases w.cached with
    | none => rfl
    | some v => rfl
  | acquire =>
    rw [reply]
    cases w.holder with
    | none => exact enter_stage_ne w _ h
    | some k => rfl
  | startRefresh => exact enter_stage_ne w _ h
  | endRefresh =>
    cases o with
    | none => exact enter_stage_ne w _ h
    | some tokens => exact enter_stage_ne w _ h
  | setToken value ex => exact enter_stage_ne w _ h
  | unlock =>
    rw [reply]
    simp only []
    split
    · rfl
    · rfl
  | sleep => rfl
  | delToken => rfl

end OauthWorld

theorem OauthLaw.Keeps.of_kept {I P : OauthWorld → Prop} (hinit : I {})
    (hreply : ∀ w i q o, I w → q.Suits (w.stage i) → law.asks i w q → I (w.reply o i q).2)
    (hpass : ∀ w t, I w → w.now ≤ t → law.passes w t → I (w.pass t))
    (h : ∀ w, I w → P w) : law.Keeps integrationId P := by
  intro x hx
  have hphased : Crew.Phased oauthStates OauthWorld.stage .idle I x := by
    apply hx.phased
    · exact fun _ _ c _ => c.program_follows integrationId
    · rintro i w q r u hw hmay ⟨hasks, o, -, hr⟩
      obtain ⟨rfl, rfl⟩ := Prod.mk.inj hr
      exact ⟨hreply w i q o hw hmay hasks, OauthWorld.reply_stage_self hmay,
        fun j hj => OauthWorld.reply_stage_ne hj⟩
    · rintro w u hw ⟨t, hle, -, hpasses, rfl⟩
      exact ⟨hpass w t hw hle hpasses, fun i => rfl⟩
    · exact ⟨hinit, fun i => rfl⟩
  exact h x.shared hphased.1

structure OauthWorld.Outlasts (w : OauthWorld) : Prop where
  valid : ∀ l, w.token = some l → l.deadline ≤ l.value.2
  fresh : w.Fresh

namespace OauthWorld

theorem Outlasts.reply (h : w.Outlasts) (hq : q.Suits (w.stage i))
    (hroomy : OauthLaw.roomy.asks i w q) : (w.reply o i q).2.Outlasts := by
  cases q with
  | get =>
    rw [OauthWorld.reply]
    cases hc : w.cached with
    | none => exact h
    | some v =>
      refine ⟨h.valid, fun p hp => ?_⟩
      obtain rfl | hp := List.mem_cons.1 hp
      · obtain ⟨l, hl, hle, rfl⟩ := ExpiringValue.read_eq_some_iff.1 hc
        exact hle.trans (h.valid l hl)
      · exact h.fresh p hp
  | acquire =>
    rw [OauthWorld.reply]
    cases w.holder with
    | none => exact ⟨h.valid, h.fresh⟩
    | some j => exact h
  | endRefresh =>
    cases o with
    | none => exact ⟨h.valid, h.fresh⟩
    | some tokens => exact ⟨h.valid, h.fresh⟩
  | setToken value ex =>
    refine ⟨?_, h.fresh⟩
    intro l hl
    obtain rfl := Option.some.inj hl
    obtain rfl := (OauthAsk.Suits.fetched hq).2
    exact hroomy
  | unlock =>
    rw [OauthWorld.reply]
    simp only []
    split
    · exact ⟨h.valid, h.fresh⟩
    · exact h
  | delToken => exact ⟨fun l hl => (nomatch hl), h.fresh⟩
  | _ => exact ⟨h.valid, h.fresh⟩

theorem Outlasts.initial : Outlasts {} := ⟨nofun, nofun⟩

def Locked (w : OauthWorld) : Prop := ∀ i, w.stage i ≠ .idle → w.holder = some i

theorem Locked.single (h : w.Locked) (hi : w.stage i ≠ .idle) (hj : w.stage j ≠ .idle) : i = j :=
  Option.some.inj ((h i hi).symm.trans (h j hj))

theorem Locked.next (h : w.Locked) (hholder : u.holder = w.holder)
    (hself : u.stage i ≠ .idle → w.stage i ≠ .idle) (hothers : ∀ j, j ≠ i → u.stage j = w.stage j) :
    u.Locked := by
  intro j hj
  rw [hholder]
  by_cases hji : j = i
  · subst hji
    exact h j (hself hj)
  · rw [hothers j hji] at hj
    exact h j hj

theorem Locked.reply (h : w.Locked) (hq : q.Suits (w.stage i)) : (w.reply o i q).2.Locked := by
  have hothers : ∀ j, j ≠ i → (w.reply o i q).2.stage j = w.stage j :=
    fun j hj => reply_stage_ne hj
  cases q with
  | acquire =>
    rw [OauthWorld.reply] at hothers ⊢
    cases hh : w.holder with
    | some k => exact h
    | none =>
      rw [hh] at hothers
      intro j hj
      by_cases hji : j = i
      · subst hji
        exact ExpiringValue.read_eq_some_iff.2
          ⟨_, rfl, le_add_of_nonneg_right (by decide), rfl⟩
      · rw [hothers j hji] at hj
        have hheld := h j hj
        rw [hh] at hheld
        cases hheld
  | get =>
    rw [OauthWorld.reply]
    cases w.cached with
    | none => exact h
    | some v => exact h
  | unlock =>
    rw [OauthWorld.reply]
    simp only []
    split
    · next hown =>
      intro j hj
      have hji : j = i := Option.some.inj ((h j hj).symm.trans hown)
      subst hji
      exact absurd (OauthAsk.Suits.idle hq) hj
    · exact h
  | sleep => exact h
  | delToken => exact h
  | startRefresh =>
    refine h.next rfl (fun _ hidle => ?_) hothers
    rw [hidle] at hq
    exact hq
  | endRefresh =>
    have hnot : w.stage i ≠ .idle := by
      intro hidle
      rw [hidle] at hq
      exact hq
    cases o with
    | none => exact h.next rfl (fun _ => hnot) hothers
    | some tokens => exact h.next rfl (fun _ => hnot) hothers
  | setToken value ex =>
    refine h.next rfl (fun _ hidle => ?_) hothers
    rw [hidle] at hq
    exact hq

theorem Locked.pass (h : w.Locked) (hprompt : OauthLaw.prompt.passes w t) :
    (w.pass t).Locked := by
  intro i hi
  obtain ⟨l, hl, hle⟩ := hprompt i hi
  obtain ⟨l', hl', -, hvalue⟩ := ExpiringValue.read_eq_some_iff.1 (h i hi)
  obtain rfl := Option.some.inj (hl.symm.trans hl')
  exact ExpiringValue.read_eq_some_iff.2 ⟨l, hl, hle, hvalue⟩

/-- While a worker has the lock the cache holds no token, and where no token is due one is cached
or on its way. -/
structure Awaited (w : OauthWorld) : Prop where
  locked : w.Locked
  empty : ∀ i, w.stage i ≠ .idle → w.cached = none
  due : w.due = true ∨ w.cached ≠ none ∨ ∃ i, w.stage i = .refreshing ∨ w.stage i = .fetched
  startsEmpty : w.StartsEmpty
  once : w.Once

theorem initial_awaited : Awaited {} :=
  ⟨fun _ hi => absurd rfl hi, fun _ _ => rfl, .inl rfl, nofun, nofun⟩

theorem Awaited.isDue (h : w.Awaited) (hnone : w.cached = none)
    (hidle : ∀ i, w.stage i ≠ .refreshing ∧ w.stage i ≠ .fetched) : w.due = true := by
  obtain hdue | hcached | ⟨i, hi | hi⟩ := h.due
  · exact hdue
  · exact absurd hnone hcached
  · exact absurd hi (hidle i).1
  · exact absurd hi (hidle i).2

theorem Awaited.startRefresh (h : w.Awaited) (hi : w.stage i = .holding) :
    (w.reply o i .startRefresh).2.Awaited := by
  have hne : w.stage i ≠ .idle := fun hidle => nomatch hi.symm.trans hidle
  have hnone := h.empty i hne
  have hdue : w.due = true := by
    apply h.isDue hnone
    intro j
    constructor
    · intro hj
      obtain rfl := h.locked.single hne (j := j) (fun hidle => nomatch hj.symm.trans hidle)
      exact nomatch hi.symm.trans hj
    · intro hj
      obtain rfl := h.locked.single hne (j := j) (fun hidle => nomatch hj.symm.trans hidle)
      exact nomatch hi.symm.trans hj
  refine ⟨h.locked.reply (hi ▸ trivial), fun _ _ => hnone,
    .inr (.inr ⟨i, .inl (enter_stage_self w i _)⟩), fun s hs => ?_, fun s hs => ?_⟩
  · obtain rfl | hs := List.mem_cons.1 hs
    · exact Option.isNone_iff_eq_none.2 hnone
    · exact h.startsEmpty s hs
  · obtain rfl | hs := List.mem_cons.1 hs
    · exact hdue
    · exact h.once s hs

theorem Awaited.acquire (h : w.Awaited) (hq : OauthAsk.acquire.Suits (w.stage i))
    (hmissed : w.holder = none → w.cached = none) : (w.reply o i .acquire).2.Awaited := by
  have hlocked := h.locked.reply (o := o) hq
  rw [OauthWorld.reply] at hlocked ⊢
  cases hh : w.holder with
  | some j => exact h
  | none =>
    rw [hh] at hlocked
    have hidle : ∀ j, w.stage j = .idle := by
      intro j
      by_contra hj
      exact nomatch hh.symm.trans (h.locked j hj)
    have hdue : w.due = true := by
      apply h.isDue (hmissed hh)
      intro j
      rw [hidle j]
      exact ⟨nofun, nofun⟩
    exact ⟨hlocked, fun _ _ => hmissed hh, .inl hdue, h.startsEmpty, h.once⟩

theorem Awaited.setToken (h : w.Awaited) {value : CachedToken} {ex : Int}
    (hi : w.stage i = .fetched) (hex : ex = OauthCache.ttl value.expiresIn) :
    (w.reply o i (.setToken value ex)).2.Awaited := by
  have hcached : (w.reply o i (.setToken value ex)).2.cached = some (value, w.validUntil i) := by
    have hpos : (0 : Rat) ≤ ex := by
      have hle : (60 : Int) ≤ ex := hex ▸ le_max_left _ _
      exact_mod_cast (by decide : (0 : Int) ≤ 60).trans hle
    exact ExpiringValue.read_eq_some_iff.2 ⟨_, rfl, le_add_of_nonneg_right hpos, rfl⟩
  refine ⟨h.locked.reply (hi ▸ hex), fun j hj => ?_, .inr (.inl fun hnone => ?_), h.startsEmpty,
    h.once⟩
  · by_cases hji : j = i
    · subst hji
      exact absurd (enter_stage_self w j _) hj
    · have hj' : w.stage j ≠ .idle := fun hidle => hj ((enter_stage_ne w _ hji).trans hidle)
      exact absurd (h.locked.single hj' (fun hidle => nomatch hi.symm.trans hidle)) hji
  · exact nomatch hcached.symm.trans hnone

theorem Awaited.reply (h : w.Awaited) (hq : q.Suits (w.stage i))
    (hmissed : OauthLaw.missed.asks i w q) : (w.reply o i q).2.Awaited := by
  have hlocked := h.locked.reply (o := o) hq
  cases q with
  | acquire => exact h.acquire hq hmissed
  | startRefresh => exact h.startRefresh (OauthAsk.Suits.holding hq)
  | endRefresh =>
    have hi := OauthAsk.Suits.refreshing hq
    have hnone := h.empty i (fun hidle => nomatch hi.symm.trans hidle)
    cases o with
    | none => exact ⟨hlocked, fun _ _ => hnone, .inl rfl, h.startsEmpty, h.once⟩
    | some tokens =>
      exact ⟨hlocked, fun _ _ => hnone, .inr (.inr ⟨i, .inr (enter_stage_self w i _)⟩),
        h.startsEmpty, h.once⟩
  | setToken value ex =>
    obtain ⟨hi, hex⟩ := OauthAsk.Suits.fetched hq
    exact h.setToken hi hex
  | get =>
    rw [OauthWorld.reply] at hlocked ⊢
    cases hc : w.cached with
    | none => exact h
    | some v =>
      exact ⟨h.locked, h.empty, h.due, h.startsEmpty, h.once⟩
  | unlock =>
    rw [OauthWorld.reply] at hlocked ⊢
    simp only [] at hlocked ⊢
    split
    · next hown =>
      rw [if_pos hown] at hlocked
      exact ⟨hlocked, h.empty, h.due, h.startsEmpty, h.once⟩
    · exact h
  | sleep => exact h
  | delToken => exact ⟨hlocked, fun _ _ => rfl, .inl rfl, h.startsEmpty, h.once⟩

theorem Awaited.pass (h : w.Awaited) (hle : w.now ≤ t) (hprompt : OauthLaw.prompt.passes w t) :
    (w.pass t).Awaited := by
  have hgone : w.cached = none → (w.pass t).cached = none := by
    intro hnone
    rw [Option.eq_none_iff_forall_ne_some] at hnone ⊢
    intro v hv
    obtain ⟨l, hl, hlive, rfl⟩ := ExpiringValue.read_eq_some_iff.1 hv
    exact hnone _ (ExpiringValue.read_eq_some_iff.2 ⟨l, hl, hle.trans hlive, rfl⟩)
  refine ⟨h.locked.pass hprompt, fun i hi => hgone (h.empty i hi), ?_, h.startsEmpty, h.once⟩
  obtain hdue | hcached | hstage := h.due
  · exact .inl (by rw [OauthWorld.pass, hdue]; rfl)
  · by_cases hnone : (w.pass t).cached = none
    · have hran : (w.cached.isSome && (ExpiringValue.read t w.token).isNone) = true := by
        rw [Option.isSome_iff_ne_none.2 hcached]
        exact Option.isNone_iff_eq_none.2 hnone
      exact .inl (by simp only [OauthWorld.pass, hran, Bool.or_true])
    · exact .inr (.inl hnone)
  · exact .inr (.inr hstage)

end OauthWorld

theorem fresh_of_roomy (integrationId : Int) :
    OauthLaw.roomy.Keeps integrationId OauthWorld.Fresh :=
  OauthLaw.Keeps.of_kept OauthWorld.Outlasts.initial
    (fun _ _ _ _ hw hq hroomy => hw.reply hq hroomy)
    (fun _ _ hw _ _ => ⟨hw.valid, hw.fresh⟩) (fun _ hw => hw.fresh)

theorem single_of_prompt (integrationId : Int) :
    OauthLaw.prompt.Keeps integrationId OauthWorld.Single := by
  refine OauthLaw.Keeps.of_kept OauthWorld.initial_awaited.locked
    (fun _ _ _ _ hw hq _ => hw.reply hq) (fun _ _ hw _ hprompt => hw.pass hprompt) ?_
  intro w hw i j hi hj
  exact hw.single (fun hidle => nomatch hi.symm.trans hidle)
    (fun hidle => nomatch hj.symm.trans hidle)

theorem starts_of_missed (integrationId : Int) :
    (OauthLaw.prompt.both .missed).Keeps integrationId (fun w => w.StartsEmpty ∧ w.Once) :=
  OauthLaw.Keeps.of_kept OauthWorld.initial_awaited (fun _ _ _ _ hw hq hlaw => hw.reply hq hlaw.2)
    (fun _ _ hw hle hlaw => hw.pass hle hlaw.1) (fun _ hw => ⟨hw.startsEmpty, hw.once⟩)

theorem OauthLaw.Keeps.mono {law' : OauthLaw} (h : law.Keeps integrationId P)
    (hasks : ∀ i w q, law'.asks i w q → law.asks i w q)
    (hpasses : ∀ w t, law'.passes w t → law.passes w t) : law'.Keeps integrationId P := by
  intro x hx
  apply h x
  induction hx with
  | refl => exact .refl
  | tail _ hlast ih =>
    refine ih.tail ?_
    cases hlast with
    | start hidle hs => exact .start hidle hs
    | answer hrun hr => exact .answer hrun ⟨hasks _ _ _ hr.1, hr.2⟩
    | finish hrun => exact .finish hrun
    | move hm =>
      obtain ⟨t, hle, hbrief, hlaw, rfl⟩ := hm
      exact .move ⟨t, hle, hbrief, hpasses _ _ hlaw, rfl⟩

theorem OauthLaw.Keeps.both_left {a b : OauthLaw} (h : a.Keeps integrationId P) :
    (a.both b).Keeps integrationId P := h.mono (fun _ _ _ hab => hab.1) (fun _ _ hab => hab.1)

theorem OauthLaw.Keeps.both_right {a b : OauthLaw} (h : b.Keeps integrationId P) :
    (a.both b).Keeps integrationId P := h.mono (fun _ _ _ hab => hab.2) (fun _ _ hab => hab.2)

end Runs

/-- Where tokens are stored soon and live long, the lock lasts to the storing and it is acquired
only while the cache still holds no token, the cache is fresh and single-flight. -/
theorem oauth_cache_guarded (integrationId : Int) :
    OauthLaw.roomy.Keeps integrationId OauthWorld.Fresh ∧
      OauthLaw.prompt.Keeps integrationId OauthWorld.Single ∧
      (OauthLaw.prompt.both .missed).Keeps integrationId (fun w => w.StartsEmpty ∧ w.Once) ∧
      (OauthLaw.roomy.both (.both .prompt .missed)).Keeps integrationId
        (fun w => w.Fresh ∧ w.Single ∧ w.StartsEmpty ∧ w.Once) := by
  refine ⟨fresh_of_roomy integrationId, single_of_prompt integrationId,
    starts_of_missed integrationId, fun x hx => ⟨?_, ?_, ?_⟩⟩
  · exact (fresh_of_roomy integrationId).both_left x hx
  · exact (single_of_prompt integrationId).both_left.both_right x hx
  · exact (starts_of_missed integrationId).both_right x hx

section Schedules

/-- Workers go on as a schedule says, and a refresh that ends returns a token for a second. -/
def OauthCrew.plays (schedule : List (Crew.Cue Nat OauthCall)) (x : OauthCrew) : OauthCrew :=
  schedule.foldl (Crew.cue (oauthRules 7 .all)
    (fun i w q => w.reply (some ⟨"t", some 1⟩) i q) (fun _ _ => true)) x

theorem reaches_plays (schedule : List (Crew.Cue Nat OauthCall)) (x : OauthCrew) :
    Crew.Reaches (oauthRules 7 .all) x (x.plays schedule) := by
  apply Crew.reaches_foldl_cue (fun _ _ _ _ => trivial)
  refine fun i w q _ => ⟨trivial, some ⟨"t", some 1⟩, fun tokens ht => ?_, rfl⟩
  obtain rfl := Option.some.inj ht
  decide

theorem plays_stage_other {schedule : List (Crew.Cue Nat OauthCall)} (x : OauthCrew)
    (h : ∀ m ∈ schedule, j ≠ m.worker) :
    (x.plays schedule).shared.stage j = x.shared.stage j := by
  apply Crew.foldl_cue_keeps (P := fun w => w.stage j = x.shared.stage j) _ x rfl
  intro m hm w q hw
  exact (OauthWorld.reply_stage_ne (h m hm)).trans hw

def OauthCrew.waits (t : Rat) (x : OauthCrew) : OauthCrew := { x with shared := x.shared.pass t }

theorem reaches_waits {x : OauthCrew} {t : Rat} (hle : x.shared.now ≤ t)
    (hidle : ∀ i, x.shared.stage i ≠ .refreshing) :
    Crew.Reaches (oauthRules 7 .all) x (x.waits t) :=
  .single (.move ⟨t, hle, fun i hi => absurd hi (hidle i), trivial, rfl⟩)

def OauthCrew.begins (i n : Nat) : List (Crew.Cue Nat OauthCall) :=
  .call i .getOrRefreshToken :: List.replicate n (.go i)

/-- Worker 0 stores a token, and worker 1 comes when it is no longer valid. -/
def staleRun : OauthCrew :=
  ((OauthCrew.initial.plays (OauthCrew.begins 0 7)).waits 2).plays (OauthCrew.begins 1 1)

def pausedRun : OauthCrew :=
  (((OauthCrew.initial.plays (OauthCrew.begins 0 2)).waits 16).plays (OauthCrew.begins 1 3)).plays
    [.go 0]

/-- Worker 0 misses the token, worker 1 stores one, and worker 0 acquires the lock. -/
def surplusRun : OauthCrew :=
  OauthCrew.initial.plays (OauthCrew.begins 0 1 ++ OauthCrew.begins 1 7 ++ [.go 0, .go 0])

theorem begins_worker {m : Crew.Cue Nat OauthCall} (h : m ∈ OauthCrew.begins i n) :
    m.worker = i := by
  obtain rfl | h := List.mem_cons.1 h
  · rfl
  · obtain rfl := List.eq_of_mem_replicate h
    rfl

theorem reaches_waits_begins {n : Nat} {t : Rat}
    (hle : (OauthCrew.initial.plays (OauthCrew.begins 0 n)).shared.now ≤ t)
    (hself : (OauthCrew.initial.plays (OauthCrew.begins 0 n)).shared.stage 0 ≠ .refreshing) :
    Crew.Reaches (oauthRules 7 .all) OauthCrew.initial
      ((OauthCrew.initial.plays (OauthCrew.begins 0 n)).waits t) := by
  refine (reaches_plays _ _).trans (reaches_waits hle fun i => ?_)
  by_cases hi : i = 0
  · rw [hi]
    exact hself
  · rw [plays_stage_other OauthCrew.initial fun m hm => by rwa [begins_worker hm]]
    exact nofun

theorem reaches_staleRun : Crew.Reaches (oauthRules 7 .all) OauthCrew.initial staleRun :=
  (reaches_waits_begins (by decide +kernel) (by decide +kernel)).trans (reaches_plays _ _)

theorem reaches_pausedRun : Crew.Reaches (oauthRules 7 .all) OauthCrew.initial pausedRun :=
  ((reaches_waits_begins (by decide +kernel) (by decide +kernel)).trans (reaches_plays _ _)).trans
    (reaches_plays _ _)

/-- A token for a second is cached for a minute; the lock of a paused worker runs out; and a worker
that missed the token acquires the lock after the token was stored. -/
theorem oauth_cache_fails :
    ¬ OauthLaw.all.Keeps 7 OauthWorld.Fresh ∧ ¬ OauthLaw.all.Keeps 7 OauthWorld.Single ∧
      ¬ OauthLaw.all.Keeps 7 OauthWorld.StartsEmpty ∧ ¬ OauthLaw.all.Keeps 7 OauthWorld.Once := by
  refine ⟨fun h => ?_, fun h => ?_, fun h => ?_, fun h => ?_⟩
  · have hserved : ((2 : Rat), (1 : Rat)) ∈ staleRun.shared.served := by decide +kernel
    exact absurd (h staleRun reaches_staleRun _ hserved) (by decide)
  · have hfirst : pausedRun.shared.stage 0 = .refreshing := by decide +kernel
    have hsecond : pausedRun.shared.stage 1 = .refreshing := by decide +kernel
    exact absurd (h pausedRun reaches_pausedRun 0 1 hfirst hsecond) (by decide)
  · have hstarted : (false, false) ∈ surplusRun.shared.started := by decide +kernel
    exact nomatch h surplusRun (reaches_plays _ _) _ hstarted
  · have hstarted : (false, false) ∈ surplusRun.shared.started := by decide +kernel
    exact nomatch h surplusRun (reaches_plays _ _) _ hstarted

end Schedules

end CentralOps
