import CentralOps.Json
import CentralOps.Limits.Admission
import CentralOps.Lib.Capped
import CentralOps.Lib.Rely
import Mathlib.Data.List.DropRight

namespace CentralOps
set_option autoImplicit true

/-- Where a `slot` awaits. The clocks and the token are questions as well, and so is the body of
the `async with`, which may raise. -/
inductive SlotAsk where
  | uuid
  | time
  | monotonic
  | eval (key : String) (now lease : Nat) (limit : Int) (token : String)
  | sleep (seconds : Rat)
  | body
  | zrem (key token : String)

abbrev SlotReply : SlotAsk → Type
  | .uuid => String
  | .time => Nat
  | .monotonic => Rat
  | .eval .. => Bool
  | .sleep _ => Unit
  | .body => Bool
  | .zrem .. => Unit

abbrev SlotTask := Dialog SlotAsk SlotReply

/-- How a `slot` ends: its body was entered or not, and raised or not. -/
inductive SlotEnd where
  | left (raised : Bool)
  | timedOut
  | waiting
  deriving DecidableEq

inductive Lease where
  | held
  | late
  | waiting
  deriving DecidableEq

/-- The `while True` of both limiters. Every finite run of it is one of enough polls. -/
def slotLoop (key : String) (lease : Nat) (limit : Int) (token : String) (pollSleep deadline : Rat) :
    Nat → SlotTask Lease
  | 0 => pure .waiting
  | polls + 1 => do
    let now ← Dialog.query SlotAsk.time
    if ← Dialog.query (SlotAsk.eval key now lease limit token) then pure .held
    else do
      let t ← Dialog.query SlotAsk.monotonic
      if deadline ≤ t then pure .late
      else do
        let _ ← Dialog.query (SlotAsk.sleep pollSleep)
        slotLoop key lease limit token pollSleep deadline polls

/-- The body of the `async with`, and the release in its `finally`. -/
def heldSlot (key token : String) : SlotTask SlotEnd := do
  let raised ← Dialog.query SlotAsk.body
  let _ ← Dialog.query (SlotAsk.zrem key token)
  pure (.left raised)

structure DomainLimiter where
  limits : List (String × Int)
  defaultLimit : Int := 10
  maxWaitSeconds : Rat := 60

namespace DomainLimiter

def leaseMs : Nat := 30000
def pollSleep : Rat := 1 / 5

/-- The first vendor whose name is in the domain. -/
def limitForDomain (limiter : DomainLimiter) (domain : String) : Int :=
  match limiter.limits.find? (fun p => isSubstring p.1 domain) with
  | some p => p.2
  | none => limiter.defaultLimit

def key (domain : String) : String := "domain_sem:" ++ domain

def slot (limiter : DomainLimiter) (domain : String) (polls : Nat) : SlotTask SlotEnd := do
  let token ← Dialog.query SlotAsk.uuid
  let start ← Dialog.query SlotAsk.monotonic
  match ← slotLoop (key domain) leaseMs (limiter.limitForDomain domain) token pollSleep
      (start + limiter.maxWaitSeconds) polls with
  | .held => heldSlot (key domain) token
  | .late => pure .timedOut
  | .waiting => pure .waiting

end DomainLimiter

structure DestinationLimiter where
  maxWaitSeconds : Rat := 30

namespace DestinationLimiter

def leaseMs : Nat := 120000
def pollSleep : Rat := 1 / 10

def key (destinationId : String) : String := "dest_concurrency:" ++ destinationId

def slot (limiter : DestinationLimiter) (destinationId : String) (concurrency : Int) (polls : Nat) :
    SlotTask SlotEnd := do
  let limit := if concurrency ≥ 1 then concurrency else 1
  let token ← Dialog.query SlotAsk.uuid
  let start ← Dialog.query SlotAsk.monotonic
  match ← slotLoop (key destinationId) leaseMs limit token pollSleep
      (start + limiter.maxWaitSeconds) polls with
  | .held => heldSlot (key destinationId) token
  | .late => do
    let raised ← Dialog.query SlotAsk.body
    pure (.left raised)
  | .waiting => pure .waiting

end DestinationLimiter

/-- A call of `slot` of either limiter. The limiters, their limits and the polls are the caller's. -/
inductive SlotCall where
  | domain (limiter : DomainLimiter) (host : String) (polls : Nat)
  | destination (limiter : DestinationLimiter) (destinationId : String) (concurrency : Int)
      (polls : Nat)

def SlotCall.program : SlotCall → SlotTask SlotEnd
  | .domain limiter host polls => limiter.slot host polls
  | .destination limiter destinationId concurrency polls =>
    limiter.slot destinationId concurrency polls

/-- `LEASE_MS` of the limiter that a key belongs to. -/
def leaseMs (key : String) : Nat :=
  if "domain_sem:".toList <+: key.toList then DomainLimiter.leaseMs else DestinationLimiter.leaseMs

theorem leaseMs_domain (domain : String) :
    leaseMs (DomainLimiter.key domain) = DomainLimiter.leaseMs := by
  rw [leaseMs, DomainLimiter.key, String.toList_append, if_pos (List.prefix_append _ _)]

theorem leaseMs_destination (destinationId : String) :
    leaseMs (DestinationLimiter.key destinationId) = DestinationLimiter.leaseMs := by
  have hne : ¬ "domain_sem:".toList <+: (DestinationLimiter.key destinationId).toList := by
    rw [DestinationLimiter.key, String.toList_append]
    rintro ⟨rest, h⟩
    injection h with _ h
    injection h with h _
    exact absurd h (by decide)
  rw [leaseMs, if_neg hne]

/-- One run of the script: what was asked, at which instant of Redis, and by whom. -/
structure Admission where
  key : String
  token : String
  limit : Int
  reading : Nat
  lease : Nat
  granted : Bool
  time : Nat
  worker : Nat

/-- Redis with its clock, the tokens drawn and by whom, the runs of the script, newest first, and
the tokens released. -/
structure SlotWorld where
  now : Nat := 0
  store : LimitStore := fun _ => none
  drawn : List (String × Nat) := []
  admissions : List Admission := []
  released : List String := []

namespace SlotWorld

/-- The lease was granted and not released, and by its reading it runs at an instant. -/
def runs (w : SlotWorld) (instant : Nat) (a : Admission) : Bool :=
  a.granted && decide (a.token ∉ w.released) && decide (instant < a.reading + a.lease)

/-- The leases of a key that run at an instant. -/
def running (w : SlotWorld) (instant : Nat) (key : String) : List Admission :=
  w.admissions.filter (fun a => decide (a.key = key) && w.runs instant a)

def limitsInForce (w : SlotWorld) (key : String) : List Int :=
  (((w.admissions.filter (fun a => decide (a.key = key))).rdropWhile
    (fun a => !w.runs w.now a)).map Admission.limit)

def largestLimit (w : SlotWorld) (key : String) : Int := (w.limitsInForce key).foldr max 0

def admitToken (i : Nat) (w : SlotWorld) (key : String) (now lease : Nat) (limit : Int) (token : String) :
    Bool × SlotWorld :=
  let r := admitScript w.store w.now key now lease limit token
  (r.1, { w with
    store := r.2
    admissions := ⟨key, token, limit, now, lease, r.1, w.now, i⟩ :: w.admissions })

def release (w : SlotWorld) (key token : String) : SlotWorld :=
  { w with store := w.store.zrem w.now key token, released := token :: w.released }

/-- What the awaits of one worker return and leave, Redis being up. -/
def Answers (i : Nat) (w : SlotWorld) : (q : SlotAsk) → SlotReply q → SlotWorld → Prop
  | .uuid, token, w' =>
    token ∉ w.drawn.map Prod.fst ∧ w' = { w with drawn := (token, i) :: w.drawn }
  | .time, now, w' => now = w.now ∧ w' = w
  | .monotonic, _, w' => w' = w
  | .eval key now lease limit token, r, w' => (r, w') = w.admitToken i key now lease limit token
  | .sleep _, _, w' => w' = w
  | .body, _, w' => w' = w
  | .zrem key token, _, w' => w' = w.release key token

end SlotWorld

abbrev SlotCrew := Crew SlotWorld Nat SlotCall SlotAsk SlotReply SlotEnd

/-- Any number of workers over one Redis whose clock never goes back. A worker that crashes is one
that takes no further step. -/
def slotRules : CrewRules SlotWorld Nat SlotCall SlotAsk SlotReply SlotEnd where
  program := SlotCall.program
  starts _ _ _ := True
  answers := SlotWorld.Answers
  moves w w' := ∃ now, w.now ≤ now ∧ w' = { w with now := now }

def SlotCrew.initial : SlotCrew := ⟨{}, fun _ => none⟩

namespace SlotWorld

def Granted (w : SlotWorld) (token : String) : Prop :=
  ∃ a ∈ w.admissions, a.granted = true ∧ a.token = token

def counts (w : SlotWorld) (a b : Admission) : Bool :=
  decide (b.key = a.key) && w.runs a.time b

structure Leased (w : SlotWorld) : Prop where
  covered : w.store.Covered leaseMs
  dated : ∀ a ∈ w.admissions, a.lease = leaseMs a.key ∧ a.reading ≤ a.time ∧ a.time ≤ w.now
  drawn : ∀ a ∈ w.admissions, (a.token, a.worker) ∈ w.drawn
  owners : (w.drawn.map Prod.fst).Nodup
  once : ((w.admissions.filter Admission.granted).map Admission.token).Nodup
  released : ∀ token ∈ w.released, w.Granted token
  entries : ∀ key, ∀ p ∈ w.store.members w.now key, ∃ a ∈ w.admissions, a.granted = true ∧
    a.token ∉ w.released ∧ a.key = key ∧ (a.token, a.reading) = p
  leases : ∀ a ∈ w.admissions, w.runs w.now a = true →
    (a.token, a.reading) ∈ w.store.members w.now a.key
  capped : Capped Admission.limit w.counts (w.admissions.filter Admission.granted)

theorem runs_iff {w : SlotWorld} : w.runs t a = true ↔
    a.granted = true ∧ a.token ∉ w.released ∧ t < a.reading + a.lease := by
  rw [runs, Bool.and_eq_true, Bool.and_eq_true, decide_eq_true_eq, decide_eq_true_eq, and_assoc]

theorem counts_iff {w : SlotWorld} :
    w.counts a b = true ↔ b.key = a.key ∧ w.runs a.time b = true := by
  rw [counts, Bool.and_eq_true, decide_eq_true_eq]

section Leased
variable {w : SlotWorld}

theorem mem_granted : a ∈ w.admissions.filter Admission.granted ↔
    a ∈ w.admissions ∧ a.granted = true := List.mem_filter

theorem Leased.members_past (h : w.Leased) (hp : p ∈ w.store.members w.now key) :
    p.2 ≤ w.now := by
  obtain ⟨a, ha, -, -, -, rfl⟩ := h.entries key p hp
  obtain ⟨-, hread, htime⟩ := h.dated a ha
  exact le_trans hread htime

theorem Leased.length_counted_le (h : w.Leased) (reading : Nat) (key : String) :
    (counted w.store w.now key reading (leaseMs key)).length ≤ (w.running reading key).length := by
  have hnodup : (counted w.store w.now key reading (leaseMs key)).Nodup :=
    (nodup_counted h.covered).of_map
  have hsub : counted w.store w.now key reading (leaseMs key) ⊆
      (w.running reading key).map (fun a => (a.token, a.reading)) := by
    intro p hp
    obtain ⟨hmem, hdate⟩ := List.mem_filter.1 hp
    obtain ⟨a, ha, hgranted, hreleased, rfl, rfl⟩ := h.entries key p hmem
    apply List.mem_map_of_mem (f := fun a : Admission => (a.token, a.reading))
    apply List.mem_filter.2
    rw [Bool.and_eq_true, decide_eq_true_eq, runs_iff, (h.dated a ha).1]
    exact ⟨ha, rfl, hgranted, hreleased, of_decide_eq_true hdate⟩
  have hle := (List.Nodup.subperm hnodup hsub).length_le
  rw [List.length_map] at hle
  exact hle

theorem Leased.countP_running_le (h : w.Leased) (hreading : reading ≤ w.now) (key : String) :
    (w.admissions.filter Admission.granted).countP
      (fun a => decide (a.key = key) && w.runs w.now a) ≤
      (counted w.store w.now key reading (leaseMs key)).length := by
  rw [List.countP_eq_length_filter]
  generalize hl : (w.admissions.filter Admission.granted).filter
    (fun a => decide (a.key = key) && w.runs w.now a) = l
  have htokens : (l.map Admission.token).Nodup :=
    h.once.sublist ((hl ▸ List.filter_sublist).map Admission.token)
  have hpairs : (l.map (fun a => (a.token, a.reading))).Nodup := by
    apply List.Nodup.of_map Prod.fst
    rw [List.map_map]
    exact htokens
  have hsub : l.map (fun a => (a.token, a.reading)) ⊆
      counted w.store w.now key reading (leaseMs key) := by
    intro p hp
    obtain ⟨a, ha, rfl⟩ := List.mem_map.1 hp
    rw [← hl, List.mem_filter, Bool.and_eq_true, decide_eq_true_eq] at ha
    obtain ⟨hgranted, rfl, hruns⟩ := ha
    have hin := (mem_granted.1 hgranted).1
    have hlate := (runs_iff.1 hruns).2.2
    rw [(h.dated a hin).1] at hlate
    apply List.mem_filter.2
    exact ⟨h.leases a hin hruns, decide_eq_true (lt_of_le_of_lt hreading hlate)⟩
  have hle := (List.Nodup.subperm hpairs hsub).length_le
  rw [List.length_map] at hle
  exact hle

theorem Leased.move (h : w.Leased) (hnow : w.now ≤ t) : Leased { w with now := t } where
  covered := h.covered
  dated a ha := by
    obtain ⟨hlease, hread, htime⟩ := h.dated a ha
    exact ⟨hlease, hread, le_trans htime hnow⟩
  drawn := h.drawn
  owners := h.owners
  once := h.once
  released := h.released
  entries key p hp := h.entries key p (SortedStore.members_anti hnow hp)
  leases a ha hruns := by
    obtain ⟨hgranted, hreleased, hlate⟩ := runs_iff.1 hruns
    have hbefore : w.runs w.now a = true :=
      runs_iff.2 ⟨hgranted, hreleased, lt_of_le_of_lt hnow hlate⟩
    have hstored := SortedStore.mem_stored_of_mem_members (h.leases a ha hbefore)
    apply h.covered.mem_members hstored
    rw [← (h.dated a ha).1]
    exact hlate
  capped := h.capped

theorem Leased.draw (h : w.Leased) (htoken : token ∉ w.drawn.map Prod.fst) (i : Nat) :
    Leased { w with drawn := (token, i) :: w.drawn } where
  covered := h.covered
  dated := h.dated
  drawn a ha := List.mem_cons_of_mem _ (h.drawn a ha)
  owners := List.nodup_cons.2 ⟨htoken, h.owners⟩
  once := h.once
  released := h.released
  entries := h.entries
  leases := h.leases
  capped := h.capped

/-- A run of the script with a token of its worker that holds no lease yet. -/
theorem Leased.admitToken (h : w.Leased) (hdrawn : (token, i) ∈ w.drawn) (hfree : ¬ w.Granted token)
    (hnow : reading ≤ w.now) (hlease : lease = leaseMs key) (limit : Int) :
    (w.admitToken i key reading lease limit token).2.Leased := by
  subst hlease
  have hpast : ∀ p ∈ w.store.members w.now key, p.2 ≤ w.now := fun p hp => h.members_past hp
  have hreleased : token ∉ w.released := fun hin => hfree (h.released token hin)
  have hne : ∀ a ∈ w.admissions, a.granted = true → a.token ≠ token :=
    fun a ha hgranted htoken => hfree ⟨a, ha, hgranted, htoken⟩
  constructor
  · exact covered_admitScript h.covered rfl hnow hpast
  · intro a ha
    obtain rfl | ha := List.mem_cons.1 ha
    · exact ⟨rfl, hnow, le_refl _⟩
    · exact h.dated a ha
  · intro a ha
    obtain rfl | ha := List.mem_cons.1 ha
    · exact hdrawn
    · exact h.drawn a ha
  · exact h.owners
  · change ((List.filter Admission.granted (_ :: w.admissions)).map Admission.token).Nodup
    rw [List.filter_cons]
    split
    · rw [List.map_cons, List.nodup_cons]
      refine ⟨fun hin => ?_, h.once⟩
      obtain ⟨a, ha, htoken⟩ := List.mem_map.1 hin
      obtain ⟨ha, hgranted⟩ := mem_granted.1 ha
      exact hne a ha hgranted htoken
    · exact h.once
  · intro t ht
    obtain ⟨a, ha, hgranted⟩ := h.released t ht
    exact ⟨a, List.mem_cons_of_mem _ ha, hgranted⟩
  · intro key' p hp
    obtain hp | ⟨hgranted, rfl, rfl⟩ := members_admitScript hp
    · obtain ⟨a, ha, hrest⟩ := h.entries key' p hp
      exact ⟨a, List.mem_cons_of_mem _ ha, hrest⟩
    · exact ⟨_, List.mem_cons_self, hgranted, hreleased, rfl, rfl⟩
  · intro a ha hruns
    obtain ⟨hgranted, hout, hlate⟩ := runs_iff.1 hruns
    obtain rfl | hin := List.mem_cons.1 ha
    · change (token, reading) ∈ SortedStore.members (admitScript ..).2 w.now key
      rw [admitScript_members hgranted]
      exact Assoc.mem_set_self _ _ _
    · have hmem := h.leases a hin (runs_iff.2 ⟨hgranted, hout, hlate⟩)
      by_cases hkey : a.key = key
      · subst hkey
        apply mem_members_admitScript hmem _ (hne a hin hgranted)
        rw [← (h.dated a hin).1]
        exact lt_of_le_of_lt hnow hlate
      · change _ ∈ SortedStore.members (admitScript ..).2 w.now a.key
        rw [SortedStore.members_congr (admitScript_ne hkey)]
        exact hmem
  · change Capped Admission.limit w.counts (List.filter Admission.granted (_ :: w.admissions))
    rw [List.filter_cons]
    split
    · next hgranted =>
      refine ⟨?_, h.capped⟩
      have hroom := admitScript_fst.1 hgranted
      have hold := h.countP_running_le hnow key
      refine le_trans (Int.ofNat_le.2 (countP_cons_le _ _ _)) ?_
      change ((List.countP (fun a => decide (a.key = key) && w.runs w.now a) _ + 1 : Nat) : Int) ≤
        limit
      omega
    · exact h.capped

theorem Leased.unique (h : w.Leased) (ha : a ∈ w.admissions) (hb : b ∈ w.admissions)
    (hga : a.granted = true) (hgb : b.granted = true) (htoken : a.token = b.token) : a = b :=
  List.inj_on_of_nodup_map h.once (mem_granted.2 ⟨ha, hga⟩) (mem_granted.2 ⟨hb, hgb⟩) htoken

theorem members_release (h : p ∈ (w.release key token).store.members w.now k) :
    p ∈ w.store.members w.now k ∧ (k = key → p.1 ≠ token) := by
  by_cases hk : k = key
  · subst hk
    change p ∈ (w.store.keep w.now k _).members w.now k at h
    rw [SortedStore.members_keep, List.mem_filter, decide_eq_true_eq] at h
    exact ⟨h.1, fun _ => h.2⟩
  · change p ∈ (w.store.keep w.now key _).members w.now k at h
    rw [SortedStore.members_congr (SortedStore.keep_ne hk _)] at h
    exact ⟨h, fun he => absurd he hk⟩

theorem mem_members_release (h : p ∈ w.store.members w.now k) (hne : k = key → p.1 ≠ token) :
    p ∈ (w.release key token).store.members w.now k := by
  change p ∈ (w.store.keep w.now key _).members w.now k
  by_cases hk : k = key
  · subst hk
    rw [SortedStore.members_keep, List.mem_filter, decide_eq_true_eq]
    exact ⟨h, hne rfl⟩
  · rw [SortedStore.members_congr (SortedStore.keep_ne hk _)]
    exact h

theorem Leased.release (h : w.Leased)
    (hheld : ∃ a ∈ w.admissions, a.granted = true ∧ a.token = token ∧ a.key = key) :
    (w.release key token).Leased where
  covered := h.covered.keep _ _ _
  dated := h.dated
  drawn := h.drawn
  owners := h.owners
  once := h.once
  released t ht := by
    obtain rfl | ht := List.mem_cons.1 ht
    · obtain ⟨a, ha, hgranted, htoken, -⟩ := hheld
      exact ⟨a, ha, hgranted, htoken⟩
    · exact h.released t ht
  entries k p hp := by
    obtain ⟨hmem, hne⟩ := members_release hp
    obtain ⟨a, ha, hgranted, hout, rfl, rfl⟩ := h.entries k p hmem
    refine ⟨a, ha, hgranted, fun hin => ?_, rfl, rfl⟩
    obtain htoken | hin := List.mem_cons.1 hin
    · obtain ⟨b, hb, hgb, hbtoken, hbkey⟩ := hheld
      have hab := h.unique ha hb hgranted hgb (htoken.trans hbtoken.symm)
      subst hab
      exact hne hbkey htoken
    · exact hout hin
  leases a ha hruns := by
    obtain ⟨hgranted, hout, hlate⟩ := runs_iff.1 hruns
    have hrest : a.token ∉ w.released := fun hin => hout (List.mem_cons_of_mem _ hin)
    apply mem_members_release (h.leases a ha (runs_iff.2 ⟨hgranted, hrest, hlate⟩))
    exact fun _ htoken => hout (htoken ▸ List.mem_cons_self)
  capped := by
    apply h.capped.mono
    intro a _ b _ hcounts
    obtain ⟨hkey, hruns⟩ := counts_iff.1 hcounts
    obtain ⟨hgranted, hout, hlate⟩ := runs_iff.1 hruns
    have hrest : b.token ∉ w.released := fun hin => hout (List.mem_cons_of_mem _ hin)
    exact counts_iff.2 ⟨hkey, runs_iff.2 ⟨hgranted, hrest, hlate⟩⟩

end Leased

structure Guarantees (i : Nat) (w u : SlotWorld) : Prop where
  now : w.now ≤ u.now
  drawn : w.drawn ⊆ u.drawn
  admissions : u.admissions = w.admissions ∨
    ∃ a : Admission, a.lease = leaseMs a.key ∧ u.admissions = a :: w.admissions
  others : ∀ token j, (token, j) ∈ w.drawn → j ≠ i → u.Granted token → w.Granted token
  released : u.released = w.released ∨
    ∃ token, (token, i) ∈ w.drawn ∧ u.released = token :: w.released

structure Relies (i : Nat) (w u : SlotWorld) : Prop where
  now : w.now ≤ u.now
  drawn : w.drawn ⊆ u.drawn
  admissions : w.admissions ⊆ u.admissions
  own : ∀ token, (token, i) ∈ w.drawn → u.Granted token → w.Granted token

theorem Guarantees.refl (i : Nat) (w : SlotWorld) : Guarantees i w w :=
  ⟨le_refl _, List.Subset.refl _, .inl rfl, fun _ _ _ _ h => h, .inl rfl⟩

theorem Relies.refl (i : Nat) (w : SlotWorld) : Relies i w w :=
  ⟨le_refl _, List.Subset.refl _, List.Subset.refl _, fun _ _ h => h⟩

theorem Relies.trans (h : Relies i w t) (h' : Relies i t u) : Relies i w u where
  now := le_trans h.now h'.now
  drawn := List.Subset.trans h.drawn h'.drawn
  admissions := List.Subset.trans h.admissions h'.admissions
  own token htoken hgranted := h.own token htoken (h'.own token (h.drawn htoken) hgranted)

theorem Guarantees.relies (h : Guarantees i w u) (hj : j ≠ i) : Relies j w u where
  now := h.now
  drawn := h.drawn
  admissions := by
    obtain hsame | ⟨a, -, hnew⟩ := h.admissions
    · rw [hsame]
      exact List.Subset.refl _
    · rw [hnew]
      exact List.subset_cons_self _ _
  own token htoken := h.others token j htoken hj

/-- The worker drew the token and has no lease by it. -/
structure Fresh (i : Nat) (token : String) (w : SlotWorld) : Prop where
  drawn : (token, i) ∈ w.drawn
  free : ¬ w.Granted token

structure Holding (i : Nat) (key token : String) (w : SlotWorld) : Prop where
  drawn : (token, i) ∈ w.drawn
  granted : ∃ a ∈ w.admissions, a.granted = true ∧ a.token = token ∧ a.key = key

theorem Fresh.stable (h : Fresh i token w) (hw : Relies i w u) : Fresh i token u :=
  ⟨hw.drawn h.drawn, fun hgranted => h.free (hw.own token h.drawn hgranted)⟩

theorem Holding.stable (h : Holding i key token w) (hw : Relies i w u) : Holding i key token u := by
  obtain ⟨a, ha, hrest⟩ := h.granted
  exact ⟨hw.drawn h.drawn, a, hw.admissions ha, hrest⟩

abbrev Slot (i : Nat) (post : α → SlotWorld → Prop) (t : SlotTask α) (w : SlotWorld) : Prop :=
  Dialog.Meets (Answers i) (Relies i) (Guarantees i) Leased post t w

theorem Slot.idle {q : SlotAsk} {f : SlotReply q → SlotTask β} {post : β → SlotWorld → Prop}
    (hq : ∀ t r u, Answers i t q r u → u = t)
    (h : ∀ t r, Relies i w t → Answers i t q r t → Slot i post (f r) t) :
    Slot i post (Dialog.query q >>= f) w := by
  apply Dialog.Meets.query
  intro t hwt hI r u hr
  obtain rfl := hq t r u hr
  exact ⟨hI, Guarantees.refl i u, h u r hwt hr⟩

/-- A run of the script by the worker whose token it is. -/
theorem Slot.eval {f : Bool → SlotTask β} {post : β → SlotWorld → Prop} (hfresh : Fresh i token w)
    (hread : reading ≤ w.now) (hlease : lease = leaseMs key) (limit : Int)
    (hheld : ∀ u, Holding i key token u → Slot i post (f true) u)
    (hrefused : ∀ u, Fresh i token u → Slot i post (f false) u) :
    Slot i post (Dialog.query (SlotAsk.eval key reading lease limit token) >>= f) w := by
  apply Dialog.Meets.query
  intro t hwt hI r u hr
  have ht := hfresh.stable hwt
  have hu : u = (t.admitToken i key reading lease limit token).2 := congrArg Prod.snd hr
  have hr' : r = (t.admitToken i key reading lease limit token).1 := congrArg Prod.fst hr
  have hgranted : ∀ token', u.Granted token' → t.Granted token' ∨ token' = token ∧ r = true := by
    rintro token' ⟨a, ha, hgranted, htoken⟩
    rw [hu] at ha
    obtain rfl | ha := List.mem_cons.1 ha
    · exact .inr ⟨htoken.symm, hr'.trans hgranted⟩
    · exact .inl ⟨a, ha, hgranted, htoken⟩
  have hdrawn : u.drawn = t.drawn := by rw [hu]; rfl
  refine ⟨hu ▸ hI.admitToken ht.drawn ht.free (le_trans hread hwt.now) hlease limit, ?_, ?_⟩
  · constructor
    · rw [hu]
      exact le_refl _
    · rw [hdrawn]
      exact List.Subset.refl _
    · apply Or.inr
      rw [hu]
      exact ⟨_, hlease, rfl⟩
    · intro token' j hdrawn' hj hgr
      obtain hold | ⟨rfl, -⟩ := hgranted token' hgr
      · exact hold
      · have hij := List.inj_on_of_nodup_map hI.owners hdrawn' ht.drawn rfl
        exact absurd (congrArg Prod.snd hij) hj
    · apply Or.inl
      rw [hu]
      rfl
  · cases r with
    | true =>
      apply hheld
      refine ⟨hdrawn ▸ ht.drawn, ⟨key, token, limit, reading, lease, _, t.now, i⟩, ?_, hr'.symm,
        rfl, rfl⟩
      rw [hu]
      exact List.mem_cons_self
    | false =>
      apply hrefused
      refine ⟨hdrawn ▸ ht.drawn, fun hgr => ?_⟩
      obtain hold | ⟨-, hfalse⟩ := hgranted token hgr
      · exact ht.free hold
      · cases hfalse

theorem slotLoop_meets (hfresh : Fresh i token w) (hlease : lease = leaseMs key) (limit : Int)
    (pollSleep deadline : Rat) (polls : Nat) :
    Slot i (fun r u => r = .held → Holding i key token u)
      (slotLoop key lease limit token pollSleep deadline polls) w := by
  induction polls generalizing w with
  | zero => exact fun h => nomatch h
  | succ polls ih =>
    rw [slotLoop]
    refine Slot.idle (fun t r u h => h.2) ?_
    rintro t now hwt ⟨rfl, -⟩
    refine Slot.eval (hfresh.stable hwt) (le_refl _) hlease limit (fun u hu _ => hu) ?_
    intro u hu
    rw [if_neg Bool.false_ne_true]
    refine Slot.idle (fun t r u h => h) ?_
    intro t' instant hut _
    split
    · exact fun h => nomatch h
    · refine Slot.idle (fun t r u h => h) ?_
      intro v _ htv _
      exact ih ((hu.stable hut).stable htv)

theorem heldSlot_meets (h : Holding i key token w) :
    Slot i (fun _ _ => True) (heldSlot key token) w := by
  refine Slot.idle (fun t r u h => h) ?_
  intro t raised hwt _
  apply Dialog.Meets.query
  rintro v htv hI r u rfl
  have hv := (h.stable hwt).stable htv
  refine ⟨hI.release hv.granted, ?_, trivial⟩
  exact ⟨le_refl _, List.Subset.refl _, .inl rfl, fun _ _ _ _ hgr => hgr,
    .inr ⟨token, hv.drawn, rfl⟩⟩

theorem waiting_meets {f : Lease → SlotTask SlotEnd} (hlease : lease = leaseMs key) (limit : Int)
    (pollSleep maxWait : Rat) (polls : Nat)
    (hheld : ∀ u, Holding i key token u → Slot i (fun _ _ => True) (f .held) u)
    (hother : ∀ r u, r ≠ .held → Slot i (fun _ _ => True) (f r) u) (hfresh : Fresh i token w) :
    Slot i (fun _ _ => True)
      (Dialog.query SlotAsk.monotonic >>= fun start =>
        slotLoop key lease limit token pollSleep (start + maxWait) polls >>= f) w := by
  refine Slot.idle (fun t r u h => h) ?_
  intro t start hwt _
  apply Dialog.Meets.bind
  apply (slotLoop_meets (hfresh.stable hwt) hlease limit _ _ polls).weaken
  intro r u hu
  by_cases hr : r = .held
  · subst hr
    exact hheld u (hu rfl)
  · exact hother r u hr

theorem drawing_meets {f : String → SlotTask SlotEnd}
    (h : ∀ token u, Fresh i token u → Slot i (fun _ _ => True) (f token) u) (w : SlotWorld) :
    Slot i (fun _ _ => True) (Dialog.query SlotAsk.uuid >>= f) w := by
  apply Dialog.Meets.query
  rintro t hwt hI token u ⟨htoken, rfl⟩
  refine ⟨hI.draw htoken i, ?_, h token _ ⟨List.mem_cons_self, ?_⟩⟩
  · exact ⟨le_refl _, List.subset_cons_self _ _, .inl rfl, fun _ _ _ _ hgr => hgr, .inl rfl⟩
  · rintro ⟨a, ha, hgranted, rfl⟩
    exact htoken (List.mem_map_of_mem (f := Prod.fst) (hI.drawn a ha))

theorem program_meets (c : SlotCall) (w : SlotWorld) :
    Slot i (fun _ _ => True) c.program w := by
  cases c with
  | domain limiter host polls =>
    apply drawing_meets
    intro token u
    apply waiting_meets (leaseMs_domain host).symm
    · exact fun u hu => heldSlot_meets hu
    · intro r u hr
      cases r with
      | held => exact absurd rfl hr
      | late => exact trivial
      | waiting => exact trivial
  | destination limiter destinationId concurrency polls =>
    apply drawing_meets
    intro token u
    apply waiting_meets (leaseMs_destination destinationId).symm
    · exact fun u hu => heldSlot_meets hu
    · intro r u hr
      cases r with
      | held => exact absurd rfl hr
      | late => exact Slot.idle (fun t r u h => h) (fun _ _ _ _ => trivial)
      | waiting => exact trivial

theorem initial_leased : Leased {} where
  covered _ _ h := nomatch h
  dated _ ha := nomatch ha
  drawn _ ha := nomatch ha
  owners := List.nodup_nil
  once := List.nodup_nil
  released _ ht := nomatch ht
  entries _ _ hp := nomatch hp
  leases _ ha := nomatch ha
  capped := trivial

theorem assured {x : SlotCrew} (h : Crew.Reaches slotRules SlotCrew.initial x) :
    Crew.Assured slotRules Relies Guarantees Leased (fun _ _ => True) x := by
  apply h.assured
  · exact fun i s t u => Relies.trans
  · exact Relies.refl
  · exact fun _ _ _ _ _ => trivial
  · exact fun i j s t hj hguar => hguar.relies hj
  · exact fun w i c _ _ _ => program_meets c w
  · rintro w u hw ⟨now, hnow, rfl⟩
    refine ⟨hw.move hnow, fun i => ?_⟩
    exact ⟨hnow, List.Subset.refl _, List.Subset.refl _, fun _ _ hgr => hgr⟩
  · exact ⟨initial_leased, fun _ => trivial⟩

theorem guarantees_of_answer {x : SlotCrew} (h : Crew.Reaches slotRules SlotCrew.initial x)
    {next : SlotReply q → SlotTask SlotEnd} (hrun : x.running i = some (c, .ask q next))
    (hr : Answers i x.shared q r u) : Guarantees i x.shared u := by
  obtain ⟨hI, hworkers⟩ := assured h
  have hcontent := hworkers i
  rw [hrun] at hcontent
  exact (hcontent x.shared (Relies.refl i _) hI r u hr).2.1

theorem le_foldr_max {l : List Int} (h : a ∈ l) : a ≤ l.foldr max 0 := by
  induction l with
  | nil => cases h
  | cons b l ih =>
    rw [List.foldr_cons]
    obtain rfl | h := List.mem_cons.1 h
    · exact le_max_left _ _
    · exact le_trans (ih h) (le_max_right _ _)

theorem foldr_max_nonneg (l : List Int) : 0 ≤ l.foldr max 0 := by
  induction l with
  | nil => exact le_refl _
  | cons b l ih => exact le_trans ih (le_max_right _ _)

theorem limit_mem_limitsInForce {w : SlotWorld} (ha : a ∈ w.running w.now key) :
    a.limit ∈ w.limitsInForce key := by
  obtain ⟨hin, hruns⟩ := List.mem_filter.1 ha
  rw [Bool.and_eq_true] at hruns
  apply List.mem_map_of_mem
  rw [List.rdropWhile, List.mem_reverse]
  generalize hl : (w.admissions.filter (fun a => decide (a.key = key))).reverse = l
  have hkeyed : a ∈ l.takeWhile (fun a => !w.runs w.now a) ++
      l.dropWhile (fun a => !w.runs w.now a) := by
    rw [List.takeWhile_append_dropWhile, ← hl, List.mem_reverse]
    exact List.mem_filter.2 ⟨hin, hruns.1⟩
  obtain hbefore | hafter := List.mem_append.1 hkeyed
  · have hnot := List.mem_takeWhile_imp hbefore
    rw [hruns.2] at hnot
    cases hnot
  · exact hafter

theorem Leased.running_le_largestLimit {w : SlotWorld} (h : w.Leased) (key : String) :
    ((w.running w.now key).length : Int) ≤ w.largestLimit key := by
  by_cases hsome : ∃ a, a ∈ w.running w.now key
  · have hlength : (w.running w.now key).length = (w.admissions.filter Admission.granted).countP
        (fun a => decide (a.key = key) && w.runs w.now a) := by
      rw [List.countP_filter, running, List.countP_eq_length_filter]
      congr 2
      funext a
      rw [runs]
      cases a.granted <;> simp
    have hmem : ∀ a, a ∈ w.running w.now key ↔ a ∈ w.admissions.filter Admission.granted ∧
        (decide (a.key = key) && w.runs w.now a) = true := by
      intro a
      rw [running, List.mem_filter, mem_granted]
      constructor
      · rintro ⟨hin, hruns⟩
        rw [Bool.and_eq_true] at hruns
        exact ⟨⟨hin, (runs_iff.1 hruns.2).1⟩, Bool.and_eq_true _ _ ▸ hruns⟩
      · exact fun hin => ⟨hin.1.1, hin.2⟩
    have hclose : ∀ a ∈ w.admissions.filter Admission.granted,
        (decide (a.key = key) && w.runs w.now a) = true →
        ∀ b ∈ w.admissions.filter Admission.granted,
          (decide (b.key = key) && w.runs w.now b) = true → w.counts a b = true := by
      intro a ha hruns b _ hruns'
      rw [Bool.and_eq_true, decide_eq_true_eq] at hruns hruns'
      obtain ⟨hgranted, hout, hlate⟩ := runs_iff.1 hruns'.2
      have htime := (h.dated a (mem_granted.1 ha).1).2.2
      refine counts_iff.2 ⟨hruns'.1.trans hruns.1.symm, runs_iff.2 ⟨hgranted, hout, ?_⟩⟩
      exact lt_of_le_of_lt htime hlate
    obtain ⟨a, ha⟩ := hsome
    obtain ⟨b, hb, hruns, hle⟩ := h.capped.countP_le hclose ⟨a, (hmem a).1 ha⟩
    rw [hlength]
    exact le_trans hle (le_foldr_max (limit_mem_limitsInForce ((hmem b).2 ⟨hb, hruns⟩)))
  · have hempty : w.running w.now key = [] :=
      List.eq_nil_iff_forall_not_mem.2 (fun a ha => hsome ⟨a, ha⟩)
    rw [hempty]
    exact foldr_max_nonneg _

end SlotWorld

namespace SlotWorld

/-- Redis whose clock stands still. A token is a number not used before. -/
def reply (i : Nat) (w : SlotWorld) : (q : SlotAsk) → SlotReply q × SlotWorld
  | .uuid => let token := Nat.repr w.drawn.length; (token, { w with drawn := (token, i) :: w.drawn })
  | .time => (w.now, w)
  | .monotonic => (0, w)
  | .eval key reading lease limit token => w.admitToken i key reading lease limit token
  | .sleep _ => ((), w)
  | .body => (false, w)
  | .zrem key token => ((), w.release key token)

def unused (w : SlotWorld) : SlotAsk → Bool
  | .uuid => decide (Nat.repr w.drawn.length ∉ w.drawn.map Prod.fst)
  | _ => true

theorem answers_reply (i : Nat) (w : SlotWorld) (q : SlotAsk) (h : w.unused q = true) :
    Answers i w q (reply i w q).1 (reply i w q).2 := by
  cases q with
  | uuid => exact ⟨of_decide_eq_true h, rfl⟩
  | time => exact ⟨rfl, rfl⟩
  | _ => rfl

end SlotWorld

/-- Two workers ask for the one slot of a host: the first holds it, the second is refused. -/
def oneSlot : SlotCrew :=
  let call : SlotCall := .domain { limits := [("sophos", 1)] } "api.sophos.com" 1
  ([.call 0 call, .go 0, .go 0, .go 0, .go 0, .call 1 call, .go 1, .go 1, .go 1, .go 1] :
    List (Crew.Cue Nat SlotCall)).foldl
      (Crew.cue slotRules SlotWorld.reply SlotWorld.unused) SlotCrew.initial

end CentralOps
