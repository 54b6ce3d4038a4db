import CentralOps.Enrich.Provenance
import CentralOps.Lib.Rely

namespace CentralOps
set_option autoImplicit true

/-- The lock keys of the shared Redis, each with the worker that set it and its expiry; the locks
that a worker has acquired and not deleted, and the deletions of a lock of another worker. -/
structure LockWorld where
  now : Rat := 0
  locks : String → Option (Nat × Rat) := fun _ => none
  held : List (Nat × String) := []
  foreign : List (Nat × String) := []

namespace LockWorld

def live (w : LockWorld) (key : String) : Option (Nat × Rat) :=
  (w.locks key).filter (fun p => decide (w.now ≤ p.2))

def setLock (lockTtl : Rat) (i : Nat) (w : LockWorld) (key : String) : LockWorld :=
  { w with
    locks := Function.update w.locks key (some (i, w.now + lockTtl))
    held := (i, key) :: w.held }

/-- `SET key:lock NX PX`. -/
def acquire (lockTtl : Rat) (i : Nat) (w : LockWorld) (key : String) : Bool × LockWorld :=
  match w.live key with
  | some _ => (false, w)
  | none => (true, w.setLock lockTtl i key)

def unsetLock (i : Nat) (w : LockWorld) (key : String) : LockWorld :=
  { w with
    locks := Function.update w.locks key none
    held := w.held.filter (fun q => decide (q ≠ (i, key))) }

/-- `DEL key:lock`, whoever set it. -/
def release (i : Nat) (w : LockWorld) (key : String) : LockWorld :=
  match w.live key with
  | none => w
  | some p =>
    if p.1 = i then w.unsetLock i key
    else { w with
      locks := Function.update w.locks key none
      foreign := (i, key) :: w.foreign }

/-- What the awaits do to the locks. A lock command may fail before or after it took effect: the
worker then goes on as if it had the lock. All else answers as it pleases. -/
def Answers (lockTtl : Rat) (i : Nat) (w : LockWorld) :
    (q : EnrichAsk) → EnrichReply q → LockWorld → Prop
  | .lock key, r, w' => (r, w') = w.acquire lockTtl i key ∨
      r = true ∧ (w' = w ∨ w' = (w.acquire lockTtl i key).2)
  | .unlock key, _, w' => w' = w.release i key ∨ w' = w
  | _, _, w' => w' = w

/-- Redis carries the lock commands out, who waits for a peer gets its answer, and the source of
the rule is found and its provider built. -/
def Settled (lockTtl : Rat) (i : Nat) (w : LockWorld) :
    (q : EnrichAsk) → EnrichReply q → LockWorld → Prop
  | .lock key, r, w' => (r, w') = w.acquire lockTtl i key
  | .unlock key, _, w' => w' = w.release i key
  | .wait _ _, r, w' => r ≠ none ∧ w' = w
  | .source _, r, w' => r = .ok ∧ w' = w
  | _, _, w' => w' = w

/-- Time does not reach the expiry of a lock that is not deleted. -/
def Timely (w : LockWorld) (now : Rat) : Prop := ∀ key p, w.locks key = some p → now ≤ p.2

end LockWorld

abbrev LockCrew := Crew LockWorld Nat RemoteCall EnrichAsk EnrichReply (Option RemoteState)

def LockCrew.initial : LockCrew := ⟨{}, fun _ => none⟩

/-- Workers that call `resolve_remote` at any time and in any order. -/
def lockRules (lib : EnrichLibrary) (registry : String → Option EnricherCaps)
    (answers : Nat → LockWorld → (q : EnrichAsk) → EnrichReply q → LockWorld → Prop)
    (allowed : LockWorld → Rat → Prop) :
    CrewRules LockWorld Nat RemoteCall EnrichAsk EnrichReply (Option RemoteState) where
  program := resolveRemote lib registry
  starts _ _ _ := True
  answers := answers
  moves w w' := ∃ now, w.now ≤ now ∧ allowed w now ∧ w' = { w with now := now }

/-- No worker deleted the lock of another, and a worker whose call has ended has deleted all the
locks that it acquired. -/
structure LocksOwned (x : LockCrew) : Prop where
  foreign : x.shared.foreign = []
  deleted : ∀ i, x.running i = none ∨ (∃ call a, x.running i = some (call, .done a)) →
    ∀ key, (i, key) ∉ x.shared.held

namespace LockWorld

structure Sole (w : LockWorld) : Prop where
  foreign : w.foreign = []
  alive : w.Timely w.now
  held : ∀ i key, (i, key) ∈ w.held ↔ ∃ d, w.locks key = some (i, d)

def SameLocks (i : Nat) (w u : LockWorld) : Prop :=
  ∀ key, (i, key) ∈ u.held ↔ (i, key) ∈ w.held

def OthersLocks (i : Nat) (w u : LockWorld) : Prop := ∀ j, j ≠ i → SameLocks j w u

section Sole
variable {w : LockWorld} {lockTtl : Rat}

theorem Sole.live_eq (h : w.Sole) (key : String) : w.live key = w.locks key := by
  rw [live]
  cases hk : w.locks key with
  | none => rfl
  | some p => rw [Option.filter_some, if_pos (decide_eq_true (h.alive key p hk))]

theorem setLock_locks (lockTtl : Rat) (i : Nat) (w : LockWorld) (key k : String) :
    (w.setLock lockTtl i key).locks k =
      if k = key then some (i, w.now + lockTtl) else w.locks k := Function.update_apply ..

theorem Sole.free (h : w.Sole) (hnone : w.locks key = none) (j : Nat) : (j, key) ∉ w.held := by
  intro hj
  obtain ⟨d, hd⟩ := (h.held j key).1 hj
  rw [hnone] at hd
  cases hd

theorem Sole.setLock (h : w.Sole) (httl : 0 ≤ lockTtl) (hnone : w.locks key = none) (i : Nat) :
    (w.setLock lockTtl i key).Sole where
  foreign := h.foreign
  alive k p hp := by
    rw [setLock_locks] at hp
    by_cases hkey : k = key
    · rw [if_pos hkey, Option.some.injEq] at hp
      rw [← hp]
      exact le_add_of_nonneg_right httl
    · rw [if_neg hkey] at hp
      exact h.alive k p hp
  held j k := by
    rw [setLock_locks, LockWorld.setLock, List.mem_cons]
    by_cases hkey : k = key
    · subst hkey
      simp [h.free hnone j, eq_comm]
    · simp [hkey, h.held j k]

theorem Sole.acquire (h : w.Sole) (httl : 0 ≤ lockTtl)
    (hr : (r, u) = w.acquire lockTtl i key) : u.Sole ∧ OthersLocks i w u ∧
      (r = false ∧ u = w ∨
        r = true ∧ (i, key) ∉ w.held ∧ ∀ k, (i, k) ∈ u.held ↔ k = key ∨ (i, k) ∈ w.held) := by
  rw [LockWorld.acquire, h.live_eq key] at hr
  cases hk : w.locks key with
  | some p =>
    rw [hk] at hr
    cases hr
    exact ⟨h, fun _ _ _ => Iff.rfl, .inl ⟨rfl, rfl⟩⟩
  | none =>
    rw [hk] at hr
    cases hr
    refine ⟨h.setLock httl hk i, fun j hj k => ?_, .inr ⟨rfl, h.free hk i, fun k => ?_⟩⟩
    · simp [LockWorld.setLock, hj]
    · simp [LockWorld.setLock]

theorem unsetLock_locks (i : Nat) (w : LockWorld) (key k : String) :
    (w.unsetLock i key).locks k = if k = key then none else w.locks k := Function.update_apply ..

theorem Sole.unsetLock (h : w.Sole) (hown : w.locks key = some (i, d)) :
    (w.unsetLock i key).Sole where
  foreign := h.foreign
  alive k p hp := by
    rw [unsetLock_locks] at hp
    by_cases hkey : k = key
    · rw [if_pos hkey] at hp
      cases hp
    · rw [if_neg hkey] at hp
      exact h.alive k p hp
  held j k := by
    rw [unsetLock_locks, LockWorld.unsetLock, List.mem_filter, decide_eq_true_eq]
    by_cases hkey : k = key
    · subst hkey
      have hsole : (j, k) ∈ w.held → j = i := by
        intro hj
        obtain ⟨d', hd'⟩ := (h.held j k).1 hj
        rw [hown, Option.some.injEq, Prod.mk.injEq] at hd'
        exact hd'.1.symm
      simpa using hsole
    · simp [hkey, h.held j k]

theorem Sole.release (h : w.Sole) (hown : (i, key) ∈ w.held) :
    (w.release i key).Sole ∧ OthersLocks i w (w.release i key) ∧
      ∀ k, (i, k) ∈ (w.release i key).held ↔ k ≠ key ∧ (i, k) ∈ w.held := by
  obtain ⟨d, hd⟩ := (h.held i key).1 hown
  have hrelease : w.release i key = w.unsetLock i key := by
    simp only [LockWorld.release, h.live_eq key, hd, if_true]
  rw [hrelease]
  refine ⟨h.unsetLock hd, fun j hj k => ?_, fun k => ?_⟩
  · simp [LockWorld.unsetLock, hj]
  · simp [LockWorld.unsetLock, and_comm]

abbrev Flight (lockTtl : Rat) (i : Nat) (post : α → LockWorld → Prop) (t : EnrichTask α)
    (w : LockWorld) : Prop :=
  Dialog.Meets (Settled lockTtl i) (SameLocks i) (OthersLocks i) Sole post t w

structure Holds (i : Nat) (keys : List String) (w : LockWorld) : Prop where
  nodup : keys.Nodup
  held : ∀ key, (i, key) ∈ w.held ↔ key ∈ keys

theorem Holds.stable (h : Holds i keys w) (hw : SameLocks i w u) : Holds i keys u :=
  ⟨h.nodup, fun key => (hw key).trans (h.held key)⟩

theorem Flight.idle {q : EnrichAsk} {f : EnrichReply q → EnrichTask β} {post : β → LockWorld → Prop}
    (hq : ∀ t r u, Settled lockTtl i t q r u → u = t)
    (h : ∀ t r, SameLocks i w t → Settled lockTtl i t q r t → Flight lockTtl i post (f r) t) :
    Flight lockTtl i post (Dialog.query q >>= f) w := by
  apply Dialog.Meets.query
  intro t hwt hI r u hr
  obtain rfl := hq t r u hr
  exact ⟨hI, fun _ _ _ => Iff.rfl, h u r hwt hr⟩

section Program
variable {lib : EnrichLibrary} {registry : String → Option EnricherCaps} {call : RemoteCall}
  {rule : CompiledEnrichRule}

theorem acquire_flight (httl : 0 ≤ lockTtl) {acc : Rows × List String}
    (h : Holds i (acc.2.map (call.cacheKey lib rule)) w) (key : String) :
    Flight lockTtl i (fun acc u => Holds i (acc.2.map (call.cacheKey lib rule)) u)
      (CentralOps.acquire lib call rule acc key) w := by
  rw [CentralOps.acquire, EnrichTask.lock]
  apply Dialog.Meets.query
  intro t hwt hI got u hr
  obtain ⟨hu, hothers, hgot⟩ := hI.acquire httl hr
  refine ⟨hu, hothers, ?_⟩
  have ht := h.stable hwt
  obtain ⟨rfl, rfl⟩ | ⟨rfl, hfree, hheld⟩ := hgot
  · rw [if_neg Bool.false_ne_true, EnrichTask.wait]
    refine Flight.idle (fun t r u h => h.2) ?_
    rintro v a huv ⟨hanswered, -⟩
    cases a with
    | none => exact absurd rfl hanswered
    | some a => exact ht.stable huv
  · rw [if_pos rfl]
    constructor
    · rw [List.map_append, List.map_singleton]
      refine List.nodup_append.2 ⟨ht.nodup, List.nodup_singleton _, ?_⟩
      intro a ha b hb hab
      rw [List.mem_singleton] at hb
      subst hb hab
      exact hfree ((ht.held _).2 ha)
    · intro k
      rw [hheld k, ht.held k, List.map_append, List.map_singleton, List.mem_append,
        List.mem_singleton]
      exact or_comm

theorem releaseAll_flight {owned : List String}
    (h : Holds i (owned.map (call.cacheKey lib rule)) w) :
    Flight lockTtl i (fun _ u => Holds i [] u) (releaseAll lib call rule owned) w := by
  induction owned generalizing w with
  | nil => exact h
  | cons key owned ih =>
    rintro t hwt hI r u rfl
    have ht := h.stable hwt
    have hnodup := List.nodup_cons.1 ht.nodup
    obtain ⟨hu, hothers, hheld⟩ := hI.release ((ht.held _).2 List.mem_cons_self)
    refine ⟨hu, hothers, ih ⟨hnodup.2, fun k => ?_⟩⟩
    rw [hheld k, ht.held k, List.map_cons, List.mem_cons]
    constructor
    · rintro ⟨hne, rfl | hk⟩
      · exact absurd rfl hne
      · exact hk
    · intro hk
      exact ⟨fun he => hnodup.1 (he ▸ hk), .inr hk⟩

theorem resolveOwned_flight {caps : EnricherCaps} {owned : List String} {st : RemoteState}
    (h : Holds i (owned.map (call.cacheKey lib rule)) w) :
    Flight lockTtl i (fun _ u => Holds i [] u) (resolveOwned lib call caps rule owned st) w := by
  rw [resolveOwned, EnrichTask.breaker]
  refine Flight.idle (fun t r u h => h) ?_
  intro t opened hwt _
  cases opened with
  | true =>
    apply Dialog.Meets.bind
    exact (releaseAll_flight (h.stable hwt)).weaken (fun _ _ hu => hu)
  | false =>
    rw [if_neg Bool.false_ne_true, EnrichTask.source]
    refine Flight.idle (fun t r u h => h.2) ?_
    rintro u found htu ⟨rfl, -⟩
    refine Flight.idle (fun t r u h => h) ?_
    intro v reply huv _
    apply Dialog.Meets.bind
    apply (releaseAll_flight (((h.stable hwt).stable htu).stable huv)).weaken
    intro _ v' hv'
    cases reply with
    | timeout => exact hv'
    | raised => exact hv'
    | ok resolved =>
      refine Flight.idle (fun t r u h => h) ?_
      intro v'' _ hv'' _
      exact Holds.stable hv' hv''

theorem resolveKeys_flight (httl : 0 ≤ lockTtl) {caps : EnricherCaps} {keys : List String}
    {st : RemoteState} {deadline : Rat} (h : Holds i [] w) :
    Flight lockTtl i (fun _ u => Holds i [] u) (resolveKeys lib call deadline caps rule keys st)
      w := by
  rw [resolveKeys, EnrichTask.getMany]
  refine Flight.idle (fun t r u h => h) ?_
  intro t cached hwt _
  dsimp only
  split
  · exact h.stable hwt
  · refine Flight.idle (fun t r u h => h) ?_
    intro u now htu _
    have hu := (h.stable hwt).stable htu
    split
    · exact hu
    · apply Dialog.Meets.bind
      have hstart : Holds i ((([] : List String)).map (call.cacheKey lib rule)) u := hu
      refine Dialog.Meets.weaken (Dialog.Meets.fold (fun acc key s _ hacc =>
        acquire_flight httl hacc key) hstart) ?_
      intro acc v hacc
      split
      · next hnone =>
        rw [hnone] at hacc
        exact hacc
      · exact resolveOwned_flight hacc

theorem resolveRemoteRule_flight (httl : 0 ≤ lockTtl) {st : RemoteState} {deadline : Rat}
    (h : Holds i [] w) : Flight lockTtl i (fun _ u => Holds i [] u)
      (resolveRemoteRule lib registry call deadline st rule) w := by
  rw [resolveRemoteRule]
  split
  · exact h
  · cases registry rule.enricher with
    | none => exact h
    | some caps =>
      cases distinctKeys lib call.batch rule with
      | error e => exact h
      | ok keys =>
        dsimp only
        split
        · exact h
        · exact resolveKeys_flight httl h

theorem resolveRemoteRules_flight (httl : 0 ≤ lockTtl) {rules : List CompiledEnrichRule}
    {st : RemoteState} {deadline : Rat} (h : Holds i [] w) :
    Flight lockTtl i (fun _ u => Holds i [] u)
      (resolveRemoteRules lib registry call deadline rules st) w := by
  induction rules generalizing st w with
  | nil => exact h
  | cons rule rules ih =>
    rw [resolveRemoteRules]
    apply Dialog.Meets.bind
    apply (resolveRemoteRule_flight httl h).weaken
    intro turn u hu
    cases turn with
    | next st' => exact ih hu
    | stop st' => exact hu
    | raised => exact hu

theorem resolveRemote_flight (httl : 0 ≤ lockTtl) (h : Holds i [] w) :
    Flight lockTtl i (fun _ u => Holds i [] u) (resolveRemote lib registry call) w := by
  rw [resolveRemote]
  split
  · exact h
  · refine Flight.idle (fun t r u h => h) ?_
    intro t now hwt _
    exact resolveRemoteRules_flight httl (h.stable hwt)

end Program

end Sole

theorem initial_sole : Sole {} where
  foreign := rfl
  alive _ _ hp := nomatch hp
  held i key := by
    constructor
    · exact fun hin => nomatch hin
    · rintro ⟨d, hd⟩
      cases hd

theorem assured {lib : EnrichLibrary} {registry : String → Option EnricherCaps} {lockTtl : Rat}
    (httl : 0 ≤ lockTtl) {x : LockCrew}
    (h : Crew.Reaches (lockRules lib registry (Settled lockTtl) Timely) LockCrew.initial x) :
    Crew.Assured (lockRules lib registry (Settled lockTtl) Timely) SameLocks OthersLocks Sole
      (fun i w => Holds i [] w) x := by
  apply h.assured
  · exact fun i s t u hst htu key => (htu key).trans (hst key)
  · exact fun i s key => Iff.rfl
  · exact fun i s t hs hst => hs.stable hst
  · exact fun i j s t hj hguar => hguar j hj
  · exact fun w i call _ hrest _ => resolveRemote_flight httl hrest
  · rintro w u hw ⟨now, -, htimely, rfl⟩
    exact ⟨⟨hw.foreign, htimely, hw.held⟩, fun i key => Iff.rfl⟩
  · exact ⟨initial_sole, fun i => ⟨List.nodup_nil, by simp [LockCrew.initial]⟩⟩

end LockWorld

/-- In every settled and timely run the locks are owned. -/
theorem locks_owned (lib : EnrichLibrary) (registry : String → Option EnricherCaps) (lockTtl : Rat)
    (httl : 0 ≤ lockTtl) (x : LockCrew)
    (h : Crew.Reaches (lockRules lib registry (LockWorld.Settled lockTtl) LockWorld.Timely)
      LockCrew.initial x) : LocksOwned x := by
  obtain ⟨hsole, hworkers⟩ := LockWorld.assured httl h
  refine ⟨hsole.foreign, fun i hended key hheld => ?_⟩
  have hcontent := hworkers i
  have hrest : LockWorld.Holds i [] x.shared := by
    obtain hnone | ⟨call, a, hdone⟩ := hended
    · rw [hnone] at hcontent
      exact hcontent
    · rw [hdone] at hcontent
      exact hcontent
  exact absurd ((hrest.held key).1 hheld) List.not_mem_nil

namespace LockWorld

/-- Redis up and empty, and a provider that knows nothing; who waits for a peer waits in vain. -/
def reply (found : SourceReply) (i : Nat) (w : LockWorld) : (q : EnrichAsk) → EnrichReply q × LockWorld
  | .clock => (w.now, w)
  | .getMany asked => (([], asked.map Prod.fst), w)
  | .lock key => w.acquire 5 i key
  | .wait _ _ => (none, w)
  | .unlock key => ((), w.release i key)
  | .breaker _ => (false, w)
  | .source _ => (found, w)
  | .resolve _ _ keys => (.ok (keys.map (fun k => (k, none))), w)
  | .putMany _ _ _ => ((), w)

def unwaited (_ : LockWorld) : EnrichAsk → Bool
  | .wait _ _ => false
  | _ => true

theorem answers_reply (found : SourceReply) (i : Nat) (w : LockWorld) (q : EnrichAsk) :
    Answers 5 i w q (reply found i w q).1 (reply found i w q).2 := by
  cases q with
  | lock key => exact .inl rfl
  | unlock key => exact .inl rfl
  | _ => rfl

theorem settled_reply (i : Nat) (w : LockWorld) (q : EnrichAsk) (h : w.unwaited q = true) :
    Settled 5 i w q (reply .ok i w q).1 (reply .ok i w q).2 := by
  cases q with
  | wait key question => cases h
  | source rule => exact ⟨rfl, rfl⟩
  | _ => rfl

end LockWorld

/-- Calls of `resolve_remote` for one address, each worker going on for a number of steps. -/
def lockRun (found : SourceReply) (p : LockWorld → EnrichAsk → Bool) (turns : List (Nat × Nat)) :
    LockCrew :=
  (turns.flatMap (fun turn => Crew.Cue.call turn.1 oneFeed ::
    List.replicate turn.2 (Crew.Cue.go turn.1))).foldl
      (Crew.cue (lockRules dnsLibrary feedRegistry (LockWorld.Settled 5) LockWorld.Timely)
        (LockWorld.reply found) p) LockCrew.initial

theorem lockRun_reaches {found : SourceReply} {p : LockWorld → EnrichAsk → Bool}
    {answers : Nat → LockWorld → (q : EnrichAsk) → EnrichReply q → LockWorld → Prop}
    (allowed : LockWorld → Rat → Prop)
    (hp : ∀ i w q, p w q = true →
      answers i w q (LockWorld.reply found i w q).1 (LockWorld.reply found i w q).2)
    (turns : List (Nat × Nat)) :
    Crew.Reaches (lockRules dnsLibrary feedRegistry answers allowed) LockCrew.initial
      (lockRun found p turns) :=
  Crew.reaches_foldl_cue (R := lockRules dnsLibrary feedRegistry answers allowed)
    (fun _ _ _ _ => trivial) hp LockCrew.initial

/-- One call acquires its lock and releases it. -/
theorem locks_owned_feed :
    (lockRun .ok LockWorld.unwaited [(0, 4)]).shared.held.length = 1 ∧
      LocksOwned (lockRun .ok LockWorld.unwaited [(0, 9)]) := by
  constructor
  · decide +kernel
  · exact locks_owned dnsLibrary feedRegistry 5 (by decide) _
      (lockRun_reaches LockWorld.Timely LockWorld.settled_reply _)

/-- A worker that waited in vain deletes the lock of its peer, and a call whose source is not
configured ends with its lock. -/
theorem locks_not_owned :
    (∃ x : LockCrew, Crew.Reaches (lockRules dnsLibrary feedRegistry (LockWorld.Answers 5)
        (fun _ _ => True)) LockCrew.initial x ∧ x.shared.foreign ≠ []) ∧
      ∃ x : LockCrew, Crew.Reaches (lockRules dnsLibrary feedRegistry (LockWorld.Answers 5)
        (fun _ _ => True)) LockCrew.initial x ∧ x.shared.foreign = [] ∧ ¬ LocksOwned x := by
  have hreaches : ∀ found turns, Crew.Reaches (lockRules dnsLibrary feedRegistry
      (LockWorld.Answers 5) (fun _ _ => True)) LockCrew.initial
        (lockRun found (fun _ _ => true) turns) :=
    fun found turns => lockRun_reaches _
      (fun i w q _ => LockWorld.answers_reply found i w q) turns
  refine ⟨⟨_, hreaches .ok [(0, 4), (1, 9)], ?_⟩, _, hreaches .lookupError [(0, 7)], ?_,
    fun h => ?_⟩
  · decide +kernel
  · decide +kernel
  · have hidle : ((lockRun .lookupError (fun _ _ => true) [(0, 7)]).running 0).isNone = true := by
      decide +kernel
    have hheld : ∃ p ∈ (lockRun .lookupError (fun _ _ => true) [(0, 7)]).shared.held, p.1 = 0 := by
      decide +kernel
    obtain ⟨⟨i, key⟩, hin, rfl⟩ := hheld
    exact h.deleted 0 (.inl (Option.isNone_iff_eq_none.1 hidle)) key hin

end CentralOps
