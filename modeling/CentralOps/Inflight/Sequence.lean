import CentralOps.Lib.HashStore
import CentralOps.Inflight.Collect
import CentralOps.Inflight.Fates

namespace CentralOps
set_option autoImplicit true

def PendingItem.close (item : PendingItem) (state : List (Nat × Obj)) : PendingItem :=
  { item with source := InflightAccumulator.legsEvidence state item.rule item.source }

namespace InflightAccumulator
variable {acc out : InflightAccumulator} {state : String → List (Nat × Obj)}

theorem get?_drop (acc : InflightAccumulator) (key k : String) :
    (acc.drop key).pending.get? k = if k = key then none else acc.pending.get? k := by
  rw [drop, Dict.get?_filterKeys]
  by_cases h : k = key <;> simp [h]

theorem get?_amend (acc : InflightAccumulator) (key : String) (f : Obj → Obj) (k : String) :
    (acc.amend key f).pending.get? k = if k = key then
      (acc.pending.get? k).map (fun item => { item with source := f item.source })
      else acc.pending.get? k := by
  rw [amend, Dict.get?_mapEntries]
  by_cases h : k = key
  · simp only [h, if_true]
  · simp only [h, if_false, Option.map_id']

theorem mem_targets {p : CompiledInflightRule → Bool} {e : String × PendingItem} :
    e ∈ acc.targets p ↔ acc.pending.get? e.1 = some e.2 ∧ p e.2.rule = true := by
  rw [targets, List.mem_filter, ← acc.pending.mem_entries_iff]

theorem nodup_targets (acc : InflightAccumulator) (p : CompiledInflightRule → Bool) :
    ((acc.targets p).map Prod.fst).Nodup :=
  acc.pending.nodup.sublist (List.filter_sublist.map Prod.fst)

theorem get?_settleSequence {e : String × PendingItem}
    (h : acc.pending.get? e.1 = some e.2) (k : String) :
    (settleSequence state acc e).pending.get? k = if k = e.1 then
      if complete state e then some (e.2.close (state e.1)) else none
      else acc.pending.get? k := by
  rw [settleSequence]
  by_cases hc : complete state e = true
  · rw [if_pos hc, if_pos hc, get?_amend]
    by_cases hk : k = e.1
    · rw [if_pos hk, if_pos hk, hk, h, Option.map_some]
      rfl
    · rw [if_neg hk, if_neg hk]
  · rw [if_neg hc, if_neg hc]
    exact get?_drop ..

variable (state) in
/-- The loop over the targets closes the complete ones and drops the others. -/
theorem get?_foldl_settleSequence {entries : List (String × PendingItem)}
    (hpending : ∀ e ∈ entries, acc.pending.get? e.1 = some e.2)
    (hnodup : (entries.map Prod.fst).Nodup) :
    (∀ e ∈ entries, (entries.foldl (settleSequence state) acc).pending.get? e.1 =
      if complete state e then some (e.2.close (state e.1)) else none) ∧
    ∀ k, k ∉ entries.map Prod.fst →
      (entries.foldl (settleSequence state) acc).pending.get? k = acc.pending.get? k := by
  induction entries generalizing acc with
  | nil => exact ⟨fun e he => absurd he List.not_mem_nil, fun k _ => rfl⟩
  | cons e entries ih =>
    rw [List.map_cons, List.nodup_cons] at hnodup
    have hhere := hpending e List.mem_cons_self
    have hne : ∀ e' ∈ entries, e'.1 ≠ e.1 :=
      fun e' he' h => hnodup.1 (h ▸ List.mem_map_of_mem he')
    have hrest : ∀ e' ∈ entries, (settleSequence state acc e).pending.get? e'.1 = some e'.2 := by
      intro e' he'
      rw [get?_settleSequence hhere, if_neg (hne e' he')]
      exact hpending e' (List.mem_cons_of_mem e he')
    obtain ⟨hin, hout⟩ := ih hrest hnodup.2
    constructor
    · intro e' he'
      obtain rfl | he' := List.mem_cons.1 he'
      · rw [List.foldl_cons, hout e'.1 hnodup.1, get?_settleSequence hhere, if_pos rfl]
      · exact hin e' he'
    · intro k hk
      rw [List.map_cons, List.mem_cons, not_or] at hk
      rw [List.foldl_cons, hout k hk.2, get?_settleSequence hhere, if_neg hk.1]

theorem get?_discard (reason : ErrorReason) (entries : List (String × PendingItem))
    (h : (acc.discard reason entries).pending.get? k = some item) :
    acc.pending.get? k = some item ∧ k ∉ entries.map Prod.fst := by
  induction entries generalizing acc with
  | nil => exact ⟨h, List.not_mem_nil⟩
  | cons e entries ih =>
    obtain ⟨hget, hnot⟩ := ih h
    rw [get?_drop] at hget
    by_cases hk : k = e.1
    · rw [if_pos hk] at hget
      cases hget
    · rw [if_neg hk] at hget
      refine ⟨hget, ?_⟩
      rw [List.map_cons, List.mem_cons, not_or]
      exact ⟨hk, hnot⟩

def legWrites (acc : InflightAccumulator) : List LegWrite :=
  (acc.targets (fun rule => rule.isLeg)).map
    (fun e => LegWrite.mk e.1 e.2.legs (e.2.rule.windowSeconds + 5))

/-- `_apply_sequences` asks to write its legs, to read and to drop, and nothing else. -/
theorem applySequences_asks (acc : InflightAccumulator) :
    acc.applySequences.Asks (fun q => q = .writeLegs acc.legWrites ∨
      (∃ keys, q = .readLegs keys) ∨ ∃ closed, q = .dropLegs closed) := by
  rw [applySequences]
  by_cases ht : acc.targets (fun rule => rule.isLeg) = []
  · rw [if_pos ht]
    exact Dialog.asks_pure _
  · rw [if_neg ht]
    apply Dialog.Asks.query (.inl rfl)
    intro written
    cases written with
    | none => exact Dialog.asks_pure _
    | some _ =>
      apply Dialog.Asks.query (.inr (.inl ⟨_, rfl⟩))
      intro read
      cases read with
      | none => exact Dialog.asks_pure _
      | some state =>
        simp only []
        split
        · exact Dialog.asks_pure _
        · exact Dialog.Asks.query (.inr (.inr ⟨_, rfl⟩)) (fun _ => Dialog.asks_pure _)

section Runs
variable {S : Type} {answers : S → (q : InflightAsk) → InflightReply q → S → Prop} {s s' : S}

/-- A leg key that `_apply_sequences` keeps was complete as it was read, after it was written. -/
theorem applySequences_kept (h : Dialog.Runs answers acc.applySequences s out s')
    (hkept : (k, item) ∈ out.targets (fun rule => rule.isLeg)) :
    ∃ old s₁ s₂ state, (k, old) ∈ acc.targets (fun rule => rule.isLeg) ∧
      item = old.close (state k) ∧ complete state (k, old) = true ∧
      answers s (.writeLegs acc.legWrites) (some ()) s₁ ∧
      answers s₁ (.readLegs ((acc.targets (fun rule => rule.isLeg)).map Prod.fst))
        (some state) s₂ := by
  rw [applySequences] at h
  obtain ⟨hget, hleg⟩ := mem_targets.1 hkept
  by_cases ht : acc.targets (fun rule => rule.isLeg) = []
  · rw [if_pos ht] at h
    obtain ⟨rfl, -⟩ := Dialog.runs_pure_iff.1 h
    rw [ht] at hkept
    cases hkept
  · have hgone : ∀ reason, out ≠ acc.discard reason (acc.targets (fun rule => rule.isLeg)) := by
      rintro reason rfl
      obtain ⟨hold, hnot⟩ := get?_discard reason _ hget
      exact hnot (List.mem_map_of_mem (mem_targets.2 ⟨hold, hleg⟩))
    rw [if_neg ht] at h
    obtain ⟨r₁, s₁, hwrite, h⟩ := Dialog.runs_query_iff.1 h
    cases r₁ with
    | none => exact absurd (Dialog.runs_pure_iff.1 h).1 (hgone _)
    | some _ =>
      obtain ⟨r₂, s₂, hread, h⟩ := Dialog.runs_query_iff.1 h
      cases r₂ with
      | none => exact absurd (Dialog.runs_pure_iff.1 h).1 (hgone _)
      | some state =>
        have hout : out =
            (acc.targets (fun rule => rule.isLeg)).foldl (settleSequence state) acc := by
          simp only [] at h
          split at h
          · exact (Dialog.runs_pure_iff.1 h).1
          · obtain ⟨_, _, _, h⟩ := Dialog.runs_query_iff.1 h
            exact (Dialog.runs_pure_iff.1 h).1
        obtain ⟨hin, hother⟩ := get?_foldl_settleSequence state
          (fun e he => (mem_targets.1 he).1)
          (acc.nodup_targets (fun rule => rule.isLeg))
        rw [← hout] at hin hother
        by_cases hk : k ∈ (acc.targets (fun rule => rule.isLeg)).map Prod.fst
        · obtain ⟨⟨k, old⟩, hold, rfl⟩ := List.mem_map.1 hk
          have hsettled := hin (k, old) hold
          rw [hget] at hsettled
          by_cases hc : complete state (k, old) = true
          · rw [if_pos hc, Option.some.injEq] at hsettled
            exact ⟨old, s₁, s₂, state, hold, hsettled, hc, hwrite, hread⟩
          · rw [if_neg hc] at hsettled
            cases hsettled
        · rw [hother k hk] at hget
          exact absurd (List.mem_map_of_mem (mem_targets.2 ⟨hget, hleg⟩)) hk

end Runs

end InflightAccumulator

/-- A leg in the hash, with its origin: the rules of the cycle that wrote it, and the instant. -/
structure StoredLeg where
  pointer : Obj
  rules : List CompiledInflightRule
  writtenAt : Rat

structure Sighting where
  event : MatchedEvent
  time : Rat

structure KeptSequence where
  key : String
  rule : CompiledInflightRule
  rules : List CompiledInflightRule
  time : Rat

/-- The leg states in Redis, and what has happened so far. -/
structure SequenceWorld where
  now : Rat := 0
  legs : HashStore String Nat StoredLeg := fun _ => none
  sightings : List Sighting := []
  kept : List KeptSequence := []

namespace SequenceWorld

def newLegs (rules : List CompiledInflightRule) (now : Rat) (legs : List (Nat × Obj)) :
    List (Nat × StoredLeg) :=
  legs.map (fun p => (p.1, ⟨p.2, rules, now⟩))

def putLeg (rules : List CompiledInflightRule) (now : Rat) (s : HashStore String Nat StoredLeg)
    (x : LegWrite) : HashStore String Nat StoredLeg :=
  (s.hset now x.key (newLegs rules now x.legs)).expire now x.key x.ttl

def putLegs (w : SequenceWorld) (rules : List CompiledInflightRule) (writes : List LegWrite) :
    SequenceWorld :=
  { w with legs := writes.foldl (putLeg rules w.now) w.legs }

def legState (w : SequenceWorld) (key : String) : List (Nat × Obj) :=
  (w.legs.hgetall w.now key).entries.map (fun p => (p.1, p.2.pointer))

def dropKeys (w : SequenceWorld) (keys : List String) : SequenceWorld :=
  { w with legs := keys.foldl HashStore.del w.legs }

/-- Redis in the flush of a cycle with these rules. A pipeline that raises may have run. -/
def Answers (rules : List CompiledInflightRule) (w : SequenceWorld) :
    (q : InflightAsk) → InflightReply q → SequenceWorld → Prop
  | .writeLegs writes, r, w' => w' = w.putLegs rules writes ∨ r = none ∧ w' = w
  | .readLegs _, r, w' => w' = w ∧ (r = none ∨ r = some w.legState)
  | .dropLegs closed, r, w' => w' = w.dropKeys (closed.map Prod.fst) ∨ r = none ∧ w' = w
  | _, _, w' => w' = w

end SequenceWorld

structure SequenceCycle (rt : InflightRuntime) (cfg : InflightSettings) where
  rows : List CorrelationRule
  ids : (rows.map (fun row => row.id)).Nodup
  rules : List CompiledInflightRule
  loaded : loadRules rt.toMappingRuntime cfg rows = .ok rules
  events : List MatchedEvent
  matched : ∀ m ∈ events, m.rule ∈ rules

section Sequences
variable (rt : InflightRuntime) (cfg : InflightSettings) (org : Int)

namespace SequenceCycle
variable {rt cfg}

/-- The accumulator as the presences have left it. -/
def acc (c : SequenceCycle rt cfg) : InflightAccumulator :=
  (collect rt cfg org (InflightAccumulator.noteRules {} c.rules) c.events).withoutPresences

def sequenceKeys (c : SequenceCycle rt cfg) : List (String × PendingItem) :=
  (c.acc org).targets (fun rule => rule.isLeg)

def sighted (c : SequenceCycle rt cfg) (w : SequenceWorld) : SequenceWorld :=
  { w with sightings := w.sightings ++ c.events.map (fun m => ⟨m, w.now⟩) }

def keeps (c : SequenceCycle rt cfg) (now : Rat) (out : InflightAccumulator)
    (w : SequenceWorld) : SequenceWorld :=
  let here := (out.targets (fun rule => rule.isLeg)).map
    (fun e => KeptSequence.mk e.1 e.2.rule c.rules now)
  { w with kept := w.kept ++ here }

/-- Where this flush completes a key, the legs that it finds there and does not write itself are
no older than the window, and are still the rule's legs. -/
def FindsNoStaleLeg (c : SequenceCycle rt cfg) (w : SequenceWorld) : Prop :=
  ∀ e ∈ c.sequenceKeys org,
    let found := w.legs.hgetall w.now e.1
    e.2.rule.legsTotal ≤ (found.update (SequenceWorld.newLegs c.rules w.now e.2.legs)).entries.length →
    ∀ p ∈ found.entries, p.1 ∉ e.2.legs.map Prod.fst →
      w.now - e.2.rule.windowSeconds - 5 ≤ p.2.writtenAt ∧
      ∀ leg ∈ p.2.rules, leg.ruleId = e.2.rule.ruleId → leg.legIndex = some p.1 → leg ∈ c.rules

end SequenceCycle

/-- One flush that meets the condition, or time that passes. -/
inductive SequenceStep (allowed : SequenceWorld → SequenceCycle rt cfg → Prop) :
    SequenceWorld → SequenceWorld → Prop
  | wait : w.now ≤ now → SequenceStep allowed w { w with now := now }
  | flush : allowed w c →
      Dialog.Runs (SequenceWorld.Answers c.rules) (c.acc org).applySequences (c.sighted w) out w' →
      SequenceStep allowed w (c.keeps w.now out w')

def SequenceReaches (allowed : SequenceWorld → SequenceCycle rt cfg → Prop) :
    SequenceWorld → SequenceWorld → Prop :=
  Relation.ReflTransGen (SequenceStep rt cfg org allowed)

/-- For each leg of its rule, an event matched it in a flush inside the window. -/
def KeptSequence.InWindow (k : KeptSequence) (sightings : List Sighting) : Prop :=
  ∀ i < k.rule.legsTotal, ∃ leg ∈ k.rules, leg.ruleId = k.rule.ruleId ∧ leg.legIndex = some i ∧
    ∃ s ∈ sightings, s.event.rule = leg ∧ s.event.key rt cfg org = some k.key ∧
      k.time - k.rule.windowSeconds - 5 ≤ s.time ∧ s.time ≤ k.time

variable {rt cfg org}

namespace SequenceCycle
variable {c : SequenceCycle rt cfg} {e : String × PendingItem}

theorem acc_backed (h : (c.acc org).pending.get? key = some item) :
    Backed rt cfg org c.events key item := by
  rw [acc, InflightAccumulator.withoutPresences, Dict.get?_filterKeys] at h
  split at h
  · have hback : Backed rt cfg org ([] ++ c.events) key item := by
      apply collect_backed _ h
      intro key item hnone
      cases hnone
    exact hback
  · cases h

theorem rule_mem (he : e ∈ c.sequenceKeys org) :
    e.2.rule ∈ c.rules ∧ ∃ i, LegForm e.2.rule i ∧ e.2.rule.legIndex = some i := by
  obtain ⟨hget, hleg⟩ := InflightAccumulator.mem_targets.1 he
  obtain ⟨m, hm, hrule, -⟩ := (acc_backed hget).first
  have hin : e.2.rule ∈ c.rules := hrule ▸ c.matched m hm
  rw [CompiledInflightRule.isLeg, Bool.and_eq_true] at hleg
  obtain ⟨i, hi⟩ := Option.isSome_iff_exists.1 hleg.1
  exact ⟨hin, i, loadRules_form c.loaded hin hi, hi⟩

theorem leg_seen (he : e ∈ c.sequenceKeys org) (hp : p ∈ e.2.legs) :
    ∃ m ∈ c.events, m.rule ∈ c.rules ∧ m.rule.ruleId = e.2.rule.ruleId ∧
      m.rule.legIndex = some p.1 ∧ m.key rt cfg org = some e.1 := by
  have hback := acc_backed (InflightAccumulator.mem_targets.1 he).1
  obtain ⟨m, hm, hindex, hkey⟩ := hback.legs p hp
  obtain ⟨first, -, hrule, -, hfirst⟩ := hback.first
  have hid : m.rule.ruleId = first.rule.ruleId := by
    rw [MatchedEvent.key, Option.map_eq_some_iff] at hkey hfirst
    obtain ⟨token, -, hk⟩ := hkey
    obtain ⟨token', -, hk'⟩ := hfirst
    exact inflightKey_ruleId (hk.trans hk'.symm)
  exact ⟨m, hm, c.matched m hm, hid.trans (congrArg _ hrule), hindex, hkey⟩

theorem index_lt (he : e ∈ c.sequenceKeys org) (hleg : leg ∈ c.rules)
    (hid : leg.ruleId = e.2.rule.ruleId) (hi : leg.legIndex = some i) :
    i < e.2.rule.legsTotal := by
  obtain ⟨hin, j, -, hj⟩ := rule_mem he
  rw [← loadRules_total c.loaded c.ids hleg hin hid hi hj]
  exact (loadRules_form c.loaded hleg hi).index

end SequenceCycle

namespace SequenceWorld
variable {w : SequenceWorld}

theorem putLeg_ne (rules : List CompiledInflightRule) (now : Rat)
    (s : HashStore String Nat StoredLeg) (x : LegWrite) (j : String) (h : j ≠ x.key) :
    putLeg rules now s x j = s j := by
  rw [putLeg, HashStore.expire_ne h, HashStore.hset_ne h]

variable (rules) in
theorem hgetall_putLegs {writes : List LegWrite}
    (hnodup : (writes.map (fun x => x.key)).Nodup) (hx : x ∈ writes) (httl : 0 ≤ x.ttl) :
    (w.putLegs rules writes).legs.hgetall w.now x.key =
      (w.legs.hgetall w.now x.key).update (newLegs rules w.now x.legs) := by
  have htouch := (HashStore.foldl_touch (putLeg_ne rules w.now)
    (fun s s' x h => HashStore.expire_congr (HashStore.hset_congr h _) _) hnodup w.legs).1 x hx
  rw [putLegs, HashStore.hgetall_congr htouch, putLeg, HashStore.hgetall_expire_self,
    HashStore.hgetall_hset_self]
  exact_mod_cast httl

/-- Every leg in the hash goes back to an event of the flush that wrote it. -/
structure Dated (rt : InflightRuntime) (cfg : InflightSettings) (org : Int) (w : SequenceWorld) :
    Prop where
  stored : w.legs.Holds (fun key i leg => ∃ s ∈ w.sightings, s.event.rule ∈ leg.rules ∧
    s.event.rule.legIndex = some i ∧ s.event.key rt cfg org = some key ∧ s.time = leg.writtenAt)
  past : ∀ s ∈ w.sightings, s.time ≤ w.now

theorem Dated.sighted (h : Dated rt cfg org w) (c : SequenceCycle rt cfg) :
    Dated rt cfg org (c.sighted w) where
  stored := h.stored.mono
    (fun _ _ _ ⟨s, hs, hrest⟩ => ⟨s, List.mem_append_left _ hs, hrest⟩)
  past s hs := by
    obtain hold | hnew := List.mem_append.1 hs
    · exact h.past s hold
    · obtain ⟨m, -, rfl⟩ := List.mem_map.1 hnew
      exact le_rfl

theorem Dated.putLegs {c : SequenceCycle rt cfg} (h : Dated rt cfg org w)
    (hseen : ∀ m ∈ c.events, ⟨m, w.now⟩ ∈ w.sightings) :
    Dated rt cfg org (w.putLegs c.rules (c.acc org).legWrites) where
  stored := by
    refine List.foldlRecOn _ _ h.stored (fun s hs x hx => ?_)
    obtain ⟨e, he, rfl⟩ := List.mem_map.1 hx
    apply HashStore.Holds.expire
    apply hs.hset
    intro p hp
    obtain ⟨leg, hleg, rfl⟩ := List.mem_map.1 hp
    obtain ⟨m, hm, hrule, -, hindex, hkey⟩ := SequenceCycle.leg_seen he hleg
    exact ⟨⟨m, w.now⟩, hseen m hm, hrule, hindex, hkey, rfl⟩
  past := h.past

theorem Dated.dropKeys (h : Dated rt cfg org w) (keys : List String) :
    Dated rt cfg org (w.dropKeys keys) where
  stored := List.foldlRecOn _ _ h.stored (fun _ hs key _ => hs.del key)
  past := h.past

theorem Dated.flush {c : SequenceCycle rt cfg} (h : Dated rt cfg org w)
    (hrun : Dialog.Runs (Answers c.rules) (c.acc org).applySequences (c.sighted w) out w') :
    Dated rt cfg org w' ∧ w'.now = w.now ∧ w'.sightings = (c.sighted w).sightings ∧
      w'.kept = w.kept := by
  apply hrun.invariant (c.acc org).applySequences_asks (I := fun u => Dated rt cfg org u ∧
    u.now = w.now ∧ u.sightings = (c.sighted w).sightings ∧ u.kept = w.kept)
  · rintro u q r t hq ⟨hu, hnow, hsightings, hkept⟩ hanswer
    obtain rfl | ⟨keys, rfl⟩ | ⟨closed, rfl⟩ := hq
    · obtain rfl | ⟨-, rfl⟩ := hanswer
      · refine ⟨hu.putLegs (fun m hm => ?_), hnow, hsightings, hkept⟩
        rw [hsightings, hnow]
        exact List.mem_append_right _ (List.mem_map_of_mem hm)
      · exact ⟨hu, hnow, hsightings, hkept⟩
    · obtain ⟨rfl, -⟩ := hanswer
      exact ⟨hu, hnow, hsightings, hkept⟩
    · obtain rfl | ⟨-, rfl⟩ := hanswer
      · exact ⟨hu.dropKeys _, hnow, hsightings, hkept⟩
      · exact ⟨hu, hnow, hsightings, hkept⟩
  · exact ⟨h.sighted c, rfl, rfl, rfl⟩

/-- Under the condition, each leg that a completing flush reads was seen inside the window. -/
theorem Dated.leg_inWindow {c : SequenceCycle rt cfg} (h : Dated rt cfg org w)
    (hfinds : c.FindsNoStaleLeg org w) (he : e ∈ c.sequenceKeys org)
    (hfull : e.2.rule.legsTotal ≤ ((w.legs.hgetall w.now e.1).update
      (newLegs c.rules w.now e.2.legs)).entries.length)
    (hget : ((w.legs.hgetall w.now e.1).update (newLegs c.rules w.now e.2.legs)).get? i =
      some v) :
    ∃ leg ∈ c.rules, leg.ruleId = e.2.rule.ruleId ∧ leg.legIndex = some i ∧
      ∃ s ∈ (c.sighted w).sightings, s.event.rule = leg ∧ s.event.key rt cfg org = some e.1 ∧
        w.now - e.2.rule.windowSeconds - 5 ≤ s.time ∧ s.time ≤ w.now := by
  obtain ⟨-, j, hform, -⟩ := SequenceCycle.rule_mem he
  have hwindow : (0 : Rat) ≤ e.2.rule.windowSeconds := by exact_mod_cast hform.window.le
  obtain hnew | ⟨hnot, hold⟩ := Dict.get?_update hget
  · obtain ⟨p, hp, heq⟩ := List.mem_map.1 hnew
    cases heq
    obtain ⟨m, hm, hrule, hid, hindex, hkey⟩ := SequenceCycle.leg_seen he hp
    refine ⟨m.rule, hrule, hid, hindex, ⟨m, w.now⟩, ?_, rfl, hkey, ?_, le_rfl⟩
    · exact List.mem_append_right _ (List.mem_map_of_mem hm)
    · change w.now - (e.2.rule.windowSeconds : Rat) - 5 ≤ w.now
      rw [sub_sub]
      exact sub_le_self w.now (add_nonneg hwindow (by decide))
  · have hnot' : i ∉ e.2.legs.map Prod.fst := by
      intro hin
      apply hnot
      rw [newLegs, List.map_map]
      exact hin
    obtain ⟨hage, hcurrent⟩ := hfinds e he hfull (i, v)
      ((Dict.mem_entries_iff _).2 hold) hnot'
    obtain ⟨s, hs, hrule, hindex, hkey, htime⟩ := h.stored.hgetall hold
    have hid : s.event.rule.ruleId = e.2.rule.ruleId := by
      obtain ⟨first, -, hfirst, -, hk⟩ :=
        (SequenceCycle.acc_backed (InflightAccumulator.mem_targets.1 he).1).first
      rw [MatchedEvent.key, Option.map_eq_some_iff] at hkey hk
      obtain ⟨token, -, hkey⟩ := hkey
      obtain ⟨token', -, hk⟩ := hk
      exact (inflightKey_ruleId (hkey.trans hk.symm)).trans (congrArg _ hfirst)
    refine ⟨s.event.rule, hcurrent _ hrule hid hindex, hid, hindex, s,
      List.mem_append_left _ hs, rfl, hkey, ?_, h.past s hs⟩
    rw [htime]
    exact hage

/-- Under the condition, what a flush keeps is inside its window. -/
theorem Dated.kept_inWindow {c : SequenceCycle rt cfg} (h : Dated rt cfg org w)
    (hfinds : c.FindsNoStaleLeg org w)
    (hrun : Dialog.Runs (Answers c.rules) (c.acc org).applySequences (c.sighted w) out w')
    (hkept : (key, item) ∈ out.targets (fun rule => rule.isLeg)) :
    (KeptSequence.mk key item.rule c.rules w.now).InWindow rt cfg org
      (c.sighted w).sightings := by
  obtain ⟨old, s₁, s₂, state, hold, rfl, hcomplete, hwrite, hread⟩ :=
    InflightAccumulator.applySequences_kept hrun hkept
  obtain rfl | ⟨hr, -⟩ := hwrite
  · obtain ⟨rfl, hnone | hstate⟩ := hread
    · cases hnone
    · cases hstate
      obtain ⟨-, j, hform, -⟩ := SequenceCycle.rule_mem (e := (key, old)) hold
      have hnodup : ((c.acc org).legWrites.map (fun x => x.key)).Nodup := by
        rw [InflightAccumulator.legWrites, List.map_map]
        exact (c.acc org).nodup_targets _
      have hwritten : LegWrite.mk key old.legs (old.rule.windowSeconds + 5) ∈
          (c.acc org).legWrites := List.mem_map_of_mem hold
      have hread := hgetall_putLegs c.rules (w := c.sighted w) hnodup hwritten (by
        change 0 ≤ old.rule.windowSeconds + 5
        exact add_nonneg hform.window.le (by decide))
      have hfull : old.rule.legsTotal ≤ ((w.legs.hgetall w.now key).update
          (newLegs c.rules w.now old.legs)).entries.length := by
        rw [InflightAccumulator.complete, decide_eq_true_eq, legState, List.length_map] at hcomplete
        exact hcomplete.trans_eq (congrArg (fun d => d.entries.length) hread)
      have hleg := fun i v => h.leg_inWindow hfinds (e := (key, old)) hold hfull
        (i := i) (v := v)
      intro i hi
      obtain ⟨v, hget⟩ := Option.ne_none_iff_exists'.1 (Dict.get?_ne_none_of_full
        (fun i v hget => by
          obtain ⟨leg, hrule, hid, hindex, -⟩ := hleg i v hget
          exact SequenceCycle.index_lt (e := (key, old)) hold hrule hid hindex) hfull hi)
      exact hleg i v hget
  · cases hr

end SequenceWorld

theorem KeptSequence.InWindow.mono {k : KeptSequence} (h : k.InWindow rt cfg org sightings)
    (hsub : ∀ s ∈ sightings, s ∈ sightings') : k.InWindow rt cfg org sightings' := by
  intro i hi
  obtain ⟨leg, hleg, hid, hindex, s, hs, hrest⟩ := h i hi
  exact ⟨leg, hleg, hid, hindex, s, hsub s hs, hrest⟩

theorem SequenceStep.sound {w w' : SequenceWorld}
    (h : SequenceStep rt cfg org (fun w c => c.FindsNoStaleLeg org w) w w')
    (hw : w.Dated rt cfg org) (hkept : ∀ k ∈ w.kept, k.InWindow rt cfg org w.sightings) :
    w'.Dated rt cfg org ∧ ∀ k ∈ w'.kept, k.InWindow rt cfg org w'.sightings := by
  cases h with
  | wait hle => exact ⟨⟨hw.stored, fun s hs => (hw.past s hs).trans hle⟩, hkept⟩
  | @flush _ c out u hfinds hrun =>
    obtain ⟨hdated, hnow, hsightings, hsame⟩ := hw.flush hrun
    refine ⟨⟨hdated.stored, hdated.past⟩, fun k hk => ?_⟩
    change k.InWindow rt cfg org u.sightings
    rw [hsightings]
    obtain hold | hnew := List.mem_append.1 hk
    · apply (hkept k (hsame ▸ hold)).mono
      exact fun s hs => List.mem_append_left _ hs
    · obtain ⟨e, he, rfl⟩ := List.mem_map.1 hnew
      exact hw.kept_inWindow hfinds hrun he

theorem SequenceReaches.sound {w w' : SequenceWorld}
    (h : SequenceReaches rt cfg org (fun w c => c.FindsNoStaleLeg org w) w w')
    (hw : w.Dated rt cfg org) (hkept : ∀ k ∈ w.kept, k.InWindow rt cfg org w.sightings) :
    w'.Dated rt cfg org ∧ ∀ k ∈ w'.kept, k.InWindow rt cfg org w'.sightings := by
  induction h with
  | refl => exact ⟨hw, hkept⟩
  | tail _ hstep ih => exact hstep.sound ih.1 ih.2

end Sequences

/-- In a run whose flushes find no stale leg where they complete a key, every sequence that a
flush keeps has all its legs inside the window. -/
theorem kept_sequence_in_window (rt : InflightRuntime) (cfg : InflightSettings) (org : Int)
    (w : SequenceWorld)
    (h : SequenceReaches rt cfg org (fun w c => c.FindsNoStaleLeg org w) {} w) :
    ∀ k ∈ w.kept, k.InWindow rt cfg org w.sightings := by
  have hempty : SequenceWorld.Dated rt cfg org {} := by
    constructor
    · exact fun key hash hnone => nomatch hnone
    · exact fun s hs => absurd hs List.not_mem_nil
  exact (h.sound hempty (fun k hk => absurd hk List.not_mem_nil)).2

/-! A chain of three legs in ten seconds, one leg in each flush. -/

def chainLegs : String :=
  "[\x7b\"where\": [\x7b\"field\": \"raw.kind\", \"value\": \"a\"\x7d], " ++
    "\"join_path\": \"raw.user\"\x7d, " ++
  "\x7b\"where\": [\x7b\"field\": \"raw.kind\", \"value\": \"b\"\x7d], " ++
    "\"join_path\": \"raw.user\"\x7d, " ++
  "\x7b\"where\": [\x7b\"field\": \"raw.kind\", \"value\": \"c\"\x7d], " ++
    "\"join_path\": \"raw.user\"\x7d]"

def chainLeg (kind : String) : Json :=
  .obj [("where", .list [.obj [("field", .str "raw.kind"), ("value", .str kind)]]),
    ("join_path", .str "raw.user")]

/-- A library that parses these legs. -/
def chainLibrary : InflightRuntime where
  toMappingRuntime := { MappingRuntime.ascii with
    loads := fun s =>
      if s = chainLegs then .ok (.list [chainLeg "a", chainLeg "b", chainLeg "c"])
      else .error "Expecting value" }
  groupValueDigest s := s

def chainRow : CorrelationRule where
  id := 5
  name := "chain"
  ruleType := "sequence"
  legsJson := some chainLegs
  windowSeconds := some 10

instance neZero_racers : NeZero 3 := ⟨by decide⟩

def chainRule (i : Fin 3) : CompiledInflightRule where
  ruleId := 5
  name := "chain"
  severityId := 4
  suppressionWindowSeconds := 3600
  groupByPath := some ["raw", "user"]
  clauses := [⟨["raw", "kind"], .eq (.str (["a", "b", "c"].get i))⟩]
  windowSeconds := 10
  legIndex := some i
  legsTotal := 3
  legLabel := ["leg0", "leg1", "leg2"].get i

def chainEvent (i : Fin 3) : MatchedEvent where
  rule := chainRule i
  envelope := [("raw", .obj [("kind", .str (["a", "b", "c"].get i)), ("user", .str "root")])]
  integrationId := none

theorem chainRow_ids : ([chainRow].map (fun row => row.id)).Nodup := List.nodup_singleton _

def chainCycle (i : Fin 3) : SequenceCycle chainLibrary {} where
  rows := [chainRow]
  ids := chainRow_ids
  rules := List.ofFn chainRule
  loaded := by decide +kernel
  events := [chainEvent i]
  matched m hm := by
    rw [List.mem_singleton.1 hm]
    exact List.mem_ofFn.2 ⟨i, rfl⟩

namespace SequenceWorld

/-- A Redis that is up. -/
def reply (rules : List CompiledInflightRule) (w : SequenceWorld) :
    (q : InflightAsk) → InflightReply q × SequenceWorld
  | .writeLegs writes => (some (), w.putLegs rules writes)
  | .readLegs _ => (some w.legState, w)
  | .dropLegs closed => (some (), w.dropKeys (closed.map Prod.fst))
  | q => (quietRedis q, w)

theorem answers_reply (rules : List CompiledInflightRule) (w : SequenceWorld) (q : InflightAsk) :
    Answers rules w q (reply rules w q).1 (reply rules w q).2 := by
  cases q with
  | writeLegs writes => exact .inl rfl
  | readLegs keys => exact ⟨rfl, .inr rfl⟩
  | dropLegs closed => exact .inl rfl
  | _ => rfl

def sees (w : SequenceWorld) (i : Fin 3) : SequenceWorld :=
  let c := chainCycle i
  let run := (c.acc 1).applySequences.play (reply c.rules) (c.sighted w)
  c.keeps w.now run.1 run.2

def later (w : SequenceWorld) (seconds : Rat) : SequenceWorld :=
  { w with now := w.now + seconds }

/-- The three legs, with a pause after each. -/
def chain (pause : Rat) : SequenceWorld :=
  ((((({} : SequenceWorld).sees 0).later pause).sees 1).later pause).sees 2

variable {allowed : SequenceWorld → SequenceCycle chainLibrary {} → Prop}

theorem reaches_sees (h : SequenceReaches chainLibrary {} 1 allowed u w)
    (hallowed : allowed w (chainCycle i)) :
    SequenceReaches chainLibrary {} 1 allowed u (w.sees i) :=
  h.tail (.flush hallowed (Dialog.runs_play_self (answers_reply _) _ _))

theorem reaches_later (h : SequenceReaches chainLibrary {} 1 allowed u w) (hpause : 0 ≤ pause) :
    SequenceReaches chainLibrary {} 1 allowed u (w.later pause) :=
  h.tail (.wait (le_add_of_nonneg_right hpause))

end SequenceWorld

instance (rt : InflightRuntime) (cfg : InflightSettings) (org : Int) (k : KeptSequence)
    (sightings : List Sighting) : Decidable (k.InWindow rt cfg org sightings) :=
  inferInstanceAs (Decidable (∀ i < k.rule.legsTotal, ∃ leg ∈ k.rules, _))

instance (org : Int) (c : SequenceCycle rt cfg) (w : SequenceWorld) :
    Decidable (c.FindsNoStaleLeg org w) :=
  inferInstanceAs (Decidable (∀ e ∈ c.sequenceKeys org, _ → ∀ p ∈ _, _ → _ ∧ ∀ leg ∈ _, _))

/-- The second leg renews the expiry of the first: the third closes the chain with a leg of twenty
seconds before. -/
theorem renewed_leg_closes_chain :
    ∃ w, SequenceReaches chainLibrary {} 1 (fun _ _ => True) {} w ∧
      ∃ k ∈ w.kept, ¬ k.InWindow chainLibrary {} 1 w.sightings := by
  refine ⟨.chain 10, ?_, by decide +kernel⟩
  apply SequenceWorld.reaches_sees (i := 2) _ trivial
  apply SequenceWorld.reaches_later _ (by decide)
  apply SequenceWorld.reaches_sees (i := 1) _ trivial
  apply SequenceWorld.reaches_later _ (by decide)
  exact SequenceWorld.reaches_sees (i := 0) .refl trivial

theorem kept_sequence_in_window_chain :
    (∃ k ∈ (SequenceWorld.chain 5).kept, k.time = 10) ∧
      ∀ k ∈ (SequenceWorld.chain 5).kept,
        k.InWindow chainLibrary {} 1 (SequenceWorld.chain 5).sightings := by
  refine ⟨by decide +kernel, kept_sequence_in_window chainLibrary {} 1 (.chain 5) ?_⟩
  apply SequenceWorld.reaches_sees (i := 2) _ (by decide +kernel)
  apply SequenceWorld.reaches_later _ (by decide)
  apply SequenceWorld.reaches_sees (i := 1) _ (by decide +kernel)
  apply SequenceWorld.reaches_later _ (by decide)
  exact SequenceWorld.reaches_sees (i := 0) .refl (by decide +kernel)

end CentralOps
