import CentralOps.Delivery.Dispatch

namespace CentralOps
set_option autoImplicit true

section Groups
variable (rt : Runtime) (groupBy : List String)

def groupCount (batch : List Obj) : Nat := (batch.map (groupKey rt groupBy)).toFinset.card

/-- The first event of the batch in the group of the given one. -/
def leader (batch : List Obj) (x : Obj) : Option Obj :=
  batch.find? (fun y => groupKey rt groupBy y = groupKey rt groupBy x)

def groupsOf (batch : List Obj) : Dict (List String) (List Obj) :=
  Dict.empty.pushAll (batch.map (fun e => (groupKey rt groupBy e, e)))

theorem groupBatch_eq (maxGroups : Nat) (groups : Dict (List String) (List Obj))
    (batch : List Obj) (h : groups.keys.card ≤ maxGroups) :
    groupBatch rt groupBy maxGroups groups batch =
      if (groups.keys ∪ (batch.map (groupKey rt groupBy)).toFinset).card ≤ maxGroups then
        some (groups.pushAll (batch.map (fun e => (groupKey rt groupBy e, e))))
      else none := by
  induction batch generalizing groups with
  | nil => simp [groupBatch, Dict.pushAll, h]
  | cons e rest ih =>
    have hunion : groups.keys ∪ ((e :: rest).map (groupKey rt groupBy)).toFinset =
        (groups.push (groupKey rt groupBy e) e).keys ∪
          (rest.map (groupKey rt groupBy)).toFinset := by
      rw [Dict.keys_push, List.map_cons, List.toFinset_cons, Finset.insert_union,
        Finset.union_insert]
    have hpush : groups.pushAll ((e :: rest).map (fun e => (groupKey rt groupBy e, e))) =
        (groups.push (groupKey rt groupBy e) e).pushAll
          (rest.map (fun e => (groupKey rt groupBy e, e))) := rfl
    rw [hunion, hpush]
    unfold groupBatch
    by_cases hk : groupKey rt groupBy e ∈ groups.keys
    · have hsome : (groups.get? (groupKey rt groupBy e)).isNone = false := by
        rw [Option.isNone_eq_false_iff, Option.isSome_iff_ne_none]
        exact groups.mem_keys.1 hk
      have hsame : (groups.push (groupKey rt groupBy e) e).keys = groups.keys := by
        rw [Dict.keys_push, Finset.insert_eq_of_mem hk]
      simpa [hsome] using ih (groups.push (groupKey rt groupBy e) e) (hsame ▸ h)
    · have hnone : groups.get? (groupKey rt groupBy e) = none := by
        simpa [Dict.mem_keys] using hk
      have hcard : (groups.push (groupKey rt groupBy e) e).keys.card = groups.keys.card + 1 := by
        rw [Dict.keys_push, Finset.card_insert_of_notMem hk]
      have hlen := groups.card_keys
      by_cases hfull : maxGroups ≤ groups.entries.length
      · have hle : (groups.push (groupKey rt groupBy e) e).keys.card ≤
            ((groups.push (groupKey rt groupBy e) e).keys ∪
              (rest.map (groupKey rt groupBy)).toFinset).card :=
          Finset.card_le_card Finset.subset_union_left
        rw [if_pos (by simp [hnone, hfull]), if_neg (by omega)]
      · have hstep := ih (groups.push (groupKey rt groupBy e) e) (by omega)
        simpa [hnone, hfull] using hstep

theorem groupBatch_empty (batch : List Obj) (maxGroups : Nat) :
    groupBatch rt groupBy maxGroups .empty batch =
      if groupCount rt groupBy batch ≤ maxGroups then some (groupsOf rt groupBy batch)
      else none := by
  have hkeys : (Dict.empty : Dict (List String) (List Obj)).keys = ∅ := rfl
  rw [groupBatch_eq rt groupBy maxGroups .empty batch (by simp [hkeys]), hkeys,
    Finset.empty_union]
  rfl

theorem coalesce_eq (batch : List Obj) (maxGroups : Nat) (hg : groupBy.isEmpty = false) :
    (coalesce rt groupBy batch maxGroups).1 =
      if groupCount rt groupBy batch ≤ maxGroups then
        (groupsOf rt groupBy batch).entries.flatMap (groupEvent groupBy)
      else batch := by
  have h := groupBatch_empty rt groupBy batch maxGroups
  cases batch with
  | nil => simp [coalesce, groupsOf, Dict.pushAll, Dict.empty]
  | cons e rest =>
    unfold coalesce
    rw [if_neg (by simp [hg]), h]
    by_cases hc : groupCount rt groupBy (e :: rest) ≤ maxGroups
    · rw [if_pos hc, if_pos hc]
    · rw [if_neg hc, if_neg hc]

theorem bucket_groupsOf (batch : List Obj) (k : List String) :
    (groupsOf rt groupBy batch).bucket k = batch.filter (fun y => groupKey rt groupBy y = k) := by
  rw [groupsOf, Dict.bucket_pushAll, Dict.bucket_empty, List.nil_append, Assoc.values,
    List.filter_map, List.map_map]
  simp [Function.comp_def]

theorem eventLabels_metricEvent (key : List String) (first : Obj) (n : Nat) :
    eventLabels (metricEvent groupBy key first n) = eventLabels first := by
  unfold eventLabels metricEvent Obj.getN
  rw [Assoc.lookup_set_ne (by decide), Assoc.lookup_set_self]
  rfl

theorem groupEvent_cons (key : List String) (e : Obj) (es : List Obj) :
    ∃ x, groupEvent groupBy (key, e :: es) = [x] ∧ eventLabels x = eventLabels e := by
  cases es with
  | nil => exact ⟨e, rfl, rfl⟩
  | cons e' es => exact ⟨_, rfl, eventLabels_metricEvent groupBy key e _⟩

theorem exists_aggregated_iff (batch : List Obj) (L : Obj → Prop) :
    (∃ x ∈ (groupsOf rt groupBy batch).entries.flatMap (groupEvent groupBy), L (eventLabels x)) ↔
      ∃ e ∈ batch, leader rt groupBy batch e = some e ∧ L (eventLabels e) := by
  constructor
  · rintro ⟨x, hx, hL⟩
    obtain ⟨⟨k, es⟩, hmem, hxe⟩ := List.mem_flatMap.1 hx
    have hes : batch.filter (fun y => groupKey rt groupBy y = k) = es := by
      rw [← bucket_groupsOf, Dict.bucket, (Dict.mem_entries_iff _).1 hmem]
      rfl
    cases es with
    | nil => cases hxe
    | cons e es =>
      obtain ⟨x', hx', hlabels⟩ := groupEvent_cons groupBy k e es
      rw [hx', List.mem_singleton] at hxe
      subst hxe
      have hfind : batch.find? (fun y => groupKey rt groupBy y = k) = some e := by
        rw [← List.head?_filter, hes]
        rfl
      have hk : groupKey rt groupBy e = k := by simpa using List.find?_some hfind
      refine ⟨e, List.mem_of_find?_eq_some hfind, ?_, hlabels ▸ hL⟩
      rw [leader, hk]
      exact hfind
  · rintro ⟨e, _, hlead, hL⟩
    have hhead : ((groupsOf rt groupBy batch).bucket (groupKey rt groupBy e)).head? = some e := by
      rw [bucket_groupsOf, List.head?_filter]
      exact hlead
    obtain ⟨es, hes⟩ := List.head?_eq_some_iff.1 hhead
    have hget : (groupsOf rt groupBy batch).get? (groupKey rt groupBy e) = some (e :: es) := by
      unfold Dict.bucket at hes
      cases hg : (groupsOf rt groupBy batch).get? (groupKey rt groupBy e) with
      | none => simp [hg] at hes
      | some l => simpa [hg] using hes
    obtain ⟨x, hx, hlabels⟩ := groupEvent_cons groupBy (groupKey rt groupBy e) e es
    refine ⟨x, List.mem_flatMap.2 ⟨_, (Dict.mem_entries_iff _).2 hget, ?_⟩, hlabels ▸ hL⟩
    rw [hx]
    exact List.mem_singleton_self x

end Groups

section Tenancy
variable (rt : Runtime) (settings : Settings)

/-- The event denotes an organisation other than the destination's owner. -/
def Foreign (cfg : DestinationConfig) (labels : Obj) : Prop :=
  ∃ owner org, cfg.organizationId = some owner ∧
    coerceOrgId rt (labels.getN "organization_id") = some org ∧ org ≠ owner

/-- However the outside behaves, no event of another organisation is passed to `send_batch`. -/
def TenantIsolated (destId : String) (cfg : DestinationConfig) (batch : List Obj) : Prop :=
  ∀ (env : Environment) (dlq : Dict String DeadLetter), (∀ n, env.config n = some cfg) →
    ∀ chunk answer, .sent chunk answer ∈
      (dispatchBatchToDestination rt settings env destId batch { dlq := dlq }).state.trace →
    ∀ x ∈ chunk, ¬ Foreign rt cfg (eventLabels x)

/-- The batch goes out by groups. -/
def aggregated (cfg : DestinationConfig) (batch : List Obj) : Bool :=
  aggregates settings cfg &&
    decide (groupCount rt cfg.delivery.groupBy batch ≤ cfg.delivery.maxGroups)

theorem outgoing_eq (cfg : DestinationConfig) (batch : List Obj) :
    outgoing rt settings cfg batch =
      if aggregated rt settings cfg batch then
        (groupsOf rt cfg.delivery.groupBy batch).entries.flatMap (groupEvent cfg.delivery.groupBy)
      else batch := by
  unfold outgoing aggregated
  by_cases ha : aggregates settings cfg = true
  · have hg : cfg.delivery.groupBy.isEmpty = false := by
      simp only [aggregates, Bool.and_eq_true, Bool.not_eq_true'] at ha
      exact ha.2
    rw [if_pos ha, coalesce_eq rt _ batch _ hg]
    simp [ha]
  · simp [ha]

theorem outgoing_of_nodup (cfg : DestinationConfig) (batch : List Obj)
    (h : aggregated rt settings cfg batch = true →
      (batch.map (groupKey rt cfg.delivery.groupBy)).Nodup) :
    outgoing rt settings cfg batch = batch := by
  rw [outgoing_eq]
  by_cases ha : aggregated rt settings cfg batch = true
  · have hentries := Dict.entries_pushAll .empty
      (batch.map (fun e => (groupKey rt cfg.delivery.groupBy e, e)))
      (by simpa [Dict.empty, Function.comp_def] using h ha)
    rw [if_pos ha, groupsOf, hentries]
    simp [Dict.empty, List.flatMap_map, groupEvent]
  · rw [if_neg ha]

/-- The labels that go out are those of the events that lead their group, and without
aggregation those of all. -/
theorem exists_outgoing_iff (cfg : DestinationConfig) (batch : List Obj) (L : Obj → Prop) :
    (∃ x ∈ outgoing rt settings cfg batch, L (eventLabels x)) ↔
      ∃ x ∈ batch, (aggregated rt settings cfg batch = true →
        leader rt cfg.delivery.groupBy batch x = some x) ∧ L (eventLabels x) := by
  rw [outgoing_eq]
  by_cases ha : aggregated rt settings cfg batch = true
  · simp only [ha, if_true, forall_const]
    exact exists_aggregated_iff rt _ batch L
  · simp [ha]

theorem mem_chunksFor (cfg : DestinationConfig) (batch : List Obj) :
    (∃ chunk ∈ chunksFor rt settings cfg batch, x ∈ chunk) ↔
      x ∈ outgoing rt settings cfg batch := by
  rw [← List.mem_flatten, chunksFor, chunkBatch_flatten]

end Tenancy

section Isolation
variable {rt : Runtime} {settings : Settings} {env : Environment} {cfg : DestinationConfig}
  {destId : String} {batch : List Obj}

/-- Only chunks that pass `P` have been sent. -/
def SentOnly (P : List Obj → Prop) (s : DeliveryState) : Prop :=
  ∀ chunk answer, .sent chunk answer ∈ s.trace → P chunk

theorem SentOnly.log {P : List Obj → Prop} {s : DeliveryState} (h : SentOnly P s) (a : Action)
    (ha : ∀ chunk answer, a = .sent chunk answer → P chunk) : SentOnly P (s.log a) := by
  intro chunk answer hm
  rcases List.mem_append.1 hm with hm | hm
  · exact h chunk answer hm
  · exact ha chunk answer (List.mem_singleton.1 hm).symm

theorem sentOnly_stable (destOrg : Option Int) (P : List Obj → Prop) :
    SendStable rt env destId destOrg P (SentOnly P) where
  timeless _ _ h := h
  sent s chunk a hP h := h.log _ (fun _ _ he => by cases he; exact hP)
  rejected _ _ _ _ _ h := h

theorem chunkDone_trivial (destOrg : Option Int) (P : List Obj → Prop)
    (I : DeliveryState → Prop) :
    ChunkDone rt env destId destOrg P I (fun _ _ => True) where
  stable _ := ⟨fun _ _ h => h, fun _ _ _ _ h => h, fun _ _ _ _ _ h => h⟩
  clean _ _ _ _ _ _ := trivial
  stored _ _ _ _ _ _ := trivial

/-- A destination that passes the guard and is not in shadow mode is sent only the chunks of
the outgoing batch; otherwise nothing is sent. -/
theorem dispatch_sentOnly (P : List Obj → Prop) (hcfg : ∀ n, env.config n = some cfg)
    (hP : crossTenant rt cfg batch = false → cfg.delivery.shadow = false →
      ∀ chunk ∈ chunksFor rt settings cfg batch, P chunk) :
    Proc.Keeps (SentOnly P) (dispatchBatchToDestination rt settings env destId batch) := by
  have hstable : SendStable rt env destId cfg.organizationId P (SentOnly P) :=
    sentOnly_stable _ P
  apply Proc.Spec.bind (loadDestinationConfig_spec hstable.timeless)
  intro dest
  apply Proc.Spec.bind (Q := fun _ s => SentOnly P s ∧ ∃ n, dest = env.config n)
  · exact Proc.Spec.modify (fun s h => ⟨h.1.log _ (fun _ _ he => by cases he), h.2⟩)
  · intro _
    apply Proc.Spec.assume
    rintro ⟨n, rfl⟩
    rw [hcfg n]
    apply Proc.Spec.ite
    · intro _
      apply Proc.Keeps.bind
      · apply persistBatchDlq_spec hstable.timeless
        · exact fun _ _ h => h
        · exact fun s h => SentOnly.log (s := { s with dlq := _ }) h _ (fun _ _ he => by cases he)
        · exact fun s h => h.log _ (fun _ _ he => by cases he)
      · intro _
        exact Proc.Keeps.pure ()
    · intro hc
      have hc' : crossTenant rt cfg batch = false := by simpa using hc
      exact Proc.Spec.post (deliver_spec hstable (chunkDone_trivial _ P _) (hP hc'))
        (fun _ _ h => h.1)

end Isolation

section Calm
variable {rt : Runtime} {settings : Settings} {dest : Option DestinationConfig}
  {destId : String} {I : DeliveryState → Prop}

/-- The invariant only reads the dead letters and what has been done, and more may be done. -/
structure Growing (I : DeliveryState → Prop) : Prop where
  timeless : Timeless I
  log : ∀ s a, I s → I (s.log a)

theorem Growing.mem (a : Action) : Growing (fun s => a ∈ s.trace) where
  timeless _ _ h := h
  log _ _ h := List.mem_append_left _ h

theorem Growing.and {J : DeliveryState → Prop} (hI : Growing I) (hJ : Growing J) :
    Growing (fun s => I s ∧ J s) where
  timeless s n h := ⟨hI.timeless s n h.1, hJ.timeless s n h.2⟩
  log s a h := ⟨hI.log s a h.1, hJ.log s a h.2⟩

def acceptedAll (chunk : List Obj) : Action := .sent chunk (some { accepted := chunk.length })

theorem calm_external (hI : Timeless I) :
    Proc.Spec I (external (.calm dest)) (fun _ => I) (fun _ => False) :=
  fun s hs => hI s _ hs

theorem calm_settle (hI : Timeless I) (destOrg : Option Int) (chunk : List Obj) (last : Bool)
    (n : Nat) :
    Proc.Spec I (settleAttempt rt (.calm dest) destId destOrg chunk last (some { accepted := n }))
      (fun a s => a = some { accepted := n } ∧ I s) (fun _ => False) := by
  unfold settleAttempt
  apply Proc.Spec.ite (fun h => by simp at h)
  intro _
  apply Proc.Spec.ite (fun h => by simp at h)
  intro _
  apply Proc.Spec.bind (Q := fun _ => I)
  · exact Proc.Spec.ite (fun _ => calm_external hI) (fun _ => Proc.Spec.pure (fun _ h => h))
  · intro _
    exact Proc.Spec.pure (fun _ h => ⟨rfl, h⟩)

theorem calm_attempt (hI : Growing I) (destOrg : Option Int) (chunk : List Obj) (last : Bool) :
    Proc.Spec I (attemptChunk rt (.calm dest) destId destOrg chunk last false)
      (fun a s => a = some { accepted := chunk.length } ∧ I s ∧ acceptedAll chunk ∈ s.trace)
      (fun _ => False) := by
  apply Proc.Spec.bind (Q := fun _ => I) (fun s hs => hI.timeless s _ hs)
  intro _
  apply Proc.Spec.ite (fun h => by simp at h)
  intro _
  apply Proc.Spec.bind (Q := fun _ => I)
  · apply Proc.Spec.bind (calm_external hI.timeless)
    intro _
    exact fun s hs => hI.timeless s _ hs
  · intro _
    apply Proc.Spec.bind (Q := fun a s => (I s ∧ acceptedAll chunk ∈ s.trace) ∧
      a = some { accepted := chunk.length })
    · exact fun s hs => ⟨⟨hI.log _ _ (hI.timeless s _ hs),
        List.mem_append_right _ (List.mem_singleton_self _)⟩, rfl⟩
    · intro answer
      apply Proc.Spec.assume
      rintro rfl
      exact calm_settle (hI.and (Growing.mem _)).timeless destOrg chunk last _

theorem calm_sendChunk (hI : Growing I) (destOrg : Option Int) (chunk : List Obj)
    (retries : Nat) :
    Proc.Spec I (sendChunkWithRetry rt (.calm dest) destId destOrg chunk retries false)
      (fun _ s => I s ∧ acceptedAll chunk ∈ s.trace) (fun _ => False) := by
  cases retries with
  | zero =>
    apply Proc.Spec.bind (calm_attempt hI destOrg chunk true)
    rintro a s ⟨rfl, hs⟩
    exact hs
  | succ retries =>
    apply Proc.Spec.bind (calm_attempt hI destOrg chunk false)
    rintro a s ⟨rfl, hs⟩
    exact hs

theorem calm_sendChunks (hI : Growing I) (destOrg : Option Int) (retries : Nat)
    (chunks : List (List Obj)) :
    Proc.Spec I (sendChunks rt (.calm dest) destId destOrg retries chunks)
      (fun _ s => I s ∧ ∀ chunk ∈ chunks, acceptedAll chunk ∈ s.trace) (fun _ => False) := by
  induction chunks generalizing I with
  | nil => exact Proc.Spec.pure (fun s h => ⟨h, by simp⟩)
  | cons chunk rest ih =>
    apply Proc.Spec.bind (calm_sendChunk hI destOrg chunk retries)
    intro _
    exact Proc.Spec.post (ih (hI.and (Growing.mem (acceptedAll chunk))))
      (fun _ s h => ⟨h.1.1, List.forall_mem_cons.2 ⟨h.1.2, h.2⟩⟩)

/-- When nothing fails, a batch that passes the guard is sent whole. -/
theorem calm_dispatch (rt : Runtime) (settings : Settings) (destId : String)
    {cfg : DestinationConfig} {batch : List Obj}
    (hguard : crossTenant rt cfg batch = false) (hshadow : cfg.delivery.shadow = false)
    (dlq : Dict String DeadLetter) :
    ∀ chunk ∈ chunksFor rt settings cfg batch, acceptedAll chunk ∈
      (dispatchBatchToDestination rt settings (.calm (some cfg)) destId batch
        { dlq := dlq }).state.trace := by
  have htrue : Growing (fun _ => True) := ⟨fun _ _ h => h, fun _ _ h => h⟩
  have hspec : Proc.Spec (fun _ => True)
      (dispatchBatchToDestination rt settings (.calm (some cfg)) destId batch)
      (fun _ s => ∀ chunk ∈ chunksFor rt settings cfg batch, acceptedAll chunk ∈ s.trace)
      (fun _ => False) := by
    apply Proc.Spec.bind (Q := fun found _ => True ∧ found = some cfg)
    · exact fun s hs => ⟨trivial, rfl⟩
    · intro found
      apply Proc.Spec.assume
      rintro rfl
      apply Proc.Spec.bind (Q := fun _ _ => True) (fun s hs => trivial)
      intro _
      apply Proc.Spec.ite (fun h => by simp [hguard] at h)
      intro _
      apply Proc.Spec.bind (calm_external htrue.timeless)
      intro _
      apply Proc.Spec.ite (fun h => by simp [hshadow] at h)
      intro _
      apply Proc.Spec.bind (calm_sendChunks htrue cfg.organizationId (retriesOf cfg) _)
      intro _
      exact Proc.Spec.pre (calm_external (I := fun s =>
        ∀ chunk ∈ chunksFor rt settings cfg batch, acceptedAll chunk ∈ s.trace) (fun _ _ h => h))
        (fun _ h => h.2)
  exact Proc.Spec.state (Proc.Spec.exit hspec (fun _ h => h.elim))
    (fun _ _ h => h) trivial

end Calm

/-- The batch is refused by the guard, or nothing is sent, or every event that goes out under
its own labels denotes the owner or nobody. -/
theorem tenant_isolated_iff (rt : Runtime) (settings : Settings) (destId : String)
    (cfg : DestinationConfig) (batch : List Obj) :
    TenantIsolated rt settings destId cfg batch ↔
      crossTenant rt cfg batch = true ∨ cfg.delivery.shadow = true ∨
      ∀ x ∈ batch, (aggregated rt settings cfg batch = true →
        leader rt cfg.delivery.groupBy batch x = some x) → ¬ Foreign rt cfg (eventLabels x) := by
  have hlabels := exists_outgoing_iff rt settings cfg batch (Foreign rt cfg)
  constructor
  · intro hiso
    by_contra hno
    simp only [not_or, Bool.not_eq_true, not_forall, not_not] at hno
    obtain ⟨hguard, hshadow, x, hx, hlead, hforeign⟩ := hno
    obtain ⟨y, hy, hfy⟩ := hlabels.2 ⟨x, hx, hlead, hforeign⟩
    obtain ⟨chunk, hchunk, hyc⟩ := (mem_chunksFor rt settings cfg batch).2 hy
    have hsent := calm_dispatch rt settings destId hguard hshadow .empty chunk hchunk
    exact hiso (.calm (some cfg)) .empty (fun _ => rfl) chunk _ hsent y hyc hfy
  · intro hcond env dlq hcfg
    have hkeeps : Proc.Keeps (SentOnly (fun chunk => ∀ x ∈ chunk, ¬ Foreign rt cfg (eventLabels x)))
        (dispatchBatchToDestination rt settings env destId batch) := by
      apply dispatch_sentOnly _ hcfg
      intro hguard hshadow chunk hchunk y hy hfy
      rcases hcond with h | h | h
      · simp [hguard] at h
      · simp [hshadow] at h
      · have hout := (mem_chunksFor rt settings cfg batch).1 ⟨chunk, hchunk, hy⟩
        obtain ⟨x, hx, hlead, hforeign⟩ := hlabels.1 ⟨y, hout, hfy⟩
        exact h x hx hlead hforeign
    exact hkeeps.state (fun _ _ h => by cases h)

def orgEvent (org : Int) : Obj := [("_centralops", .obj [("organization_id", .int org)])]

/-- A batch of two organisations, as a drain of the dead letters puts one together. -/
theorem mixed_batch_crosses_tenants :
    ¬ TenantIsolated .ascii {} "siem" { organizationId := some 1 } [orgEvent 1, orgEvent 2] := by
  intro hiso
  have hguard : crossTenant .ascii { organizationId := some 1 } [orgEvent 1, orgEvent 2] = false :=
    by decide
  have hchunk : [orgEvent 1, orgEvent 2] ∈
      chunksFor .ascii {} { organizationId := some 1 } [orgEvent 1, orgEvent 2] :=
    List.mem_singleton_self _
  have hsent := calm_dispatch .ascii {} "siem" hguard rfl .empty _ hchunk
  have hforeign : Foreign .ascii { organizationId := some 1 } (eventLabels (orgEvent 2)) :=
    ⟨1, 2, rfl, rfl, by decide⟩
  exact hiso (.calm (some { organizationId := some 1 })) .empty (fun _ => rfl) _ _ hsent
    (orgEvent 2) (by simp) hforeign

end CentralOps
