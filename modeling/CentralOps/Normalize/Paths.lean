import CentralOps.Normalize.Envelope

namespace CentralOps
set_option autoImplicit true

structure Organization where
  name : String
  slug : String

structure Integration where
  id : Int
  platform : String
  organizationId : Option Int
  organization : Option Organization := none
  dataGeography : Option String := none

structure MappingVersion where
  id : String
  rules : Json
  dslVersion : Int := 1

/-- What the ingestion paths read of an `ApplyResult`. -/
structure Applied where
  output : Obj
  reducedRaw : Option Obj := none
  ingestFallbackTargets : List String := []

/-- `default_engine.apply`, by version, raw event and ingest time; `none` is a `MappingError`. -/
abbrev ApplyMapping := MappingVersion → Obj → Option Int → Option Applied

/-- `applied.reduced_raw or raw`. -/
def Applied.dispatchedRaw (applied : Applied) (raw : Obj) : Obj :=
  match applied.reducedRaw with
  | some reduced => if reduced.isEmpty then raw else reduced
  | none => raw

def setLabel (envelope : Obj) (key : String) (v : Json) : Obj :=
  Assoc.set "_centralops" (.obj (Assoc.set key v (eventLabels envelope))) envelope

def markDegraded (applied : Applied) (envelope : Obj) : Obj :=
  if applied.ingestFallbackTargets.isEmpty then envelope
  else setLabel envelope "degraded_fields" (.list (applied.ingestFallbackTargets.map .str))

/-- What the OCSF gate of the live loop does with an envelope: nothing when it is switched off,
a label, a label with its reason, or the event is withheld. -/
inductive OcsfVerdict where
  | off
  | valid
  | tagged (label : Json) (reason : String)
  | withheld

def OcsfVerdict.tag (envelope : Obj) : OcsfVerdict → Option Obj
  | .off => some envelope
  | .valid => some (setLabel envelope "ocsf_valid" (.bool true))
  | .tagged label reason =>
    some (setLabel (setLabel envelope "ocsf_valid" label) "ocsf_reason" (.str reason))
  | .withheld => none

section Paths
variable (rt : EnvelopeRuntime) (engine : ApplyMapping) (integration : Integration)
  (version : MappingVersion) (eventType : String)

def liveContext (stream : String) : EnvelopeContext where
  vendor := integration.platform
  integrationId := integration.id
  customerId := integration.organizationId
  customerName := integration.organization.map Organization.name
  organizationSlug := integration.organization.map Organization.slug
  stream := stream
  eventType := eventType
  mappingVersionId := some version.id
  collectorHost := rt.collectorHost
  organizationId := integration.organizationId
  dataGeography := integration.dataGeography

def backfillContext (stream : String) : EnvelopeContext where
  vendor := integration.platform
  integrationId := integration.id
  customerId := integration.organizationId
  customerName := integration.organization.map Organization.name
  organizationSlug := integration.organization.map Organization.slug
  stream := stream
  eventType := eventType
  mappingVersionId := some version.id
  collectorHost := rt.collectorHost
  organizationId := integration.organizationId
  platform := some integration.platform

/-- The envelope that `run_collection_once` adds to its batch. -/
def liveEnvelope (stream : String) (ocsf : OcsfVerdict) (detected : Bool) (raw : Obj)
    (msgId : String) (ingestTime : Int) (clock : String) : Option Obj := do
  let applied ← engine version raw (some ingestTime)
  let envelope := markDegraded applied
    (buildEnvelope rt (applied.dispatchedRaw raw) applied.output
      (liveContext rt integration version eventType stream) (some msgId) clock)
  let envelope ← ocsf.tag envelope
  if hasCustomerId envelope then
    some (if detected then setLabel envelope "detection_matched" (.bool true) else envelope)
  else none

/-- The envelope that `run_backfill_collection_once` adds to its batch. -/
def backfillEnvelope (stream : String) (raw : Obj) (msgId : String) (clock : String) :
    Option Obj := do
  let applied ← engine version raw none
  let envelope := buildEnvelope rt raw applied.output
    (backfillContext rt integration version eventType stream) (some msgId) clock
  if hasCustomerId envelope then some envelope else none

/-- `event_type.rsplit(".", 1)[-1]`. -/
def lastSegment (eventType : String) : String :=
  String.ofList (eventType.toList.reverse.takeWhile (· ≠ '.')).reverse

inductive ReprocessResult where
  | success (envelope : Obj) (mappingVersionId : String)
  | failure (errorKind : String) (mappingVersionId : Option String)

/-- The two tables that `attempt_reprocess` reads: the current version by vendor and event
type, and the slug of an organisation. -/
structure ReprocessDb where
  currentVersion : String → String → Option MappingVersion
  slugOf : Int → Option String

def reprocessContext (db : ReprocessDb) (vendor : String) (integrationId organizationId : Int)
    (stream : Option String) : EnvelopeContext where
  vendor := vendor
  integrationId := integrationId
  customerId := some organizationId
  organizationId := some organizationId
  organizationSlug := db.slugOf organizationId
  stream := (stream.filter (· ≠ "")).getD (lastSegment eventType)
  eventType := eventType
  mappingVersionId := some version.id
  collectorHost := rt.collectorHost

/-- `payload` is what the row's `raw_payload` decodes to, `none` when it is not JSON. -/
def attemptReprocess (db : ReprocessDb) (payload : Option Obj) (vendor : String)
    (eventType : Option String) (integrationId organizationId : Int) (stream : Option String)
    (ingestTime : Int) (clock : String) : ReprocessResult :=
  match payload with
  | none => .failure "parse" none
  | some raw =>
    if raw.lookup "_truncated" = some (.bool true) then .failure "map" none
    else
      match eventType.filter (· ≠ "") with
      | none => .failure "missing_mapping" none
      | some eventType =>
        match db.currentVersion vendor eventType with
        | none => .failure "missing_mapping" none
        | some version =>
          match engine version raw (some ingestTime) with
          | none => .failure "map" (some version.id)
          | some applied =>
            let envelope := markDegraded applied
              (buildEnvelope rt (applied.dispatchedRaw raw) applied.output
                (reprocessContext rt version eventType db vendor integrationId organizationId
                  stream) none clock)
            if hasCustomerId envelope then .success envelope version.id
            else .failure "missing_customer_id" (some version.id)

/-- `reprocess_quarantine_event` on a row that the integration left: the organisation is the
integration's, and no stream is passed on. -/
def reprocessQuarantined (db : ReprocessDb) (payload : Option Obj) (ingestTime : Int)
    (clock : String) : Option ReprocessResult :=
  integration.organizationId.map fun org =>
    attemptReprocess rt engine db payload integration.platform (some eventType) integration.id org
      none ingestTime clock

end Paths

/-- `ALLOWED_FIELDS`. -/
def routingFields : List String :=
  ["vendor", "platform", "organization_id", "severity_id", "stream", "event_type",
    "integration_id", "customer_id", "data_geography", "detection_matched"]

def labelFields : List String :=
  routingFields ++ ["event_id", "schema_version", "ocsf_version", "mapping_version_id"]

def LabelsAgree (first second : Obj) : Prop :=
  ∀ f ∈ labelFields, (eventLabels first).getN f = (eventLabels second).getN f

section Decisions
variable (rt : Runtime) (args : RouteArgs)

/-- What `route_batch` decides for an event: the routes it matches, the route chosen for each
destination with its redaction, and the destinations the residency guard blocks. -/
def routeDecision (envelope : Obj) : EventRouting × Dict String CompiledRoute × List String :=
  let labels := eventLabels envelope
  let decision := evaluateEvent rt labels args.ordered
  let candidates := dropLoops args labels (chooseRoutes decision.assignments)
  (decision, dropConflicts rt args labels candidates, blockedBy rt args labels candidates)

def ConditionsAllowed : Prop :=
  ∀ r ∈ args.routes, ∀ p ∈ r.condition, canonicalField p.1 ∈ routingFields

end Decisions

def Applied.severity (applied : Applied) : Json :=
  Obj.getN (normalizedBlock applied.output) "severity_id"

/-- The conditions under which nothing that a path leaves out makes a difference: the
integration has no geography, no in-flight rule matched, the stream is the last part of the
event type, the message id is the digest of the reprocessed payload, and the severity does not
depend on the path. -/
def PathsAlike (rt : EnvelopeRuntime) (engine : ApplyMapping) (integration : Integration)
    (version : MappingVersion) (eventType stream : String) (raw payload : Obj) (msgId : String)
    (detected : Bool) (liveTime reprocessTime : Int) : Prop :=
  integration.dataGeography = none ∧ detected = false ∧ stream = lastSegment eventType ∧
    (engine version payload (some reprocessTime)).map
      (fun applied => contentEventId rt (applied.dispatchedRaw payload)) = some msgId ∧
    (engine version raw none).map Applied.severity =
      (engine version raw (some liveTime)).map Applied.severity ∧
    (engine version payload (some reprocessTime)).map Applied.severity =
      (engine version raw (some liveTime)).map Applied.severity

/-! Labels that are set after the envelope is built. -/

theorem eventLabels_setLabel (envelope : Obj) (key : String) (v : Json) :
    eventLabels (setLabel envelope key v) = Assoc.set key v (eventLabels envelope) := by
  simp [eventLabels, setLabel, Obj.getN, Json.asObj]

theorem getN_setLabel_ne (h : f ≠ key) (envelope : Obj) (v : Json) :
    (eventLabels (setLabel envelope key v)).getN f = (eventLabels envelope).getN f := by
  rw [eventLabels_setLabel, Obj.getN, Assoc.lookup_set_ne h]
  rfl

theorem getN_setLabel_self (envelope : Obj) (key : String) (v : Json) :
    (eventLabels (setLabel envelope key v)).getN key = v := by
  rw [eventLabels_setLabel, Obj.getN, Assoc.lookup_set_self]
  rfl

theorem getN_markDegraded (h : f ≠ "degraded_fields") (applied : Applied) (envelope : Obj) :
    (eventLabels (markDegraded applied envelope)).getN f = (eventLabels envelope).getN f := by
  unfold markDegraded
  split
  · rfl
  · exact getN_setLabel_ne h envelope _

theorem getN_tag {ocsf : OcsfVerdict} (h : ocsf.tag envelope = some tagged)
    (hv : f ≠ "ocsf_valid") (hr : f ≠ "ocsf_reason") :
    (eventLabels tagged).getN f = (eventLabels envelope).getN f := by
  cases ocsf with
  | off =>
    obtain rfl := Option.some.inj h
    rfl
  | valid =>
    obtain rfl := Option.some.inj h
    exact getN_setLabel_ne hv envelope _
  | tagged label reason =>
    obtain rfl := Option.some.inj h
    rw [getN_setLabel_ne hr, getN_setLabel_ne hv]
  | withheld => cases h

/-! The labels of each path's envelope. -/

section Labels
variable {rt : EnvelopeRuntime} {engine : ApplyMapping} {integration : Integration}
  {version : MappingVersion} {eventType stream msgId clock : String} {raw : Obj}

/-- No label of the list is one of those the live loop adds afterwards, but for the detection
mark. -/
theorem labelFields_ne (h : f ∈ labelFields) :
    f ≠ "degraded_fields" ∧ f ≠ "ocsf_valid" ∧ f ≠ "ocsf_reason" := by
  have hall : ∀ f ∈ labelFields,
      f ≠ "degraded_fields" ∧ f ≠ "ocsf_valid" ∧ f ≠ "ocsf_reason" := by decide
  exact hall f h

theorem live_labels {ocsf : OcsfVerdict} {detected : Bool} {ingestTime : Int}
    (h : liveEnvelope rt engine integration version eventType stream ocsf detected raw msgId
      ingestTime clock = some live) :
    ∃ applied, engine version raw (some ingestTime) = some applied ∧
      ∀ f ∈ labelFields, (eventLabels live).getN f =
        if f = "detection_matched" ∧ detected = true then .bool true
        else (centralopsBlock rt (applied.dispatchedRaw raw) applied.output
          (liveContext rt integration version eventType stream) (some msgId) clock).getN f := by
  unfold liveEnvelope at h
  obtain ⟨applied, happ, h⟩ := Option.bind_eq_some_iff.1 h
  obtain ⟨tagged, htag, h⟩ := Option.bind_eq_some_iff.1 h
  split at h
  · obtain rfl := Option.some.inj h
    refine ⟨applied, happ, ?_⟩
    intro f hf
    obtain ⟨hd, hv, hr⟩ := labelFields_ne hf
    have hbase : (eventLabels tagged).getN f =
        (centralopsBlock rt (applied.dispatchedRaw raw) applied.output
          (liveContext rt integration version eventType stream) (some msgId) clock).getN f := by
      rw [getN_tag htag hv hr, getN_markDegraded hd, eventLabels_buildEnvelope]
    cases detected with
    | false => simpa using hbase
    | true =>
      by_cases hmark : f = "detection_matched"
      · subst hmark
        simp [getN_setLabel_self]
      · simp [hmark, getN_setLabel_ne hmark, hbase]
  · cases h

theorem backfill_labels
    (h : backfillEnvelope rt engine integration version eventType stream raw msgId clock =
      some back) :
    ∃ applied, engine version raw none = some applied ∧
      eventLabels back = centralopsBlock rt raw applied.output
        (backfillContext rt integration version eventType stream) (some msgId) clock := by
  unfold backfillEnvelope at h
  obtain ⟨applied, happ, h⟩ := Option.bind_eq_some_iff.1 h
  simp only at h
  split at h
  · obtain rfl := Option.some.inj h
    exact ⟨applied, happ, rfl⟩
  · cases h

theorem reprocess_labels {db : ReprocessDb} {payload : Obj} {ingestTime : Int}
    (hversion : db.currentVersion integration.platform eventType = some version)
    (h : reprocessQuarantined rt engine integration eventType db (some payload) ingestTime clock =
      some (.success again versionId)) :
    ∃ org applied, integration.organizationId = some org ∧
      engine version payload (some ingestTime) = some applied ∧
      ∀ f ∈ labelFields, (eventLabels again).getN f =
        (centralopsBlock rt (applied.dispatchedRaw payload) applied.output
          (reprocessContext rt version eventType db integration.platform integration.id org none)
          none clock).getN f := by
  unfold reprocessQuarantined at h
  obtain ⟨org, horg, h⟩ := Option.map_eq_some_iff.1 h
  simp only [attemptReprocess] at h
  split at h
  · cases h
  split at h
  · cases h
  next _ type htype =>
    obtain rfl : eventType = type := Option.some.inj (Option.filter_eq_some_iff.1 htype).1
    rw [hversion] at h
    simp only at h
    split at h
    · cases h
    next applied happ =>
      split at h
      · obtain ⟨rfl, -⟩ := ReprocessResult.success.inj h
        refine ⟨org, applied, horg, happ, ?_⟩
        intro f hf
        rw [getN_markDegraded (labelFields_ne hf).1, eventLabels_buildEnvelope]
      · cases h

end Labels

/-! Routing decides by the labels alone. -/

section Transfer
variable {rt : Runtime} {args : RouteArgs} {labels labels' : Obj}

theorem matchesCondition_congr {condition : Obj}
    (hagree : ∀ f ∈ labelFields, labels.getN f = labels'.getN f)
    (hcond : ∀ p ∈ condition, canonicalField p.1 ∈ routingFields) :
    matchesCondition rt condition labels = matchesCondition rt condition labels' := by
  rw [Bool.eq_iff_iff, matchesCondition, matchesCondition, List.all_eq_true, List.all_eq_true]
  refine forall₂_congr fun p hp => ?_
  rw [hagree _ (List.mem_append_left _ (hcond p hp))]

theorem evaluateLoop_congr (hagree : ∀ f ∈ labelFields, labels.getN f = labels'.getN f)
    {routes : List CompiledRoute}
    (hcond : ∀ r ∈ routes, ∀ p ∈ r.condition, canonicalField p.1 ∈ routingFields)
    (dests ids : List String) (assignments : List (String × CompiledRoute)) :
    evaluateLoop rt labels routes dests ids assignments =
      evaluateLoop rt labels' routes dests ids assignments := by
  have hid : labelEventId rt labels = labelEventId rt labels' := by
    rw [labelEventId, labelEventId, hagree "event_id" (by decide)]
  induction routes generalizing dests ids assignments with
  | nil => rfl
  | cons r rest ih =>
    have happlies : applies rt labels r = applies rt labels' r := by
      rw [applies, applies, hid,
        matchesCondition_congr hagree (hcond r List.mem_cons_self)]
    have hrest := ih (fun r' hr' => hcond r' (List.mem_cons_of_mem _ hr'))
    simp only [evaluateLoop, happlies, hrest]

theorem routeDecision_congr {first second : Obj} (hagree : LabelsAgree first second)
    (hallowed : ConditionsAllowed args) :
    routeDecision rt args first = routeDecision rt args second := by
  have hcond : ∀ r ∈ args.ordered, ∀ p ∈ r.condition, canonicalField p.1 ∈ routingFields := by
    intro r hr
    exact hallowed r ((List.perm_insertionSort _ _).mem_iff.1 hr)
  have heval : evaluateEvent rt (eventLabels first) args.ordered =
      evaluateEvent rt (eventLabels second) args.ordered :=
    evaluateLoop_congr hagree hcond [] [] []
  have hwazuh : sourceIsWazuh (eventLabels first) = sourceIsWazuh (eventLabels second) := by
    rw [sourceIsWazuh, sourceIsWazuh, hagree "platform" (by decide)]
  have hgeo : eventGeo (eventLabels first) = eventGeo (eventLabels second) := by
    rw [eventGeo, eventGeo, hagree "data_geography" (by decide)]
  have hconflicts : conflicts rt args (eventLabels first) =
      conflicts rt args (eventLabels second) := by
    funext d
    rw [conflicts, conflicts, hgeo]
  simp only [routeDecision, heval, dropLoops, hwazuh, dropConflicts, blockedBy, hconflicts]

end Transfer

section Blocks
variable {rt : EnvelopeRuntime} {raw₁ raw₂ out₁ out₂ : Obj} {ctx₁ ctx₂ : EnvelopeContext}
  {msg₁ msg₂ : Option String} {clock₁ clock₂ : String}

theorem block_labels_agree_iff (detected : Bool) :
    (∀ f ∈ labelFields,
      (if f = "detection_matched" ∧ detected = true then Json.bool true
        else (centralopsBlock rt raw₁ out₁ ctx₁ msg₁ clock₁).getN f) =
        (centralopsBlock rt raw₂ out₂ ctx₂ msg₂ clock₂).getN f) ↔
      detected = false ∧ ctx₁.vendor = ctx₂.vendor ∧
        ctx₁.platformLabel = ctx₂.platformLabel ∧ ctx₁.organizationId = ctx₂.organizationId ∧
        Obj.getN (normalizedBlock out₁) "severity_id" =
          Obj.getN (normalizedBlock out₂) "severity_id" ∧
        ctx₁.stream = ctx₂.stream ∧ ctx₁.eventType = ctx₂.eventType ∧
        ctx₁.integrationId = ctx₂.integrationId ∧ ctx₁.customerId = ctx₂.customerId ∧
        ctx₁.dataGeography = ctx₂.dataGeography ∧
        computeEventId rt raw₁ msg₁ = computeEventId rt raw₂ msg₂ ∧
        ctx₁.mappingVersionId = ctx₂.mappingVersionId := by
  have hint : ∀ m n : Option Int, Json.ofInt? m = Json.ofInt? n ↔ m = n := by
    intro m n
    cases m <;> cases n <;> simp [Json.ofInt?]
  have hstr : ∀ m n : Option String, Json.ofStr? m = Json.ofStr? n ↔ m = n := by
    intro m n
    cases m <;> cases n <;> simp [Json.ofStr?]
  simp only [labelFields, routingFields, List.cons_append, List.nil_append,
    List.forall_mem_cons, centralopsBlock, Obj.getN, List.lookup_cons]
  cases detected <;> simp [hint, hstr]

end Blocks

section Main
variable (rt : EnvelopeRuntime) (engine : ApplyMapping) (integration : Integration)
  (version : MappingVersion) (eventType stream msgId : String) (db : ReprocessDb)
  (raw payload : Obj) (ocsf : OcsfVerdict) (detected : Bool) (liveTime reprocessTime : Int)
  (clock₁ clock₂ clock₃ : String)

/-- The three envelopes carry the same labels, and routing decides the same for them. -/
def SameForRouting (live back again : Obj) : Prop :=
  LabelsAgree live back ∧ LabelsAgree live again ∧
    ∀ args, ConditionsAllowed args →
      routeDecision rt.toRuntime args live = routeDecision rt.toRuntime args back ∧
        routeDecision rt.toRuntime args live = routeDecision rt.toRuntime args again

theorem sameForRouting_iff (live back again : Obj) :
    SameForRouting rt live back again ↔ LabelsAgree live back ∧ LabelsAgree live again := by
  constructor
  · exact fun h => ⟨h.1, h.2.1⟩
  · intro h
    exact ⟨h.1, h.2, fun args ha =>
      ⟨routeDecision_congr h.1 ha, routeDecision_congr h.2 ha⟩⟩

theorem paths_agree_iff (hmsg : msgId ≠ "")
    (hversion : db.currentVersion integration.platform eventType = some version)
    (hlive : liveEnvelope rt engine integration version eventType stream ocsf detected raw msgId
      liveTime clock₁ = some live)
    (hback : backfillEnvelope rt engine integration version eventType stream raw msgId clock₂ =
      some back)
    (hagain : reprocessQuarantined rt engine integration eventType db (some payload)
      reprocessTime clock₃ = some (.success again versionId)) :
    SameForRouting rt live back again ↔
      PathsAlike rt engine integration version eventType stream raw payload msgId detected
        liveTime reprocessTime := by
  obtain ⟨applied₁, happ₁, hl⟩ := live_labels hlive
  obtain ⟨applied₂, happ₂, hb⟩ := backfill_labels hback
  obtain ⟨org, applied₃, horg, happ₃, ha⟩ := reprocess_labels hversion hagain
  have hid : ∀ raw', computeEventId rt raw' (some msgId) = msgId := by
    intro raw'
    simp [computeEventId, hmsg]
  have hlb : LabelsAgree live back ↔ _ :=
    (forall₂_congr fun f hf => by rw [hl f hf, hb]).trans (block_labels_agree_iff detected)
  have hla : LabelsAgree live again ↔ _ :=
    (forall₂_congr fun f hf => by rw [hl f hf, ha f hf]).trans (block_labels_agree_iff detected)
  rw [sameForRouting_iff, hlb, hla, PathsAlike, happ₁, happ₂, happ₃]
  simp only [liveContext, backfillContext, reprocessContext, EnvelopeContext.platformLabel, hid,
    horg, Option.map_some, Option.some.injEq, Option.getD_some, Option.getD_none, true_and,
    and_true, Option.filter_none]
  constructor
  · rintro ⟨⟨hdet, hsev₂, hgeo⟩, -, hsev₃, hstream, -, heid⟩
    exact ⟨hgeo, hdet, hstream, heid.symm, hsev₂.symm, hsev₃.symm⟩
  · rintro ⟨hgeo, hdet, hstream, heid, hsev₂, hsev₃⟩
    exact ⟨⟨hdet, hsev₂.symm, hgeo⟩, hdet, hsev₃.symm, hstream, hgeo, heid.symm⟩

end Main

/-- The engine on a mapping that copies nothing but a constant severity. -/
def constantSeverity : ApplyMapping := fun _ _ _ =>
  some { output := [("normalized", .obj [("severity_id", .int 3)])] }

def alertVersion : MappingVersion := { id := "v1", rules := .list [] }

def alertDb : ReprocessDb where
  currentVersion _ _ := some alertVersion
  slugOf _ := some "acme"

/-- An alert without a native id of its own, of a stream named like its event type, from an
integration without a geography. -/
theorem paths_agree_without_geography :
    ∃ live back again,
      liveEnvelope .ascii constantSeverity ⟨1, "sophos", some 10, none, none⟩ alertVersion
        "sophos.alert" "alert" .off false [] (contentEventId .ascii []) 5 "t" = some live ∧
      backfillEnvelope .ascii constantSeverity ⟨1, "sophos", some 10, none, none⟩
        alertVersion "sophos.alert" "alert" [] (contentEventId .ascii []) "t" = some back ∧
      reprocessQuarantined .ascii constantSeverity ⟨1, "sophos", some 10, none, none⟩
        "sophos.alert" alertDb (some []) 9 "t" = some (.success again "v1") ∧
      SameForRouting .ascii live back again := by
  have hlive : liveEnvelope .ascii constantSeverity ⟨1, "sophos", some 10, none, none⟩
      alertVersion "sophos.alert" "alert" .off false [] (contentEventId .ascii []) 5 "t" =
        some _ := rfl
  have hback : backfillEnvelope .ascii constantSeverity ⟨1, "sophos", some 10, none, none⟩
      alertVersion "sophos.alert" "alert" [] (contentEventId .ascii []) "t" = some _ := rfl
  have hagain : reprocessQuarantined .ascii constantSeverity
      ⟨1, "sophos", some 10, none, none⟩ "sophos.alert" alertDb (some []) 9 "t" =
        some (.success _ "v1") := rfl
  have hmsg : contentEventId .ascii [] ≠ "" := contentEventId_ne_empty
  refine ⟨_, _, _, hlive, hback, hagain, ?_⟩
  rw [paths_agree_iff .ascii constantSeverity _ alertVersion "sophos.alert" "alert" _ alertDb
    [] [] .off false 5 9 "t" "t" "t" hmsg rfl hlive hback hagain]
  exact ⟨rfl, rfl, by decide, rfl, rfl, rfl⟩

/-- A Sophos alert of an integration in the EU: only the live path labels its geography, and the
reprocessed copy has another stream and another event id. -/
theorem paths_label_differently :
    ∃ live back again,
      liveEnvelope .ascii constantSeverity ⟨1, "sophos", some 10, none, some "EU"⟩
        alertVersion "sophos.alert" "alerts" .off false [] "a-1" 5 "t" = some live ∧
      backfillEnvelope .ascii constantSeverity ⟨1, "sophos", some 10, none, some "EU"⟩
        alertVersion "sophos.alert" "alerts" [] "a-1" "t" = some back ∧
      reprocessQuarantined .ascii constantSeverity ⟨1, "sophos", some 10, none, some "EU"⟩
        "sophos.alert" alertDb (some []) 9 "t" = some (.success again "v1") ∧
      ¬ SameForRouting .ascii live back again ∧
      (eventLabels live).getN "data_geography" = .str "EU" ∧
      (eventLabels back).getN "data_geography" = .null ∧
      (eventLabels again).getN "data_geography" = .null ∧
      (eventLabels live).getN "stream" = .str "alerts" ∧
      (eventLabels again).getN "stream" = .str "alert" := by
  refine ⟨_, _, _, rfl, rfl, rfl, ?_, rfl, rfl, rfl, rfl, rfl⟩
  intro h
  have hgeo := h.1 "data_geography" (by decide)
  cases hgeo

end CentralOps
