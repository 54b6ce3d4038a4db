import CentralOps.Routing.Engine

namespace CentralOps
set_option autoImplicit true

/-- What the envelope takes from Python's library besides hashing. -/
structure EnvelopeRuntime extends Runtime where
  /-- `json.dumps(v, sort_keys=True, separators=(",", ":"), default=str)`. -/
  canonical : Json → String
  collectorHost : String

/-- The library on ASCII text, every payload with one serialisation. -/
def EnvelopeRuntime.ascii : EnvelopeRuntime where
  toRuntime := .ascii
  canonical _ := ""
  collectorHost := "worker"

structure EnvelopeContext where
  vendor : String
  integrationId : Int
  customerId : Option Int
  stream : String
  eventType : String
  mappingVersionId : Option String
  customerName : Option String := none
  collectorHost : String
  platform : Option String := none
  organizationId : Option Int := none
  organizationSlug : Option String := none
  dataGeography : Option String := none

/-- `platform` as `__post_init__` leaves it. -/
def EnvelopeContext.platformLabel (ctx : EnvelopeContext) : String :=
  ctx.platform.getD ctx.vendor

def envelopeSchemaVersion : String := "1.1.0"

def ocsfVersion : String := "1.8.0"

def Json.ofInt? (n : Option Int) : Json := (n.map Json.int).getD .null

def Json.ofStr? (s : Option String) : Json := (s.map Json.str).getD .null

section Build
variable (rt : EnvelopeRuntime)

/-- The id derived from the content of the event. -/
def contentEventId (raw : Obj) : String :=
  "sha256:" ++ hexdigest (rt.sha256 (rt.canonical (.obj raw)))

def computeEventId (raw : Obj) (vendorMsgId : Option String) : String :=
  match vendorMsgId with
  | some id => if id = "" then contentEventId rt raw else id
  | none => contentEventId rt raw

/-- The block under `normalized`, or the whole output when there is none. -/
def normalizedBlock (normalized : Obj) : Obj :=
  match normalized.lookup "normalized" with
  | some (.obj block) => block
  | _ => normalized

def centralopsBlock (raw normalized : Obj) (ctx : EnvelopeContext) (vendorMsgId : Option String)
    (collectedAt : String) : Obj :=
  [ ("schema_version", .str envelopeSchemaVersion),
    ("ocsf_version", .str ocsfVersion),
    ("vendor", .str ctx.vendor),
    ("platform", .str ctx.platformLabel),
    ("integration_id", .int ctx.integrationId),
    ("customer_id", .ofInt? ctx.customerId),
    ("customer_name", .ofStr? ctx.customerName),
    ("organization_id", .ofInt? ctx.organizationId),
    ("organization_slug", .ofStr? ctx.organizationSlug),
    ("severity_id", Obj.getN (normalizedBlock normalized) "severity_id"),
    ("stream", .str ctx.stream),
    ("event_type", .str ctx.eventType),
    ("mapping_version_id", .ofStr? ctx.mappingVersionId),
    ("collected_at", .str collectedAt),
    ("collector_host", .str ctx.collectorHost),
    ("event_id", .str (computeEventId rt raw vendorMsgId)),
    ("data_geography", .ofStr? ctx.dataGeography) ]

/-- `collectedAt` is the argument of that name or the clock. -/
def buildEnvelope (raw normalized : Obj) (ctx : EnvelopeContext) (vendorMsgId : Option String)
    (collectedAt : String) : Obj :=
  [ ("_centralops", .obj (centralopsBlock rt raw normalized ctx vendorMsgId collectedAt)),
    ("normalized", .obj (normalizedBlock normalized)),
    ("raw", .obj raw) ]

end Build

/-- `customer_id` is present and not the empty string. -/
def hasCustomerId (envelope : Obj) : Bool :=
  let cid := (eventLabels envelope).getN "customer_id"
  decide (cid ≠ .null ∧ cid ≠ .str "")

variable {rt : EnvelopeRuntime} {raw normalized : Obj} {ctx : EnvelopeContext}
  {vendorMsgId : Option String} {collectedAt : String}

@[simp] theorem eventLabels_buildEnvelope :
    eventLabels (buildEnvelope rt raw normalized ctx vendorMsgId collectedAt) =
      centralopsBlock rt raw normalized ctx vendorMsgId collectedAt := rfl

theorem contentEventId_ne_empty : contentEventId rt raw ≠ "" := by
  intro h
  have := congrArg (fun s => s.toList.length) h
  simp [contentEventId] at this

theorem computeEventId_ne_empty : computeEventId rt raw vendorMsgId ≠ "" := by
  unfold computeEventId
  split
  · split
    · exact contentEventId_ne_empty
    · next h => exact h
  · exact contentEventId_ne_empty

end CentralOps
