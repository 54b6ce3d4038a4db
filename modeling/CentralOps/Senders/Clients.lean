import CentralOps.Senders.ElasticBulk

namespace CentralOps
set_option autoImplicit true

def maxIndividualFallback : Nat := 50

/-- `_fallback_individual`: each event is sent again on its own, unless there are too many. The
reply to the event at position `i` is number `i + 1`, after that to the batch. -/
def fallbackIndividual (single : HttpReply → EventOutcome) (server : Nat → HttpReply) (n : Nat)
    (reason errorKind : String) : List EventOutcome :=
  if maxIndividualFallback < n then List.replicate n (.rejected reason errorKind)
  else (List.range n).map (fun i => single (server (i + 1)))

section ClickHouse
variable (rt : Runtime) (loads : String → Except PyError Json)

def clickhouseRetryable (r : HttpResponse) : Bool :=
  [429, 500, 502, 503, 504].contains r.status

/-- `int(json.loads(bruto).get("written_rows", -1))`. -/
def writtenRows (bruto : String) : Except PyError Int := do
  match ← loads bruto with
  | .obj o => rt.pyInt ((o.lookup "written_rows").getD (.int (-1)))
  | _ => .error .attributeError

/-- `_resultado_de_sucesso`: the rows the server says it wrote, when it says so. -/
def resultadoDeSucesso (r : HttpResponse) (n : Nat) : Except PyError SendReport :=
  let bruto := r.summary.getD ""
  if bruto = "" then .ok (.wrote n)
  else
    match writtenRows rt loads bruto with
    | .error .valueError | .error .typeError | .error .attributeError => .ok (.wrote n)
    | .error e => .error e
    | .ok escritas =>
      if escritas < 0 ∨ escritas = n then .ok (.wrote n)
      else if escritas = 0 then
        .ok (.perEvent (List.replicate n
          (.rejected "ClickHouse respondeu 2xx mas written_rows=0" "schema_rejected")))
      else .ok (.wrote escritas.toNat)

/-- `body or f"HTTP {status}"`. -/
def rejectionText (r : HttpResponse) : String :=
  let body := String.ofList ((r.text.getD r.label).toList.take 500)
  if body = "" then r.label else body

def clickhouseReport (n : Nat) : HttpReply → Except PyError SendReport
  | .connectionError _ => .ok (.perEvent (List.replicate n .retryable))
  | .response r =>
    if clickhouseRetryable r then .ok (.perEvent (List.replicate n .retryable))
    else if r.ok2xx then resultadoDeSucesso rt loads r n
    else .ok (.perEvent (List.replicate n (.rejected (rejectionText r) r.errorKind)))

def orRejected (n : Nat) : Except PyError SendReport → Except PyError SendReport
  | .error .typeError | .error .valueError =>
    .ok (.perEvent (List.replicate n (.rejected "serialização falhou" "schema_rejected")))
  | out => out

def clickhouseSendBatch (wire : Obj → Option PyError) (server : Nat → HttpReply)
    (batch : List Obj) : Except PyError SendReport :=
  if batch.isEmpty then .ok (.perEvent [])
  else orRejected batch.length (
    match batch.findSome? wire with
    | some e => .error e
    | none => clickhouseReport rt loads batch.length (server 0))

end ClickHouse

section Splunk
variable (rt : Runtime)

def splunkRetryable (r : HttpResponse) : Bool := [429, 502, 503, 504].contains r.status

def hecAccepted (r : HttpResponse) : Bool :=
  let code := match r.body with
    | .obj o => (o.lookup "code").getD (.int (-1))
    | _ => .int (-1)
  decide (r.status = 200) && code.pyEq (.int 0)

def hecText (r : HttpResponse) : String :=
  match r.body with
  | .obj o => ((o.lookup "text").map rt.str).getD r.label
  | _ => r.label

def splunkSendSingle : HttpReply → EventOutcome
  | .connectionError _ => .retryable
  | .response r =>
    if splunkRetryable r then .retryable
    else if hecAccepted r then .accepted
    else .rejected (hecText rt r) r.errorKind

def splunkOutcomes (server : Nat → HttpReply) (n : Nat) : List EventOutcome :=
  match server 0 with
  | .connectionError _ => List.replicate n .retryable
  | .response r =>
    if splunkRetryable r then List.replicate n .retryable
    else if hecAccepted r then List.replicate n .accepted
    else fallbackIndividual (splunkSendSingle rt) server n (hecText rt r) r.errorKind

def splunkSendBatch (wire : Obj → Option PyError) (server : Nat → HttpReply)
    (batch : List Obj) : Except PyError SendReport :=
  if batch.isEmpty then .ok (.perEvent [])
  else
    match batch.findSome? wire with
    | some e => .error e
    | none => .ok (.perEvent (splunkOutcomes rt server batch.length))

end Splunk

section LogScale

def logscaleRetryable (r : HttpResponse) : Bool :=
  [429, 500, 502, 503, 504].contains r.status

def logscaleSendSingle : HttpReply → EventOutcome
  | .connectionError _ => .retryable
  | .response r =>
    if logscaleRetryable r then .retryable
    else if r.ok2xx then .accepted
    else .rejected r.label r.errorKind

def logscaleOutcomes (server : Nat → HttpReply) (n : Nat) : List EventOutcome :=
  match server 0 with
  | .connectionError _ => List.replicate n .retryable
  | .response r =>
    if logscaleRetryable r then List.replicate n .retryable
    else if r.ok2xx then List.replicate n .accepted
    else fallbackIndividual logscaleSendSingle server n r.label r.errorKind

def logscaleSendBatch (wire : Obj → Option PyError) (server : Nat → HttpReply)
    (batch : List Obj) : Except PyError SendReport :=
  if batch.isEmpty then .ok (.perEvent [])
  else orRejected batch.length (
    match batch.findSome? wire with
    | some e => .error e
    | none => .ok (.perEvent (logscaleOutcomes server batch.length)))

end LogScale

section Otlp
variable (rt : Runtime)

def otlpRetryable (r : HttpResponse) : Bool := [429, 502, 503, 504].contains r.status

def otlpSucceeded (r : HttpResponse) : Bool := decide (r.status = 200 ∨ r.status = 204)

/-- `body.get("message") or body.get("error") or f"HTTP {status}"`. -/
def otlpReason (r : HttpResponse) : String :=
  match r.body with
  | .obj o =>
    if (Obj.getN o "message").truthy then rt.str (Obj.getN o "message")
    else if (Obj.getN o "error").truthy then rt.str (Obj.getN o "error")
    else r.label
  | _ => r.label

def otlpSendSingle : HttpReply → EventOutcome
  | .connectionError _ => .retryable
  | .response r =>
    if otlpRetryable r then .retryable
    else if r.unauthorized then .rejected ("auth " ++ r.label) "auth"
    else if otlpSucceeded r then .accepted
    else .rejected (otlpReason rt r) "schema_rejected"

def partialSuccess (r : HttpResponse) : Option String :=
  match r.body with
  | .obj o =>
    match Obj.getN o "partialSuccess" with
    | .obj ps =>
      if (Obj.getN ps "rejectedLogRecords").truthy then
        some (if (Obj.getN ps "errorMessage").truthy then rt.str (Obj.getN ps "errorMessage")
          else "rejectedLogRecords")
      else none
    | _ => none
  | _ => none

def otlpOutcomes (server : Nat → HttpReply) (n : Nat) : List EventOutcome :=
  match server 0 with
  | .connectionError _ => List.replicate n .retryable
  | .response r =>
    if otlpRetryable r then List.replicate n .retryable
    else if r.unauthorized then List.replicate n (.rejected ("auth " ++ r.label) "auth")
    else if otlpSucceeded r then
      match partialSuccess rt r with
      | some message =>
        fallbackIndividual (otlpSendSingle rt) server n message "schema_rejected"
      | none => List.replicate n .accepted
    else fallbackIndividual (otlpSendSingle rt) server n (otlpReason rt r) "schema_rejected"

def otlpSendBatch (wire : Obj → Option PyError) (server : Nat → HttpReply)
    (batch : List Obj) : Except PyError SendReport :=
  if batch.isEmpty then .ok (.perEvent [])
  else
    match batch.findSome? wire with
    | some e => .error e
    | none => .ok (.perEvent (otlpOutcomes rt server batch.length))

end Otlp

section Kafka
variable (rt : Runtime)

/-- What `send_and_wait` gives for one event: nothing, or an exception with its class name and
text. -/
inductive KafkaReply where
  | sent
  | raised (name text : String)

def mentions (needles : List String) (text : String) : Bool :=
  needles.any (fun n => isSubstring n (rt.lower text))

def isAuthError (name text : String) : Bool :=
  let needles := ["auth", "authoriz", "sasl", "credential", "unsupportedsasl"]
  mentions rt needles name || mentions rt needles text

def isMessageTooLarge (name text : String) : Bool :=
  mentions rt ["messagesizetoolarge"] name ||
    mentions rt ["message too large", "larger than", "max.message.bytes"] text

def kafkaOutcome : KafkaReply → EventOutcome
  | .sent => .accepted
  | .raised name text =>
    if isAuthError rt name text then .rejected ("kafka auth/config: " ++ text) "auth"
    else if isMessageTooLarge rt name text then
      .rejected ("kafka message too large (> broker max.message.bytes): " ++ text) "size"
    else .retryable

/-- `KafkaClient.send_batch`; `producer` says whether there is one. -/
def kafkaSendBatch (wire : Obj → Option PyError) (producer : Bool) (broker : Nat → KafkaReply)
    (batch : List Obj) : Except PyError (List EventOutcome) :=
  if batch.isEmpty then .ok []
  else if !producer then .ok (List.replicate batch.length .retryable)
  else
    match batch.findSome? wire with
    | some e => .error e
    | none => .ok ((List.range batch.length).map (fun i => kafkaOutcome rt (broker i)))

end Kafka

end CentralOps
