import CentralOps.Lib.Fails
import CentralOps.Senders.Report

namespace CentralOps
set_option autoImplicit true

/-- `_RETRYABLE_STATUS`. -/
def elasticRetryable (r : HttpResponse) : Bool := [429, 502, 503, 504].contains r.status

/-- The fields `_item_result` finds; a truthy value without `.get` is an `AttributeError`. -/
def itemFields : Json → Except PyError Obj
  | .obj ((_, v) :: _) =>
    if v.truthy then
      match v with
      | .obj o => .ok o
      | _ => .error .attributeError
    else .ok []
  | _ => .ok []

/-- `v in codes`, where a list or a dict is not hashable. -/
def inCodes (codes : List Int) : Json → Except PyError Bool
  | .list _ | .obj _ => .error .typeError
  | v => .ok (codes.any (fun c => v.pyEq (.int c)))

def itemStatus (res : Obj) : Json := (res.lookup "status").getD (.int 0)

/-- `isinstance(st, int) and 200 <= st < 300`, or the idempotent conflict 409. -/
def acceptedStatus (st : Json) : Bool :=
  (match st with
    | .int n => decide (200 ≤ n ∧ n < 300)
    | _ => false) || st.pyEq (.int 409)

def itemReason (rt : Runtime) (res : Obj) (st : Json) : String :=
  let fallback := "status " ++ rt.str st
  let err := Obj.getN res "error"
  if err.truthy then
    match err with
    | .obj o => if (Obj.getN o "reason").truthy then rt.str (Obj.getN o "reason") else fallback
    | e => rt.str e
  else fallback

/-- The outcome of an event from its item of the `_bulk` response. -/
def itemOutcome (rt : Runtime) (item : Json) : Except PyError EventOutcome := do
  let res ← itemFields item
  let st := itemStatus res
  if acceptedStatus st then pure .accepted
  else if ← inCodes [429, 503] st then pure .retryable
  else do
    let auth ← inCodes [401, 403] st
    pure (.rejected (itemReason rt res st) (if auth then "auth" else "schema_rejected"))

/-- What `len(items)` and a loop over `items or []` see. -/
def sizedItems (v : Json) : Except PyError (List Json) :=
  if v.truthy then
    match v with
    | .list xs => .ok xs
    | .str s => .ok (s.toList.map (fun c => .str (String.singleton c)))
    | .obj o => .ok (o.map (fun p => .str p.1))
    | _ => .error .typeError
  else .ok []

section Client
variable (rt : Runtime)

/-- The outcomes of a `_bulk` response with errors. -/
def bulkOutcomes (o : Obj) (n : Nat) : Except PyError (List EventOutcome) := do
  let items ← sizedItems (Obj.getN o "items")
  if items.length ≠ n then pure (List.replicate n .retryable)
  else items.mapM (itemOutcome rt)

def elasticOutcomes (n : Nat) : HttpReply → Except PyError (List EventOutcome)
  | .connectionError _ => .ok (List.replicate n .retryable)
  | .response r =>
    if elasticRetryable r then .ok (List.replicate n .retryable)
    else if r.unauthorized then .ok (List.replicate n (.rejected ("auth " ++ r.label) "auth"))
    else
      match r.body with
      | .obj o =>
        if (Obj.getN o "errors").truthy then bulkOutcomes rt o n
        else .ok (List.replicate n .accepted)
      | _ => .ok (List.replicate n .retryable)

/-- `ElasticBulkClient.send_batch`; `wire` says which exception serialising an event raises. -/
def elasticSendBatch (wire : Obj → Option PyError) (server : Nat → HttpReply)
    (batch : List Obj) : Except PyError SendReport :=
  if batch.isEmpty then .ok (.perEvent [])
  else
    match batch.findSome? wire with
    | some e => .error e
    | none => do
      let outcomes ← elasticOutcomes rt batch.length (server 0)
      pure (.perEvent outcomes)

structure ErasureResult where
  erased : List String := []
  failed : List String := []
  detail : String := ""
  deriving DecidableEq

/-- Whether an item reports its id as deleted or already absent. -/
def itemErased (item : Json) : Except PyError Bool := do
  let res ← itemFields item
  inCodes [200, 404] (itemStatus res)

def erasureOf (eventIds : List String) (gone : List Bool) : ErasureResult :=
  let erased := ((eventIds.zip gone).filter (fun p => p.2)).map Prod.fst
  let failed := ((eventIds.zip gone).filter (fun p => !p.2)).map Prod.fst
  { erased := erased
    failed := failed
    detail := toString erased.length ++ " apagados, " ++ toString failed.length ++ " falhos" }

def eraseByItems (o : Obj) (eventIds : List String) : Except PyError ErasureResult := do
  let items ← sizedItems (Obj.getN o "items")
  if items.length ≠ eventIds.length then
    pure { failed := eventIds, detail := "resposta truncada do _bulk" }
  else do
    let gone ← items.mapM itemErased
    pure (erasureOf eventIds gone)

/-- `_erase_by_ids`. -/
def eraseByIds (eventIds : List String) : HttpReply → Except PyError ErasureResult
  | .connectionError detail => .ok { failed := eventIds, detail := "conexão falhou: " ++ detail }
  | .response r =>
    if elasticRetryable r then
      .ok { failed := eventIds, detail := r.label ++ " (retryable error)" }
    else if r.unauthorized then .ok { failed := eventIds, detail := "auth error " ++ r.label }
    else
      match r.body with
      | .obj o =>
        if (Obj.getN o "errors").truthy then eraseByItems o eventIds
        else .ok { erased := eventIds,
                   detail := toString eventIds.length ++ " eventos apagados" }
      | _ => .ok { failed := eventIds, detail := "resposta inesperada (não-JSON)" }

/-- The number of shard failures; `failures[:3]` only works on a list or a string. -/
def shardFailures (v : Json) : Except PyError Nat :=
  if v.truthy then
    match v with
    | .list xs => .ok xs.length
    | .str s => .ok s.length
    | _ => .error .typeError
  else .ok 0

def deletedCount (o : Obj) : Except PyError Int :=
  let deleted := Obj.getN o "deleted"
  if deleted.truthy then rt.pyInt deleted else .ok 0

def eraseReport (marker org : String) (o : Obj) : Except PyError ErasureResult := do
  let deleted ← deletedCount rt o
  let failures ← shardFailures (Obj.getN o "failures")
  let erased := [marker ++ ":deleted:" ++ toString deleted]
  if 0 < failures then
    pure { erased := erased, failed := [marker ++ ":shard_failures:" ++ toString failures],
           detail := "delete_by_query: " ++ toString deleted ++ " docs apagados, " ++
             toString failures ++ " falhas de shard" }
  else
    pure { erased := erased,
           detail := "delete_by_query: " ++ toString deleted ++ " docs apagados para org=" ++ org }

/-- `_erase_by_query_org`. -/
def eraseByQueryOrg (organizationId : Json) : HttpReply → Except PyError ErasureResult
  | .connectionError detail =>
    .ok { failed := ["org:" ++ rt.str organizationId],
          detail := "delete_by_query conexão falhou: " ++ detail }
  | .response r =>
    let marker := "org:" ++ rt.str organizationId
    if elasticRetryable r then
      .ok { failed := [marker], detail := "delete_by_query " ++ r.label ++ " (retryable error)" }
    else if r.unauthorized then
      .ok { failed := [marker], detail := "delete_by_query auth error " ++ r.label }
    else
      match r.body with
      | .obj o => eraseReport rt marker (rt.str organizationId) o
      | _ => .ok { failed := [marker], detail := "delete_by_query resposta inesperada (não-JSON)" }

end Client

section Statement
variable (rt : Runtime)

def specialStatus (r : HttpResponse) : Bool := elasticRetryable r || r.unauthorized

def itemConfirms (o : Obj) (i : Nat) : Prop :=
  ∃ items item res, sizedItems (Obj.getN o "items") = .ok items ∧ items[i]? = some item ∧
    itemFields item = .ok res ∧ acceptedStatus (itemStatus res) = true

def confirmsEvent (r : HttpResponse) (i : Nat) : Prop :=
  r.ok2xx = true ∧ ∃ o, r.json = some (.obj o) ∧
    (o.lookup "errors" = some (.bool false) ∨ itemConfirms o i)

/-- What is reported as accepted or erased is confirmed by the response. -/
def Confirmed (wire : Obj → Option PyError) (r : HttpResponse) (batch : List Obj)
    (eventIds : List String) (organizationId : Json) : Prop :=
  (∀ outcomes, elasticSendBatch rt wire (fun _ => .response r) batch = .ok (.perEvent outcomes) →
    ∀ i, outcomes[i]? = some .accepted → confirmsEvent r i) ∧
  (∀ res, eraseByIds eventIds (.response r) = .ok res → res.erased ≠ [] → r.ok2xx = true) ∧
  ∀ res, eraseByQueryOrg rt organizationId (.response r) = .ok res → res.erased ≠ [] →
    r.ok2xx = true

def readable (read : Json → Except PyError β) (o : Obj) (n : Nat) (items : List Json) : Prop :=
  sizedItems (Obj.getN o "items") = .ok items ∧ items.length = n ∧
    ∀ item ∈ items, ∃ b, read item = .ok b

def bodyAdmits (r : HttpResponse) (n : Nat) (o : Obj) : Prop :=
  if (Obj.getN o "errors").truthy then
    r.ok2xx = true ∨ ∀ items, readable (itemOutcome rt) o n items →
      ∀ item ∈ items, itemOutcome rt item ≠ .ok .accepted
  else
    n = 0 ∨ r.ok2xx = true ∧
      (o.lookup "errors" = some (.bool false) ∨ ∀ i < n, itemConfirms o i)

def bodyKeepsIds (eventIds : List String) (o : Obj) : Prop :=
  if (Obj.getN o "errors").truthy then
    ∀ items, readable itemErased o eventIds.length items →
      ∀ item ∈ items, itemErased item ≠ .ok true
  else eventIds = []

def bodyUnreadable (o : Obj) : Prop :=
  (∃ e, deletedCount rt o = .error e) ∨ ∃ e, shardFailures (Obj.getN o "failures") = .error e

/-- The responses on which acceptance and erasure are confirmed. -/
def Confirming (wire : Obj → Option PyError) (r : HttpResponse) (batch : List Obj)
    (eventIds : List String) : Prop :=
  specialStatus r = true ∨ ∀ o, r.body = .obj o →
    ((batch.findSome? wire).isSome = true ∨ bodyAdmits rt r batch.length o) ∧
    (r.ok2xx = true ∨ bodyKeepsIds eventIds o ∧ bodyUnreadable rt o)

end Statement

section Confirmation
variable {rt : Runtime} {r : HttpResponse}

theorem getElem?_replicate_eq {a b : α} {i : Nat} (h : (List.replicate n a)[i]? = some b) :
    b = a := by
  rw [List.getElem?_replicate] at h
  split at h
  · exact (Option.some.inj h).symm
  · cases h

theorem itemOutcome_accepted_iff {item : Json} :
    itemOutcome rt item = .ok .accepted ↔
      ∃ res, itemFields item = .ok res ∧ acceptedStatus (itemStatus res) = true := by
  unfold itemOutcome
  cases hres : itemFields item with
  | error e => simp [bind, Except.bind]
  | ok res =>
    cases hst : acceptedStatus (itemStatus res) with
    | true => simp [bind, Except.bind, pure, Except.pure, hst]
    | false =>
      cases hretry : inCodes [429, 503] (itemStatus res) with
      | error e => simp [bind, Except.bind, hst, hretry]
      | ok b =>
        cases b with
        | true => simp [bind, Except.bind, pure, Except.pure, hst, hretry]
        | false =>
          cases hauth : inCodes [401, 403] (itemStatus res) with
          | error e => simp [bind, Except.bind, hst, hretry, hauth]
          | ok c => simp [bind, Except.bind, pure, Except.pure, hst, hretry, hauth]

theorem forall₂_of_readable {read : Json → Except PyError β} {items : List Json}
    (h : ∀ item ∈ items, ∃ b, read item = .ok b) :
    ∃ bs, List.Forall₂ (fun x y => read x = .ok y) items bs := by
  induction items with
  | nil => exact ⟨[], .nil⟩
  | cons item items ih =>
    obtain ⟨b, hb⟩ := h item (by simp)
    obtain ⟨bs, hbs⟩ := ih (fun x hx => h x (List.mem_cons_of_mem _ hx))
    exact ⟨b :: bs, .cons hb hbs⟩

theorem readable_of_forall₂ {read : Json → Except PyError β} {items : List Json} {bs : List β}
    (h : List.Forall₂ (fun x y => read x = .ok y) items bs) :
    ∀ item ∈ items, ∃ b, read item = .ok b := by
  induction h with
  | nil => simp
  | cons hb _ ih => exact List.forall_mem_cons.2 ⟨⟨_, hb⟩, ih⟩

theorem forall₂_getElem? {R : α → β → Prop} {xs : List α} {ys : List β}
    (h : List.Forall₂ R xs ys) {i : Nat} {y : β} (hy : ys[i]? = some y) :
    ∃ x, xs[i]? = some x ∧ R x y := by
  induction h generalizing i with
  | nil => cases hy
  | cons hr _ ih =>
    cases i with
    | zero =>
      cases hy
      exact ⟨_, rfl, hr⟩
    | succ i => exact ih hy

/-- A response with errors: the outcomes are those of the items, when they are as many as the
events and can all be read. -/
theorem bulkOutcomes_accepted {o : Obj} {i : Nat} :
    (∃ outcomes, bulkOutcomes rt o n = .ok outcomes ∧ outcomes[i]? = some .accepted) ↔
      ∃ items, readable (itemOutcome rt) o n items ∧
        ∃ item, items[i]? = some item ∧ itemOutcome rt item = .ok .accepted := by
  constructor
  · rintro ⟨outcomes, hout, hi⟩
    unfold bulkOutcomes at hout
    cases hitems : sizedItems (Obj.getN o "items") with
    | error e =>
      rw [hitems] at hout
      cases hout
    | ok items =>
      rw [hitems] at hout
      change (if items.length ≠ n then _ else _) = _ at hout
      split at hout
      · cases hout
        cases getElem?_replicate_eq hi
      · next hlen =>
        have hall := Except.mapM_ok_iff.1 hout
        exact ⟨items, ⟨hitems, not_not.1 hlen, readable_of_forall₂ hall⟩, forall₂_getElem? hall hi⟩
  · rintro ⟨items, ⟨hitems, hlen, hread⟩, item, hi, hacc⟩
    obtain ⟨outcomes, hall⟩ := forall₂_of_readable hread
    refine ⟨outcomes, ?_, ?_⟩
    · unfold bulkOutcomes
      rw [hitems]
      change (if items.length ≠ n then _ else _) = _
      rw [if_neg (not_not.2 hlen)]
      exact Except.mapM_ok_iff.2 hall
    · obtain ⟨y, hy, hr⟩ := forall₂_getElem? hall.flip hi
      have heq : itemOutcome rt item = .ok y := hr
      rw [hacc] at heq
      cases heq
      exact hy

theorem bulkOutcomes_length {o : Obj} (h : bulkOutcomes rt o n = .ok outcomes) :
    n = outcomes.length := by
  unfold bulkOutcomes at h
  cases hitems : sizedItems (Obj.getN o "items") with
  | error e =>
    rw [hitems] at h
    cases h
  | ok items =>
    rw [hitems] at h
    change (if items.length ≠ n then _ else _) = _ at h
    split at h
    · cases h
      simp
    · next hlen => exact (not_not.1 hlen).symm.trans (Except.mapM_ok_iff.1 h).length_eq

/-- The outcomes exist when the items can be read. -/
theorem bulkOutcomes_ok_iff (rt : Runtime) (o : Obj) (n : Nat) :
    (∃ outcomes, bulkOutcomes rt o n = .ok outcomes) ↔
      ∃ items, sizedItems (Obj.getN o "items") = .ok items ∧
        (items.length = n → ∀ item ∈ items, ∃ oc, itemOutcome rt item = .ok oc) := by
  unfold bulkOutcomes
  cases hitems : sizedItems (Obj.getN o "items") with
  | error e =>
    constructor
    · rintro ⟨outcomes, h⟩
      cases h
    · rintro ⟨items, h, -⟩
      cases h
  | ok items =>
    change (∃ outcomes, (if items.length ≠ n then _ else _) = _) ↔ _
    by_cases hlen : items.length = n
    · rw [if_neg (not_not.2 hlen)]
      constructor
      · rintro ⟨outcomes, h⟩
        exact ⟨items, rfl, fun _ => readable_of_forall₂ (Except.mapM_ok_iff.1 h)⟩
      · rintro ⟨_, heq, hread⟩
        cases heq
        obtain ⟨outcomes, hall⟩ := forall₂_of_readable (hread hlen)
        exact ⟨outcomes, Except.mapM_ok_iff.2 hall⟩
    · rw [if_pos hlen]
      exact ⟨fun _ => ⟨items, rfl, fun h => absurd h hlen⟩, fun _ => ⟨_, rfl⟩⟩

theorem elasticOutcomes_special (rt : Runtime) (h : specialStatus r = true) (n : Nat) :
    ∃ oc, oc ≠ .accepted ∧
      elasticOutcomes rt n (.response r) = .ok (List.replicate n oc) := by
  unfold elasticOutcomes
  by_cases hretry : elasticRetryable r = true
  · exact ⟨.retryable, by simp, by simp [hretry]⟩
  · have hauth : r.unauthorized = true := by simpa [specialStatus, hretry] using h
    exact ⟨.rejected ("auth " ++ r.label) "auth", by simp, by simp [hretry, hauth]⟩

theorem not_special (h : specialStatus r = false) :
    elasticRetryable r = false ∧ r.unauthorized = false := by
  simpa [specialStatus] using h

theorem json_of_body (h : r.body = .obj o) (hne : o ≠ []) : r.json = some (.obj o) := by
  unfold HttpResponse.body at h
  cases hj : r.json with
  | none =>
    rw [hj] at h
    cases h
    exact absurd rfl hne
  | some v =>
    rw [hj] at h
    exact congrArg some h

theorem confirmsEvent_iff (hbody : r.body = .obj o) (i : Nat) :
    confirmsEvent r i ↔ r.ok2xx = true ∧
      (o.lookup "errors" = some (.bool false) ∨ itemConfirms o i) := by
  constructor
  · rintro ⟨hok, o', hjson, hconf⟩
    have heq : r.body = .obj o' := by simp [HttpResponse.body, hjson]
    rw [hbody] at heq
    cases heq
    exact ⟨hok, hconf⟩
  · rintro ⟨hok, hconf⟩
    refine ⟨hok, o, json_of_body hbody ?_, hconf⟩
    rintro rfl
    rcases hconf with hfalse | ⟨items, item, res, hitems, hi, -⟩
    · cases hfalse
    · cases hitems
      cases hi

theorem with_errors_iff (hbody : r.body = .obj o) (n : Nat) :
    (∀ outcomes, bulkOutcomes rt o n = .ok outcomes →
      ∀ i, outcomes[i]? = some .accepted → confirmsEvent r i) ↔
      r.ok2xx = true ∨ ∀ items, readable (itemOutcome rt) o n items →
        ∀ item ∈ items, itemOutcome rt item ≠ .ok .accepted := by
  constructor
  · intro h
    by_contra hno
    simp only [not_or, not_forall, not_not] at hno
    obtain ⟨hstatus, items, hread, item, hmem, hacc⟩ := hno
    obtain ⟨i, hi⟩ := List.mem_iff_getElem?.1 hmem
    obtain ⟨outcomes, hout, hacc'⟩ := bulkOutcomes_accepted.2 ⟨items, hread, item, hi, hacc⟩
    exact hstatus (h outcomes hout i hacc').1
  · intro h outcomes hout i hi
    obtain ⟨items, hread, item, hitem, hacc⟩ := bulkOutcomes_accepted.1 ⟨outcomes, hout, hi⟩
    rcases h with hok | hnone
    · obtain ⟨res, hres, hst⟩ := itemOutcome_accepted_iff.1 hacc
      exact (confirmsEvent_iff hbody i).2
        ⟨hok, .inr ⟨items, item, res, hread.1, hitem, hres, hst⟩⟩
    · exact absurd hacc (hnone items hread item (List.mem_of_getElem? hitem))

theorem without_errors_iff (hbody : r.body = .obj o) (n : Nat) :
    (∀ i < n, confirmsEvent r i) ↔ n = 0 ∨ r.ok2xx = true ∧
      (o.lookup "errors" = some (.bool false) ∨ ∀ i < n, itemConfirms o i) := by
  constructor
  · intro h
    rcases Nat.eq_zero_or_pos n with hzero | hpos
    · exact .inl hzero
    · refine .inr ⟨(h 0 hpos).1, ?_⟩
      by_cases hfalse : o.lookup "errors" = some (.bool false)
      · exact .inl hfalse
      · exact .inr (fun i hi => (((confirmsEvent_iff hbody i).1 (h i hi)).2).resolve_left hfalse)
  · rintro (rfl | ⟨hok, hconf⟩) i hi
    · cases hi
    · exact (confirmsEvent_iff hbody i).2 ⟨hok, hconf.imp_right (fun hall => hall i hi)⟩

theorem outcomes_confirmed_iff (rt : Runtime) (r : HttpResponse) (n : Nat) :
    (∀ outcomes, elasticOutcomes rt n (.response r) = .ok outcomes →
      ∀ i, outcomes[i]? = some .accepted → confirmsEvent r i) ↔
      specialStatus r = true ∨ ∀ o, r.body = .obj o → bodyAdmits rt r n o := by
  cases hspecial : specialStatus r with
  | true =>
    refine ⟨fun _ => .inl rfl, fun _ outcomes hout i hi => ?_⟩
    obtain ⟨oc, hne, heq⟩ := elasticOutcomes_special rt hspecial n
    rw [heq] at hout
    cases hout
    exact absurd (getElem?_replicate_eq hi).symm hne
  | false =>
    obtain ⟨hretry, hauth⟩ := not_special hspecial
    simp only [elasticOutcomes, hretry, hauth, Bool.false_eq_true, if_false, false_or]
    split
    · next o hbody =>
      have hone : (∀ o', r.body = .obj o' → bodyAdmits rt r n o') ↔ bodyAdmits rt r n o := by
        rw [hbody]
        simp
      rw [hone]
      unfold bodyAdmits
      split
      · exact with_errors_iff hbody n
      · rw [← without_errors_iff hbody n]
        constructor
        · intro h i hi
          exact h _ rfl i (by simp [hi])
        · intro h outcomes hout i hi
          cases hout
          rw [List.getElem?_replicate] at hi
          split at hi
          · next hlt => exact h i hlt
          · cases hi
    · next hno =>
      refine ⟨fun _ o hbody => absurd hbody (hno o), fun _ outcomes hout i hi => ?_⟩
      cases hout
      cases getElem?_replicate_eq hi

theorem elasticSendBatch_ok {wire : Obj → Option PyError} {server : Nat → HttpReply}
    {batch : List Obj} (hwire : batch.findSome? wire = none) (hne : batch ≠ []) :
    elasticSendBatch rt wire server batch = .ok (.perEvent outcomes) ↔
      elasticOutcomes rt batch.length (server 0) = .ok outcomes := by
  unfold elasticSendBatch
  rw [if_neg (by simpa using hne), hwire]
  cases elasticOutcomes rt batch.length (server 0) with
  | error e => simp [bind, Except.bind]
  | ok os => simp [bind, Except.bind, pure, Except.pure]

theorem bodyAdmits_nil (rt : Runtime) (r : HttpResponse) (o : Obj) : bodyAdmits rt r 0 o := by
  unfold bodyAdmits
  split
  · refine .inr (fun items hread item hmem => ?_)
    rw [List.length_eq_zero_iff.1 hread.2.1] at hmem
    cases hmem
  · exact .inl rfl

/-- `send_batch` reports only confirmed events, exactly on the responses that admit it. -/
theorem send_confirmed_iff (rt : Runtime) (wire : Obj → Option PyError) (r : HttpResponse)
    (batch : List Obj) :
    (∀ outcomes, elasticSendBatch rt wire (fun _ => .response r) batch =
        .ok (.perEvent outcomes) →
      ∀ i, outcomes[i]? = some .accepted → confirmsEvent r i) ↔
      specialStatus r = true ∨ ∀ o, r.body = .obj o →
        (batch.findSome? wire).isSome = true ∨ bodyAdmits rt r batch.length o := by
  rcases List.eq_nil_or_concat batch with rfl | ⟨_, _, hconcat⟩
  · refine ⟨fun _ => .inr (fun o _ => .inr (bodyAdmits_nil rt r o)), fun _ outcomes hout i hi => ?_⟩
    cases hout
    cases hi
  · have hne : batch ≠ [] := by simp [hconcat]
    cases hwire : batch.findSome? wire with
    | some e =>
      refine ⟨fun _ => .inr (fun _ _ => .inl rfl), fun _ outcomes hout => ?_⟩
      unfold elasticSendBatch at hout
      rw [if_neg (by simpa using hne), hwire] at hout
      cases hout
    | none =>
      simp only [elasticSendBatch_ok hwire hne, Option.isSome_none, Bool.false_eq_true, false_or]
      exact outcomes_confirmed_iff rt r batch.length

theorem filter_zip_eq_nil {ids : List String} {gone : List Bool}
    (h : ids.length = gone.length) :
    ((ids.zip gone).filter (fun p => p.2)).map Prod.fst = [] ↔ true ∉ gone := by
  rw [List.map_eq_nil_iff, List.filter_eq_nil_iff]
  constructor
  · intro hnone hmem
    obtain ⟨i, hi, hget⟩ := List.mem_iff_getElem.1 hmem
    have hmem' : (ids[i], gone[i]) ∈ ids.zip gone := by
      rw [List.mem_iff_getElem]
      exact ⟨i, by simp [h, hi], by simp⟩
    exact hnone _ hmem' hget
  · intro hno p hp hpt
    exact hno (hpt ▸ (List.of_mem_zip hp).2)

theorem eraseByItems_erased {o : Obj} {eventIds : List String} :
    (∃ res, eraseByItems o eventIds = .ok res ∧ res.erased ≠ []) ↔
      ∃ items, readable itemErased o eventIds.length items ∧
        ∃ item ∈ items, itemErased item = .ok true := by
  constructor
  · rintro ⟨res, hres, hne⟩
    unfold eraseByItems at hres
    cases hitems : sizedItems (Obj.getN o "items") with
    | error e =>
      rw [hitems] at hres
      cases hres
    | ok items =>
      rw [hitems] at hres
      change (if items.length ≠ eventIds.length then _ else _) = _ at hres
      split at hres
      · cases hres
        exact absurd rfl hne
      · next hlen =>
        have hlen' := not_not.1 hlen
        cases hgone : items.mapM itemErased with
        | error e =>
          rw [hgone] at hres
          cases hres
        | ok gone =>
          rw [hgone] at hres
          cases hres
          have hall := Except.mapM_ok_iff.1 hgone
          have hmem : true ∈ gone := by
            by_contra hno
            exact hne ((filter_zip_eq_nil (hlen'.symm.trans hall.length_eq)).2 hno)
          obtain ⟨i, hi⟩ := List.mem_iff_getElem?.1 hmem
          obtain ⟨item, hitem, hread⟩ := forall₂_getElem? hall hi
          exact ⟨items, ⟨hitems, hlen', readable_of_forall₂ hall⟩, item,
            List.mem_of_getElem? hitem, hread⟩
  · rintro ⟨items, ⟨hitems, hlen, hread⟩, item, hmem, hgone⟩
    obtain ⟨gone, hall⟩ := forall₂_of_readable hread
    refine ⟨erasureOf eventIds gone, ?_, ?_⟩
    · unfold eraseByItems
      rw [hitems]
      change (if items.length ≠ eventIds.length then _ else _) = _
      rw [if_neg (not_not.2 hlen), Except.mapM_ok_iff.2 hall]
      rfl
    · intro hnil
      apply (filter_zip_eq_nil (hlen.symm.trans hall.length_eq)).1 hnil
      obtain ⟨i, hi⟩ := List.mem_iff_getElem?.1 hmem
      obtain ⟨b, hb, hr⟩ := forall₂_getElem? hall.flip hi
      have heq : itemErased item = .ok b := hr
      rw [hgone] at heq
      cases heq
      exact List.mem_of_getElem? hb

theorem erase_ids_iff (r : HttpResponse) (eventIds : List String) :
    (∀ res, eraseByIds eventIds (.response r) = .ok res → res.erased ≠ [] → r.ok2xx = true) ↔
      specialStatus r = true ∨ ∀ o, r.body = .obj o → r.ok2xx = true ∨ bodyKeepsIds eventIds o := by
  cases hspecial : specialStatus r with
  | true =>
    refine ⟨fun _ => .inl rfl, fun _ res hres hne => ?_⟩
    unfold eraseByIds at hres
    by_cases hretry : elasticRetryable r = true
    · simp only [hretry, if_true] at hres
      cases hres
      exact absurd rfl hne
    · have hauth : r.unauthorized = true := by simpa [specialStatus, hretry] using hspecial
      simp only [hretry, hauth, if_true, Bool.false_eq_true, if_false] at hres
      cases hres
      exact absurd rfl hne
  | false =>
    obtain ⟨hretry, hauth⟩ := not_special hspecial
    simp only [eraseByIds, hretry, hauth, Bool.false_eq_true, if_false, false_or]
    split
    · next o hbody =>
      have hone : (∀ o', r.body = .obj o' → r.ok2xx = true ∨ bodyKeepsIds eventIds o') ↔
          (r.ok2xx = true ∨ bodyKeepsIds eventIds o) := by
        rw [hbody]
        simp
      rw [hone]
      unfold bodyKeepsIds
      split
      · constructor
        · intro h
          by_contra hno
          simp only [not_or, not_forall, not_not] at hno
          obtain ⟨hstatus, items, hread, item, hmem, hgone⟩ := hno
          obtain ⟨res, hres, hne⟩ := eraseByItems_erased.2 ⟨items, hread, item, hmem, hgone⟩
          exact hstatus (h res hres hne)
        · rintro (hok | hkeep) res hres hne
          · exact hok
          · obtain ⟨items, hread, item, hmem, hgone⟩ := eraseByItems_erased.1 ⟨res, hres, hne⟩
            exact absurd hgone (hkeep items hread item hmem)
      · constructor
        · intro h
          by_cases hnil : eventIds = []
          · exact .inr hnil
          · exact .inl (h _ rfl hnil)
        · rintro (hok | hnil) res hres hne
          · exact hok
          · cases hres
            exact absurd hnil hne
    · next hno =>
      refine ⟨fun _ o hbody => absurd hbody (hno o), fun _ res hres hne => ?_⟩
      cases hres
      exact absurd rfl hne

theorem eraseReport_erased {marker org : String} :
    (∃ res, eraseReport rt marker org o = .ok res ∧ res.erased ≠ []) ↔ ¬ bodyUnreadable rt o := by
  unfold eraseReport bodyUnreadable
  cases hdel : deletedCount rt o with
  | error e => simp [bind, Except.bind]
  | ok deleted =>
    cases hfail : shardFailures (Obj.getN o "failures") with
    | error e => simp [bind, Except.bind]
    | ok failures =>
      by_cases hpos : 0 < failures
      · simp [bind, Except.bind, pure, Except.pure, hpos]
      · simp [bind, Except.bind, pure, Except.pure, hpos]

theorem erase_org_iff (rt : Runtime) (r : HttpResponse) (organizationId : Json) :
    (∀ res, eraseByQueryOrg rt organizationId (.response r) = .ok res → res.erased ≠ [] →
      r.ok2xx = true) ↔
      specialStatus r = true ∨ ∀ o, r.body = .obj o → r.ok2xx = true ∨ bodyUnreadable rt o := by
  cases hspecial : specialStatus r with
  | true =>
    refine ⟨fun _ => .inl rfl, fun _ res hres hne => ?_⟩
    unfold eraseByQueryOrg at hres
    by_cases hretry : elasticRetryable r = true
    · simp only [hretry, if_true] at hres
      cases hres
      exact absurd rfl hne
    · have hauth : r.unauthorized = true := by simpa [specialStatus, hretry] using hspecial
      simp only [hretry, hauth, if_true, Bool.false_eq_true, if_false] at hres
      cases hres
      exact absurd rfl hne
  | false =>
    obtain ⟨hretry, hauth⟩ := not_special hspecial
    simp only [eraseByQueryOrg, hretry, hauth, Bool.false_eq_true, if_false, false_or]
    split
    · next o hbody =>
      have hone : (∀ o', r.body = .obj o' → r.ok2xx = true ∨ bodyUnreadable rt o') ↔
          (r.ok2xx = true ∨ bodyUnreadable rt o) := by
        rw [hbody]
        simp
      rw [hone]
      constructor
      · intro h
        by_contra hno
        rw [not_or] at hno
        obtain ⟨res, hres, hne⟩ := eraseReport_erased.2 hno.2
        exact hno.1 (h res hres hne)
      · rintro (hok | hun) res hres hne
        · exact hok
        · exact absurd hun (eraseReport_erased.1 ⟨res, hres, hne⟩)
    · next hno =>
      refine ⟨fun _ o hbody => absurd hbody (hno o), fun _ res hres hne => ?_⟩
      cases hres
      exact absurd rfl hne

/-- Acceptance and erasure are confirmed by the cluster exactly on the confirming responses. -/
theorem elastic_confirmed_iff (rt : Runtime) (wire : Obj → Option PyError) (r : HttpResponse)
    (batch : List Obj) (eventIds : List String) (organizationId : Json) :
    Confirmed rt wire r batch eventIds organizationId ↔
      Confirming rt wire r batch eventIds := by
  unfold Confirmed Confirming
  rw [send_confirmed_iff, erase_ids_iff, erase_org_iff]
  constructor
  · rintro ⟨hsend, hids, horg⟩
    cases hspecial : specialStatus r with
    | true => exact .inl rfl
    | false =>
      simp only [hspecial, Bool.false_eq_true, false_or] at hsend hids horg
      exact .inr (fun o hbody => ⟨hsend o hbody, or_and_left.2 ⟨hids o hbody, horg o hbody⟩⟩)
  · rintro (hspecial | hall)
    · exact ⟨.inl hspecial, .inl hspecial, .inl hspecial⟩
    · refine ⟨.inr (fun o hb => (hall o hb).1), .inr (fun o hb => ?_), .inr (fun o hb => ?_)⟩
      · exact (or_and_left.1 (hall o hb).2).1
      · exact (or_and_left.1 (hall o hb).2).2

/-- A 404 without a JSON body is taken for the acceptance of the whole batch. -/
theorem not_found_counts_as_accepted :
    ¬ Confirmed .ascii (fun _ => none) { status := 404 } [[]] ["a"] (.int 1) := by
  intro h
  have hconf := h.1 [.accepted] rfl 0 rfl
  exact absurd hconf.1 (by decide)

end Confirmation

end CentralOps
