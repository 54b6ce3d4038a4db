import CentralOps.Delivery.Tenancy

namespace CentralOps
set_option autoImplicit true

def drenoMaxPorExecucao : Nat := 500

def drenoTamanhoLote : Nat := 100

def dlqKindEmReprocesso : String := "reprocessing"

/-- The arguments of a drain; no event ids means all of them. -/
structure DrainRequest where
  destinationId : String
  eventIds : List String := []
  orgId : Option Int := none
  globalScope : Bool := true

structure Candidate where
  dlqId : String
  eventId : String
  org : Option Int
  envelope : Obj

structure DrainReport where
  delivered : Nat := 0
  failed : Nat := 0
  restantes : List String := []
  cedeuAoDisjuntor : Bool := false

section Repository
variable (env : Environment)

def dlqOrgScope (req : DrainRequest) (row : DeadLetter) : Bool :=
  req.globalScope || req.orgId.isNone || decide (row.organizationId = req.orgId) ||
    row.organizationId.isNone

def listDlqForReprocess (req : DrainRequest) (dlq : Dict String DeadLetter) :
    List (String × DeadLetter) :=
  dlq.entries.filter (fun p => decide (p.2.destinationId = req.destinationId) &&
    dlqOrgScope req p.2 && (req.eventIds.isEmpty || req.eventIds.contains p.2.eventId))

/-- A repository call: it takes full effect or raises. -/
def repoCall (f : Dict String DeadLetter → Dict String DeadLetter) : Task Unit := do
  external env
  Proc.modify (fun s => { s with dlq := f s.dlq })

def deleteDlqEntries (ids : List String) (dlq : Dict String DeadLetter) : Dict String DeadLetter :=
  dlq.filterKeys (fun i => !ids.contains i)

def updateDlqError (id errorKind errorDetail : String) (dlq : Dict String DeadLetter) :
    Dict String DeadLetter :=
  dlq.mapEntries (fun i r =>
    if i = id then { r with errorKind := errorKind, errorDetail := errorDetail } else r)

def marcarDlqEmReprocesso (ids : List String) (dlq : Dict String DeadLetter) :
    Dict String DeadLetter :=
  dlq.mapEntries (fun i r =>
    if ids.contains i then { r with errorKind := dlqKindEmReprocesso } else r)

def dlqErrorKind (dlq : Dict String DeadLetter) (id : String) : Option String :=
  (dlq.get? id).map DeadLetter.errorKind

/-- The rows whose stamp survived; a row that is gone counts as well. -/
def entreguesDe (ids : List String) (dlq : Dict String DeadLetter) : List String :=
  ids.filter (fun i => (dlqErrorKind dlq i).getD dlqKindEmReprocesso = dlqKindEmReprocesso)

end Repository

section Drain
variable (rt : Runtime) (settings : Settings) (env : Environment) (req : DrainRequest)

/-- Rows without a payload are deleted, rows that do not parse are marked, the others are
candidates. -/
def decodeRows : List (String × DeadLetter) → DrainReport → Task (DrainReport × List Candidate)
  | [], report => pure (report, [])
  | (id, row) :: rest, report =>
    match row.payload with
    | .empty => do
      repoCall env (deleteDlqEntries [id])
      decodeRows rest { report with delivered := report.delivered + 1 }
    | .corrupt => do
      repoCall env (updateDlqError id "reprocess_parse_error"
        "payload could not be parsed as JSON during reprocess")
      decodeRows rest { report with failed := report.failed + 1 }
    | .stored envelope => do
      let decoded ← decodeRows rest report
      pure (decoded.1, { dlqId := id, eventId := row.eventId, org := row.organizationId,
                         envelope := envelope } :: decoded.2)

def loteAt (candidatos : List Candidate) (inicio : Nat) : List Candidate :=
  (candidatos.drop inicio).take drenoTamanhoLote

/-- `range(0, n, _DRENO_TAMANHO_LOTE)`. -/
def iniciosDe (n : Nat) : List Nat :=
  (List.range ((n + drenoTamanhoLote - 1) / drenoTamanhoLote)).map (· * drenoTamanhoLote)

def detalheDaFalha (e : DispatchError) : String :=
  String.ofList (("reprocess attempt failed: " ++ env.describe e).toList.take 500)

def deleteEntregues (ids : List String) : Task Unit :=
  if ids.isEmpty then pure () else repoCall env (deleteDlqEntries ids)

/-- After a dispatch that returned: the rows that kept the stamp are deleted. -/
def confirmLot (ids : List String) (report : DrainReport) : Task DrainReport := do
  external env
  let s ← Proc.get
  let entregues := entreguesDe ids s.dlq
  deleteEntregues env entregues
  pure { report with
    delivered := report.delivered + entregues.length
    failed := report.failed + (ids.length - entregues.length) }

/-- One lot, and whether the drain stops after it. -/
def drainLot (candidatos : List Candidate) (inicio : Nat) (report : DrainReport) :
    Task (DrainReport × Bool) := do
  let lote := loteAt candidatos inicio
  let ids := lote.map Candidate.dlqId
  let envelopes := lote.map Candidate.envelope
  let org := lote.head?.bind Candidate.org
  repoCall env (marcarDlqEmReprocesso ids)
  match ← Proc.attempt (dispatchBatchToDestination rt settings env req.destinationId envelopes) with
  | .ok _ => do
    let report ← confirmLot env ids report
    pure (report, false)
  | .error .breakerOpen => do
    let _ ← persistBatchDlq rt env envelopes req.destinationId "breaker_open" org none
    pure ({ report with
      restantes := (candidatos.drop inicio).map Candidate.eventId ++ report.restantes
      cedeuAoDisjuntor := true }, true)
  | .error e => do
    let _ ← persistBatchDlq rt env envelopes req.destinationId "reprocess_failed" org
      (some (detalheDaFalha env e))
    pure ({ report with failed := report.failed + lote.length }, false)

def drainLots (candidatos : List Candidate) : List Nat → DrainReport → Task DrainReport
  | [], report => pure report
  | inicio :: rest, report => do
    let out ← drainLot rt settings env req candidatos inicio report
    if out.2 then pure out.1 else drainLots candidatos rest out.1

/-- The rest is left to a later run. -/
def reagendar (report : DrainReport) : Task Unit :=
  if report.restantes.isEmpty then pure () else external env

def drainCandidates (candidatos : List Candidate) (report : DrainReport) : Task DrainReport := do
  let report ← drainLots rt settings env req candidatos (iniciosDe candidatos.length) report
  reagendar env report
  pure report

def drainDestinationDlq : Task DrainReport := do
  external env
  let s ← Proc.get
  let linhas := listDlqForReprocess req s.dlq
  let decoded ← decodeRows env (linhas.take drenoMaxPorExecucao)
    { restantes := (linhas.drop drenoMaxPorExecucao).map (fun p => p.2.eventId) }
  drainCandidates rt settings env req decoded.2 decoded.1

end Drain

section Rows
variable {env : Environment}

structure SameRow (r r' : DeadLetter) : Prop where
  destinationId : r'.destinationId = r.destinationId
  eventId : r'.eventId = r.eventId
  organizationId : r'.organizationId = r.organizationId
  payload : r'.payload = r.payload

theorem SameRow.refl (r : DeadLetter) : SameRow r r := ⟨rfl, rfl, rfl, rfl⟩

theorem SameRow.trans (h : SameRow r r') (h' : SameRow r' r'') : SameRow r r'' :=
  ⟨h'.1.trans h.1, h'.2.trans h.2, h'.3.trans h.3, h'.4.trans h.4⟩

theorem clash_iff {w r : DeadLetter} :
    w.clash r = true ↔ r.destinationId = w.destinationId ∧ r.eventId = w.eventId :=
  decide_eq_true_iff

theorem retouch_same (w r : DeadLetter) : SameRow r (w.retouch r) := by
  unfold DeadLetter.retouch
  split
  · exact ⟨rfl, rfl, rfl, rfl⟩
  · exact .refl r

theorem get?_upsert {dlq : Dict String DeadLetter} (h : dlq.get? i = some r) (w : DeadLetter) :
    (upsertDeadLetter env dlq w).get? i = some (w.retouch r) := by
  unfold upsertDeadLetter
  split
  · rw [Dict.get?_mapEntries, h]
    rfl
  · next hno =>
    have hmem := dlq.mem_entries_iff.2 h
    have hne : i ≠ env.uuid (dlq.entries.map Prod.fst) := by
      intro he
      have hin : i ∈ dlq.entries.map Prod.fst := List.mem_map.2 ⟨_, hmem, rfl⟩
      rw [he] at hin
      exact env.uuid_fresh _ hin
    have hclash : w.clash r = false := by
      rw [Bool.not_eq_true, List.any_eq_false] at hno
      simpa using hno _ hmem
    rw [Dict.get?_set_ne dlq hne, h]
    simp [DeadLetter.retouch, hclash]

/-- Every row of the table. -/
def AllRows (P : DeadLetter → Prop) (dlq : Dict String DeadLetter) : Prop :=
  ∀ i r, dlq.get? i = some r → P r

/-- The property only reads what a change of reason leaves alone. -/
def Reasonless (P : DeadLetter → Prop) : Prop := ∀ r r', SameRow r r' → P r → P r'

theorem upsert_row {dlq : Dict String DeadLetter} {w : DeadLetter}
    (h : (upsertDeadLetter env dlq w).get? i = some r) :
    (∃ r₀, dlq.get? i = some r₀ ∧ SameRow r₀ r) ∨ r = w := by
  unfold upsertDeadLetter at h
  split at h
  · rw [Dict.get?_mapEntries, Option.map_eq_some_iff] at h
    obtain ⟨r₀, hget, rfl⟩ := h
    exact .inl ⟨r₀, hget, retouch_same w r₀⟩
  · by_cases hi : i = env.uuid (dlq.entries.map Prod.fst)
    · subst hi
      rw [Dict.get?_set_self] at h
      exact .inr (Option.some.inj h).symm
    · rw [Dict.get?_set_ne dlq hi] at h
      exact .inl ⟨r, h, .refl r⟩

/-- A write leaves a row with the key of the written one, which is the written one itself
unless the key was taken. -/
theorem upsert_present (env : Environment) (dlq : Dict String DeadLetter) (w : DeadLetter) :
    ∃ i r, (upsertDeadLetter env dlq w).get? i = some r ∧ w.clash r = true ∧
      (AllRows (fun r' => w.clash r' = false) dlq → r = w) := by
  unfold upsertDeadLetter
  split
  · next hany =>
    obtain ⟨⟨i, r⟩, hmem, hclash⟩ := List.any_eq_true.1 hany
    have hget := dlq.mem_entries_iff.1 hmem
    have hsame := retouch_same w r
    refine ⟨i, w.retouch r, by rw [Dict.get?_mapEntries, hget]; rfl, ?_, ?_⟩
    · simpa [DeadLetter.clash, hsame.1, hsame.2] using hclash
    · intro hfree
      rw [hfree i r hget] at hclash
      cases hclash
  · refine ⟨_, w, Dict.get?_set_self _ _ _, ?_, fun _ => rfl⟩
    simp [DeadLetter.clash]

theorem AllRows.upsert {P : DeadLetter → Prop} {dlq : Dict String DeadLetter} {w : DeadLetter}
    (hP : Reasonless P) (hw : P w) (h : AllRows P dlq) :
    AllRows P (upsertDeadLetter env dlq w) := by
  intro i r hget
  rcases upsert_row hget with ⟨r₀, hget₀, hsame⟩ | rfl
  · exact hP r₀ r hsame (h i r₀ hget₀)
  · exact hw

/-- The effect on one row of a series of writes, each of a row that satisfies `W`. -/
theorem foldl_writes {X : Type} {W : X → DeadLetter → Prop}
    {write : Dict String DeadLetter → X → Dict String DeadLetter}
    (hw : ∀ dlq x, ∃ w, W x w ∧ write dlq x = upsertDeadLetter env dlq w) (xs : List X)
    {dlq : Dict String DeadLetter} (h : dlq.get? i = some r) :
    ∃ r', (xs.foldl write dlq).get? i = some r' ∧ SameRow r r' ∧
      (r'.errorKind = r.errorKind ∨ ∃ x ∈ xs, ∃ w, W x w ∧ r'.errorKind = w.errorKind) ∧
      ((∃ x ∈ xs, ∀ w, W x w → w.clash r = true) →
        ∃ x ∈ xs, ∃ w, W x w ∧ r'.errorKind = w.errorKind) := by
  induction xs generalizing dlq r with
  | nil => exact ⟨r, h, .refl r, .inl rfl, by simp⟩
  | cons x xs ih =>
    obtain ⟨w, hW, hwrite⟩ := hw dlq x
    have h₁ : (write dlq x).get? i = some (w.retouch r) := by
      rw [hwrite]
      exact get?_upsert h w
    have hsame := retouch_same w r
    obtain ⟨r', hget, hsame', hkind, hhit⟩ := ih h₁
    have hclash : ∀ v : DeadLetter, v.clash (w.retouch r) = v.clash r := by
      intro v
      simp [DeadLetter.clash, hsame.1, hsame.2]
    have later : (∃ y ∈ xs, ∃ v, W y v ∧ r'.errorKind = v.errorKind) →
        ∃ y ∈ x :: xs, ∃ v, W y v ∧ r'.errorKind = v.errorKind := by
      rintro ⟨y, hy, hv⟩
      exact ⟨y, List.mem_cons_of_mem x hy, hv⟩
    refine ⟨r', hget, hsame.trans hsame', ?_, ?_⟩
    · rcases hkind with hkind | hkind
      · by_cases hc : w.clash r = true
        · exact .inr ⟨x, by simp, w, hW, by simpa [DeadLetter.retouch, hc] using hkind⟩
        · exact .inl (by simpa [DeadLetter.retouch, hc] using hkind)
      · exact .inr (later hkind)
    · rintro ⟨y, hy, hclashes⟩
      rcases List.mem_cons.1 hy with rfl | hy
      · rcases hkind with hkind | hkind
        · have hc := hclashes w hW
          exact ⟨y, by simp, w, hW, by simpa [DeadLetter.retouch, hc] using hkind⟩
        · exact later hkind
      · exact later (hhit ⟨y, hy, fun v hv => (hclash v).trans (hclashes v hv)⟩)

/-- A series of writes of rows that satisfy `P`. -/
theorem AllRows.foldl {X : Type} {P : DeadLetter → Prop}
    {write : Dict String DeadLetter → X → Dict String DeadLetter} (hP : Reasonless P)
    (xs : List X) (hw : ∀ dlq, ∀ x ∈ xs, ∃ w, P w ∧ write dlq x = upsertDeadLetter env dlq w)
    {dlq : Dict String DeadLetter} (h : AllRows P dlq) : AllRows P (xs.foldl write dlq) := by
  induction xs generalizing dlq with
  | nil => exact h
  | cons x xs ih =>
    obtain ⟨w, hPw, hwrite⟩ := hw dlq x (by simp)
    apply ih (fun dlq y hy => hw dlq y (List.mem_cons_of_mem _ hy))
    rw [hwrite]
    exact h.upsert hP hPw

theorem foldl_present {X : Type} {Q : DeadLetter → Prop} {I : Dict String DeadLetter → Prop}
    {write : Dict String DeadLetter → X → Dict String DeadLetter} (hQ : Reasonless Q)
    (xs : List X) (hw : ∀ dlq x, ∃ w, write dlq x = upsertDeadLetter env dlq w)
    (hI : ∀ dlq, ∀ x ∈ xs, I dlq → I (write dlq x)) {x : X} (hx : x ∈ xs)
    (hput : ∀ dlq, I dlq → ∃ i r, (write dlq x).get? i = some r ∧ Q r)
    {dlq : Dict String DeadLetter} (h : I dlq) :
    ∃ i r, (xs.foldl write dlq).get? i = some r ∧ Q r := by
  induction xs generalizing dlq with
  | nil => cases hx
  | cons y xs ih =>
    rcases List.mem_cons.1 hx with rfl | hx
    · obtain ⟨i, r, hget, hQr⟩ := hput dlq h
      have hw' : ∀ dlq x, ∃ w, True ∧ write dlq x = upsertDeadLetter env dlq w := by
        intro dlq x
        obtain ⟨w, hwrite⟩ := hw dlq x
        exact ⟨w, trivial, hwrite⟩
      obtain ⟨r', hget', hsame, -⟩ := foldl_writes hw' xs hget
      exact ⟨i, r', hget', hQ r r' hsame hQr⟩
    · exact ih (fun dlq z hz => hI dlq z (List.mem_cons_of_mem _ hz)) hx (hI dlq y (by simp) h)

theorem get?_buildEventMap (rt : Runtime) (batch : List Obj) (id : String) :
    (buildEventMap rt batch).get? id =
      (batch.filter (fun e => envelopeEventId rt e = some id)).getLast? := by
  induction batch using List.reverseRecOn with
  | nil => rfl
  | append_singleton batch e ih =>
    have hskip (h : envelopeEventId rt e = none) :
        buildEventMap rt (batch ++ [e]) = buildEventMap rt batch := by
      unfold buildEventMap
      simp [h]
    have hput {eid : String} (h : envelopeEventId rt e = some eid) :
        buildEventMap rt (batch ++ [e]) = (buildEventMap rt batch).set eid e := by
      unfold buildEventMap
      simp [h]
    rw [List.filter_append]
    by_cases he : envelopeEventId rt e = some id
    · rw [hput he]
      simp [he]
    · have hlast : List.filter (fun x => decide (envelopeEventId rt x = some id)) [e] = [] := by
        simp [he]
      rw [hlast, List.append_nil, ← ih]
      cases hid : envelopeEventId rt e with
      | none => rw [hskip hid]
      | some eid =>
        have hne : id ≠ eid := by
          rintro rfl
          exact he hid
        rw [hput hid]
        exact Dict.get?_set_ne _ hne e

theorem get?_storeRejected (rt : Runtime) (env : Environment) (destId : String)
    (destOrg : Option Int) (rejected : List RejectedEvent) (chunk : List Obj)
    {dlq : Dict String DeadLetter} (h : dlq.get? i = some r) :
    ∃ r', (storeRejected rt env destId destOrg rejected chunk dlq).get? i = some r' ∧
      SameRow r r' ∧
      (r'.errorKind = r.errorKind ∨ ∃ rej ∈ rejected, r'.errorKind = rej.errorKind) ∧
      (r.destinationId = destId → (∃ rej ∈ rejected, rej.eventId = r.eventId) →
        ∃ rej ∈ rejected, r'.errorKind = rej.errorKind) := by
  have hw : ∀ dlq rej, ∃ w, w = rejectedRow destId destOrg (buildEventMap rt chunk) rej ∧
      upsertDeadLetter env dlq (rejectedRow destId destOrg (buildEventMap rt chunk) rej) =
        upsertDeadLetter env dlq w := fun _ _ => ⟨_, rfl, rfl⟩
  obtain ⟨r', hget, hsame, hkind, hhit⟩ := foldl_writes hw rejected h
  have reason : (∃ rej ∈ rejected, ∃ w,
      w = rejectedRow destId destOrg (buildEventMap rt chunk) rej ∧
        r'.errorKind = w.errorKind) → ∃ rej ∈ rejected, r'.errorKind = rej.errorKind := by
    rintro ⟨rej, hrej, w, rfl, hk⟩
    exact ⟨rej, hrej, hk⟩
  refine ⟨r', ?_, hsame, hkind.imp_right reason, ?_⟩
  · rw [storeRejected, List.foldl_map]
    exact hget
  · rintro hdest ⟨rej, hrej, hid⟩
    apply reason
    apply hhit
    refine ⟨rej, hrej, ?_⟩
    rintro w rfl
    simp [DeadLetter.clash, rejectedRow, hdest, hid]

theorem Reasonless.key (destId eventId : String) :
    Reasonless (fun r => r.destinationId = destId ∧ r.eventId = eventId) :=
  fun _ _ hsame h => ⟨hsame.destinationId.trans h.1, hsame.eventId.trans h.2⟩

theorem storeRejected_present (rt : Runtime) (env : Environment) (destId : String)
    (destOrg : Option Int) (chunk : List Obj) {rejected : List RejectedEvent}
    (hrej : rej ∈ rejected) (dlq : Dict String DeadLetter) :
    ∃ i r, (storeRejected rt env destId destOrg rejected chunk dlq).get? i = some r ∧
      r.destinationId = destId ∧ r.eventId = rej.eventId := by
  unfold storeRejected
  rw [List.foldl_map]
  apply foldl_present (Reasonless.key destId rej.eventId) rejected (fun _ _ => ⟨_, rfl⟩)
    (fun _ _ _ h => h) hrej _ (I := fun _ => True) trivial
  intro dlq _
  obtain ⟨i, r, hget, hclash, -⟩ := upsert_present env dlq
    (rejectedRow destId destOrg (buildEventMap rt chunk) rej)
  exact ⟨i, r, hget, clash_iff.1 hclash⟩

theorem get?_storeBatch (rt : Runtime) (env : Environment) (batch : List Obj)
    (destId errorKind : String) (org : Option Int) (detail : Option String)
    {dlq : Dict String DeadLetter} (h : dlq.get? i = some r) :
    ∃ r', (storeBatch rt env batch destId errorKind org detail dlq).get? i = some r' ∧
      SameRow r r' ∧
      (r.destinationId = destId → (∃ x ∈ batch, envelopeEventId rt x = some r.eventId) →
        r'.errorKind = errorKind) := by
  have hw : ∀ dlq x, ∃ w, (w.errorKind = errorKind ∧ w.destinationId = destId ∧
      ∀ id, envelopeEventId rt x = some id → w.eventId = id) ∧
      insertBatchRow rt env destId errorKind org detail dlq x = upsertDeadLetter env dlq w := by
    intro dlq x
    refine ⟨_, ⟨rfl, rfl, ?_⟩, rfl⟩
    intro id hid
    simp [batchRow, hid]
  obtain ⟨r', hget, hsame, -, hhit⟩ := foldl_writes hw batch h
  refine ⟨r', hget, hsame, ?_⟩
  rintro hdest ⟨x, hx, hid⟩
  obtain ⟨_, _, w, hW, hk⟩ := hhit ⟨x, hx, fun w hW => by
    simp [DeadLetter.clash, hW.2.1, hW.2.2 _ hid, hdest]⟩
  exact hk.trans hW.1

end Rows

end CentralOps
