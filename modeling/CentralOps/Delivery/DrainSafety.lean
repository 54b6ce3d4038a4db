import CentralOps.Delivery.Drain

namespace CentralOps
set_option autoImplicit true

section Statement
variable (rt : Runtime) (settings : Settings)

def rejects (r : DeliveryResult) (e : Obj) : Bool :=
  match envelopeEventId rt e with
  | some id => r.rejected.any (fun rej => rej.eventId = id)
  | none => false

def accountsFor (chunk : List Obj) (r : DeliveryResult) : Prop :=
  r.accepted = (chunk.filter (fun x => !rejects rt r x)).length

def ReportedAccepted (trace : List Action) (e : Obj) : Prop :=
  ∃ chunk r, .sent chunk (some r) ∈ trace ∧ e ∈ chunk ∧ rejects rt r e = false ∧
    accountsFor rt chunk r

/-- The row is still there, possibly with another reason. -/
def Kept (dlq : Dict String DeadLetter) (i : String) (row : DeadLetter) : Prop :=
  ∃ r, dlq.get? i = some r ∧ SameRow row r

/-- Every row with an envelope is still there, or the envelope was reported accepted. -/
def LosesNothing (dlq : Dict String DeadLetter) (final : DeliveryState) : Prop :=
  ∀ i row e, dlq.get? i = some row → row.payload = .stored e →
    Kept final.dlq i row ∨ ReportedAccepted rt final.trace e

/-- A step after which an unchanged stamp does mean delivery: the destination sends what it
is given, the sender accounts for the whole chunk, and a refused batch is written down. -/
def Action.Sound : Action → Prop
  | .dispatched none _ => True
  | .dispatched (some cfg) batch =>
    crossTenant rt cfg batch = true ∨ cfg.delivery.shadow = false ∧
      (aggregated rt settings cfg batch = true →
        (batch.map (groupKey rt cfg.delivery.groupBy)).Nodup)
  | .sent _ none => True
  | .sent chunk (some r) =>
    r.retryable = true ∨ accountsFor rt chunk r ∧
      ∀ rej ∈ r.rejected, rej.errorKind ≠ dlqKindEmReprocesso
  | .parked errorKind written =>
    written = true ∨ errorKind ≠ "destination_missing" ∧ errorKind ≠ "cross_tenant_destination"

def Refused (trace : List Action) (e : Obj) : Prop :=
  (∃ dest batch, .dispatched dest batch ∈ trace ∧ e ∈ batch ∧
    ∀ cfg, dest = some cfg → crossTenant rt cfg batch = true) ∨
  ∃ chunk r, .sent chunk (some r) ∈ trace ∧ r.retryable = false ∧ e ∈ chunk ∧
    rejects rt r e = true

/-- All steps are sound, and the row's reason can be found again by the event it holds. -/
structure SoundFor (row : DeadLetter) (e : Obj) (trace : List Action) : Prop where
  steps : ∀ a ∈ trace, a.Sound rt settings
  found : envelopeEventId rt e = some row.eventId ∨ ¬ Refused rt trace e

theorem SoundFor.mono {row : DeadLetter} (h : SoundFor rt settings row e trace')
    (hsub : trace ⊆ trace') : SoundFor rt settings row e trace where
  steps a ha := h.steps a (hsub ha)
  found := by
    apply h.found.imp_right
    rintro hno (⟨dest, batch, hmem, hrest⟩ | ⟨chunk, r, hmem, hrest⟩)
    · exact hno (.inl ⟨dest, batch, hsub hmem, hrest⟩)
    · exact hno (.inr ⟨chunk, r, hsub hmem, hrest⟩)

theorem ReportedAccepted.mono (h : ReportedAccepted rt trace e) (hsub : trace ⊆ trace') :
    ReportedAccepted rt trace' e := by
  obtain ⟨chunk, r, hmem, hrest⟩ := h
  exact ⟨chunk, r, hsub hmem, hrest⟩

end Statement

section Stability
variable {rt : Runtime} {settings : Settings} {env : Environment} {destId : String}
  {I J : DeliveryState → Prop}

structure DispatchStable (rt : Runtime) (env : Environment) (I : DeliveryState → Prop) :
    Prop where
  timeless : Timeless I
  log : ∀ s a, I s → I (s.log a)
  rejected : ∀ s destId destOrg rejs chunk, I s →
    I { s with dlq := storeRejected rt env destId destOrg rejs chunk s.dlq }
  batch : ∀ s xs destId errorKind org detail, I s →
    I { s with dlq := storeBatch rt env xs destId errorKind org detail s.dlq }

theorem DispatchStable.send (hI : DispatchStable rt env I) (destOrg : Option Int) :
    SendStable rt env destId destOrg (fun _ => True) I where
  timeless := hI.timeless
  sent s _ _ _ h := hI.log s _ h
  rejected s _ _ _ _ h := hI.rejected s _ _ _ _ h

theorem persistBatchDlq_keeps (hI : DispatchStable rt env I) :
    Proc.Keeps I (persistBatchDlq rt env batch destId errorKind org detail) := by
  apply persistBatchDlq_spec hI.timeless
  · exact fun _ _ h => h
  · exact fun s h => hI.log _ _ (hI.batch s _ _ _ _ _ h)
  · exact fun s h => hI.log s _ h

theorem dispatch_keeps (hI : DispatchStable rt env I) :
    Proc.Keeps I (dispatchBatchToDestination rt settings env destId batch) := by
  apply Proc.Spec.bind (Proc.Spec.post (loadDestinationConfig_spec hI.timeless)
    (fun _ _ h => h.1))
  intro dest
  apply Proc.Keeps.bind (record_keeps (fun s => hI.log s _))
  intro _
  cases dest with
  | none => exact Proc.Keeps.bind (persistBatchDlq_keeps hI) (fun _ => Proc.Keeps.pure ())
  | some cfg =>
    apply Proc.Keeps.ite
    · exact Proc.Keeps.bind (persistBatchDlq_keeps hI) (fun _ => Proc.Keeps.pure ())
    · exact Proc.Spec.post
        (deliver_spec (hI.send cfg.organizationId) (chunkDone_trivial _ _ _)
          (fun _ _ _ => trivial))
        (fun _ _ h => h.1)

theorem repoCall_spec {f : Dict String DeadLetter → Dict String DeadLetter} (hI : Timeless I)
    (h : ∀ s, I s → J { s with dlq := f s.dlq }) :
    Proc.Spec I (repoCall env f) (fun _ => J) I :=
  Proc.Spec.bind (external_keeps hI) (fun _ => Proc.Spec.modify h)

end Stability

section Row
variable {rt : Runtime} {settings : Settings} {env : Environment} {destId : String}
  {i : String} {row : DeadLetter} {e : Obj} {batch : List Obj}

theorem subset_log (s : DeliveryState) (a : Action) : s.trace ⊆ (s.log a).trace :=
  List.subset_append_left _ _

/-- The envelope of a row of the destination was reported accepted, if the run is sound so
far. -/
def Cleared (rt : Runtime) (settings : Settings) (destId : String) (row : DeadLetter) (e : Obj)
    (s : DeliveryState) : Prop :=
  row.destinationId = destId ∧
    (SoundFor rt settings row e s.trace → ReportedAccepted rt s.trace e)

theorem cleared_stable : DispatchStable rt env (Cleared rt settings destId row e) where
  timeless _ _ h := h
  log s a h := ⟨h.1, fun hsound =>
    (h.2 (hsound.mono _ _ (subset_log s a))).mono _ (subset_log s a)⟩
  rejected _ _ _ _ _ h := h
  batch _ _ _ _ _ _ h := h

theorem kept_stable : DispatchStable rt env (fun s => Kept s.dlq i row) where
  timeless _ _ h := h
  log _ _ h := h
  rejected s destId destOrg rejs chunk h := by
    obtain ⟨r, hget, hsame⟩ := h
    obtain ⟨r', hget', hsame', -⟩ := get?_storeRejected rt env destId destOrg rejs chunk hget
    exact ⟨r', hget', hsame.trans hsame'⟩
  batch s xs destId errorKind org detail h := by
    obtain ⟨r, hget, hsame⟩ := h
    obtain ⟨r', hget', hsame', -⟩ := get?_storeBatch rt env xs destId errorKind org detail hget
    exact ⟨r', hget', hsame.trans hsame'⟩

def Rewritten (i : String) (s : DeliveryState) : Prop :=
  ∃ row, s.dlq.get? i = some row ∧ ∃ chunk r rej, .sent chunk (some r) ∈ s.trace ∧
    r.retryable = false ∧ rej ∈ r.rejected ∧ row.errorKind = rej.errorKind

/-- The chunk has a final result, and if it rejects the row's event the row says so. -/
def Settled (i : String) (row : DeadLetter) (destId : String) (chunk : List Obj)
    (s : DeliveryState) : Prop :=
  ∃ r, .sent chunk (some r) ∈ s.trace ∧ r.retryable = false ∧
    (row.destinationId = destId → (∃ rej ∈ r.rejected, rej.eventId = row.eventId) →
      Rewritten i s)

theorem rewritten_stable (destOrg : Option Int) :
    SendStable rt env destId destOrg (fun _ => True) (Rewritten i) where
  timeless _ _ h := h
  sent s chunk a _ h := by
    obtain ⟨row, hget, chunk', r, rej, hsent, hrest⟩ := h
    exact ⟨row, hget, chunk', r, rej, subset_log s _ hsent, hrest⟩
  rejected s chunk r hsent hretry h := by
    obtain ⟨row, hget, chunk', r', rej', hsent', hretry', hrej', hkind'⟩ := h
    obtain ⟨row', hget', -, hkind, -⟩ :=
      get?_storeRejected rt env destId destOrg r.rejected chunk hget
    rcases hkind with hkind | ⟨rej, hrej, hkind⟩
    · exact ⟨row', hget', chunk', r', rej', hsent', hretry', hrej', hkind.trans hkind'⟩
    · exact ⟨row', hget', chunk, r, rej, hsent, hretry, hrej, hkind⟩

theorem settled_done (destOrg : Option Int) :
    ChunkDone rt env destId destOrg (fun _ => True) (fun s => Kept s.dlq i row)
      (Settled i row destId) where
  stable chunk := by
    have hstable : SendStable rt env destId destOrg (fun _ => True) (Rewritten i) :=
      rewritten_stable destOrg
    constructor
    · exact fun _ _ h => h
    · rintro s chunk' a hP ⟨r, hsent, hretry, hrew⟩
      exact ⟨r, subset_log s _ hsent, hretry,
        fun hdest hrej => hstable.sent s chunk' a hP (hrew hdest hrej)⟩
    · rintro s chunk' r' hsent' hretry' ⟨r, hsent, hretry, hrew⟩
      exact ⟨r, hsent, hretry,
        fun hdest hrej => hstable.rejected s chunk' r' hsent' hretry' (hrew hdest hrej)⟩
  clean chunk r s hsent hretry hnone := by
    refine ⟨r, hsent, hretry, ?_⟩
    rintro _ ⟨rej, hrej, _⟩
    rw [hnone] at hrej
    cases hrej
  stored chunk r s hsent hretry h := by
    obtain ⟨row', hget, hsame⟩ := h
    obtain ⟨row'', hget', -, -, hhit⟩ :=
      get?_storeRejected rt env destId destOrg r.rejected chunk hget
    refine ⟨r, hsent, hretry, ?_⟩
    intro hdest hrej
    rw [← hsame.eventId] at hrej
    obtain ⟨rej, hmem, hkind⟩ := hhit (hsame.destinationId.trans hdest) hrej
    exact ⟨row'', hget', chunk, r, rej, hsent, hretry, hmem, hkind⟩

/-- The stamp is gone from the row, or the envelope was reported accepted, if the run is sound
so far. -/
def Resolved (rt : Runtime) (settings : Settings) (i : String) (row : DeadLetter) (e : Obj)
    (s : DeliveryState) : Prop :=
  SoundFor rt settings row e s.trace →
    (∃ r, s.dlq.get? i = some r ∧ r.errorKind ≠ dlqKindEmReprocesso) ∨
      ReportedAccepted rt s.trace e

theorem resolved_of_settled (hchunk : e ∈ chunk) (hdest : row.destinationId = destId)
    (h : Settled i row destId chunk s) : Resolved rt settings i row e s := by
  intro hsound
  obtain ⟨r, hsent, hretry, hrew⟩ := h
  have hacc : accountsFor rt chunk r := by
    rcases hsound.steps _ hsent with hr | hr
    · rw [hretry] at hr
      cases hr
    · exact hr.1
  by_cases hrej : rejects rt r e = true
  · rcases hsound.found with hid | hno
    · unfold rejects at hrej
      rw [hid] at hrej
      obtain ⟨rej, hmem, heq⟩ := List.any_eq_true.1 hrej
      obtain ⟨row', hget, chunk', r', rej', hsent', hretry', hmem', hkind⟩ :=
        hrew hdest ⟨rej, hmem, by simpa using heq⟩
      rcases hsound.steps _ hsent' with hr | hr
      · rw [hretry'] at hr
        cases hr
      · exact .inl ⟨row', hget, hkind ▸ hr.2 rej' hmem'⟩
    · exact absurd (.inr ⟨chunk, r, hsent, hretry, hchunk, hrej⟩) hno
  · exact .inr ⟨chunk, r, hsent, hchunk, by simpa using hrej, hacc⟩

/-- A batch that is turned away whole. -/
theorem park_resolves {dest : Option DestinationConfig} {errorKind : String}
    (hturned : ∀ cfg, dest = some cfg → crossTenant rt cfg batch = true)
    (hkind : errorKind = "destination_missing" ∨ errorKind = "cross_tenant_destination")
    (org : Option Int) (detail : Option String) :
    Proc.Spec (fun s => Kept s.dlq i row ∧ .dispatched dest batch ∈ s.trace)
      (persistBatchDlq rt env batch destId errorKind org detail)
      (fun _ s => Kept s.dlq i row ∧
        (row.destinationId = destId → e ∈ batch → Resolved rt settings i row e s))
      (fun s => Kept s.dlq i row) := by
  have hstable : DispatchStable rt env (fun s => Kept s.dlq i row) := kept_stable
  apply Proc.Spec.exit (persistBatchDlq_spec (Q := fun _ s => Kept s.dlq i row ∧
    (row.destinationId = destId → e ∈ batch → Resolved rt settings i row e s)) _ _ _ _)
    (fun _ h => h.1)
  · exact fun s n h => ⟨hstable.timeless s n h.1, h.2⟩
  · rintro rfl s h
    exact ⟨h.1, fun _ he => by cases he⟩
  · intro s h
    refine ⟨hstable.log _ _ (hstable.batch s batch destId errorKind org detail h.1), ?_⟩
    intro hdest he hsound
    rcases hsound.found with hid | hno
    · obtain ⟨r, hget, hsame⟩ := h.1
      obtain ⟨r', hget', -, hhit⟩ := get?_storeBatch rt env batch destId errorKind org detail hget
      have hk := hhit (hsame.destinationId.trans hdest) ⟨e, he, by rw [hid, hsame.eventId]⟩
      refine .inl ⟨r', hget', ?_⟩
      rw [hk]
      rcases hkind with rfl | rfl
      · decide
      · decide
    · exact absurd (.inl ⟨dest, batch, subset_log _ _ h.2, he, hturned⟩) hno
  · intro s h
    refine ⟨hstable.log _ _ h.1, ?_⟩
    intro _ _ hsound
    rcases hsound.steps (.parked errorKind false) (List.mem_append_right _ (by simp)) with hw | hw
    · cases hw
    · rcases hkind with rfl | rfl
      · exact absurd rfl hw.1
      · exact absurd rfl hw.2

theorem deliver_resolves {cfg : DestinationConfig} (hguard : crossTenant rt cfg batch = false) :
    Proc.Spec (fun s => Kept s.dlq i row ∧ .dispatched (some cfg) batch ∈ s.trace)
      (deliver rt settings env destId cfg batch)
      (fun _ s => Kept s.dlq i row ∧
        (row.destinationId = destId → e ∈ batch → Resolved rt settings i row e s))
      (fun s => Kept s.dlq i row) := by
  have hkept : DispatchStable rt env (fun s => Kept s.dlq i row) := kept_stable
  have hmem : SendStable rt env destId cfg.organizationId (fun _ => True)
      (fun s => .dispatched (some cfg) batch ∈ s.trace) :=
    ⟨fun _ _ h => h, fun s _ _ _ h => subset_log s _ h, fun _ _ _ _ _ h => h⟩
  have hdone : ChunkDone rt env destId cfg.organizationId (fun _ => True)
      (fun s => Kept s.dlq i row ∧ .dispatched (some cfg) batch ∈ s.trace)
      (Settled i row destId) := by
    have h : ChunkDone rt env destId cfg.organizationId (fun _ => True)
        (fun s => Kept s.dlq i row) (Settled i row destId) := settled_done _
    exact ⟨h.stable, h.clean, fun chunk r s hs hr hI => h.stored chunk r s hs hr hI.1⟩
  apply Proc.Spec.weaken (deliver_spec ((hkept.send _).and hmem) hdone (fun _ _ _ => trivial))
    (fun _ h => h) _ (fun _ h => h.1)
  rintro _ s ⟨⟨hk, hdisp⟩, hchunks⟩
  refine ⟨hk, ?_⟩
  intro hdest he hsound
  rcases hsound.steps _ hdisp with hcross | ⟨hshadow, hnodup⟩
  · rw [hguard] at hcross
    cases hcross
  · have hout : e ∈ outgoing rt settings cfg batch := by
      rw [outgoing_of_nodup rt settings cfg batch hnodup]
      exact he
    obtain ⟨chunk, hchunk, hin⟩ := (mem_chunksFor rt settings cfg batch).2 hout
    exact resolved_of_settled hin hdest (hchunks hshadow chunk hchunk) hsound

/-- A dispatch that returns has either rewritten the row's reason or delivered its event. -/
theorem dispatch_resolves :
    Proc.Spec (fun s => Kept s.dlq i row)
      (dispatchBatchToDestination rt settings env destId batch)
      (fun _ s => Kept s.dlq i row ∧
        (row.destinationId = destId → e ∈ batch → Resolved rt settings i row e s))
      (fun s => Kept s.dlq i row) := by
  have hkept : DispatchStable rt env (fun s => Kept s.dlq i row) := kept_stable
  apply Proc.Spec.bind (Proc.Spec.post (loadDestinationConfig_spec hkept.timeless)
    (fun _ _ h => h.1))
  intro dest
  apply Proc.Spec.bind (Q := fun _ s => Kept s.dlq i row ∧ .dispatched dest batch ∈ s.trace)
  · exact Proc.Spec.modify (fun s h => ⟨hkept.log s _ h, List.mem_append_right _ (by simp)⟩)
  · intro _
    cases dest with
    | none =>
      apply Proc.Spec.bind (park_resolves (fun _ h => by cases h) (.inl rfl) _ _)
      intro _
      exact Proc.Spec.pure (fun _ h => h)
    | some cfg =>
      apply Proc.Spec.ite
      · intro hcross
        have hturned : ∀ c, some cfg = some c → crossTenant rt c batch = true := by
          intro c hc
          cases hc
          exact hcross
        apply Proc.Spec.bind (park_resolves hturned (.inr rfl) _ _)
        intro _
        exact Proc.Spec.pure (fun _ h => h)
      · intro hguard
        exact deliver_resolves (by simpa using hguard)

end Row

section Run
variable {rt : Runtime} {settings : Settings} {env : Environment} {req : DrainRequest}
  {destId i : String} {row : DeadLetter} {e : Obj} {dlq : Dict String DeadLetter}

def Safe (rt : Runtime) (settings : Settings) (destId i : String) (row : DeadLetter) (e : Obj)
    (s : DeliveryState) : Prop :=
  Kept s.dlq i row ∨ Cleared rt settings destId row e s

theorem safe_stable : DispatchStable rt env (Safe rt settings destId i row e) := by
  have hk : DispatchStable rt env (fun s => Kept s.dlq i row) := kept_stable
  have hc : DispatchStable rt env (Cleared rt settings destId row e) := cleared_stable
  constructor
  · exact fun s n h => h.imp (hk.timeless s n) (hc.timeless s n)
  · exact fun s a h => h.imp (hk.log s a) (hc.log s a)
  · exact fun s d o x c h => h.imp (hk.rejected s d o x c) (hc.rejected s d o x c)
  · exact fun s x d k o t h => h.imp (hk.batch s x d k o t) (hc.batch s x d k o t)

theorem Kept.mapEntries {f : String → DeadLetter → DeadLetter} (h : Kept dlq i row)
    (hf : ∀ r, SameRow r (f i r)) : Kept (dlq.mapEntries f) i row := by
  obtain ⟨r, hget, hsame⟩ := h
  exact ⟨f i r, by rw [Dict.get?_mapEntries, hget]; rfl, hsame.trans (hf r)⟩

theorem Kept.delete {ids : List String} (h : Kept dlq i row) (hi : i ∉ ids) :
    Kept (deleteDlqEntries ids dlq) i row := by
  obtain ⟨r, hget, hsame⟩ := h
  exact ⟨r, by simp [deleteDlqEntries, hi, hget], hsame⟩

theorem Kept.marcar (h : Kept dlq i row) (ids : List String) :
    Kept (marcarDlqEmReprocesso ids dlq) i row := by
  apply h.mapEntries
  intro r
  split
  · exact ⟨rfl, rfl, rfl, rfl⟩
  · exact .refl r

theorem Kept.update (h : Kept dlq i row) (id errorKind errorDetail : String) :
    Kept (updateDlqError id errorKind errorDetail dlq) i row := by
  apply h.mapEntries
  intro r
  split
  · exact ⟨rfl, rfl, rfl, rfl⟩
  · exact .refl r

theorem decodeRows_spec (hpay : row.payload = .stored e) (rows : List (String × DeadLetter))
    (hrows : ∀ p ∈ rows, p.1 = i → p.2 = row) (report : DrainReport) :
    Proc.Spec (fun s => Kept s.dlq i row) (decodeRows env rows report)
      (fun out s => Kept s.dlq i row ∧
        ∀ c ∈ out.2, c.dlqId = i → c.envelope = e ∧ (i, row) ∈ rows)
      (fun s => Kept s.dlq i row) := by
  have htime : Timeless (fun s => Kept s.dlq i row) := fun _ _ h => h
  induction rows generalizing report with
  | nil => exact Proc.Spec.pure (fun s h => ⟨h, by simp⟩)
  | cons p rest ih =>
    obtain ⟨id, r⟩ := p
    have hrest := fun report => ih (fun p hp => hrows p (List.mem_cons_of_mem _ hp)) report
    have later : ∀ (out : DrainReport × List Candidate) (s : DeliveryState),
        (Kept s.dlq i row ∧ ∀ c ∈ out.2, c.dlqId = i → c.envelope = e ∧ (i, row) ∈ rest) →
        Kept s.dlq i row ∧ ∀ c ∈ out.2, c.dlqId = i →
          c.envelope = e ∧ (i, row) ∈ (id, r) :: rest := by
      intro out s h
      exact ⟨h.1, fun c hc hi => ⟨(h.2 c hc hi).1, List.mem_cons_of_mem _ (h.2 c hc hi).2⟩⟩
    unfold decodeRows
    cases hp : r.payload with
    | empty =>
      have hne : i ∉ [id] := by
        intro hmem
        have hr := hrows (id, r) (by simp) (List.mem_singleton.1 hmem).symm
        rw [← hr, hp] at hpay
        cases hpay
      apply Proc.Spec.bind
        (repoCall_spec (J := fun s => Kept s.dlq i row) htime (fun s h => h.delete hne))
      intro _
      exact Proc.Spec.post (hrest _) later
    | corrupt =>
      apply Proc.Spec.bind
        (repoCall_spec (J := fun s => Kept s.dlq i row) htime (fun s h => h.update _ _ _))
      intro _
      exact Proc.Spec.post (hrest _) later
    | stored envelope =>
      apply Proc.Spec.bind (hrest report)
      intro out
      apply Proc.Spec.pure
      intro s h
      refine ⟨h.1, ?_⟩
      intro c hc hi
      rcases List.mem_cons.1 hc with rfl | hc
      · have hr : r = row := hrows (id, r) (by simp) hi
        have hid : id = i := hi
        subst hr hid
        rw [hp] at hpay
        cases hpay
        exact ⟨rfl, by simp⟩
      · exact (later out s h).2 c hc hi

def Confirmable (rt : Runtime) (settings : Settings) (destId i : String) (row : DeadLetter)
    (e : Obj) (ids : List String) (s : DeliveryState) : Prop :=
  Kept s.dlq i row ∧ (i ∈ ids → row.destinationId = destId ∧ Resolved rt settings i row e s) ∨
    Cleared rt settings destId row e s

theorem Confirmable.safe (h : Confirmable rt settings destId i row e ids s) :
    Safe rt settings destId i row e s := h.imp_left And.left

theorem Confirmable.delete (h : Confirmable rt settings destId i row e ids s) :
    Safe rt settings destId i row e
      { s with dlq := deleteDlqEntries (entreguesDe ids s.dlq) s.dlq } := by
  rcases h with ⟨hk, hres⟩ | hc
  · by_cases hi : i ∈ entreguesDe ids s.dlq
    · obtain ⟨hin, hstamp⟩ := List.mem_filter.1 hi
      obtain ⟨hdest, hresolved⟩ := hres hin
      refine .inr ⟨hdest, fun hsound => ?_⟩
      rcases hresolved hsound with ⟨r, hget, hne⟩ | hacc
      · exact absurd (by simpa [dlqErrorKind, hget] using hstamp) hne
      · exact hacc
    · exact .inl (hk.delete hi)
  · exact .inr hc

theorem confirmLot_spec (ids : List String) (report : DrainReport) :
    Proc.Spec (Confirmable rt settings destId i row e ids) (confirmLot env ids report)
      (fun _ => Safe rt settings destId i row e) (Safe rt settings destId i row e) := by
  have htime : Timeless (Confirmable rt settings destId i row e ids) := fun _ _ h => h
  apply Proc.Spec.bind (Proc.Spec.exit (external_keeps htime) (fun _ h => h.safe))
  intro _
  apply Proc.Spec.get_bind
  intro s₀ h₀
  have hwait : Timeless (fun s => ∃ n, s = { s₀ with clock := n }) := by
    rintro s n ⟨_, rfl⟩
    exact ⟨n, rfl⟩
  apply Proc.Spec.bind (Q := fun _ => Safe rt settings destId i row e)
  · apply Proc.Spec.pre (P := fun s => ∃ n, s = { s₀ with clock := n }) _
      (fun s hs => ⟨s.clock, by rw [hs]⟩)
    apply Proc.Spec.ite
    · intro _
      apply Proc.Spec.pure
      rintro s ⟨n, rfl⟩
      exact h₀.safe
    · intro _
      apply Proc.Spec.exit (repoCall_spec hwait _)
      · rintro s ⟨n, rfl⟩
        exact h₀.safe
      · rintro s ⟨n, rfl⟩
        exact h₀.delete
  · intro _
    exact Proc.Spec.pure (fun _ h => h)

def AfterDispatch {ε : Type} (rt : Runtime) (settings : Settings) (req : DrainRequest) (i : String)
    (row : DeadLetter) (e : Obj) (envelopes : List Obj) (out : Except ε Unit)
    (s : DeliveryState) : Prop :=
  match out with
  | .ok _ => (Kept s.dlq i row ∧ (row.destinationId = req.destinationId →
      e ∈ envelopes → Resolved rt settings i row e s)) ∨
      Cleared rt settings req.destinationId row e s
  | .error _ => Safe rt settings req.destinationId i row e s

theorem drainLot_keeps (candidatos : List Candidate) (inicio : Nat) (report : DrainReport)
    (hcand : ∀ c ∈ candidatos, c.dlqId = i →
      c.envelope = e ∧ row.destinationId = req.destinationId) :
    Proc.Keeps (Safe rt settings req.destinationId i row e)
      (drainLot rt settings env req candidatos inicio report) := by
  have hsafe : DispatchStable rt env (Safe rt settings req.destinationId i row e) := safe_stable
  have hlote : ∀ c ∈ loteAt candidatos inicio, c ∈ candidatos := fun c hc =>
    List.mem_of_mem_drop (List.mem_of_mem_take hc)
  apply Proc.Spec.bind (repoCall_spec (J := Safe rt settings req.destinationId i row e)
    hsafe.timeless (fun s h => h.imp_left (fun hk => hk.marcar _)))
  intro _
  apply Proc.Spec.bind (Q := AfterDispatch rt settings req i row e
    ((loteAt candidatos inicio).map Candidate.envelope))
  · apply Proc.Spec.attempt
    · exact Proc.Spec.or
        (Proc.Spec.exit dispatch_resolves (fun _ h => .inl h))
        (Proc.Spec.exit (dispatch_keeps cleared_stable) (fun _ h => .inr h))
    · exact fun _ _ h => h
  · intro out
    rcases out with err | _
    · cases err with
      | breakerOpen =>
        exact Proc.Keeps.bind (persistBatchDlq_keeps hsafe) (fun _ => Proc.Keeps.pure _)
      | transient =>
        exact Proc.Keeps.bind (persistBatchDlq_keeps hsafe) (fun _ => Proc.Keeps.pure _)
      | connection =>
        exact Proc.Keeps.bind (persistBatchDlq_keeps hsafe) (fun _ => Proc.Keeps.pure _)
      | other =>
        exact Proc.Keeps.bind (persistBatchDlq_keeps hsafe) (fun _ => Proc.Keeps.pure _)
    · apply Proc.Spec.bind
      · apply Proc.Spec.pre (confirmLot_spec _ report) _
        intro s h
        refine h.imp_left (fun hk => ⟨hk.1, fun hi => ?_⟩)
        obtain ⟨c, hc, hid⟩ := List.mem_map.1 hi
        obtain ⟨henv, hdest⟩ := hcand c (hlote c hc) hid
        exact ⟨hdest, hk.2 hdest (List.mem_map.2 ⟨c, hc, henv⟩)⟩
      · intro _
        exact Proc.Spec.pure (fun _ h => h)

theorem drainLots_keeps (candidatos : List Candidate)
    (hcand : ∀ c ∈ candidatos, c.dlqId = i →
      c.envelope = e ∧ row.destinationId = req.destinationId)
    (inicios : List Nat) (report : DrainReport) :
    Proc.Keeps (Safe rt settings req.destinationId i row e)
      (drainLots rt settings env req candidatos inicios report) := by
  induction inicios generalizing report with
  | nil => exact Proc.Keeps.pure report
  | cons inicio rest ih =>
    apply Proc.Keeps.bind (drainLot_keeps candidatos inicio report hcand)
    intro out
    exact Proc.Keeps.ite (Proc.Keeps.pure _) (ih out.1)

theorem drainCandidates_keeps (candidatos : List Candidate) (report : DrainReport)
    (hcand : ∀ c ∈ candidatos, c.dlqId = i →
      c.envelope = e ∧ row.destinationId = req.destinationId) :
    Proc.Keeps (Safe rt settings req.destinationId i row e)
      (drainCandidates rt settings env req candidatos report) := by
  have hsafe : DispatchStable rt env (Safe rt settings req.destinationId i row e) := safe_stable
  apply Proc.Keeps.bind (drainLots_keeps candidatos hcand _ report)
  intro report
  apply Proc.Keeps.bind
  · exact Proc.Keeps.ite (Proc.Keeps.pure ()) (external_keeps hsafe.timeless)
  · intro _
    exact Proc.Keeps.pure report

theorem listed_row (hget : dlq.get? i = some row) (n : Nat)
    (hp : p ∈ (listDlqForReprocess req dlq).take n) :
    (p.1 = i → p.2 = row) ∧ p.2.destinationId = req.destinationId := by
  obtain ⟨id, r⟩ := p
  obtain ⟨hmem, htest⟩ := List.mem_filter.1 (List.mem_of_mem_take hp)
  simp only [Bool.and_eq_true, decide_eq_true_eq] at htest
  refine ⟨fun hi => ?_, htest.1.1⟩
  obtain rfl : id = i := hi
  have hr := (Dict.mem_entries_iff _).1 hmem
  rw [hget] at hr
  exact (Option.some.inj hr).symm

theorem drain_safe (hget : dlq.get? i = some row) (hpay : row.payload = .stored e) :
    Proc.Spec (fun s => s.dlq = dlq) (drainDestinationDlq rt settings env req)
      (fun _ => Safe rt settings req.destinationId i row e)
      (Safe rt settings req.destinationId i row e) := by
  have hstart : ∀ s : DeliveryState, s.dlq = dlq → Kept s.dlq i row :=
    fun s hs => ⟨row, hs ▸ hget, .refl row⟩
  apply Proc.Spec.bind (Proc.Spec.exit (external_keeps (I := fun s => s.dlq = dlq)
    (fun _ _ h => h)) (fun s h => .inl (hstart s h)))
  intro _
  apply Proc.Spec.get_bind
  intro s₀ h₀
  have hlisted : ∀ p ∈ (listDlqForReprocess req s₀.dlq).take drenoMaxPorExecucao,
      (p.1 = i → p.2 = row) ∧ p.2.destinationId = req.destinationId :=
    fun p hp => listed_row (h₀ ▸ hget) _ hp
  apply Proc.Spec.bind (Proc.Spec.weaken
    (decodeRows_spec hpay _ (fun p hp => (hlisted p hp).1) _)
    (fun s (hs : s = s₀) => hs ▸ hstart s₀ h₀) (fun _ _ h => h) (fun _ h => .inl h))
  intro decoded
  apply Proc.Spec.assume
  intro hcand
  exact Proc.Spec.pre
    (drainCandidates_keeps decoded.2 decoded.1
      (fun c hc hi => ⟨(hcand c hc hi).1, (hlisted _ (hcand c hc hi).2).2⟩))
    (fun _ h => .inl h)

end Run

/-- The run the drain makes from a table of dead letters. -/
def drainRun (rt : Runtime) (settings : Settings) (env : Environment) (req : DrainRequest)
    (dlq : Dict String DeadLetter) : DeliveryState :=
  (drainDestinationDlq rt settings env req { dlq := dlq }).state

/-- In a run whose steps are sound for every row, nothing is lost, however the run ends. -/
theorem drain_loses_nothing (rt : Runtime) (settings : Settings) (env : Environment)
    (req : DrainRequest) (dlq : Dict String DeadLetter)
    (hsound : ∀ i row e, dlq.get? i = some row → row.payload = .stored e →
      row.destinationId = req.destinationId →
      SoundFor rt settings row e (drainRun rt settings env req dlq).trace) :
    LosesNothing rt dlq (drainRun rt settings env req dlq) := by
  intro i row e hget hpay
  have hsafe : Safe rt settings req.destinationId i row e (drainRun rt settings env req dlq) :=
    Proc.Spec.state (drain_safe hget hpay) (fun _ _ h => h) rfl
  rcases hsafe with hk | hc
  · exact .inl hk
  · exact .inr (hc.2 (hsound i row e hget hpay hc.1))

def storedEvent (eventId : String) : Obj :=
  [("_centralops", .obj [("event_id", .str eventId), ("organization_id", .int 1)])]

def storedRow (eventId : String) : DeadLetter where
  destinationId := "siem"
  eventId := eventId
  organizationId := some 1
  errorKind := "breaker_open"
  errorDetail := ""
  payload := .stored (storedEvent eventId)

def twoRows : Dict String DeadLetter :=
  ⟨[("1", storedRow "a"), ("2", storedRow "b")], by decide⟩

/-- The sender takes the first event and rejects the second. -/
def halfAccepting : Environment :=
  { Environment.calm (some { organizationId := some 1 }) with
    send := fun _ _ => .result
      { accepted := 1, rejected := [{ eventId := "b", errorKind := "schema" }] } }

theorem halfAccepting_trace :
    (drainRun .ascii {} halfAccepting { destinationId := "siem" } twoRows).trace =
      [.dispatched (some { organizationId := some 1 }) [storedEvent "a", storedEvent "b"],
        .sent [storedEvent "a", storedEvent "b"]
          (some { accepted := 1, rejected := [{ eventId := "b", errorKind := "schema" }] })] := by
  decide +kernel

theorem halfAccepting_sound (hget : twoRows.get? i = some row) (hpay : row.payload = .stored e) :
    SoundFor .ascii {} row e
      (drainRun .ascii {} halfAccepting { destinationId := "siem" } twoRows).trace := by
  rw [halfAccepting_trace]
  constructor
  · intro a ha
    simp only [List.mem_cons, List.not_mem_nil, or_false] at ha
    rcases ha with rfl | rfl
    · exact .inr ⟨rfl, fun h => by simp [aggregated, aggregates] at h⟩
    · exact .inr ⟨by unfold accountsFor; decide +kernel, by simp [dlqKindEmReprocesso]⟩
  · left
    have hmem := (Dict.mem_entries_iff _).2 hget
    simp only [twoRows, List.mem_cons, List.not_mem_nil, or_false, Prod.mk.injEq] at hmem
    rcases hmem with ⟨-, rfl⟩ | ⟨-, rfl⟩
    · cases hpay
      decide +kernel
    · cases hpay
      decide +kernel

theorem drain_loses_nothing_half_accepted :
    LosesNothing .ascii twoRows
      (drainRun .ascii {} halfAccepting { destinationId := "siem" } twoRows) :=
  drain_loses_nothing .ascii {} halfAccepting { destinationId := "siem" } twoRows
    (fun _ _ _ hget hpay _ => halfAccepting_sound hget hpay)

/-- A drain of a destination in shadow mode deletes rows that were never sent. -/
theorem shadow_drain_loses_rows :
    ¬ LosesNothing .ascii twoRows (drainRun .ascii {}
      (.calm (some { organizationId := some 1, delivery := { shadow := true } }))
      { destinationId := "siem" } twoRows) := by
  intro h
  have hgone : (drainRun .ascii {}
      (.calm (some { organizationId := some 1, delivery := { shadow := true } }))
      { destinationId := "siem" } twoRows).dlq.keys = ∅ := by
    decide +kernel
  have htrace : (drainRun .ascii {}
      (.calm (some { organizationId := some 1, delivery := { shadow := true } }))
      { destinationId := "siem" } twoRows).trace =
      [.dispatched (some { organizationId := some 1, delivery := { shadow := true } })
        [storedEvent "a", storedEvent "b"]] := by
    decide +kernel
  rcases h "1" (storedRow "a") (storedEvent "a") rfl rfl with ⟨r, hget, -⟩ | ⟨chunk, r, hsent, -⟩
  · have hkey := (Dict.mem_keys _).2 (Option.ne_none_iff_exists'.2 ⟨r, hget⟩)
    rw [hgone] at hkey
    cases hkey
  · rw [htrace] at hsent
    simp at hsent

end CentralOps
