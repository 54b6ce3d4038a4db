import CentralOps.Collection.Claims
import CentralOps.Json

namespace CentralOps
set_option autoImplicit true

open Proc

/-- A cursor text, by what `json.loads` makes of it. -/
inductive CursorText where
  /-- No text, or an empty one. -/
  | absent
  | corrupt
  | value (v : Json)
  deriving DecidableEq

/-- A row of `collection_state`. -/
structure CollectionState where
  cursor : CursorText
  lastAttemptAt : Nat
  lastSuccessAt : Option Nat
  lastError : Option String
  consecutiveFailures : Nat
  eventsCollectedTotal : Nat
  watermarkAt : Option Nat
  lastRunCapped : Bool
  updatedAt : Option Nat
  deriving DecidableEq

/-- What a cycle writes with its cursor. -/
structure Checkpoint where
  eventsCollected : Nat
  error : Option String := none
  watermarkAt : Option Nat := none
  lastRunCapped : Bool := false

/-- `bool(error)`. -/
def Checkpoint.failed (k : Checkpoint) : Bool := decide (k.error ≠ none ∧ k.error ≠ some "")

/-- `CollectionStateRepository.upsert`. -/
def upsert (now : Nat) (cursor : CursorText) (k : Checkpoint) :
    Option CollectionState → CollectionState
  | none =>
    { cursor := cursor, lastAttemptAt := now
      lastSuccessAt := if k.failed then none else some now
      lastError := k.error
      consecutiveFailures := if k.failed then 1 else 0
      eventsCollectedTotal := k.eventsCollected, watermarkAt := k.watermarkAt
      lastRunCapped := k.lastRunCapped, updatedAt := none }
  | some row =>
    { cursor := cursor, lastAttemptAt := now
      lastSuccessAt := if k.failed then row.lastSuccessAt else some now
      lastError := if k.failed then k.error else none
      consecutiveFailures := if k.failed then row.consecutiveFailures + 1 else 0
      eventsCollectedTotal := row.eventsCollectedTotal + k.eventsCollected
      watermarkAt := k.watermarkAt.or row.watermarkAt
      lastRunCapped := if k.error = none then k.lastRunCapped else row.lastRunCapped
      updatedAt := some now }

/-- The two levels of the cursor of an integration's stream. -/
structure CursorStore where
  hot : CursorText
  cold : Option CollectionState
  deriving DecidableEq

namespace CursorStore

/-- `CursorStore.load`, with Python's `None` for no cursor. -/
def load (st : CursorStore) : Json :=
  match st.hot with
  | .value v => v
  | .absent | .corrupt =>
    match st.cold.map CollectionState.cursor with
    | some (.value v) => v
    | _ => .null

def setHot (st : CursorStore) (v : Json) : CursorStore := { st with hot := .value v }

def setCold (st : CursorStore) (now : Nat) (v : Json) (k : Checkpoint) : CursorStore :=
  { st with cold := some (upsert now (.value v) k st.cold) }

/-- `CursorStore.save` with both levels available. -/
def save (st : CursorStore) (now : Nat) (v : Json) (k : Checkpoint) : CursorStore :=
  (st.setHot v).setCold now v k

end CursorStore

/-- `v or {}`. -/
def Json.orEmpty (v : Json) : Json := if v.truthy then v else .obj []

/-- What a cycle reads of its settings and of the configuration of its stream. -/
structure CycleConfig where
  mapped : Bool
  ocsfEnabled : Bool
  /-- Whether a route of the organisation suppresses. -/
  suppresses : Bool
  batchSize : Nat
  /-- `QUARANTINE_MAX_PER_KIND_PER_RUN` and `OCSF_QUARANTINE_MAX_PER_RUN`. -/
  cap : ErrorKind → Nat

/-- The way of a claimed event through `_run_collection_once`. -/
def cycleVerdict (c : CycleConfig) (e : RawEvent ι) : Verdict :=
  match e.sampled with
  | some r => .raises r
  | none =>
    if c.mapped = false then .quarantines .missingMapping
    else
      match e.applied with
      | .requiredField | .mappingError => .quarantines .map
      | .raises r => .raises r
      | .done =>
        match e.built with
        | some r => .raises r
        | none =>
          match if c.ocsfEnabled then e.conformance else .passes with
          | .raises r => .raises r
          | .quarantines => .quarantines .validate
          | .drops => .drops
          | .passes =>
            if e.hasCustomer then
              match if c.suppresses then e.suppressed else .no with
              | .raises r => .raises r
              | .yes => .drops
              | .no => .passes
            else .quarantines .missingCustomerId

structure CycleState (ι : Type) extends Claims ι where
  /-- `unsettled_claims`. -/
  unsettled : List ι := []
  /-- The quarantine writes of the cycle, with the first refusal of a kind counted too. -/
  writes : ErrorKind → Nat := fun _ => 0
  store : CursorStore
  /-- `cursor_before`. -/
  before : Json := .null

variable {ι : Type}

namespace CycleState

def claim (s : CycleState ι) (e : RawEvent ι) : CycleState ι :=
  { s with toClaims := s.toClaims.claim e, unsettled := e.id :: s.unsettled }

def stop (s : CycleState ι) (i : ι) : CycleState ι := { s with toClaims := s.toClaims.stop i }

def push (s : CycleState ι) (i : ι) : CycleState ι := { s with toClaims := s.toClaims.push i }

def dispatch (s : CycleState ι) : CycleState ι := { s with toClaims := s.toClaims.dispatch }

/-- `unsettled_claims.difference_update(batch_msg_ids)`, and the new batch. -/
def settle [DecidableEq ι] (s : CycleState ι) : CycleState ι :=
  { s with
    toClaims := { s.toClaims with batch := [] }
    unsettled := s.unsettled.filter (fun i => decide (i ∉ s.batch)) }

/-- `release_many` of the unsettled claims. -/
def release [DecidableEq ι] (s : CycleState ι) : CycleState ι :=
  { s with toClaims := { s.toClaims with held := s.held.filter (fun i => decide (i ∉ s.unsettled)) } }

end CycleState

/-- `_quarantine_budget_ok`. -/
def budgetOk (c : CycleConfig) (kind : ErrorKind) : Proc (CycleState ι) Fault Bool := do
  let s ← Proc.get
  let n := s.writes kind
  if c.cap kind ≤ n then
    Proc.modify (fun s =>
      { s with writes := if n = c.cap kind then Function.update s.writes kind (n + 1) else s.writes })
    pure false
  else
    Proc.modify (fun s => { s with writes := Function.update s.writes kind (n + 1) })
    pure true

/-- `_enqueue_dispatch` with the enrichment before it, the counters after it, and the
settlement. -/
def cycleFlush [DecidableEq ι] (enqueue settle : Option Raised) :
    Proc (CycleState ι) Fault Unit := do
  fallible .handOff enqueue
  Proc.modify CycleState.dispatch
  fallible .settling settle
  Proc.modify CycleState.settle

def quarantineEvent (c : CycleConfig) (kind : ErrorKind) (e : RawEvent ι) :
    Proc (CycleState ι) Fault Unit := do
  let ok ← budgetOk c kind
  if ok then fallible .handling e.quarantine else pure ()

/-- The body of the loop of `_run_collection_once`. -/
def cycleEvent [DecidableEq ι] (c : CycleConfig) (e : RawEvent ι) :
    Proc (CycleState ι) Fault Unit := do
  fallible .fetching e.fetch
  let s ← Proc.get
  if s.takes e then
    Proc.modify (·.claim e)
    match cycleVerdict c e with
    | .raises r => Proc.raise ⟨.handling, r⟩
    | .passes =>
      Proc.modify (·.push e.id)
      let s ← Proc.get
      if c.batchSize ≤ s.batch.length ∨ e.timeUp then cycleFlush e.enqueue e.settle
      else pure ()
    | .quarantines kind =>
      quarantineEvent c kind e
      Proc.modify (·.stop e.id)
    | .drops => Proc.modify (·.stop e.id)
  else fallible .fetching e.duplicate

/-- What the calls of a cycle do. -/
structure CycleRun (ι : Type) where
  now : Nat := 0
  /-- Up to the lookup of the collector. -/
  setup : Option Raised := none
  /-- Whether the integration is collected from and its collector registered. -/
  active : Bool := true
  /-- The token, the configuration, the mapping and `CursorStore.load`. -/
  loading : Option Raised := none
  session : Option Raised := none
  events : List (RawEvent ι)
  vendor : Option Raised := none
  enqueue : Option Raised := none
  settle : Option Raised := none
  /-- What `json` makes of the cursor that the collector leaves. -/
  cursor : Json := .obj []
  watermarkAt : Option Nat := none
  capped : Bool := false
  /-- The hot and the cold write of the final `CursorStore.save`. -/
  hot : Option Raised := none
  cold : Option Raised := none
  closing : Option Raised := none
  /-- `str(exc)[:1000]`. -/
  error : String := ""
  aclose : Option Raised := none

/-- The hot write of `CursorStore.save`: an exception of Redis is only logged. -/
def saveHot (r : CycleRun ι) : Proc (CycleState ι) Fault Unit :=
  match r.hot with
  | none => Proc.modify (fun s => { s with store := s.store.setHot r.cursor })
  | some .exception => pure ()
  | some .interrupt => Proc.raise ⟨.closing, .interrupt⟩

/-- `CursorStore.save` at the end of a cycle. -/
def saveCursor (r : CycleRun ι) (collected : Nat) : Proc (CycleState ι) Fault Unit := do
  saveHot r
  fallible .closing r.cold
  let k : Checkpoint :=
    { eventsCollected := collected, watermarkAt := r.watermarkAt, lastRunCapped := r.capped }
  Proc.modify (fun s => { s with store := s.store.setCold r.now r.cursor k })

/-- `if batch:`. -/
def ifCycleBatch (flush : Proc (CycleState ι) Fault Unit) : Proc (CycleState ι) Fault Unit := do
  let s ← Proc.get
  if s.batch ≠ [] then flush else pure ()

/-- The part of `_run_collection_once` inside the `try`. -/
def cycleBody [DecidableEq ι] (c : CycleConfig) (r : CycleRun ι) :
    Proc (CycleState ι) Fault Unit := do
  fallible .setup r.setup
  if r.active then
    fallible .setup r.loading
    Proc.modify (fun s => { s with before := s.store.load })
    fallible .fetching r.session
    let _ ← Proc.each (cycleEvent c) r.events
    fallible .fetching r.vendor
    ifCycleBatch (cycleFlush r.enqueue r.settle)
    let s ← Proc.get
    saveCursor r (s.dispatched.length)
    fallible .closing r.closing
  else pure ()

/-- `except Exception`: the cursor the cycle began with is written back. -/
def saveBefore (r : CycleRun ι) (s : CycleState ι) : CycleState ι :=
  let k : Checkpoint := { eventsCollected := 0, error := some r.error }
  { s with store := s.store.save r.now s.before.orEmpty k }

/-- `_run_collection_once`. -/
def runCollectionOnce [DecidableEq ι] (c : CycleConfig) (r : CycleRun ι) :
    Proc (CycleState ι) Fault Unit := do
  let outcome ← Proc.attempt (cycleBody c r)
  match outcome with
  | .ok () =>
    Proc.modify CycleState.release
    fallible .closing r.aclose
  | .error f =>
    Proc.modify (fun s => if f.raised = .exception then saveBefore r s else s)
    Proc.modify CycleState.release
    Proc.raise ⟨f.place, r.aclose.getD f.raised⟩

/-- The events that a run claims, in order: each the first with its id that no other run holds. -/
def takeFresh [DecidableEq ι] (taken : List (RawEvent ι)) (e : RawEvent ι) : List (RawEvent ι) :=
  if e.fresh ∧ e.id ∉ taken.map RawEvent.id then taken ++ [e] else taken

/-- Each released claim is of an event that was not handed over, and each that stands of one
that was. -/
def CycleState.Exact (s : CycleState ι) : Prop := ∀ e ∈ s.claimed, e.id ∈ s.held ↔ e.id ∈ s.dispatched

structure CycleState.Tracked (c : CycleConfig) (s : CycleState ι) (hand : List ι) : Prop where
  claims : s.toClaims.Tracked hand
  /-- `unsettled_claims` holds what was claimed and not handed over. -/
  unsettled : ∀ i, i ∈ s.unsettled ↔ i ∈ hand ++ (s.stopped ++ s.batch)
  clean : s.stopped = [] ↔ ∀ e ∈ s.claimed, e.id ∉ hand → cycleVerdict c e = .passes

namespace CycleState.Tracked

variable {c : CycleConfig} {s : CycleState ι} {hand : List ι}

theorem start (store : CursorStore) : ({ store := store } : CycleState ι).Tracked c [] where
  claims := .start
  unsettled := fun i => by simp
  clean := ⟨fun _ e he => absurd he List.not_mem_nil, fun _ => rfl⟩

theorem of_eq {s' : CycleState ι} (h : s.Tracked c hand) (hc : s'.toClaims = s.toClaims)
    (hu : s'.unsettled = s.unsettled) : s'.Tracked c hand where
  claims := hc ▸ h.claims
  unsettled := by rw [hu, hc]; exact h.unsettled
  clean := by rw [hc]; exact h.clean

theorem claim [DecidableEq ι] {e : RawEvent ι} (h : s.Tracked c []) (ht : s.takes e = true) :
    (s.claim e).Tracked c [e.id] where
  claims := h.claims.claim ht
  unsettled := fun i => by simp [CycleState.claim, Claims.claim, h.unsettled]
  clean := by
    have hnew : ∀ e' ∈ s.claimed, e'.id ≠ e.id := by
      intro e' he' heq
      simp only [Claims.takes, Bool.and_eq_true, decide_eq_true_eq] at ht
      exact ht.2 (heq ▸ h.claims.kept.mem_iff.mpr (List.mem_map_of_mem he'))
    have hc : s.stopped = [] ↔ ∀ e' ∈ s.claimed, cycleVerdict c e' = .passes := by
      simpa using h.clean
    change s.stopped = [] ↔ ∀ e' ∈ s.claimed ++ [e], e'.id ∉ [e.id] → cycleVerdict c e' = .passes
    rw [hc]
    constructor
    · intro hp e' he' hhand
      rcases List.mem_append.mp he' with hm | hm
      · exact hp e' hm
      · exact absurd (List.mem_singleton.mp hm ▸ List.mem_singleton.mpr rfl) hhand
    · intro hp e' he'
      refine hp e' (List.mem_append_left _ he') fun hm => ?_
      exact hnew e' he' (List.mem_singleton.mp hm)

theorem inHand (h : s.Tracked c [i]) (he : e ∈ s.claimed) (hi : e.id = i)
    (he' : e' ∈ s.claimed) (hi' : e'.id = i) : e' = e := by
  have hnd : (s.claimed.map RawEvent.id).Nodup := h.claims.kept.nodup_iff.mp h.claims.stands
  exact List.inj_on_of_nodup_map hnd he' he (hi'.trans hi.symm)

theorem stop {e : RawEvent ι} (h : s.Tracked c [e.id]) (he : e ∈ s.claimed)
    (hv : cycleVerdict c e ≠ .passes) : (s.stop e.id).Tracked c [] where
  claims := h.claims.stop
  unsettled := h.unsettled
  clean := by
    constructor
    · intro hs
      exact absurd hs (List.cons_ne_nil _ _)
    · intro hp
      exact absurd (hp e he List.not_mem_nil) hv

theorem push {e : RawEvent ι} (h : s.Tracked c [e.id]) (he : e ∈ s.claimed)
    (hv : cycleVerdict c e = .passes) : (s.push e.id).Tracked c [] where
  claims := h.claims.push
  unsettled := fun i => by
    change i ∈ s.unsettled ↔ i ∈ [] ++ (s.stopped ++ (s.batch ++ [e.id]))
    simp only [h.unsettled, List.mem_append, List.mem_singleton, List.not_mem_nil]
    tauto
  clean := by
    change s.stopped = [] ↔ ∀ e' ∈ s.claimed, e'.id ∉ [] → cycleVerdict c e' = .passes
    rw [h.clean]
    constructor
    · intro hp e' he' _
      by_cases hi : e'.id = e.id
      · rw [h.inHand he rfl he' hi]; exact hv
      · exact hp e' he' (fun hm => hi (List.mem_singleton.mp hm))
    · intro hp e' he' _
      exact hp e' he' List.not_mem_nil

theorem settle [DecidableEq ι] (h : s.Tracked c []) : s.dispatch.settle.Tracked c [] where
  claims := h.claims.flush
  unsettled := fun i => by
    have hd : i ∈ s.stopped → i ∉ s.batch := by
      have hnd := h.claims.placed.nodup_iff.mp h.claims.stands
      simp only [List.nodup_append, List.mem_append, List.nil_append] at hnd
      exact fun hs hb => hnd.2.2 i hs i (.inr hb) rfl
    change i ∈ s.unsettled.filter (fun i => decide (i ∉ s.batch)) ↔ i ∈ [] ++ (s.stopped ++ [])
    simp only [List.mem_filter, h.unsettled, List.mem_append, decide_eq_true_eq, List.not_mem_nil,
      false_or, or_false]
    tauto
  clean := h.clean

theorem mem_release [DecidableEq ι] (h : s.Tracked c hand) :
    i ∈ s.release.held ↔ i ∈ s.dispatched := by
  have hnd := h.claims.placed.nodup_iff.mp h.claims.stands
  simp only [List.nodup_append, List.mem_append] at hnd
  have hplaced := h.claims.placed.mem_iff (a := i)
  simp only [List.mem_append] at hplaced
  simp only [CycleState.release, List.mem_filter, h.unsettled, List.mem_append, decide_eq_true_eq,
    hplaced]
  constructor
  · rintro ⟨hp, hu⟩
    tauto
  · intro hd
    refine ⟨.inr (.inr (.inl hd)), ?_⟩
    rintro (hh | hs | hb)
    · exact hnd.2.2 i hh i (.inr (.inl hd)) rfl
    · exact hnd.2.1.2.2 i hs i (.inl hd) rfl
    · exact hnd.2.1.2.1.2.2 i hd i hb rfl

theorem exact_release [DecidableEq ι] (h : s.Tracked c hand) : s.release.Exact :=
  fun _ _ => h.mem_release

end CycleState.Tracked

def CycleLeft [DecidableEq ι] (f : Fault) (s : CycleState ι) : Prop :=
  s.release.Exact ↔ f.place ≠ .settling

theorem CycleState.Tracked.left [DecidableEq ι] {s : CycleState ι} (h : s.Tracked c hand)
    (hf : f.place ≠ .settling) : CycleLeft f s :=
  ⟨fun _ => hf, fun _ => h.exact_release⟩

theorem CycleState.Tracked.left_settling [DecidableEq ι] {s : CycleState ι} (h : s.Tracked c [])
    (hb : s.batch ≠ []) : CycleLeft ⟨.settling, r⟩ s.dispatch := by
  refine ⟨fun he => ?_, fun hf => absurd rfl hf⟩
  obtain ⟨i, hi⟩ := List.exists_mem_of_ne_nil _ hb
  obtain ⟨⟨e, hc, rfl⟩, hheld, -, -⟩ := h.claims.pending (i := i) hi
  have hmem := (he e hc).mpr (List.mem_append_right _ hi)
  have hun : e.id ∈ s.unsettled := (h.unsettled _).mpr (List.mem_append_right _ (List.mem_append_right _ hi))
  exact absurd hun (of_decide_eq_true (List.mem_filter.mp hmem).2)

/-- A cycle between two events, which has claimed `taken`. -/
def AtEvent (c : CycleConfig) (taken : List (RawEvent ι)) (s : CycleState ι) : Prop :=
  s.Tracked c [] ∧ s.claimed = taken

theorem cycleFlush_ends [DecidableEq ι] (enqueue settle : Option Raised) :
    Ends (fun s : CycleState ι => AtEvent c taken s ∧ s.batch ≠ []) (cycleFlush enqueue settle)
      (fun _ s => AtEvent c taken s ∧ s.batch = []) CycleLeft := by
  refine Ends.bind (fallible_ends _ _ fun r s hs => hs.1.1.left (nofun)) fun _ => ?_
  refine Ends.bind (Q := fun _ s => (∀ r, CycleLeft ⟨.settling, r⟩ s) ∧ AtEvent c taken s.settle)
    (Ends.modify fun s hs => ⟨fun r => hs.1.1.left_settling hs.2, hs.1.1.settle, hs.1.2⟩)
    fun _ => ?_
  refine Ends.bind (fallible_ends _ _ fun r s hs => hs.1 r) fun _ => ?_
  exact Ends.modify fun s hs => ⟨hs.2, rfl⟩

theorem quarantineEvent_ends [DecidableEq ι] (kind : ErrorKind) (e : RawEvent ι) :
    Ends (fun s : CycleState ι => s.Tracked c [i] ∧ s.claimed = taken) (quarantineEvent c kind e)
      (fun _ s => s.Tracked c [i] ∧ s.claimed = taken) CycleLeft := by
  refine Ends.bind (Q := fun _ s => s.Tracked c [i] ∧ s.claimed = taken) ?_ fun ok => ?_
  · refine Ends.get_bind fun s₀ hs₀ => Ends.ite (fun _ => ?_) (fun _ => ?_)
    · exact Ends.bind (Q := fun _ s => s.Tracked c [i] ∧ s.claimed = taken)
        (Ends.modify fun s hs => by subst hs; exact ⟨hs₀.1.of_eq rfl rfl, hs₀.2⟩)
        fun _ => Ends.pure fun s hs => hs
    · exact Ends.bind (Q := fun _ s => s.Tracked c [i] ∧ s.claimed = taken)
        (Ends.modify fun s hs => by subst hs; exact ⟨hs₀.1.of_eq rfl rfl, hs₀.2⟩)
        fun _ => Ends.pure fun s hs => hs
  · refine Ends.ite (fun _ => ?_) (fun _ => Ends.pure fun s hs => hs)
    exact fallible_ends _ _ fun r s hs => hs.1.left (nofun)

theorem cycleEvent_ends [DecidableEq ι] (c : CycleConfig) (e : RawEvent ι) :
    Ends (AtEvent c taken) (cycleEvent c e) (fun _ => AtEvent c (takeFresh taken e))
      CycleLeft := by
  refine Ends.bind (fallible_ends _ _ fun r s hs => hs.1.left (by rintro ⟨⟩)) fun _ => ?_
  refine Ends.get_bind fun s₀ hs₀ => ?_
  have hheld : e.id ∈ s₀.held ↔ e.id ∈ taken.map RawEvent.id :=
    hs₀.2 ▸ hs₀.1.claims.kept.mem_iff
  have htakes : s₀.takes e = true ↔ e.fresh ∧ e.id ∉ taken.map RawEvent.id := by
    rw [← hheld]
    simp [Claims.takes]
  refine Ends.ite (fun ht => ?_) (fun ht => ?_)
  · have hnew : takeFresh taken e = taken ++ [e] := if_pos (htakes.mp ht)
    have hlast : e ∈ taken ++ [e] := List.mem_append_right _ (List.mem_singleton.mpr rfl)
    rw [hnew]
    refine Ends.bind (Q := fun _ s => s.Tracked c [e.id] ∧ s.claimed = taken ++ [e])
      (Ends.modify fun s hs => ?_) fun _ => ?_
    · subst hs
      exact ⟨hs₀.1.claim ht, congrArg (· ++ [e]) hs₀.2⟩
    · have hstop (hv : cycleVerdict c e ≠ .passes) :
          Ends (fun s : CycleState ι => s.Tracked c [e.id] ∧ s.claimed = taken ++ [e])
            (Proc.modify (·.stop e.id)) (fun _ => AtEvent c (taken ++ [e])) CycleLeft :=
        Ends.modify fun s hs => ⟨hs.1.stop (hs.2 ▸ hlast) hv, hs.2⟩
      cases hv : cycleVerdict c e with
      | raises r => exact Ends.raise fun s hs => hs.1.left (by rintro ⟨⟩)
      | quarantines kind =>
        exact Ends.bind (quarantineEvent_ends kind e) fun _ => hstop (by rw [hv]; rintro ⟨⟩)
      | drops => exact hstop (by rw [hv]; rintro ⟨⟩)
      | passes =>
        refine Ends.bind (Q := fun _ s => AtEvent c (taken ++ [e]) s ∧ s.batch ≠ [])
          (Ends.modify fun s hs => ?_) fun _ => ?_
        · exact ⟨⟨hs.1.push (hs.2 ▸ hlast) hv, hs.2⟩, by simp [CycleState.push, Claims.push]⟩
        · refine Ends.get_bind fun s₁ hs₁ => Ends.ite (fun _ => ?_) (fun _ => ?_)
          · exact ((cycleFlush_ends e.enqueue e.settle).pre fun s hs => hs ▸ hs₁).post
              fun _ s hs => hs.1
          · exact Ends.pure fun s hs => by subst hs; exact hs₁.1
  · have hold : takeFresh taken e = taken := if_neg (fun h => ht (htakes.mpr h))
    rw [hold]
    have h := fallible_ends (P := AtEvent c taken) (E := CycleLeft) .fetching e.duplicate
      fun r s hs => hs.1.left (by rintro ⟨⟩)
    exact h.pre fun s hs => by subst hs; exact hs₀

def CycleRun.taken [DecidableEq ι] (r : CycleRun ι) : List (RawEvent ι) :=
  if r.active then r.events.foldl takeFresh [] else []

theorem saveCursor_ends [DecidableEq ι] (r : CycleRun ι) (n : Nat) :
    Ends (fun s : CycleState ι => AtEvent c taken s ∧ s.batch = []) (saveCursor r n)
      (fun _ s => AtEvent c taken s ∧ s.batch = []) CycleLeft := by
  have hkeep (st : CycleState ι → CursorStore) :
      Ends (fun s : CycleState ι => AtEvent c taken s ∧ s.batch = [])
        (Proc.modify fun s => { s with store := st s })
        (fun _ s => AtEvent c taken s ∧ s.batch = []) CycleLeft :=
    Ends.modify fun s hs => ⟨⟨hs.1.1.of_eq rfl rfl, hs.1.2⟩, hs.2⟩
  refine Ends.bind (Q := fun _ s => AtEvent c taken s ∧ s.batch = []) ?_ fun _ => ?_
  · unfold saveHot
    cases r.hot with
    | none => exact hkeep _
    | some raised =>
      cases raised with
      | exception => exact Ends.pure fun s hs => hs
      | interrupt => exact Ends.raise fun s hs => hs.1.1.left (nofun)
  · refine Ends.bind (fallible_ends _ _ fun r s hs => hs.1.1.left (nofun)) fun _ => ?_
    exact hkeep _

theorem cycleBody_ends [DecidableEq ι] (c : CycleConfig) (r : CycleRun ι) (store : CursorStore) :
    Ends (fun s => s = { store := store }) (cycleBody c r)
      (fun _ s => AtEvent c r.taken s ∧ s.batch = []) CycleLeft := by
  have hstart : AtEvent c [] ({ store := store } : CycleState ι) := ⟨.start store, rfl⟩
  refine Ends.pre (P := fun s : CycleState ι => AtEvent c [] s ∧ s.batch = []) ?_
    (fun s hs => by subst hs; exact ⟨hstart, rfl⟩)
  refine Ends.bind (fallible_ends _ _ fun r s hs => hs.1.1.left (nofun)) fun _ =>
    Ends.ite (fun ha => ?_) (fun ha => ?_)
  · have htaken : r.taken = r.events.foldl takeFresh [] := if_pos ha
    rw [htaken]
    refine Ends.bind (fallible_ends _ _ fun r s hs => hs.1.1.left (nofun)) fun _ => ?_
    refine Ends.bind (Q := fun _ => AtEvent c [])
      (Ends.modify fun s hs => ⟨hs.1.1.of_eq rfl rfl, hs.1.2⟩) fun _ => ?_
    refine Ends.bind (fallible_ends _ _ fun r s hs => hs.1.left (nofun)) fun _ => ?_
    have hloop := Ends.each (I := fun done => AtEvent c (done.foldl takeFresh []))
      (E := CycleLeft) (g := cycleEvent c) (l := r.events) fun done e rest _ => by
        rw [List.foldl_append]
        exact cycleEvent_ends c e
    refine Ends.bind hloop fun _ => ?_
    refine Ends.bind (fallible_ends _ _ fun r s hs => hs.1.left (nofun)) fun _ => ?_
    refine Ends.bind (Q := fun _ s => AtEvent c (r.events.foldl takeFresh []) s ∧ s.batch = [])
      ?_ fun _ => ?_
    · refine Ends.get_bind fun s₀ hs₀ => Ends.ite (fun hb => ?_) (fun hb => ?_)
      · exact (cycleFlush_ends r.enqueue r.settle).pre fun s hs => hs ▸ ⟨hs₀, hb⟩
      · exact Ends.pure fun s hs => by subst hs; exact ⟨hs₀, not_not.mp hb⟩
    · refine Ends.get_bind fun s₀ hs₀ => Ends.bind (Q := fun _ s =>
        AtEvent c (r.events.foldl takeFresh []) s ∧ s.batch = []) ?_ fun _ => ?_
      · exact (saveCursor_ends r _).pre fun s hs => by subst hs; exact hs₀
      · exact fallible_ends _ _ fun r s hs => hs.1.1.left (nofun)
  · have htaken : r.taken = [] := if_neg ha
    rw [htaken]
    exact Ends.pure fun s hs => hs

/-- Settling exactly: a cycle that returns keeps every claim it took, and one that raises keeps
exactly those of the events it handed over. -/
def SettlesExactly : Ending (CycleState ι) Fault Unit → Prop
  | .ok _ s => ∀ e ∈ s.claimed, e.id ∈ s.held
  | .raised _ s => s.Exact
  | .crashed _ => False

/-- A cycle that claims only events that pass, or raises outside the settlement. -/
def Settleable [DecidableEq ι] (c : CycleConfig) (r : CycleRun ι) :
    Ending (CycleState ι) Fault Unit → Prop
  | .ok _ _ => ∀ e ∈ r.taken, cycleVerdict c e = .passes
  | .raised f _ => f.place ≠ .settling
  | .crashed _ => True

theorem AtEvent.kept_iff [DecidableEq ι] {s : CycleState ι} (h : AtEvent c taken s)
    (hb : s.batch = []) :
    (∀ e ∈ s.claimed, e.id ∈ s.release.held) ↔ ∀ e ∈ taken, cycleVerdict c e = .passes := by
  have hclean : s.stopped = [] ↔ ∀ e ∈ taken, cycleVerdict c e = .passes := by
    simpa [h.2] using h.1.clean
  rw [← hclean]
  constructor
  · intro hk
    refine List.eq_nil_iff_forall_not_mem.mpr fun i hi => ?_
    have hheld : i ∈ s.held := h.1.claims.placed.mem_iff.mpr (by simp [hi])
    obtain ⟨e, he, rfl⟩ := List.mem_map.mp (h.1.claims.kept.mem_iff.mp hheld)
    have hun : e.id ∈ s.unsettled := (h.1.unsettled _).mpr (by simp [hi])
    exact absurd hun (of_decide_eq_true (List.mem_filter.mp (hk e he)).2)
  · intro hs e he
    have hheld : e.id ∈ s.held := h.1.claims.kept.mem_iff.mpr (List.mem_map_of_mem he)
    refine h.1.mem_release.mpr ?_
    have hp := h.1.claims.placed.mem_iff.mp hheld
    simpa [hs, hb] using hp

theorem runCollectionOnce_ends [DecidableEq ι] (c : CycleConfig) (r : CycleRun ι)
    (store : CursorStore) :
    Ends (fun s => s = { store := store }) (runCollectionOnce c r)
      (fun _ s => (∀ e ∈ s.claimed, e.id ∈ s.held) ↔ ∀ e ∈ r.taken, cycleVerdict c e = .passes)
      (fun f s => s.Exact ↔ f.place ≠ .settling) := by
  refine Ends.bind (Ends.attempt (K := fun o s =>
    match o with
    | .ok _ => AtEvent c r.taken s ∧ s.batch = []
    | .error f => CycleLeft f s) (cycleBody_ends c r store)) fun o => ?_
  cases o with
  | ok a =>
    refine Ends.bind (Q := fun _ s =>
        ((∀ e ∈ s.claimed, e.id ∈ s.held) ↔ ∀ e ∈ r.taken, cycleVerdict c e = .passes) ∧ s.Exact)
      (Ends.modify fun s hs => ⟨hs.1.kept_iff hs.2, hs.1.1.exact_release⟩) fun _ => ?_
    cases r.aclose with
    | none => exact Ends.pure fun s hs => hs.1
    | some raised => exact Ends.raise fun s hs => ⟨fun _ => nofun, fun _ => hs.2⟩
  | error f =>
    refine Ends.bind (Q := fun _ s => CycleLeft f s) (Ends.modify fun s hs => ?_) fun _ => ?_
    · split
      · exact hs
      · exact hs
    · refine Ends.bind (Q := fun _ s => s.Exact ↔ f.place ≠ .settling) ?_ fun _ => ?_
      · exact Ends.modify fun s hs => hs
      · exact Ends.raise fun s hs => hs

/-- A cycle settles its claims exactly if and only if it returns with every event it claimed
handed over, or raises outside the settlement of a batch. -/
theorem claims_settle_iff [DecidableEq ι] (c : CycleConfig) (r : CycleRun ι)
    (store : CursorStore) :
    SettlesExactly (runCollectionOnce c r { store := store }) ↔
      Settleable c r (runCollectionOnce c r { store := store }) := by
  have h := runCollectionOnce_ends c r store { store := store } rfl
  cases hrun : runCollectionOnce c r { store := store } with
  | ok a s => rw [hrun] at h; exact h
  | raised f s => rw [hrun] at h; exact h
  | crashed s => rw [hrun] at h; exact h.elim

/-- A mapped stream without OCSF validation and without suppression. -/
def plainCycle : CycleConfig := ⟨true, false, false, 500, fun _ => 100⟩

/-- A cycle that ends well after one event whose mapping fails: its claim is released. -/
theorem claims_settle_quarantined :
    ¬ SettlesExactly (runCollectionOnce plainCycle
      ({ events := [{ id := 1, applied := .mappingError }] } : CycleRun Nat)
      { store := ⟨.absent, none⟩ }) := by
  intro h
  exact absurd (h { id := 1, applied := .mappingError } (by decide)) (by decide)

/-- The local variable that the cursor was loaded into. -/
def Began (v : Json) (s : CycleState ι) : Prop := s.before = v

/-- What raises after the load leaves the loaded cursor in its variable. -/
def BeganLeft (v : Json) (f : Fault) (s : CycleState ι) : Prop := f.place ≠ .setup ∧ Began v s

theorem cycleFlush_began [DecidableEq ι] (enqueue settle : Option Raised) :
    Ends (Began v) (cycleFlush enqueue settle : Proc (CycleState ι) Fault Unit)
      (fun _ => Began v) (BeganLeft v) := by
  refine Ends.bind (fallible_ends _ _ fun r s hs => ⟨nofun, hs⟩) fun _ => ?_
  refine Ends.bind (Q := fun _ => Began v) (Ends.modify fun s hs => hs) fun _ => ?_
  refine Ends.bind (fallible_ends _ _ fun r s hs => ⟨nofun, hs⟩) fun _ => ?_
  exact Ends.modify fun s hs => hs

theorem quarantineEvent_began (c : CycleConfig) (kind : ErrorKind) (e : RawEvent ι) :
    Ends (Began v) (quarantineEvent c kind e) (fun _ => Began v) (BeganLeft v) := by
  refine Ends.bind (Q := fun _ => Began v) ?_ fun ok => ?_
  · refine Ends.get_bind fun s₀ hs₀ => Ends.ite (fun _ => ?_) (fun _ => ?_)
    · refine Ends.bind (Q := fun _ => Began v) (Ends.modify fun s hs => ?_) fun _ =>
        Ends.pure fun s hs => hs
      subst hs
      exact hs₀
    · refine Ends.bind (Q := fun _ => Began v) (Ends.modify fun s hs => ?_) fun _ =>
        Ends.pure fun s hs => hs
      subst hs
      exact hs₀
  · exact Ends.ite (fun _ => fallible_ends _ _ fun r s hs => ⟨nofun, hs⟩)
      (fun _ => Ends.pure fun s hs => hs)

theorem cycleEvent_began [DecidableEq ι] (c : CycleConfig) (e : RawEvent ι) :
    Ends (Began v) (cycleEvent c e) (fun _ => Began v) (BeganLeft v) := by
  refine Ends.bind (fallible_ends _ _ fun r s hs => ⟨nofun, hs⟩) fun _ => ?_
  refine Ends.get_bind fun s₀ hs₀ => Ends.pre (P := Began v) ?_ (fun s hs => by subst hs; exact hs₀)
  refine Ends.ite (fun _ => ?_) (fun _ => fallible_ends _ _ fun r s hs => ⟨nofun, hs⟩)
  refine Ends.bind (Q := fun _ => Began v) (Ends.modify fun s hs => hs) fun _ => ?_
  cases cycleVerdict c e with
  | raises r => exact Ends.raise fun s hs => ⟨nofun, hs⟩
  | quarantines kind =>
    exact Ends.bind (quarantineEvent_began c kind e) fun _ => Ends.modify fun s hs => hs
  | drops => exact Ends.modify fun s hs => hs
  | passes =>
    refine Ends.bind (Q := fun _ => Began v) (Ends.modify fun s hs => hs) fun _ => ?_
    refine Ends.get_bind fun s₁ hs₁ =>
      Ends.pre (P := Began v) ?_ (fun s hs => by subst hs; exact hs₁)
    exact Ends.ite (fun _ => cycleFlush_began _ _) (fun _ => Ends.pure fun s hs => hs)

theorem saveCursor_began (r : CycleRun ι) (n : Nat) :
    Ends (Began v) (saveCursor r n) (fun _ => Began v) (BeganLeft v) := by
  refine Ends.bind (Q := fun _ => Began v) ?_ fun _ => ?_
  · unfold saveHot
    cases r.hot with
    | none => exact Ends.modify fun s hs => hs
    | some raised =>
      cases raised with
      | exception => exact Ends.pure fun s hs => hs
      | interrupt => exact Ends.raise fun s hs => ⟨nofun, hs⟩
  · refine Ends.bind (fallible_ends _ _ fun r s hs => ⟨nofun, hs⟩) fun _ => ?_
    exact Ends.modify fun s hs => hs

def writtenBack (f : Fault) (stored : Json) : Json := if f.place = .setup then .null else stored

theorem cycleBody_began [DecidableEq ι] (c : CycleConfig) (r : CycleRun ι) (store : CursorStore) :
    Ends (fun s => s = { store := store }) (cycleBody c r) (fun _ _ => True)
      (fun f s => s.before = writtenBack f store.load) := by
  have hlate (m : Proc (CycleState ι) Fault Unit)
      (h : Ends (Began store.load) m (fun _ _ => True) (BeganLeft store.load)) :
      Ends (Began store.load) m (fun _ _ => True)
        (fun f s => s.before = writtenBack f store.load) := by
    intro s hs
    have hm := h s hs
    cases hrun : m s with
    | ok a s' => trivial
    | raised f s' =>
      rw [hrun] at hm
      exact hm.2.trans (if_neg hm.1).symm
    | crashed s' => rw [hrun] at hm; exact hm
  refine Ends.bind (fallible_ends _ _ fun r s hs => by subst hs; rfl) fun _ =>
    Ends.ite (fun _ => ?_) (fun _ => Ends.pure fun _ _ => trivial)
  refine Ends.bind (fallible_ends _ _ fun r s hs => by subst hs; rfl) fun _ => ?_
  refine Ends.bind (Q := fun _ => Began store.load)
    (Ends.modify fun s hs => by subst hs; rfl) fun _ => hlate _ ?_
  refine Ends.bind (fallible_ends _ _ fun r s hs => ⟨nofun, hs⟩) fun _ => ?_
  refine Ends.bind (Ends.each (I := fun _ => Began store.load)
    fun _ e _ _ => cycleEvent_began c e) fun _ => ?_
  refine Ends.bind (fallible_ends _ _ fun r s hs => ⟨nofun, hs⟩) fun _ => ?_
  refine Ends.bind (Q := fun _ => Began store.load) ?_ fun _ => ?_
  · refine Ends.get_bind fun s₀ hs₀ => Ends.pre (P := Began store.load) ?_
      (fun s hs => by subst hs; exact hs₀)
    exact Ends.ite (fun _ => cycleFlush_began _ _) (fun _ => Ends.pure fun s hs => hs)
  · refine Ends.get_bind fun s₀ hs₀ => Ends.pre (P := Began store.load) ?_
      (fun s hs => by subst hs; exact hs₀)
    refine Ends.bind (saveCursor_began r _) fun _ => ?_
    exact (fallible_ends _ _ fun r s hs => ⟨nofun, hs⟩).post fun _ _ _ => trivial

theorem Json.orEmpty_eq_iff (v : Json) : v.orEmpty = v ↔ v.truthy = true ∨ v = .obj [] := by
  unfold Json.orEmpty
  split
  · next h => simp [h]
  · next h => simp [h, eq_comm]

theorem runCollectionOnce_writesBack [DecidableEq ι] (c : CycleConfig) (r : CycleRun ι)
    (store : CursorStore) (haclose : r.aclose = none) :
    Ends (fun s => s = { store := store }) (runCollectionOnce c r) (fun _ _ => True)
      (fun f s => f.raised = .exception →
        s.store.load = (writtenBack f store.load).orEmpty) := by
  refine Ends.bind (Ends.attempt (K := fun o s =>
    match o with
    | .ok _ => True
    | .error f => s.before = writtenBack f store.load) (cycleBody_began c r store)) fun o => ?_
  cases o with
  | ok a =>
    refine Ends.bind (Q := fun _ _ => True) (Ends.modify fun s hs => trivial) fun _ => ?_
    rw [haclose]
    exact Ends.pure fun s hs => trivial
  | error f =>
    refine Ends.bind (Q := fun _ s => f.raised = .exception →
      s.store.load = (writtenBack f store.load).orEmpty) ?_ fun _ => ?_
    · refine Ends.modify fun s hs hf => ?_
      rw [if_pos hf, ← hs]
      rfl
    · refine Ends.bind (Q := fun _ s => f.raised = .exception →
        s.store.load = (writtenBack f store.load).orEmpty) ?_ fun _ => ?_
      · exact Ends.modify fun s hs => hs
      · rw [haclose]
        exact Ends.raise fun s hs => hs

/-- A cycle that fails, with the store available at its end, leaves the stored cursor as it was
exactly when it had loaded a cursor that is not empty, or the stored one is empty. -/
theorem cursor_intact_iff [DecidableEq ι] (c : CycleConfig) (r : CycleRun ι)
    (store : CursorStore) (f : Fault) (s : CycleState ι) (haclose : r.aclose = none)
    (h : runCollectionOnce c r { store := store } = .raised f s) (hf : f.raised = .exception) :
    s.store.load = store.load ↔
      (f.place ≠ .setup ∧ store.load.truthy = true) ∨ store.load = .obj [] := by
  have hrun := runCollectionOnce_writesBack c r store haclose { store := store } rfl
  rw [h] at hrun
  rw [hrun hf]
  by_cases hp : f.place = .setup
  · simp only [writtenBack, hp, if_true, ne_eq, not_true_eq_false, false_and, false_or]
    exact eq_comm
  · simp only [writtenBack, hp, if_false, ne_eq, not_false_eq_true, true_and]
    exact Json.orEmpty_eq_iff _

/-- A stream with a stored position, whose token cannot be refreshed. -/
def tokenFails : CycleRun Nat := { loading := some .exception, events := [] }

def positioned : CursorStore := ⟨.value (.obj [("since", .str "2024-05-01")]), none⟩

theorem cursor_intact_token :
    ((runCollectionOnce plainCycle tokenFails
      { store := positioned }).state.store.load ≠ positioned.load) := by
  decide

theorem cursor_intact_iff_token :
    ∃ f s, runCollectionOnce plainCycle tokenFails
        { store := positioned } = .raised f s ∧
      (s.store.load = positioned.load ↔
        (f.place ≠ .setup ∧ positioned.load.truthy = true) ∨ positioned.load = .obj []) :=
  ⟨_, _, rfl, cursor_intact_iff plainCycle tokenFails positioned _ _ rfl rfl rfl⟩

end CentralOps
