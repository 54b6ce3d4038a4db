import CentralOps.Lib.Rely

namespace CentralOps
set_option autoImplicit true

inductive JobStatus where
  | pending | running | completed | failed | cancelled
  deriving DecidableEq

def JobStatus.terminal : JobStatus → Bool
  | .pending | .running => false
  | .completed | .failed | .cancelled => true

/-- A row of `backfill_jobs`. The stored cursor is the payload beside its signature. -/
structure BackfillJob (κ σ : Type) where
  streams : List String
  status : JobStatus := .pending
  startedAt : Option Nat := none
  finishedAt : Option Nat := none
  cancelledAt : Option Nat := none
  lastError : Option String := none
  eventsCollected : Nat := 0
  eventsDispatched : Nat := 0
  currentCursor : Option (κ × σ) := none
  celeryTaskId : Option String := none

variable {κ σ : Type}

/-- What an `UPDATE` leaves in a column: only a changed column is written. -/
def column [DecidableEq α] (old new stored : α) : α := if new = old then stored else new

/-- The commit of a transaction that has read `old` and leaves `new`. -/
def BackfillJob.write [DecidableEq κ] [DecidableEq σ] (stored old new : BackfillJob κ σ) :
    BackfillJob κ σ where
  streams := stored.streams
  status := column old.status new.status stored.status
  startedAt := column old.startedAt new.startedAt stored.startedAt
  finishedAt := column old.finishedAt new.finishedAt stored.finishedAt
  cancelledAt := column old.cancelledAt new.cancelledAt stored.cancelledAt
  lastError := column old.lastError new.lastError stored.lastError
  eventsCollected := column old.eventsCollected new.eventsCollected stored.eventsCollected
  eventsDispatched := column old.eventsDispatched new.eventsDispatched stored.eventsDispatched
  currentCursor := column old.currentCursor new.currentCursor stored.currentCursor
  celeryTaskId := column old.celeryTaskId new.celeryTaskId stored.celeryTaskId

/-- What `run_backfill_collection_once` returns. -/
structure StreamRun (κ : Type) where
  cursor : κ
  eventsCollected : Nat
  eventsDispatched : Nat

/-- Where the requests and the task leave the process. A commit names the stream whose progress
it persists. -/
inductive JobAsk (κ σ : Type) where
  | read
  | commit (old new : BackfillJob κ σ) (done : Option String)
  | now
  | call (stream : String) (initial : Option κ)
  | result (stream : String)
  | publish

abbrev JobReply {κ σ : Type} : JobAsk κ σ → Type
  | .read => Except String (Option (BackfillJob κ σ))
  | .commit _ _ _ => Except String Unit
  | .now => Nat
  | .call _ _ => Unit
  | .result _ => Except String (StreamRun κ)
  | .publish => Except String String

abbrev JobTask (κ σ : Type) := Dialog (JobAsk κ σ) (JobReply (κ := κ) (σ := σ))

inductive JobEnd where
  | notFound | skipped | refused | vanished | cancelled | completed | done | raised
  deriving DecidableEq

def query (q : JobAsk κ σ) : JobTask κ σ (JobReply q) := Dialog.query q

/-- `_verify_cursor` on what `_sign_cursor` has stored: `mac` is the HMAC of the sorted dump. -/
def verifyCursor [DecidableEq σ] (mac : κ → σ) (signed : κ × σ) : Option κ :=
  if mac signed.1 = signed.2 then some signed.1 else none

/-- `_sign_cursor`. -/
def signCursor (mac : κ → σ) (cursor : κ) : κ × σ := (cursor, mac cursor)

/-- The local variables of the loop over the streams. -/
structure JobProgress (κ : Type) where
  totalCollected : Nat := 0
  totalDispatched : Nat := 0
  currentCursor : Option κ := none

inductive StreamsEnd (κ : Type) where
  | ended (r : JobEnd)
  | raised (e : String)
  | finished (p : JobProgress κ)

def persistProgress (mac : κ → σ) (stream : String) (p : JobProgress κ) (cursor : κ) :
    JobTask κ σ (Except (StreamsEnd κ) Unit) := do
  match ← query .read with
  | .error e => pure (.error (.raised e))
  | .ok none => pure (.error (.ended .vanished))
  | .ok (some fresh) =>
    let new := { fresh with
      eventsCollected := p.totalCollected
      eventsDispatched := p.totalDispatched
      currentCursor := some (signCursor mac cursor) }
    match ← query (.commit fresh new (some stream)) with
    | .error e => pure (.error (.raised e))
    | .ok () => pure (.ok ())

def initialCursor [DecidableEq σ] (mac : κ → σ) (p : JobProgress κ) (fresh : BackfillJob κ σ) : Option κ :=
  match fresh.currentCursor with
  | none => p.currentCursor
  | some signed => verifyCursor mac signed

/-- The loop over the streams. -/
def collectStreams [DecidableEq σ] (mac : κ → σ) : List String → JobProgress κ → JobTask κ σ (StreamsEnd κ)
  | [], p => pure (.finished p)
  | stream :: rest, p => do
    match ← query .read with
    | .error e => pure (.raised e)
    | .ok none => pure (.ended .cancelled)
    | .ok (some fresh) =>
      if fresh.status = .cancelled then pure (.ended .cancelled)
      else
        let _ ← query (.call stream (initialCursor mac p fresh))
        match ← query (.result stream) with
        | .error e => pure (.raised e)
        | .ok run =>
          let p' : JobProgress κ :=
            { totalCollected := p.totalCollected + run.eventsCollected
              totalDispatched := p.totalDispatched + run.eventsDispatched
              currentCursor := some run.cursor }
          match ← persistProgress mac stream p' run.cursor with
          | .error r => pure r
          | .ok () => collectStreams mac rest p'

def completeJob (p : JobProgress κ) : JobTask κ σ (Except String JobEnd) := do
  match ← query .read with
  | .error e => pure (.error e)
  | .ok none => pure (.ok .completed)
  | .ok (some fresh) =>
    if fresh.status = .cancelled then pure (.ok .completed)
    else
      let now ← query .now
      let new := { fresh with
        status := .completed, finishedAt := some now
        eventsCollected := p.totalCollected, eventsDispatched := p.totalDispatched }
      match ← query (.commit fresh new none) with
      | .error e => pure (.error e)
      | .ok () => pure (.ok .completed)

/-- `str(exc)[:2000]`. -/
def errorText (e : String) : String := String.ofList (e.toList.take 2000)

/-- `except Exception`. -/
def failJob (e : String) : JobTask κ σ JobEnd := do
  match ← query .read with
  | .error _ => pure .raised
  | .ok none => pure .raised
  | .ok (some fresh) =>
    if fresh.status = .cancelled ∨ fresh.status = .completed then pure .raised
    else
      let now ← query .now
      let new := { fresh with
        status := .failed, finishedAt := some now, lastError := some (errorText e) }
      let _ ← query (.commit fresh new none)
      pure .raised

/-- The part of `collect_backfill_job` inside the `try`. -/
def runStreams [DecidableEq σ] (mac : κ → σ) (streams : List String) : JobTask κ σ JobEnd := do
  match ← collectStreams mac streams {} with
  | .ended r => pure r
  | .raised e => failJob e
  | .finished p =>
    match ← completeJob p with
    | .ok r => pure r
    | .error e => failJob e

/-- `collect_backfill_job`. -/
def collectBackfillJob [DecidableEq σ] (mac : κ → σ) : JobTask κ σ JobEnd := do
  match ← query .read with
  | .error _ => pure .raised
  | .ok none => pure .notFound
  | .ok (some job) =>
    if job.status = .pending ∨ job.status = .running then
      let now ← query .now
      let new := { job with status := .running, startedAt := some now }
      match ← query (.commit job new none) with
      | .error _ => pure .raised
      | .ok () => runStreams mac job.streams
    else pure .skipped

/-- `cancel_backfill_job`, from its read of the job on. -/
def cancelBackfillJob : JobTask κ σ JobEnd := do
  match ← query .read with
  | .error _ => pure .raised
  | .ok none => pure .notFound
  | .ok (some job) =>
    if job.status = .pending ∨ job.status = .running then
      let now ← query .now
      let new := { job with status := .cancelled, cancelledAt := some now }
      match ← query (.commit job new none) with
      | .error _ => pure .raised
      | .ok () => pure .done
    else pure .refused

/-- `create_backfill_job` after its first commit. -/
def createBackfillJob : JobTask κ σ JobEnd := do
  match ← query .read with
  | .error _ => pure .raised
  | .ok none => pure .raised
  | .ok (some job) =>
    match ← query .publish with
    | .error e =>
      let now ← query .now
      let new := { job with
        status := .failed, finishedAt := some now
        lastError := some ("Falha ao enfileirar a task de backfill: " ++ e) }
      let _ ← query (.commit job new none)
      pure .raised
    | .ok taskId =>
      match ← query (.commit job { job with celeryTaskId := some taskId } none) with
      | .error _ => pure .raised
      | .ok () => pure .done

inductive JobEvent (κ : Type) where
  | called (stream : String) (initial : Option κ)
  | returned (stream : String) (cursor : κ)
  | saved (stream : String) (cursor : κ)
  deriving DecidableEq

structure JobWorld (κ σ : Type) where
  row : BackfillJob κ σ
  /-- The delivery that runs. Those before it have died. -/
  live : Nat := 0
  /-- The statuses that the row has left. -/
  left : List JobStatus := []
  /-- What happened with the streams, the last first. -/
  trace : List (JobEvent κ) := []

namespace JobWorld
variable [DecidableEq κ] [DecidableEq σ]

def commit (w : JobWorld κ σ) (old new : BackfillJob κ σ) (done : Option String) :
    JobWorld κ σ :=
  let row := w.row.write old new
  { w with
    row := row
    left := if row.status = w.row.status then w.left else w.row.status :: w.left
    trace :=
      match done, new.currentCursor with
      | some stream, some signed => .saved stream signed.1 :: w.trace
      | _, _ => w.trace }

def Effect (w : JobWorld κ σ) : (q : JobAsk κ σ) → JobReply q → JobWorld κ σ → Prop
  | .read, r, u => u = w ∧ (r = .ok (some w.row) ∨ r = .ok none ∨ ∃ e, r = .error e)
  | .commit old new done, r, u =>
    r = .ok () ∧ u = w.commit old new done ∨
      (∃ e, r = .error e) ∧ (u = w ∨ u = w.commit old new done)
  | .now, _, u => u = w
  | .call stream initial, _, u => u = { w with trace := .called stream initial :: w.trace }
  | .result stream, r, u =>
    match r with
    | .ok run => u = { w with trace := .returned stream run.cursor :: w.trace }
    | .error _ => u = w
  | .publish, _, u => u = w

end JobWorld

/-! Requests and deliveries of one job, in any interleaving. -/

inductive JobCall where
  | deliver | cancel | create

def jobProgram [DecidableEq σ] (mac : κ → σ) : JobCall → JobTask κ σ JobEnd
  | .deliver => collectBackfillJob mac
  | .cancel => cancelBackfillJob
  | .create => createBackfillJob

def jobRules [DecidableEq κ] [DecidableEq σ] (mac : κ → σ) (allowed : JobWorld κ σ → JobAsk κ σ → Prop) :
    CrewRules (JobWorld κ σ) Nat JobCall (JobAsk κ σ) JobReply JobEnd where
  program := jobProgram mac
  starts _ _ _ := True
  answers _ w q r u := allowed w q ∧ w.Effect q r u
  moves _ _ := False

abbrev JobCrew (κ σ C : Type) := Crew (JobWorld κ σ) Nat C (JobAsk κ σ) JobReply JobEnd

/-- A job of which no request or task is under way. -/
def JobCrew.idle (C : Type) (job : BackfillJob κ σ) : JobCrew κ σ C :=
  { shared := { row := job }, running := fun _ => none }

/-- No terminal status was ever changed. -/
def JobWorld.Final (w : JobWorld κ σ) : Prop := ∀ status ∈ w.left, status.terminal = false

def Overwrites (old new : JobStatus) : Prop :=
  old = .failed ∧ new = .completed ∨ (old = .cancelled ∨ old = .completed) ∧ new = .failed

/-- A commit that changes the status has no other terminal status committed under it, and does not
overwrite the terminal status that it has read. -/
def JobWorld.Timely (w : JobWorld κ σ) : JobAsk κ σ → Prop
  | .commit old new _ => new.status ≠ old.status →
    (w.row.status = old.status ∨ w.row.status.terminal = false) ∧
      ¬ Overwrites old.status new.status
  | _ => True

def JobAsk.Guarded : JobAsk κ σ → Prop
  | .commit old new _ => new.status ≠ old.status → old.status.terminal = true →
    Overwrites old.status new.status
  | _ => True

section Asks
open Dialog

theorem persistProgress_guarded (mac : κ → σ) (stream : String) (p : JobProgress κ) (cursor : κ) :
    (persistProgress mac stream p cursor).Asks JobAsk.Guarded := by
  refine Asks.query trivial fun r => ?_
  match r with
  | .error e => exact asks_pure _
  | .ok none => exact asks_pure _
  | .ok (some fresh) =>
    refine Asks.query (fun hne => absurd rfl hne) fun r => ?_
    match r with
    | .error e => exact asks_pure _
    | .ok () => exact asks_pure _

theorem collectStreams_guarded [DecidableEq σ] (mac : κ → σ) (streams : List String) (p : JobProgress κ) :
    (collectStreams mac streams p).Asks JobAsk.Guarded := by
  induction streams generalizing p with
  | nil => exact asks_pure _
  | cons stream rest ih =>
    refine Asks.query trivial fun r => ?_
    match r with
    | .error e => exact asks_pure _
    | .ok none => exact asks_pure _
    | .ok (some fresh) =>
      change Dialog.Asks JobAsk.Guarded (if _ then _ else _)
      split
      · exact asks_pure _
      · refine Asks.query trivial fun _ => Asks.query trivial fun r => ?_
        match r with
        | .error e => exact asks_pure _
        | .ok run =>
          refine Asks.bind (persistProgress_guarded mac stream _ _) fun r => ?_
          match r with
          | .error r => exact asks_pure _
          | .ok () => exact ih _

theorem completeJob_guarded (p : JobProgress κ) :
    (completeJob p : JobTask κ σ _).Asks JobAsk.Guarded := by
  refine Asks.query trivial fun r => ?_
  match r with
  | .error e => exact asks_pure _
  | .ok none => exact asks_pure _
  | .ok (some fresh) =>
    change Dialog.Asks JobAsk.Guarded (if _ then _ else _)
    split
    · exact asks_pure _
    · next hs =>
      refine Asks.query trivial fun now => Asks.query ?_ fun r => ?_
      · change JobStatus.completed ≠ fresh.status → _ → Overwrites fresh.status .completed
        cases hf : fresh.status with
        | failed => exact fun _ _ => .inl ⟨rfl, rfl⟩
        | completed => exact fun hne _ => absurd rfl hne
        | cancelled => exact absurd hf hs
        | pending => exact fun _ ht => nomatch ht
        | running => exact fun _ ht => nomatch ht
      · match r with
        | .error e => exact asks_pure _
        | .ok () => exact asks_pure _

theorem failJob_guarded (e : String) : (failJob e : JobTask κ σ _).Asks JobAsk.Guarded := by
  refine Asks.query trivial fun r => ?_
  match r with
  | .error e => exact asks_pure _
  | .ok none => exact asks_pure _
  | .ok (some fresh) =>
    change Dialog.Asks JobAsk.Guarded (if _ then _ else _)
    split
    · exact asks_pure _
    · next hs =>
      refine Asks.query trivial fun now => Asks.query ?_ fun r => asks_pure _
      change JobStatus.failed ≠ fresh.status → _ → Overwrites fresh.status .failed
      cases hf : fresh.status with
      | failed => exact fun hne _ => absurd rfl hne
      | completed => exact absurd (.inr hf) hs
      | cancelled => exact absurd (.inl hf) hs
      | pending => exact fun _ ht => nomatch ht
      | running => exact fun _ ht => nomatch ht

theorem collectBackfillJob_guarded [DecidableEq σ] (mac : κ → σ) :
    (collectBackfillJob mac).Asks JobAsk.Guarded := by
  refine Asks.query trivial fun r => ?_
  match r with
  | .error e => exact asks_pure _
  | .ok none => exact asks_pure _
  | .ok (some job) =>
    change Dialog.Asks JobAsk.Guarded (if _ then _ else _)
    split
    · next hs =>
      refine Asks.query trivial fun now => Asks.query ?_ fun r => ?_
      · intro _ ht
        rcases hs with hs | hs
        · rw [hs] at ht; exact nomatch ht
        · rw [hs] at ht; exact nomatch ht
      · match r with
        | .error e => exact asks_pure _
        | .ok () =>
          refine Asks.bind (collectStreams_guarded mac job.streams {}) fun r => ?_
          match r with
          | .ended r => exact asks_pure _
          | .raised e => exact failJob_guarded e
          | .finished p =>
            refine Asks.bind (completeJob_guarded p) fun r => ?_
            match r with
            | .ok r => exact asks_pure _
            | .error e => exact failJob_guarded e
    · exact asks_pure _

theorem cancelBackfillJob_guarded : (cancelBackfillJob : JobTask κ σ _).Asks JobAsk.Guarded := by
  refine Asks.query trivial fun r => ?_
  match r with
  | .error e => exact asks_pure _
  | .ok none => exact asks_pure _
  | .ok (some job) =>
    change Dialog.Asks JobAsk.Guarded (if _ then _ else _)
    split
    · next hs =>
      refine Asks.query trivial fun now => Asks.query ?_ fun r => ?_
      · intro _ ht
        rcases hs with hs | hs
        · rw [hs] at ht; exact nomatch ht
        · rw [hs] at ht; exact nomatch ht
      · match r with
        | .error e => exact asks_pure _
        | .ok () => exact asks_pure _
    · exact asks_pure _

theorem createBackfillJob_guarded : (createBackfillJob : JobTask κ σ _).Asks JobAsk.Guarded := by
  refine Asks.query trivial fun r => ?_
  match r with
  | .error e => exact asks_pure _
  | .ok none => exact asks_pure _
  | .ok (some job) =>
    refine Asks.query trivial fun r => ?_
    match r with
    | .error e =>
      refine Asks.query trivial fun now => Asks.query ?_ fun r => asks_pure _
      change JobStatus.failed ≠ job.status → _ → Overwrites job.status .failed
      cases job.status with
      | failed => exact fun hne _ => absurd rfl hne
      | completed => exact fun _ _ => .inr ⟨.inr rfl, rfl⟩
      | cancelled => exact fun _ _ => .inr ⟨.inl rfl, rfl⟩
      | pending => exact fun _ ht => nomatch ht
      | running => exact fun _ ht => nomatch ht
    | .ok taskId =>
      refine Asks.query (fun hne => absurd rfl hne) fun r => ?_
      match r with
      | .error e => exact asks_pure _
      | .ok () => exact asks_pure _

end Asks

section Final
variable [DecidableEq κ] [DecidableEq σ]

theorem JobWorld.Final.commit {w : JobWorld κ σ} (h : w.Final) (hg : (JobAsk.commit old new done).Guarded)
    (ht : w.Timely (.commit old new done)) : (w.commit old new done).Final := by
  intro status hm
  change status ∈ (if (w.row.write old new).status = w.row.status then w.left
    else w.row.status :: w.left) at hm
  split at hm
  · exact h status hm
  · next hs =>
    rcases List.mem_cons.mp hm with rfl | hm
    · have hne : new.status ≠ old.status := by
        intro he
        exact hs (if_pos he)
      obtain ⟨hrow, hover⟩ := ht hne
      rcases hrow with hrow | hrow
      · rw [hrow]
        by_contra hterm
        exact hover (hg hne (by simpa using hterm))
      · exact hrow
    · exact h status hm

theorem JobWorld.Final.effect {w : JobWorld κ σ} (h : w.Final) (hg : q.Guarded)
    (ht : w.Timely q) (he : w.Effect q r u) : u.Final := by
  cases q with
  | read => rw [he.1]; exact h
  | commit old new done =>
    rcases he with ⟨_, rfl⟩ | ⟨_, rfl | rfl⟩
    · exact h.commit hg ht
    · exact h
    · exact h.commit hg ht
  | now => rw [show u = w from he]; exact h
  | call stream initial => rw [show u = _ from he]; exact h
  | result stream =>
    match r with
    | .ok run => rw [show u = _ from he]; exact h
    | .error e => rw [show u = _ from he]; exact h
  | publish => rw [show u = w from he]; exact h

/-- Where every commit of a status is timely, no terminal status of a job is ever changed, however
its deliveries, its cancellations and its creation interleave. -/
theorem backfill_status_final (mac : κ → σ) (job : BackfillJob κ σ) (y : JobCrew κ σ JobCall)
    (h : Crew.Reaches (jobRules mac JobWorld.Timely) (JobCrew.idle JobCall job) y) :
    y.shared.Final := by
  have hpost : ∀ (c : JobCall) (a : JobEnd) (s t : JobWorld κ σ), True → True → True :=
    fun _ _ _ _ _ _ => trivial
  have hsound := h.sound (I := JobWorld.Final) (fun _ _ _ _ _ => trivial) hpost
    (fun _ => trivial)
    (fun s i c hs _ => by
      have hasks : (jobProgram mac c).Asks JobAsk.Guarded := by
        cases c with
        | deliver => exact collectBackfillJob_guarded mac
        | cancel => exact cancelBackfillJob_guarded
        | create => exact createBackfillJob_guarded
      exact hasks.sat (K := fun _ => True)
        (fun w q r u hq hw _ hr => ⟨hw.effect hq hr.1 hr.2, trivial⟩) (fun _ _ _ _ => trivial)
        trivial)
    (fun _ _ _ (hm : False) => hm.elim)
    ⟨fun status hm => (List.not_mem_nil hm).elim, fun i c t hi => nomatch hi⟩
  exact hsound.1

instance (old new : JobStatus) : Decidable (Overwrites old new) :=
  inferInstanceAs (Decidable (_ ∧ _ ∨ (_ ∨ _) ∧ _))

instance (w : JobWorld κ σ) : (q : JobAsk κ σ) → Decidable (w.Timely q)
  | .read => isTrue trivial
  | .commit old new _ =>
    inferInstanceAs (Decidable (new.status ≠ old.status →
      (w.row.status = old.status ∨ w.row.status.terminal = false) ∧ ¬ Overwrites _ _))
  | .now => isTrue trivial
  | .call _ _ => isTrue trivial
  | .result _ => isTrue trivial
  | .publish => isTrue trivial

def jobReply (w : JobWorld Nat Nat) : (q : JobAsk Nat Nat) → JobReply q × JobWorld Nat Nat
  | .read => (.ok (some w.row), w)
  | .commit old new done => (.ok (), w.commit old new done)
  | .now => (0, w)
  | .call stream initial => ((), { w with trace := .called stream initial :: w.trace })
  | .result stream =>
    (.ok ⟨stream.length, 0, 0⟩, { w with trace := .returned stream stream.length :: w.trace })
  | .publish => (.ok "task", w)

theorem jobReply_effect (w : JobWorld Nat Nat) (q : JobAsk Nat Nat) :
    w.Effect q (jobReply w q).1 (jobReply w q).2 := by
  cases q with
  | read => exact ⟨rfl, .inl rfl⟩
  | commit old new done => exact .inl ⟨rfl, rfl⟩
  | now => rfl
  | call stream initial => rfl
  | result stream => rfl
  | publish => rfl

def lateCancel : List (Crew.Cue Nat JobCall) :=
  [.call 0 .deliver, .go 0, .call 1 .cancel, .go 1, .go 1, .go 1, .go 0, .go 0]

theorem backfill_status_overwritten :
    ∃ y : JobCrew Nat Nat JobCall,
      Crew.Reaches (jobRules id (fun _ _ => True)) (JobCrew.idle JobCall { streams := [] }) y ∧
        ¬ y.shared.Final := by
  have hreply : ∀ (i : Nat) (w : JobWorld Nat Nat) (q : JobAsk Nat Nat), true = true →
      (jobRules id (fun _ _ => True)).answers i w q (jobReply w q).1 (jobReply w q).2 :=
    fun _ w q _ => ⟨trivial, jobReply_effect w q⟩
  have hstarts : ∀ i c, Crew.Cue.call i c ∈ lateCancel →
      ∀ s, (jobRules (id : Nat → Nat) (fun _ _ => True)).starts s i c :=
    fun _ _ _ _ => trivial
  refine ⟨_, Crew.reaches_foldl_cue hstarts hreply _, ?_⟩
  intro h
  exact absurd (h .cancelled (by decide +kernel)) (by decide)

def earlyCancel : List (Crew.Cue Nat JobCall) :=
  [.call 1 .cancel, .go 1, .go 1, .go 1, .go 1, .call 0 .deliver, .go 0, .go 0]

theorem backfill_status_final_cancelled :
    ∃ y : JobCrew Nat Nat JobCall,
      Crew.Reaches (jobRules id JobWorld.Timely) (JobCrew.idle JobCall { streams := ["a"] }) y ∧
        y.shared.row.status = .cancelled ∧ y.shared.Final := by
  have hreply : ∀ (i : Nat) (w : JobWorld Nat Nat) (q : JobAsk Nat Nat),
      decide (w.Timely q) = true →
        (jobRules id JobWorld.Timely).answers i w q (jobReply w q).1 (jobReply w q).2 :=
    fun _ w q h => ⟨of_decide_eq_true h, jobReply_effect w q⟩
  have hstarts : ∀ i c, Crew.Cue.call i c ∈ earlyCancel →
      ∀ s, (jobRules (id : Nat → Nat) JobWorld.Timely).starts s i c :=
    fun _ _ _ _ => trivial
  have hreach := Crew.reaches_foldl_cue hstarts hreply
    (JobCrew.idle JobCall { streams := ["a"] })
  exact ⟨_, hreach, by decide +kernel, backfill_status_final id _ _ hreach⟩

end Final

/-! The deliveries of one job, each after the death of the one before. -/

/-- A redelivery finds its predecessor dead, wherever that was. Meanwhile the requests may change
the row, but for its streams and its cursor. -/
def deliveryRules [DecidableEq κ] [DecidableEq σ] (mac : κ → σ)
    (allowed : JobWorld κ σ → JobAsk κ σ → Prop) :
    CrewRules (JobWorld κ σ) Nat Unit (JobAsk κ σ) JobReply JobEnd where
  program _ := collectBackfillJob mac
  starts w i _ := i = w.live
  answers i w q r u := i = w.live ∧ allowed w q ∧ w.Effect q r u
  moves w u := u = { w with live := w.live + 1 } ∨
    ∃ row : BackfillJob κ σ, row.currentCursor = w.row.currentCursor ∧ u = { w with row := row }

def JobEvent.stream : JobEvent κ → String
  | .called s _ | .returned s _ | .saved s _ => s

def JobEvent.savedCursor : JobEvent κ → Option κ
  | .saved _ c => some c
  | .called _ _ | .returned _ _ => none

def lastSaved (stream : String) (trace : List (JobEvent κ)) : Option κ :=
  trace.findSome? (fun e => if e.stream = stream then e.savedCursor else none)

/-- Every call had no cursor or one returned for its stream, and once the stream was done, the
cursor that it was done with. -/
def OwnCursors : List (JobEvent κ) → Prop
  | [] => True
  | .called stream initial :: past =>
    (∀ c, initial = some c → .returned stream c ∈ past) ∧
      (∀ c, lastSaved stream past = some c → initial = some c) ∧ OwnCursors past
  | .returned _ _ :: past | .saved _ _ :: past => OwnCursors past

/-- A call is for the stream that all calls before it were for. -/
def JobWorld.OneStream (w : JobWorld κ σ) : JobAsk κ σ → Prop
  | .call stream _ => ∀ e ∈ w.trace, e.stream = stream
  | _ => True

/-- What the trace of a job that collects one stream is like. -/
structure JobWorld.Single (mac : κ → σ) (w : JobWorld κ σ) : Prop where
  own : OwnCursors w.trace
  one : ∀ e ∈ w.trace, ∀ e' ∈ w.trace, e.stream = e'.stream
  returned : ∀ s c, .saved s c ∈ w.trace → .returned s c ∈ w.trace
  signed : w.row.currentCursor = (w.trace.findSome? JobEvent.savedCursor).map (signCursor mac)

theorem verify_sign [DecidableEq σ] (mac : κ → σ) (c : κ) :
    verifyCursor mac (signCursor mac c) = some c := if_pos rfl

/-- What the other deliveries and the requests leave of the state that a delivery works on. -/
def SameJob (i : Nat) (w u : JobWorld κ σ) : Prop :=
  w.live ≤ u.live ∧ (w.live = i → u.live = i →
    u.row.currentCursor = w.row.currentCursor ∧ u.trace = w.trace)

def Alive (i : Nat) (w u : JobWorld κ σ) : Prop := w.live = i ∧ u.live = i

theorem SameJob.trans {w u v : JobWorld κ σ} (h : SameJob i w u) (h' : SameJob i u v) :
    SameJob i w v := by
  refine ⟨Nat.le_trans h.1 h'.1, fun hw hv => ?_⟩
  have hu : u.live = i := by
    have h₁ := h.1
    have h₂ := h'.1
    omega
  obtain ⟨hc, ht⟩ := h.2 hw hu
  obtain ⟨hc', ht'⟩ := h'.2 hu hv
  exact ⟨hc'.trans hc, ht'.trans ht⟩

theorem SameJob.refl (w : JobWorld κ σ) : SameJob i w w := ⟨Nat.le_refl _, fun _ _ => ⟨rfl, rfl⟩⟩

structure JobAt (i : Nat) (tr : List (JobEvent κ)) (cur : Option (κ × σ))
    (w : JobWorld κ σ) : Prop where
  live : w.live = i
  trace : w.trace = tr
  cursor : w.row.currentCursor = cur

/-- A question that leaves the stored cursor and the trace alone. -/
def JobAsk.Quiet : JobAsk κ σ → Prop
  | .read | .now => True
  | .commit old new done => new.currentCursor = old.currentCursor ∧ done = none
  | _ => False

section Deliveries
variable [DecidableEq κ] [DecidableEq σ]

open Dialog

theorem JobWorld.Effect.live {w u : JobWorld κ σ} (h : w.Effect q r u) : u.live = w.live := by
  cases q with
  | read => rw [h.1]
  | commit old new done =>
    rcases h with ⟨_, rfl⟩ | ⟨_, rfl | rfl⟩
    · rfl
    · rfl
    · rfl
  | now => rw [show u = w from h]
  | call stream initial => rw [show u = _ from h]
  | result stream =>
    match r with
    | .ok run => rw [show u = _ from h]
    | .error e => rw [show u = _ from h]
  | publish => rw [show u = w from h]

theorem JobWorld.Effect.quiet {w u : JobWorld κ σ} (h : w.Effect q r u) (hq : q.Quiet) :
    u.trace = w.trace ∧ u.row.currentCursor = w.row.currentCursor := by
  have hcommit (old new : BackfillJob κ σ) (hc : new.currentCursor = old.currentCursor) :
      (w.commit old new none).trace = w.trace ∧
        (w.commit old new none).row.currentCursor = w.row.currentCursor :=
    ⟨rfl, if_pos hc⟩
  cases q with
  | read => rw [h.1]; exact ⟨rfl, rfl⟩
  | commit old new done =>
    obtain ⟨hc, rfl⟩ := hq
    rcases h with ⟨_, rfl⟩ | ⟨_, rfl | rfl⟩
    · exact hcommit old new hc
    · exact ⟨rfl, rfl⟩
    · exact hcommit old new hc
  | now => rw [show u = w from h]; exact ⟨rfl, rfl⟩
  | call stream initial => exact hq.elim
  | result stream => exact hq.elim
  | publish => exact hq.elim

omit [DecidableEq κ] [DecidableEq σ] in
theorem JobWorld.Single.of_eq {mac : κ → σ} {w u : JobWorld κ σ} (h : w.Single mac)
    (ht : u.trace = w.trace) (hc : u.row.currentCursor = w.row.currentCursor) :
    u.Single mac where
  own := ht ▸ h.own
  one := ht ▸ h.one
  returned := ht ▸ h.returned
  signed := by rw [hc, ht]; exact h.signed

variable {mac : κ → σ}

abbrev Delivers (mac : κ → σ) (i : Nat) (post : α → JobWorld κ σ → Prop) (t : JobTask κ σ α)
    (w : JobWorld κ σ) : Prop :=
  Dialog.Meets ((deliveryRules mac JobWorld.OneStream).answers i) (SameJob i) (Alive i)
    (JobWorld.Single mac) post t w

omit [DecidableEq κ] [DecidableEq σ] in
theorem JobAt.same {w u : JobWorld κ σ} (h : JobAt i tr cur w) (hs : SameJob i w u)
    (hu : u.live = i) : JobAt i tr cur u :=
  ⟨hu, (hs.2 h.live hu).2.trans h.trace, (hs.2 h.live hu).1.trans h.cursor⟩

theorem Delivers.quiet {w : JobWorld κ σ} {post : α → JobWorld κ σ → Prop}
    {next : JobReply q → JobTask κ σ α} (hw : JobAt i tr cur w) (hq : q.Quiet)
    (h : ∀ t r u, JobAt i tr cur t → t.Effect q r u → JobAt i tr cur u →
      Delivers mac i post (next r) u) :
    Delivers mac i post (query q >>= next) w := by
  refine Meets.query fun t hwt hI r u hr => ?_
  obtain ⟨hlive, -, heff⟩ := hr
  have ht := hw.same hwt hlive.symm
  obtain ⟨htrace, hcursor⟩ := heff.quiet hq
  have hu : u.live = i := heff.live.trans ht.live
  exact ⟨hI.of_eq htrace hcursor, ⟨ht.live, hu⟩,
    h t r u ht heff ⟨hu, htrace.trans ht.trace, hcursor.trans ht.cursor⟩⟩

omit [DecidableEq κ] [DecidableEq σ] in
theorem lastSaved_of_one (h : ∀ e ∈ tr, JobEvent.stream e = stream) :
    lastSaved stream tr = (tr : List (JobEvent κ)).findSome? JobEvent.savedCursor := by
  induction tr with
  | nil => rfl
  | cons e tr ih =>
    have htr := ih (fun e' he' => h e' (List.mem_cons_of_mem _ he'))
    have hhead := h e List.mem_cons_self
    rw [lastSaved] at htr
    rw [lastSaved, List.findSome?_cons, List.findSome?_cons, if_pos hhead, htr]

omit [DecidableEq κ] [DecidableEq σ] in
theorem one_stream {e₀ : JobEvent κ} (hone : ∀ e ∈ tr, JobEvent.stream e = stream)
    (h₀ : e₀.stream = stream) : ∀ e ∈ e₀ :: tr, ∀ e' ∈ e₀ :: tr, e.stream = e'.stream := by
  have hall : ∀ e ∈ e₀ :: tr, e.stream = stream := by
    intro e he
    rcases List.mem_cons.mp he with rfl | he
    · exact h₀
    · exact hone e he
  exact fun e he e' he' => (hall e he).trans (hall e' he').symm

omit [DecidableEq κ] [DecidableEq σ] in
theorem JobWorld.Single.stored {w : JobWorld κ σ} (h : w.Single mac) :
    w.row.currentCursor.map Prod.fst = w.trace.findSome? JobEvent.savedCursor := by
  rw [h.signed, Option.map_map]
  exact congrFun Option.map_id _

omit [DecidableEq κ] [DecidableEq σ] in
theorem JobWorld.Single.called {w : JobWorld κ σ} (h : w.Single mac)
    (hone : ∀ e ∈ w.trace, e.stream = stream)
    (hinitial : initial = w.row.currentCursor.map Prod.fst) :
    ({ w with trace := .called stream initial :: w.trace } : JobWorld κ σ).Single mac where
  own := by
    have hlast : initial = w.trace.findSome? JobEvent.savedCursor := hinitial.trans h.stored
    refine ⟨fun c hc => ?_, fun c hc => ?_, h.own⟩
    · obtain ⟨e, he, hsaved⟩ := List.exists_of_findSome?_eq_some (hlast.symm.trans hc)
      cases e with
      | saved s c' =>
        cases hsaved
        have hs := hone _ he
        exact hs ▸ h.returned _ _ he
      | called s i => cases hsaved
      | returned s c' => cases hsaved
    · exact hlast.trans ((lastSaved_of_one hone).symm.trans hc)
  one := one_stream hone rfl
  returned := fun s c hm => by
    rcases List.mem_cons.mp hm with he | hm
    · cases he
    · exact List.mem_cons_of_mem _ (h.returned s c hm)
  signed := h.signed

omit [DecidableEq κ] [DecidableEq σ] in
theorem JobWorld.Single.returns {w : JobWorld κ σ} (h : w.Single mac)
    (hone : ∀ e ∈ w.trace, e.stream = stream) :
    ({ w with trace := .returned stream c :: w.trace } : JobWorld κ σ).Single mac where
  own := h.own
  one := one_stream hone rfl
  returned := fun s c' hm => by
    rcases List.mem_cons.mp hm with he | hm
    · cases he
    · exact List.mem_cons_of_mem _ (h.returned s c' hm)
  signed := h.signed

theorem JobWorld.Single.saves {w : JobWorld κ σ} (h : w.Single mac)
    (hone : ∀ e ∈ w.trace, e.stream = stream) (hret : .returned stream c ∈ w.trace)
    {old new : BackfillJob κ σ} (hold : old.currentCursor = w.row.currentCursor)
    (hnew : new.currentCursor = some (signCursor mac c)) :
    JobAt w.live (.saved stream c :: w.trace) (some (signCursor mac c))
        (w.commit old new (some stream)) ∧
      (w.commit old new (some stream)).Single mac := by
  have htrace : (w.commit old new (some stream)).trace = .saved stream c :: w.trace := by
    simp only [JobWorld.commit, hnew, signCursor]
  have hcursor : (w.commit old new (some stream)).row.currentCursor =
      some (signCursor mac c) := by
    change column old.currentCursor new.currentCursor w.row.currentCursor = _
    rw [column, hold, hnew]
    split
    · next he => exact he.symm
    · rfl
  refine ⟨⟨rfl, htrace, hcursor⟩, ?_, ?_, ?_, ?_⟩
  · rw [htrace]
    exact h.own
  · rw [htrace]
    exact one_stream hone rfl
  · rw [htrace]
    intro s c' hm
    rcases List.mem_cons.mp hm with he | hm
    · cases he
      exact List.mem_cons_of_mem _ hret
    · exact List.mem_cons_of_mem _ (h.returned s c' hm)
  · rw [hcursor, htrace]
    rfl

theorem Delivers.of_quiet {t : JobTask κ σ α} (ht : t.Asks JobAsk.Quiet) {w : JobWorld κ σ}
    (hw : w.live = i) : Delivers mac i (fun _ u => u.live = i) t w := by
  induction t generalizing w with
  | done a => exact hw
  | ask q next ih =>
    exact Delivers.quiet (q := q) ⟨hw, rfl, rfl⟩ ht.1 fun t r u _ _ hu => ih r (ht.2 r) hu.live

omit [DecidableEq κ] [DecidableEq σ] in
theorem failJob_quiet (e : String) : (failJob e : JobTask κ σ _).Asks JobAsk.Quiet := by
  refine Asks.query trivial fun r => ?_
  match r with
  | .error e => exact asks_pure _
  | .ok none => exact asks_pure _
  | .ok (some fresh) =>
    change Dialog.Asks JobAsk.Quiet (if _ then _ else _)
    split
    · exact asks_pure _
    · exact Asks.query trivial fun now => Asks.query ⟨rfl, rfl⟩ fun r => asks_pure _

omit [DecidableEq κ] [DecidableEq σ] in
theorem completeJob_quiet (p : JobProgress κ) :
    (completeJob p : JobTask κ σ _).Asks JobAsk.Quiet := by
  refine Asks.query trivial fun r => ?_
  match r with
  | .error e => exact asks_pure _
  | .ok none => exact asks_pure _
  | .ok (some fresh) =>
    change Dialog.Asks JobAsk.Quiet (if _ then _ else _)
    split
    · exact asks_pure _
    · refine Asks.query trivial fun now => Asks.query ⟨rfl, rfl⟩ fun r => ?_
      match r with
      | .error e => exact asks_pure _
      | .ok () => exact asks_pure _

theorem persistProgress_delivers {w : JobWorld κ σ} (hw : JobAt i tr cur w)
    (hone : ∀ e ∈ tr, e.stream = stream) (hret : .returned stream c ∈ tr) :
    Delivers mac i (fun r u => u.live = i ∧
        (r = .ok () → JobAt i (.saved stream c :: tr) (some (signCursor mac c)) u))
      (persistProgress mac stream p c) w := by
  refine Delivers.quiet hw trivial fun t r u ht heff hu => ?_
  match r with
  | .error e => exact ⟨hu.live, nofun⟩
  | .ok none => exact ⟨hu.live, nofun⟩
  | .ok (some fresh) =>
    have hfresh : fresh.currentCursor = cur := by
      rcases heff.2 with hr | hr | ⟨e, hr⟩
      · cases hr
        exact ht.cursor
      · cases hr
      · cases hr
    refine Meets.query fun t hut hI r v hr => ?_
    obtain ⟨hlive, -, heff⟩ := hr
    have ht := hu.same hut hlive.symm
    have hsigned : ({ fresh with
        eventsCollected := p.totalCollected, eventsDispatched := p.totalDispatched
        currentCursor := some (signCursor mac c) } : BackfillJob κ σ).currentCursor =
          some (signCursor mac c) := rfl
    have hsaves := hI.saves (ht.trace ▸ hone) (ht.trace ▸ hret) (hfresh.trans ht.cursor.symm)
      hsigned
    rw [ht.live, ht.trace] at hsaves
    have hv : v.live = i := heff.live.trans ht.live
    rcases heff with ⟨rfl, rfl⟩ | ⟨⟨e, rfl⟩, rfl | rfl⟩
    · exact ⟨hsaves.2, ⟨ht.live, hv⟩, hv, fun _ => hsaves.1⟩
    · exact ⟨hI, ⟨ht.live, hv⟩, hv, nofun⟩
    · exact ⟨hsaves.2, ⟨ht.live, hv⟩, hv, nofun⟩

omit [DecidableEq κ] in
theorem initialCursor_eq {w : JobWorld κ σ} (h : w.Single mac) {fresh : BackfillJob κ σ}
    (hfresh : fresh.currentCursor = w.row.currentCursor)
    (hp : w.row.currentCursor = none → p.currentCursor = none) :
    initialCursor mac p fresh = w.row.currentCursor.map Prod.fst := by
  rw [initialCursor, hfresh]
  cases hc : w.row.currentCursor with
  | none => exact hp hc
  | some signed =>
    have hsigned := h.signed
    rw [hc] at hsigned
    obtain ⟨c, -, rfl⟩ := Option.map_eq_some_iff.mp hsigned.symm
    exact verify_sign mac c

theorem collectStreams_delivers (streams : List String) {w : JobWorld κ σ}
    (hw : JobAt i tr cur w) (hp : cur = none → p.currentCursor = none) :
    Delivers mac i (fun _ u => u.live = i) (collectStreams mac streams p) w := by
  induction streams generalizing p w tr cur with
  | nil => exact hw.live
  | cons stream rest ih =>
    refine Delivers.quiet hw trivial fun t r u ht heff hu => ?_
    match r with
    | .error e => exact hu.live
    | .ok none => exact hu.live
    | .ok (some fresh) =>
      have hfresh : fresh.currentCursor = cur := by
        rcases heff.2 with hr | hr | ⟨e, hr⟩
        · cases hr
          exact ht.cursor
        · cases hr
        · cases hr
      change Delivers mac i _ (if _ then _ else _) u
      split
      · exact hu.live
      · refine Meets.query fun t hut hI r v hr => ?_
        obtain ⟨hlive, hone, heff⟩ := hr
        have ht := hu.same hut hlive.symm
        rw [show v = _ from heff]
        have hinitial := initialCursor_eq hI (hfresh.trans ht.cursor.symm)
          (p := p) (fun hn => hp (ht.cursor.symm.trans hn))
        refine ⟨hI.called hone hinitial, ⟨ht.live, ht.live⟩, ?_⟩
        have hone' : ∀ e ∈ JobEvent.called stream (initialCursor mac p fresh) :: tr,
            e.stream = stream := by
          intro e he
          rcases List.mem_cons.mp he with rfl | he
          · rfl
          · exact hone e (ht.trace ▸ he)
        have hv : JobAt i (.called stream (initialCursor mac p fresh) :: tr) cur
            { t with trace := .called stream (initialCursor mac p fresh) :: t.trace } :=
          ⟨ht.live, congrArg _ ht.trace, ht.cursor⟩
        refine Meets.query fun t' hvt hI' r v' hr => ?_
        obtain ⟨hlive', -, heff'⟩ := hr
        have ht' := hv.same hvt hlive'.symm
        match r with
        | .error e =>
          rw [show v' = t' from heff']
          exact ⟨hI', ⟨ht'.live, ht'.live⟩, ht'.live⟩
        | .ok run =>
          rw [show v' = _ from heff']
          refine ⟨hI'.returns (ht'.trace ▸ hone'), ⟨ht'.live, ht'.live⟩, Meets.bind ?_⟩
          have hv' : JobAt i (.returned stream run.cursor ::
              .called stream (initialCursor mac p fresh) :: tr) cur
              { t' with trace := .returned stream run.cursor :: t'.trace } :=
            ⟨ht'.live, congrArg _ ht'.trace, ht'.cursor⟩
          refine Meets.weaken (persistProgress_delivers hv' ?_ List.mem_cons_self)
            fun r x hx => ?_
          · intro e he
            rcases List.mem_cons.mp he with rfl | he
            · rfl
            · exact hone' e he
          · match r with
            | .error r => exact hx.1
            | .ok () => exact ih (hx.2 rfl) (nofun)

theorem collectBackfillJob_delivers {w : JobWorld κ σ} (hw : JobAt i tr cur w) :
    Delivers mac i (fun _ _ => True) (collectBackfillJob mac) w := by
  refine Delivers.quiet hw trivial fun t r u ht heff hu => ?_
  match r with
  | .error e => exact trivial
  | .ok none => exact trivial
  | .ok (some job) =>
    change Delivers mac i _ (if _ then _ else _) u
    split
    · refine Delivers.quiet hu trivial fun t now v ht heff hv => ?_
      refine Delivers.quiet hv ⟨rfl, rfl⟩ fun t r x ht heff hx => ?_
      match r with
      | .error e => exact trivial
      | .ok () =>
        refine Meets.bind ((collectStreams_delivers job.streams hx fun _ => rfl).weaken
          fun r y hy => ?_)
        have hfail (e : String) (z : JobWorld κ σ) (hz : z.live = i) :
            Delivers mac i (fun _ _ => True) (failJob e) z :=
          (Delivers.of_quiet (failJob_quiet e) hz).weaken fun _ _ _ => trivial
        match r with
        | .ended r => exact trivial
        | .raised e => exact hfail e y hy
        | .finished p =>
          refine Meets.bind ((Delivers.of_quiet (completeJob_quiet p) hy).weaken fun r z hz => ?_)
          match r with
          | .ok r => exact trivial
          | .error e => exact hfail e z hz
    · exact trivial

/-- A job as `create_backfill_job` first commits it. -/
def createdJob (streams : List String) : BackfillJob κ σ := { streams := streams }

/-- Where all that is collected is one stream, each of its calls starts with no cursor or with one
of its own, and after it is done with the cursor it was done with, over any crashes and
redeliveries. -/
theorem backfill_own_cursors (mac : κ → σ) (streams : List String) (y : JobCrew κ σ Unit)
    (h : Crew.Reaches (deliveryRules mac JobWorld.OneStream)
      (JobCrew.idle Unit (createdJob streams)) y) :
    OwnCursors y.shared.trace := by
  have htrans : ∀ i (s t u : JobWorld κ σ), SameJob i s t → SameJob i t u → SameJob i s u :=
    fun _ _ _ _ => SameJob.trans
  have hrest : ∀ i (s t : JobWorld κ σ), True → SameJob i s t → True :=
    fun _ _ _ _ _ => trivial
  have hassured := h.assured (I := JobWorld.Single mac) htrans (fun _ => SameJob.refl) hrest
    (show ∀ i j s t, j ≠ i → Alive i s t → SameJob j s t from ?_) ?_ ?_ ?_
  · exact hassured.1.own
  · intro i j w u hji hguar
    refine ⟨Nat.le_of_eq (hguar.1.trans hguar.2.symm), fun hw _ => ?_⟩
    exact absurd (hw.symm.trans hguar.1) hji
  · intro w i c hI _ hstart
    exact collectBackfillJob_delivers ⟨(show i = w.live from hstart).symm, rfl, rfl⟩
  · intro w u hI hm
    rcases hm with rfl | ⟨row, hrow, rfl⟩
    · refine ⟨hI.of_eq rfl rfl, fun i => ⟨Nat.le_succ _, fun hw hu => ?_⟩⟩
      have hlive : w.live + 1 = i := hu
      omega
    · exact ⟨hI.of_eq rfl hrow, fun i => ⟨Nat.le_refl _, fun _ _ => ⟨hrow, rfl⟩⟩⟩
  · refine ⟨⟨trivial, fun e he => (List.not_mem_nil he).elim,
      fun s c hm => (List.not_mem_nil hm).elim, rfl⟩, fun i => trivial⟩

instance (w : JobWorld κ σ) : (q : JobAsk κ σ) → Decidable (w.OneStream q)
  | .call stream _ => inferInstanceAs (Decidable (∀ e ∈ w.trace, e.stream = stream))
  | .read | .commit _ _ _ | .now | .result _ | .publish => isTrue trivial

def delivered (streams : List String) : JobWorld Nat Nat :=
  ((collectBackfillJob id).play jobReply { row := createdJob streams }).2

/-- A job of two streams: the second starts with the cursor of the first. -/
theorem backfill_foreign_cursor :
    ∃ y : JobCrew Nat Nat Unit,
      Crew.Reaches (deliveryRules id (fun _ _ => True))
          (JobCrew.idle Unit (createdJob ["a", "bb"])) y ∧
        ¬ OwnCursors y.shared.trace := by
  have hreply : ∀ (w : JobWorld Nat Nat) (q : JobAsk Nat Nat), decide (0 = w.live) = true →
      (deliveryRules id (fun _ _ => True)).answers 0 w q (jobReply w q).1 (jobReply w q).2 :=
    fun w q h => ⟨of_decide_eq_true h, trivial, jobReply_effect w q⟩
  have hrun := Dialog.runs_play hreply (t := collectBackfillJob id)
    (s := { row := createdJob ["a", "bb"] }) (by decide +kernel)
  have hreach := Crew.reaches_of_ended_call (R := deliveryRules id (fun _ _ => True))
    (x := JobCrew.idle Unit (createdJob ["a", "bb"])) (i := 0) (c := ()) rfl rfl hrun
  refine ⟨_, hreach, fun h => ?_⟩
  have htrace : (delivered ["a", "bb"]).trace =
      [.saved "bb" 2, .returned "bb" 2, .called "bb" (some 1), .saved "a" 1, .returned "a" 1,
        .called "a" none] := by decide +kernel
  change OwnCursors (delivered ["a", "bb"]).trace at h
  rw [htrace] at h
  exact absurd (h.1 1 rfl) (by decide)

theorem backfill_own_cursors_twice :
    ∃ y : JobCrew Nat Nat Unit,
      Crew.Reaches (deliveryRules id JobWorld.OneStream)
          (JobCrew.idle Unit (createdJob ["a", "a"])) y ∧
        y.shared.row.status = .completed ∧ OwnCursors y.shared.trace := by
  have hreply : ∀ (w : JobWorld Nat Nat) (q : JobAsk Nat Nat),
      decide (0 = w.live ∧ w.OneStream q) = true →
        (deliveryRules id JobWorld.OneStream).answers 0 w q (jobReply w q).1 (jobReply w q).2 :=
    fun w q h => ⟨(of_decide_eq_true h).1, (of_decide_eq_true h).2, jobReply_effect w q⟩
  have hrun := Dialog.runs_play hreply (t := collectBackfillJob id)
    (s := { row := createdJob ["a", "a"] }) (by decide +kernel)
  have hreach := Crew.reaches_of_ended_call (R := deliveryRules id JobWorld.OneStream)
    (x := JobCrew.idle Unit (createdJob ["a", "a"])) (i := 0) (c := ()) rfl rfl hrun
  exact ⟨_, hreach, by decide +kernel, backfill_own_cursors id _ _ hreach⟩

end Deliveries

end CentralOps
