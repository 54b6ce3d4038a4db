import CentralOps.Lib.Proc
import Mathlib.Data.List.Nodup
import Mathlib.Data.List.Perm.Basic

namespace CentralOps
set_option autoImplicit true

/-- What leaves a call that raises: an `Exception`, or an interrupt that `except Exception`
does not catch. -/
inductive Raised where
  | exception | interrupt
  deriving DecidableEq

/-- Where a run raises first. -/
inductive Place where
  /-- Before the loop over the events. -/
  | setup
  /-- With no claimed event in hand: in the vendor, in the id, in the claim call, or in the
  counters of an event that is done. -/
  | fetching
  /-- With an event in hand that is claimed and neither in the batch nor in quarantine. -/
  | handling
  /-- In `_enqueue_dispatch`, or on the way to it. -/
  | handOff
  /-- After `_enqueue_dispatch` returned and before the batch is forgotten. -/
  | settling
  /-- After the last batch. -/
  | closing
  deriving DecidableEq

structure Fault where
  place : Place
  raised : Raised
  deriving DecidableEq

def fallible (p : Place) : Option Raised → Proc σ Fault Unit
  | none => pure ()
  | some r => Proc.raise ⟨p, r⟩

/-- What `default_engine.apply` does with an event. -/
inductive MappingOutcome where
  | done
  | requiredField
  | mappingError
  | raises (r : Raised)
  deriving DecidableEq

/-- What the structural gate and the policy of the organisation make of an envelope. -/
inductive Conformance where
  | passes
  | quarantines
  | drops
  | raises (r : Raised)
  deriving DecidableEq

/-- What `_maybe_suppress` and what follows a suppression do. -/
inductive Suppressed where
  | no
  | yes
  | raises (r : Raised)
  deriving DecidableEq

/-- An event that a collector yields, with what the calls made for it do. -/
structure RawEvent (ι : Type) where
  /-- `extract_message_id` or `compute_message_id`. -/
  id : ι
  /-- Whether no other run holds the dedupe key of the event. -/
  fresh : Bool := true
  /-- What the vendor, the id and the claim call raise. -/
  fetch : Option Raised := none
  /-- What the counter of a duplicate raises. -/
  duplicate : Option Raised := none
  /-- What runs between the claim and the mapping. -/
  sampled : Option Raised := none
  applied : MappingOutcome := .done
  /-- What `build_envelope` and the taps after it raise. -/
  built : Option Raised := none
  conformance : Conformance := .passes
  hasCustomer : Bool := true
  suppressed : Suppressed := .no
  quarantine : Option Raised := none
  /-- What the counter after the quarantine write raises. -/
  counted : Option Raised := none
  /-- Whether `collector_batch_flush_seconds` have passed. -/
  timeUp : Bool := false
  enqueue : Option Raised := none
  settle : Option Raised := none
  deriving DecidableEq

/-- The dedupe claims of a run, and what became of the events that it claimed. -/
structure Claims (ι : Type) where
  /-- The keys the run has set and that still stand. -/
  held : List ι := []
  claimed : List (RawEvent ι) := []
  /-- The events whose way ends in quarantine, in the suppression or in a drop. -/
  stopped : List ι := []
  /-- The events of the batches whose `_enqueue_dispatch` returned. -/
  dispatched : List ι := []
  batch : List ι := []

variable {ι : Type}

namespace Claims

/-- Whether `claim` returns true. -/
def takes [DecidableEq ι] (s : Claims ι) (e : RawEvent ι) : Bool := e.fresh && decide (e.id ∉ s.held)

def claim (s : Claims ι) (e : RawEvent ι) : Claims ι :=
  { s with held := e.id :: s.held, claimed := s.claimed ++ [e] }

def stop (s : Claims ι) (i : ι) : Claims ι := { s with stopped := i :: s.stopped }

def push (s : Claims ι) (i : ι) : Claims ι := { s with batch := s.batch ++ [i] }

def dispatch (s : Claims ι) : Claims ι := { s with dispatched := s.dispatched ++ s.batch }

end Claims

inductive ErrorKind where
  | missingMapping | map | validate | missingCustomerId
  deriving DecidableEq

/-- What becomes of a claimed event. -/
inductive Verdict where
  | passes
  | quarantines (kind : ErrorKind)
  | drops
  | raises (r : Raised)
  deriving DecidableEq

/-- What a run of the backfill reads of its configuration. -/
structure BackfillConfig where
  /-- Whether the event type has a current mapping. -/
  mapped : Bool
  batchSize : Nat

/-- The way of a claimed event through `run_backfill_collection_once`. -/
def backfillVerdict (c : BackfillConfig) (e : RawEvent ι) : Verdict :=
  if c.mapped = false then .quarantines .missingMapping
  else
    match e.applied with
    | .requiredField | .mappingError => .quarantines .map
    | .raises r => .raises r
    | .done =>
      match e.built with
      | some r => .raises r
      | none => if e.hasCustomer then .passes else .quarantines .missingCustomerId

/-- `_enqueue_dispatch`, the counter after it, and the new batch. -/
def backfillFlush (enqueue settle : Option Raised) : Proc (Claims ι) Fault Unit := do
  fallible .handOff enqueue
  Proc.modify Claims.dispatch
  fallible .settling settle
  Proc.modify (fun s => { s with batch := [] })

/-- `if batch:`, with what is done with a last batch. -/
def ifBatch (flush : Proc (Claims ι) Fault Unit) : Proc (Claims ι) Fault Unit := do
  let s ← Proc.get
  if s.batch ≠ [] then flush else pure ()

/-- The body of the loop of `run_backfill_collection_once`. -/
def backfillEvent [DecidableEq ι] (c : BackfillConfig) (e : RawEvent ι) : Proc (Claims ι) Fault Unit := do
  fallible .fetching e.fetch
  let s ← Proc.get
  if s.takes e then
    Proc.modify (·.claim e)
    match backfillVerdict c e with
    | .raises r => Proc.raise ⟨.handling, r⟩
    | .passes =>
      Proc.modify (·.push e.id)
      let s ← Proc.get
      if c.batchSize ≤ s.batch.length ∨ e.timeUp then backfillFlush e.enqueue e.settle
      else pure ()
    | .quarantines _ | .drops =>
      fallible .handling e.quarantine
      Proc.modify (·.stop e.id)
      fallible .fetching e.counted
  else fallible .fetching e.duplicate

/-- What the calls of a run of the backfill do. -/
structure BackfillRun (ι : Type) where
  setup : Option Raised := none
  /-- Whether the integration is active and its collector registered. -/
  active : Bool := true
  events : List (RawEvent ι)
  /-- What the vendor raises after the last event. -/
  vendor : Option Raised := none
  enqueue : Option Raised := none
  settle : Option Raised := none
  closing : Option Raised := none
  aclose : Option Raised := none

/-- The part of `run_backfill_collection_once` inside the `try`. -/
def backfillBody [DecidableEq ι] (c : BackfillConfig) (r : BackfillRun ι) :
    Proc (Claims ι) Fault Unit := do
  fallible .setup r.setup
  if r.active then
    let _ ← Proc.each (backfillEvent c) r.events
    fallible .fetching r.vendor
    ifBatch (backfillFlush r.enqueue r.settle)
    fallible .closing r.closing
  else pure ()

/-- `finally: await redis.aclose()`: what it raises takes the place of what was raised. -/
def acloses (aclose : Option Raised) (m : Proc σ Fault Unit) : Proc σ Fault Unit := do
  let outcome ← Proc.attempt m
  match outcome with
  | .ok () => fallible .closing aclose
  | .error f => Proc.raise ⟨f.place, aclose.getD f.raised⟩

/-- The dedupe side of `run_backfill_collection_once`. -/
def runBackfillCollectionOnce [DecidableEq ι] (c : BackfillConfig) (r : BackfillRun ι) :
    Proc (Claims ι) Fault Unit :=
  acloses r.aclose (backfillBody c r)

/-- No claimed event that was neither handed over nor quarantined is still claimed. -/
def Claims.LetGo (s : Claims ι) : Prop :=
  ∀ e ∈ s.claimed, e.id ∉ s.dispatched → e.id ∉ s.stopped → e.id ∉ s.held

structure Claims.Tracked (s : Claims ι) (hand : List ι) : Prop where
  stands : s.held.Nodup
  kept : s.held.Perm (s.claimed.map RawEvent.id)
  placed : s.held.Perm (hand ++ (s.stopped ++ (s.dispatched ++ s.batch)))

namespace Claims.Tracked

variable {s : Claims ι} {hand : List ι}

theorem start : ({} : Claims ι).Tracked [] :=
  ⟨List.nodup_nil, List.Perm.refl _, List.Perm.refl _⟩

theorem claim [DecidableEq ι] (h : s.Tracked []) (ht : s.takes e = true) : (s.claim e).Tracked [e.id] where
  stands := by
    simp only [Claims.takes, Bool.and_eq_true, decide_eq_true_eq] at ht
    exact List.nodup_cons.mpr ⟨ht.2, h.stands⟩
  kept := by
    simp only [Claims.claim, List.map_append, List.map_cons, List.map_nil]
    exact (h.kept.cons e.id).trans (List.perm_append_singleton _ _).symm
  placed := h.placed.cons e.id

theorem stop (h : s.Tracked [i]) : (s.stop i).Tracked [] := ⟨h.stands, h.kept, h.placed⟩

theorem push (h : s.Tracked [i]) : (s.push i).Tracked [] where
  stands := h.stands
  kept := h.kept
  placed := by
    have hp := h.placed.trans (@List.perm_append_comm _ [i] _)
    simpa only [Claims.push, List.nil_append, List.append_assoc] using hp

theorem flush (h : s.Tracked []) : ({ s.dispatch with batch := [] } : Claims ι).Tracked [] where
  stands := h.stands
  kept := h.kept
  placed := by simpa only [Claims.dispatch, List.append_nil] using h.placed

theorem pending (h : s.Tracked hand) (hi : i ∈ hand ++ s.batch) :
    (∃ e ∈ s.claimed, e.id = i) ∧ i ∈ s.held ∧ i ∉ s.dispatched ∧ i ∉ s.stopped := by
  have hheld : i ∈ s.held := by
    refine h.placed.mem_iff.mpr ?_
    rcases List.mem_append.mp hi with hh | hb
    · exact List.mem_append_left _ hh
    · exact List.mem_append_right _ (List.mem_append_right _ (List.mem_append_right _ hb))
  have hnd := h.placed.nodup_iff.mp h.stands
  simp only [List.nodup_append, List.mem_append] at hnd
  obtain ⟨-, ⟨-, ⟨-, -, hdb⟩, hsb⟩, hhand⟩ := hnd
  refine ⟨List.mem_map.mp (h.kept.mem_iff.mp hheld), hheld, fun hd => ?_, fun hs => ?_⟩
  · rcases List.mem_append.mp hi with hh | hb
    · exact hhand i hh i (.inr (.inl hd)) rfl
    · exact hdb i hd i hb rfl
  · rcases List.mem_append.mp hi with hh | hb
    · exact hhand i hh i (.inl hs) rfl
    · exact hsb i hs i (.inr hb) rfl

theorem letGo_iff (h : s.Tracked hand) : s.LetGo ↔ hand = [] ∧ s.batch = [] := by
  rw [← List.append_eq_nil_iff]
  constructor
  · intro hl
    refine List.eq_nil_iff_forall_not_mem.mpr fun i hi => ?_
    obtain ⟨⟨e, he, rfl⟩, hheld, hd, hs⟩ := h.pending hi
    exact hl e he hd hs hheld
  · intro hnil e he hd hs hheld
    obtain ⟨hhand, hbatch⟩ := List.append_eq_nil_iff.mp hnil
    have hp := h.placed.mem_iff.mp hheld
    simp only [hhand, hbatch, List.nil_append, List.append_nil, List.mem_append] at hp
    exact hp.elim hs hd

theorem letGo_dispatch (h : s.Tracked []) : s.dispatch.LetGo :=
  (h.flush.letGo_iff).mpr ⟨rfl, rfl⟩

end Claims.Tracked

/-- The places where a run of the backfill may raise without leaving an event behind. -/
def Fault.Harmless (f : Fault) (s : Claims ι) : Prop :=
  f.place = .setup ∨ f.place = .settling ∨ f.place = .closing ∨ f.place = .fetching ∧ s.batch = []

def BackfillLeft (f : Fault) (s : Claims ι) : Prop := s.LetGo ↔ f.Harmless s

theorem Claims.Tracked.left_fetching (h : s.Tracked []) :
    BackfillLeft ⟨.fetching, r⟩ (s : Claims ι) := by
  simp [BackfillLeft, Fault.Harmless, h.letGo_iff]

theorem Claims.Tracked.left_handling (h : s.Tracked [i]) :
    BackfillLeft ⟨.handling, r⟩ (s : Claims ι) := by
  simp [BackfillLeft, Fault.Harmless, h.letGo_iff]

theorem Claims.Tracked.left_handOff (h : s.Tracked []) (hb : s.batch ≠ []) :
    BackfillLeft ⟨.handOff, r⟩ (s : Claims ι) := by
  simp [BackfillLeft, Fault.Harmless, h.letGo_iff, hb]

open Proc

theorem fallible_ends {P : σ → Prop} {E : Fault → σ → Prop} (p : Place) (o : Option Raised)
    (h : ∀ r s, P s → E ⟨p, r⟩ s) : Ends P (fallible p o) (fun _ => P) E := by
  cases o with
  | none => exact Ends.pure (fun _ hs => hs)
  | some r => exact Ends.raise (h r)

theorem backfillFlush_ends (enqueue settle : Option Raised) :
    Ends (fun s : Claims ι => s.Tracked [] ∧ s.batch ≠ []) (backfillFlush enqueue settle)
      (fun _ s => s.Tracked [] ∧ s.batch = []) BackfillLeft := by
  refine Ends.bind (fallible_ends _ _ fun r s hs => hs.1.left_handOff hs.2) fun _ => ?_
  refine Ends.bind (Q := fun _ s => s.LetGo ∧ ({ s with batch := [] } : Claims ι).Tracked [])
    (Ends.modify fun s hs => ⟨hs.1.letGo_dispatch, hs.1.flush⟩) fun _ => ?_
  refine Ends.bind (fallible_ends _ _ fun r s hs => ?_) fun _ => ?_
  · exact ⟨fun _ => .inr (.inl rfl), fun _ => hs.1⟩
  · exact Ends.modify fun s hs => ⟨hs.2, rfl⟩

theorem backfillEvent_ends [DecidableEq ι] (c : BackfillConfig) (e : RawEvent ι) :
    Ends (fun s => s.Tracked []) (backfillEvent c e) (fun _ s => s.Tracked []) BackfillLeft := by
  refine Ends.bind (fallible_ends _ _ fun r s hs => hs.left_fetching) fun _ => ?_
  refine Ends.get_bind fun s₀ hs₀ => Ends.ite (fun ht => ?_) (fun _ => ?_)
  · refine Ends.bind (Q := fun _ s => s.Tracked [e.id])
      (Ends.modify fun s hs => hs ▸ hs₀.claim ht) fun _ => ?_
    have hstop (o o' : Option Raised) : Ends (fun s : Claims ι => s.Tracked [e.id])
        (do fallible .handling o; Proc.modify (·.stop e.id); fallible .fetching o')
        (fun _ s => s.Tracked []) BackfillLeft := by
      refine Ends.bind (fallible_ends _ _ fun r s hs => hs.left_handling) fun _ => ?_
      refine Ends.bind (Q := fun _ s => s.Tracked []) (Ends.modify fun s hs => hs.stop) fun _ => ?_
      exact fallible_ends _ _ fun r s hs => hs.left_fetching
    cases backfillVerdict c e with
    | raises r => exact Ends.raise fun s hs => hs.left_handling
    | quarantines kind => exact hstop _ _
    | drops => exact hstop _ _
    | passes =>
      refine Ends.bind (Q := fun _ s => s.Tracked [] ∧ s.batch ≠ [])
        (Ends.modify fun s hs => ⟨hs.push, by simp [Claims.push]⟩) fun _ => ?_
      refine Ends.get_bind fun s₁ hs₁ => Ends.ite (fun _ => ?_) (fun _ => ?_)
      · exact ((backfillFlush_ends e.enqueue e.settle).pre fun s hs => hs ▸ hs₁).post
          fun _ s hs => hs.1
      · exact Ends.pure fun s hs => by subst hs; exact hs₁.1
  · have h := fallible_ends (P := fun s : Claims ι => s.Tracked []) (E := BackfillLeft) .fetching
      e.duplicate fun r s hs => hs.left_fetching
    exact h.pre fun s hs => by subst hs; exact hs₀

theorem backfillBody_ends [DecidableEq ι] (c : BackfillConfig) (r : BackfillRun ι) :
    Ends (fun s => s = {}) (backfillBody c r) (fun _ s => s.LetGo) BackfillLeft := by
  have hstart : ({} : Claims ι).LetGo := Claims.Tracked.start.letGo_iff.mpr ⟨rfl, rfl⟩
  refine Ends.bind (fallible_ends _ _ fun r s hs => ?_) fun _ => Ends.ite (fun _ => ?_) (fun _ => ?_)
  · exact ⟨fun _ => .inl rfl, fun _ => hs ▸ hstart⟩
  · have hloop : Ends (fun s => s = {}) (Proc.each (backfillEvent c) r.events)
        (fun _ s => s.Tracked []) BackfillLeft :=
      (Ends.each (I := fun _ (s : Claims ι) => s.Tracked [])
        fun _ e _ _ => backfillEvent_ends c e).pre fun s hs => by subst hs; exact .start
    refine Ends.bind hloop fun _ => ?_
    refine Ends.bind (fallible_ends _ _ fun r s hs => hs.left_fetching) fun _ => ?_
    refine Ends.bind (Q := fun _ s => s.LetGo) ?_ fun _ => ?_
    · refine Ends.get_bind fun s₀ hs₀ => Ends.ite (fun hb => ?_) (fun hb => ?_)
      · exact ((backfillFlush_ends r.enqueue r.settle).pre fun s hs => hs ▸ ⟨hs₀, hb⟩).post
          fun _ s hs => hs.1.letGo_iff.mpr ⟨rfl, hs.2⟩
      · exact Ends.pure fun s hs => by subst hs; exact hs₀.letGo_iff.mpr ⟨rfl, not_not.mp hb⟩
    · exact fallible_ends _ _ fun r s hs => ⟨fun _ => .inr (.inr (.inl rfl)), fun _ => hs⟩
  · exact Ends.pure fun s hs => hs ▸ hstart

theorem acloses_ends {P : Claims ι → Prop} {m : Proc (Claims ι) Fault Unit}
    (aclose : Option Raised) (hm : Ends P m (fun _ s => s.LetGo) BackfillLeft) :
    Ends P (acloses aclose m) (fun _ s => s.LetGo) BackfillLeft := by
  refine Ends.bind (Ends.attempt (K := fun o s =>
    match o with
    | .ok _ => s.LetGo
    | .error f => BackfillLeft f s) hm) fun o => ?_
  cases o with
  | ok a => exact fallible_ends _ _ fun r s hs => ⟨fun _ => .inr (.inr (.inl rfl)), fun _ => hs⟩
  | error f => exact Ends.raise fun s hs => hs

/-- A run of the backfill that raises has let go of every event that it neither handed over nor
quarantined exactly when it raised before its loop, after a hand-off, or with no claimed event
in hand and an empty batch. -/
theorem backfill_lets_go_iff [DecidableEq ι] (c : BackfillConfig) (r : BackfillRun ι) (f : Fault)
    (s : Claims ι) (h : runBackfillCollectionOnce c r {} = .raised f s) :
    s.LetGo ↔ f.Harmless s := by
  have hrun := acloses_ends r.aclose (backfillBody_ends c r) {} rfl
  rw [runBackfillCollectionOnce] at h
  rw [h] at hrun
  exact hrun

/-- A vendor that fails after its first event, which waits in the batch. -/
def brokenBackfill : BackfillRun Nat := { events := [{ id := 1 }], vendor := some .exception }

theorem backfill_lets_go_broken :
    ¬ (Claims.LetGo (runBackfillCollectionOnce ⟨true, 500⟩ brokenBackfill {}).state) := by
  intro h
  exact absurd (h { id := 1 } (by decide) (by decide) (by decide)) (by decide)

theorem backfill_lets_go_iff_broken :
    ∃ f s, runBackfillCollectionOnce ⟨true, 500⟩ brokenBackfill {} = .raised f s ∧
      (s.LetGo ↔ f.Harmless s) :=
  ⟨_, _, rfl, backfill_lets_go_iff ⟨true, 500⟩ brokenBackfill _ _ rfl⟩

end CentralOps
