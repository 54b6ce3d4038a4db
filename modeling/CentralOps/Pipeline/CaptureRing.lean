import CentralOps.Lib.Eviction
import CentralOps.Lib.Stages

namespace CentralOps
set_option autoImplicit true

/-- The sizes in the meta of a session, as `int` reads them where it can. -/
structure CaptureSession where
  ringSize : Option Int := none
  ringBytes : Option Int := none

namespace CaptureSession

def defaultRingSize : Int := 5000

def maxRingSize : Int := 20000

def captureSessionMaxBytes : Int := 25165824

/-- `_ring_params`. -/
def ringParams (m : CaptureSession) : Nat × Int :=
  ((max 1 (min (m.ringSize.getD defaultRingSize) maxRingSize)).toNat,
    max (64 * 1024) (min (m.ringBytes.getD captureSessionMaxBytes) captureSessionMaxBytes))

end CaptureSession

structure Append where
  entries : List String
  outcome : String

/-- The script runs, or `evalsha` or `script_load` raises, perhaps with `NOSCRIPT` in its text. -/
inductive ScriptReply where
  | done
  | failed (noScript : Bool)

inductive CaptureAsk where
  | appendSha
  | scriptLoad
  | evalsha (a : Append)
  | pipeline (a : Append) (marks : Bool)

/-- A pipeline answers whether it returned. -/
abbrev CaptureAnswer : CaptureAsk → Type
  | .appendSha => Bool
  | .scriptLoad => ScriptReply
  | .evalsha _ => ScriptReply
  | .pipeline _ _ => Bool

abbrev CaptureTask := Dialog CaptureAsk CaptureAnswer

/-- `script_load`, and the script by its digest. -/
def loadAndRun (a : Append) : CaptureTask ScriptReply := do
  match (← Dialog.query .scriptLoad : ScriptReply) with
  | .done => Dialog.query (CaptureAsk.evalsha a)
  | .failed noScript => pure (.failed noScript)

/-- `_append_entries`; it answers whether it returned. -/
def appendEntries (a : Append) : CaptureTask Bool := do
  let known : Bool ← Dialog.query CaptureAsk.appendSha
  let first : ScriptReply ← if known then Dialog.query (CaptureAsk.evalsha a) else loadAndRun a
  match first with
  | .done => pure true
  | .failed noScript =>
    let again ← if noScript then loadAndRun a else pure (.failed false)
    match again with
    | .done => pure true
    | .failed _ => Dialog.query (CaptureAsk.pipeline a true)

/-- A call of `record` or `record_sync` for the session. -/
inductive CaptureCall where
  | record (a : Append)
  | recordSync (a : Append)

def CaptureCall.program : CaptureCall → CaptureTask Bool
  | .record a => if a.entries = [] then pure true else Dialog.query (CaptureAsk.pipeline a false)
  | .recordSync a => if a.entries = [] then pure true else appendEntries a

/-- The events of a session, newest first, what the meta counts, and all that was ever appended with
its outcome. -/
structure CaptureRing where
  events : List String := []
  eventCount : Nat := 0
  outcomes : String → Nat := fun _ => 0
  ringBytesUsed : Int := 0
  unbudgeted : Bool := false
  appended : List (String × String) := []

namespace CaptureRing

/-- The bytes of a list of entries. -/
def bytes (l : List String) : Nat := l.weight String.utf8ByteSize

/-- The entries pushed one by one. -/
def pushed (w : CaptureRing) (a : Append) : List String :=
  a.entries.foldl (fun l entry => entry :: l) w.events

/-- The counters of an append. -/
def counted (w : CaptureRing) (a : Append) : CaptureRing :=
  { w with
    eventCount := w.eventCount + a.entries.length
    outcomes := Function.update w.outcomes a.outcome (w.outcomes a.outcome + a.entries.length)
    appended := a.entries.map (fun entry => (a.outcome, entry)) ++ w.appended }

/-- `_APPEND_LUA`. -/
def runScript (m : CaptureSession) (w : CaptureRing) (a : Append) : CaptureRing :=
  let pushed := w.pushed a
  let fitting := Eviction.evict String.utf8ByteSize (fun l _ => m.ringParams.1 < l.length)
    pushed.length pushed (w.ringBytesUsed + bytes a.entries)
  let kept := Eviction.evict String.utf8ByteSize (fun _ used => m.ringParams.2 < used)
    fitting.1.length fitting.1 fitting.2
  { w.counted a with events := kept.1, ringBytesUsed := kept.2 }

/-- The pipeline of `record`, and of the fallback, which marks the budget as unavailable. -/
def runPipeline (m : CaptureSession) (w : CaptureRing) (a : Append) (marks : Bool) : CaptureRing :=
  { w.counted a with
    events := (w.pushed a).take m.ringParams.1
    unbudgeted := w.unbudgeted || marks }

/-- What is answered, and what it leaves: a call that raises may have run, unless there was no such
script. -/
def Effect (m : CaptureSession) (w : CaptureRing) :
    (q : CaptureAsk) → CaptureAnswer q → CaptureRing → Prop
  | .appendSha, _, u => u = w
  | .scriptLoad, _, u => u = w
  | .evalsha a, .done, u => u = w.runScript m a
  | .evalsha _, .failed true, u => u = w
  | .evalsha a, .failed false, u => u = w ∨ u = w.runScript m a
  | .pipeline a marks, true, u => u = w.runPipeline m a marks
  | .pipeline a marks, false, u => u = w ∨ u = w.runPipeline m a marks

end CaptureRing

abbrev CaptureCrew (ι : Type) := Crew CaptureRing ι CaptureCall CaptureAsk CaptureAnswer Bool

variable {ι : Type}

def newSession : CaptureCrew ι := ⟨{}, fun _ => none⟩

/-- Which commands of a worker are let happen. -/
abbrev CaptureLaw (ι : Type) := ι → CaptureRing → CaptureAsk → Prop

/-- Workers that record in one session, in any order. -/
def captureRules (m : CaptureSession) (allowed : CaptureLaw ι) :
    CrewRules CaptureRing ι CaptureCall CaptureAsk CaptureAnswer Bool where
  program := CaptureCall.program
  starts _ _ _ := True
  answers i w q r u := allowed i w q ∧ w.Effect m q r u
  moves _ _ := False

/-- The ring is within its size and budget, and the meta says what was appended and what is left. -/
structure CaptureRing.Budgeted (m : CaptureSession) (w : CaptureRing) : Prop where
  size : w.events.length ≤ m.ringParams.1
  used : w.ringBytesUsed = bytes w.events
  budget : w.unbudgeted = false → (bytes w.events : Int) ≤ m.ringParams.2
  count : w.eventCount = w.appended.length
  outcomes : ∀ outcome, w.outcomes outcome = w.appended.countP (fun p => p.1 = outcome)

def Even (m : CaptureSession) (w : CaptureRing) : CaptureAsk → Prop
  | .pipeline a marks =>
    CaptureRing.bytes (w.runPipeline m a marks).events = CaptureRing.bytes w.events
  | _ => True

namespace CaptureRing

variable {m : CaptureSession} {w u : CaptureRing} {a : Append}

theorem bytes_append (l l' : List String) : bytes (l ++ l') = bytes l + bytes l' := by
  rw [bytes, List.weight, List.map_append, List.sum_append]
  rfl

theorem bytes_reverse (l : List String) : bytes l.reverse = bytes l := by
  rw [bytes, List.weight, List.map_reverse, List.sum_reverse]
  rfl

theorem bytes_pushed (w : CaptureRing) (a : Append) :
    bytes (w.pushed a) = bytes a.entries + bytes w.events := by
  rw [pushed, List.foldl_flip_cons_eq_append', bytes_append, bytes_reverse]

theorem counted_count (h : w.eventCount = w.appended.length) :
    (w.counted a).eventCount = (w.counted a).appended.length := by
  rw [counted, List.length_append, List.length_map, h, Nat.add_comm]

theorem counted_outcomes
    (h : ∀ outcome, w.outcomes outcome = w.appended.countP (fun p => p.1 = outcome))
    (outcome : String) :
    (w.counted a).outcomes outcome = (w.counted a).appended.countP (fun p => p.1 = outcome) := by
  change Function.update w.outcomes a.outcome (w.outcomes a.outcome + a.entries.length) outcome =
    List.countP _ (a.entries.map (fun entry => (a.outcome, entry)) ++ w.appended)
  rw [List.countP_append, List.countP_map]
  by_cases ho : outcome = a.outcome
  · subst ho
    have hall : a.entries.countP ((fun p : String × String => decide (p.1 = a.outcome)) ∘
        fun entry => (a.outcome, entry)) = a.entries.length :=
      List.countP_eq_length.2 fun entry _ => decide_eq_true rfl
    rw [Function.update_self, hall, h, Nat.add_comm]
  · have hnone : a.entries.countP ((fun p : String × String => decide (p.1 = outcome)) ∘
        fun entry => (a.outcome, entry)) = 0 :=
      List.countP_eq_zero.2 fun entry _ he => ho (of_decide_eq_true he).symm
    rw [Function.update_of_ne ho, hnone, h, Nat.zero_add]

theorem ringParams_snd_pos (m : CaptureSession) : 0 ≤ m.ringParams.2 := by
  rw [CaptureSession.ringParams]
  omega

/-- The script leaves the ring within its size and budget, whatever it was, if the account was
right. -/
theorem Budgeted.runScript (h : w.Budgeted m) (a : Append) : (w.runScript m a).Budgeted m := by
  have hpushed : w.ringBytesUsed + (bytes a.entries : Int) - bytes (w.pushed a) = 0 := by
    rw [bytes_pushed, h.used]
    omega
  obtain ⟨fitting, hfit⟩ : ∃ fitting, fitting = Eviction.evict String.utf8ByteSize
    (fun l _ => m.ringParams.1 < l.length) (w.pushed a).length (w.pushed a)
    (w.ringBytesUsed + bytes a.entries) := ⟨_, rfl⟩
  obtain ⟨kept, hkept⟩ : ∃ kept, kept = Eviction.evict String.utf8ByteSize
    (fun _ used => m.ringParams.2 < used) fitting.1.length fitting.1 fitting.2 := ⟨_, rfl⟩
  have hfitBalance : fitting.2 - bytes fitting.1 = 0 := by
    rw [hfit]
    exact (Eviction.evict_balance _ _ _).trans hpushed
  have hbalance : kept.2 - bytes kept.1 = 0 := by
    rw [hkept]
    exact (Eviction.evict_balance _ _ _).trans hfitBalance
  have hfits : fitting.1.length ≤ m.ringParams.1 := by
    obtain hnil | hstop := hfit ▸ Eviction.evict_stops (Nat.le_refl (w.pushed a).length)
      (w.ringBytesUsed + (bytes a.entries : Int))
    · rw [hnil]
      exact Nat.zero_le _
    · exact Nat.not_lt.1 (of_decide_eq_false hstop)
  have hrun : w.runScript m a =
      { w.counted a with events := kept.1, ringBytesUsed := kept.2 } := by
    rw [hkept, hfit]
    rfl
  rw [hrun]
  constructor
  · have hshorter : kept.1 <+: fitting.1 := hkept ▸ Eviction.evict_prefix _ _ _
    exact Nat.le_trans hshorter.length_le hfits
  · exact sub_eq_zero.1 hbalance
  · intro _
    obtain hnil | hstop := hkept ▸ Eviction.evict_stops (Nat.le_refl fitting.1.length) fitting.2
    · change (bytes kept.1 : Int) ≤ _
      rw [hnil]
      exact ringParams_snd_pos m
    · exact (sub_eq_zero.1 hbalance) ▸ Int.not_lt.1 (of_decide_eq_false hstop)
  · exact counted_count h.count
  · exact counted_outcomes h.outcomes

theorem Budgeted.runPipeline_iff (h : w.Budgeted m) (a : Append) (marks : Bool) :
    (w.runPipeline m a marks).Budgeted m ↔
      bytes (w.runPipeline m a marks).events = bytes w.events := by
  constructor
  · intro hafter
    exact Int.ofNat_inj.1 (hafter.used.symm.trans h.used)
  · intro heven
    constructor
    · exact List.length_take_le _ _
    · exact h.used.trans (congrArg Nat.cast heven.symm)
    · intro hmark
      rw [heven]
      exact h.budget (Bool.or_eq_false_iff.1 hmark).1
    · exact counted_count h.count
    · exact counted_outcomes h.outcomes

theorem Budgeted.effect {q : CaptureAsk} {r : CaptureAnswer q} (h : w.Budgeted m)
    (hr : w.Effect m q r u) (heven : Even m w q) : u.Budgeted m := by
  cases q with
  | appendSha => exact hr ▸ h
  | scriptLoad => exact hr ▸ h
  | evalsha a =>
    cases r with
    | done => exact hr ▸ h.runScript a
    | failed noScript =>
      cases noScript with
      | true => exact hr ▸ h
      | false =>
        obtain rfl | rfl := hr
        · exact h
        · exact h.runScript a
  | pipeline a marks =>
    have hafter : (w.runPipeline m a marks).Budgeted m := (h.runPipeline_iff a marks).2 heven
    cases r with
    | true => exact hr ▸ hafter
    | false =>
      obtain rfl | rfl := hr
      · exact h
      · exact hafter

theorem effect_pipeline (m : CaptureSession) (w : CaptureRing) (a : Append) (marks : Bool) :
    w.Effect m (.pipeline a marks) true (w.runPipeline m a marks) := rfl

theorem budgeted_new (m : CaptureSession) : ({} : CaptureRing).Budgeted m where
  size := Nat.zero_le _
  used := rfl
  budget _ := ringParams_snd_pos m
  count := rfl
  outcomes _ := rfl

end CaptureRing
section Runs
variable [DecidableEq ι] {m : CaptureSession} {allowed : CaptureLaw ι} {x y : CaptureCrew ι}

/-- In every run of the law each pipeline leaves as many bytes as there were. -/
def EvenRuns (ι : Type) [DecidableEq ι] (m : CaptureSession) (allowed : CaptureLaw ι) : Prop :=
  ∀ (x : CaptureCrew ι) (i : ι) (call : CaptureCall) (q : CaptureAsk)
    (next : CaptureAnswer q → CaptureTask Bool),
    Crew.Reaches (captureRules m allowed) newSession x →
    x.running i = some (call, .ask q next) → allowed i x.shared q → Even m x.shared q

theorem budgeted_reaches (hruns : EvenRuns ι m allowed)
    (h : Crew.Reaches (captureRules m allowed) newSession x) : x.shared.Budgeted m := by
  induction h with
  | refl => exact CaptureRing.budgeted_new m
  | tail hrun hlast ih =>
    cases hlast with
    | start hidle hs => exact ih
    | answer hrunning hr => exact ih.effect hr.2 (hruns _ _ _ _ _ hrun hrunning hr.1)
    | finish hrunning => exact ih
    | move hm => exact hm.elim

/-- The ring keeps its size, budget and counts in all runs of a law just if in all of them each
pipeline leaves as many bytes as there were. -/
theorem capture_budget_iff (ι : Type) [DecidableEq ι] (m : CaptureSession)
    (allowed : CaptureLaw ι) :
    (∀ x : CaptureCrew ι, Crew.Reaches (captureRules m allowed) newSession x →
      x.shared.Budgeted m) ↔ EvenRuns ι m allowed := by
  constructor
  · intro hbudgeted x i call q next hx hrunning hallowed
    cases q with
    | pipeline a marks =>
      have hstep : Crew.Step (captureRules m allowed) x _ :=
        .answer hrunning ⟨hallowed, CaptureRing.effect_pipeline m _ a marks⟩
      exact ((hbudgeted x hx).runPipeline_iff a marks).1 (hbudgeted _ (hx.tail hstep))
    | _ => exact trivial
  · exact fun hruns x hx => budgeted_reaches hruns hx

end Runs
def emptyEventEntry : String :=
  "\x7b\"v\":2,\"event\":\x7b\x7d,\"vendor\":null,\"captured_at\":1767225600.0,\"outcome\":" ++
    "\"delivered\",\"stage\":\"routed\",\"payload_kind\":\"envelope\",\"pii_redacted\":false," ++
    "\"event_id\":null\x7d"

def oneDelivered : Append := ⟨[emptyEventEntry], "delivered"⟩

/-- One call of `record` fills the ring and leaves the account at zero. -/
theorem record_unaccounted :
    ∃ x : CaptureCrew Nat,
      Crew.Reaches (captureRules {} (fun _ _ _ => True)) newSession x ∧
        ¬ x.shared.Budgeted {} := by
  have hrun : Dialog.Runs ((captureRules {} (fun _ _ _ => True)).answers (0 : Nat))
      (CaptureCall.record oneDelivered).program ({} : CaptureRing) true
      (CaptureRing.runPipeline {} {} oneDelivered false) :=
    .ask ⟨trivial, CaptureRing.effect_pipeline {} {} oneDelivered false⟩ .done
  have hreached := Crew.reaches_of_call (R := captureRules {} (fun _ _ _ => True))
    (x := newSession) (c := CaptureCall.record oneDelivered) rfl trivial hrun
  refine ⟨_, hreached, fun h => ?_⟩
  have hused : (0 : Int) = CaptureRing.bytes [emptyEventEntry] := h.used
  revert hused
  decide +kernel

end CentralOps
