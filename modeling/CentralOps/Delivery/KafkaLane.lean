import CentralOps.Lib.System
import CentralOps.Delivery.Dispatch

namespace CentralOps
set_option autoImplicit true

def kafkaMaxDeliveryAttempts : Nat := 10

/-- `v.get(k)`; `none` is the `AttributeError` of a value that is not a dict. -/
def Json.pyGet (v : Json) (k : String) : Option Json :=
  match v with
  | .obj o => some (Obj.getN o k)
  | _ => none

/-- `_batch_org_id` on a decoded batch; `none` is an `AttributeError`. -/
def decodedOrgId (rt : Runtime) (batch : List Json) : Option (Option Int) := do
  match batch with
  | [] => some none
  | e :: _ =>
    let labels ← e.pyGet "_centralops"
    if labels.truthy then do
      let org ← labels.pyGet "organization_id"
      some (coerceOrgId rt org)
    else some none

/-- A batch handed to `persist_batch_dlq` that was written. -/
structure StoredBatch where
  partition : Nat
  offset : Nat
  destinationId : String
  errorKind : String
  organizationId : Option Int
  batch : List Json
  deriving DecidableEq

/-- The offsets of every partition, the attempts counted, what became of the messages, whether
the loop runs and whether the value of a message has ever ended it. -/
structure ConsumerState where
  position : Nat → Nat := fun _ => 0
  committed : Nat → Nat := fun _ => 0
  attempts : Dict (Nat × Nat) Nat := .empty
  dispatched : List (Nat × Nat) := []
  stored : List StoredBatch := []
  running : Bool := true
  poisoned : Bool := false

/-- `fenced` is the `CommitFailedError` that the loop tolerates. -/
inductive CommitReply where
  | ok | fenced | raises

structure PollReply where
  dispatch : Except DispatchError Unit
  persisted : Bool := true
  commit : CommitReply := .ok
  recommit : CommitReply := .ok

inductive LoopError where
  | attribute | broker | dispatch (e : DispatchError)

abbrev Consumer := Proc ConsumerState LoopError

section Loop
variable (rt : Runtime) (loads : List UInt8 → Option Json)

def orAttributeError (x : Option α) : Consumer α :=
  match x with
  | some a => pure a
  | none => do
    Proc.modify (fun s => { s with poisoned := true })
    Proc.raise .attribute

def commitOffset (p o : Nat) : CommitReply → Consumer Unit
  | .ok => Proc.modify (fun s => { s with committed := Function.update s.committed p (o + 1) })
  | .fenced => pure ()
  | .raises => Proc.raise .broker

def popAttempts (p o : Nat) : Consumer Unit :=
  Proc.modify (fun s => { s with attempts := s.attempts.filterKeys (fun k => k ≠ (p, o)) })

def seek (p o : Nat) : Consumer Unit :=
  Proc.modify (fun s => { s with position := Function.update s.position p o })

def discard (p o : Nat) (r : PollReply) : Consumer Unit := do
  commitOffset p o r.commit
  popAttempts p o

def dispatchCall (p o : Nat) (r : PollReply) : Consumer Unit :=
  match r.dispatch with
  | .ok _ => Proc.modify (fun s => { s with dispatched := (p, o) :: s.dispatched })
  | .error e => Proc.raise (.dispatch e)

def persistCall (row : StoredBatch) (r : PollReply) : Consumer Unit :=
  if r.persisted then Proc.modify (fun s => { s with stored := row :: s.stored }) else pure ()

def storeWhole (p o : Nat) (destId errorKind : String) (batch : List Json) (r : PollReply) :
    Consumer Unit := do
  let org ← orAttributeError (decodedOrgId rt batch)
  persistCall { partition := p, offset := o, destinationId := destId, errorKind := errorKind,
                organizationId := org, batch := batch } r

def onBreakerOpen (p o : Nat) (destId : String) (batch : List Json) (r : PollReply) :
    Consumer Unit := do
  storeWhole rt p o destId "breaker_open" batch r
  commitOffset p o r.commit
  popAttempts p o

def onTransient (p o : Nat) (destId : String) (batch : List Json) (r : PollReply) :
    Consumer Unit := do
  Proc.modify (fun s => { s with attempts := s.attempts.bump (p, o) 1 })
  let s ← Proc.get
  if kafkaMaxDeliveryAttempts < (s.attempts.get? (p, o)).getD 0 then do
    storeWhole rt p o destId "exhausted" batch r
    popAttempts p o
    commitOffset p o r.commit
  else seek p o

/-- The dispatch of a well-formed message. An exception of the first commit is handled like one
of the dispatch itself. -/
def processDelivery (p o : Nat) (destId : String) (batch : List Json) (r : PollReply) :
    Consumer Unit := do
  match ← Proc.attempt (do
    dispatchCall p o r
    commitOffset p o r.commit
    popAttempts p o) with
  | .ok _ => pure ()
  | .error (.dispatch .breakerOpen) => onBreakerOpen rt p o destId batch r
  | .error (.dispatch .transient) => onTransient rt p o destId batch r
  | .error (.dispatch _) => do
    commitOffset p o r.commit
    popAttempts p o
  | .error _ => do
    commitOffset p o r.recommit
    popAttempts p o

/-- One turn of `run_dispatch_consumer` for a message. -/
def handleMessage (p o : Nat) (raw : List UInt8) (r : PollReply) : Consumer Unit :=
  match loads raw with
  | none => discard p o r
  | some payload => do
    let destId ← orAttributeError (payload.pyGet "destination_id")
    let batch ← orAttributeError (payload.pyGet "batch")
    match destId, batch with
    | .str d, .list b => if d = "" then discard p o r else processDelivery rt p o d b r
    | _, _ => discard p o r

/-- What can happen: a message of a partition is polled, a partition is assigned again, or the
process is started again. -/
inductive LoopStep where
  | poll (p : Nat) (r : PollReply)
  | reassign (p : Nat)
  | restart

def pollMessage (log : Nat → Nat → List UInt8) (p : Nat) (r : PollReply) (s : ConsumerState) :
    ConsumerState :=
  let o := s.position p
  match handleMessage rt loads p o (log p o) r
      { s with position := Function.update s.position p (o + 1) } with
  | .ok _ s' => s'
  | .raised _ s' | .crashed s' => { s' with running := false }

def kafkaLane (log : Nat → Nat → List UInt8) : System ConsumerState LoopStep where
  enabled s a := match a with
    | .poll _ _ => s.running = true
    | .reassign _ => s.running = true
    | .restart => True
  next s a := match a with
    | .poll p r => pollMessage rt loads log p r s
    | .reassign p => { s with position := Function.update s.position p (s.committed p) }
    | .restart => { s with position := s.committed, attempts := .empty, running := true }

end Loop

section Statement
variable (rt : Runtime) (loads : List UInt8 → Option Json) (log : Nat → Nat → List UInt8)

def delivery? (raw : List UInt8) : Option (String × List Json) :=
  match loads raw with
  | some (.obj o) =>
    match Obj.getN o "destination_id", Obj.getN o "batch" with
    | .str d, .list b => if d = "" then none else some (d, b)
    | _, _ => none
  | _ => none

def ConsumerState.Settles (s : ConsumerState) (p o : Nat) : Prop :=
  ∀ d b, delivery? loads (log p o) = some (d, b) →
    (p, o) ∈ s.dispatched ∨ ∃ row ∈ s.stored, row.partition = p ∧ row.offset = o ∧
      row.destinationId = d ∧ row.batch = b

/-- Every message below a committed offset is settled, and no value has ended the loop. -/
def ConsumerState.AtLeastOnce (s : ConsumerState) : Prop :=
  (∀ p o, o < s.committed p → s.Settles loads log p o) ∧ s.poisoned = false

/-- The handler of the dispatch's outcome can read the organisation and store the batch when it
has to, and is not the one that takes the batch for stored. -/
def PollReply.Storable (r : PollReply) (batch : List Json) (attempts : Nat) : Prop :=
  match r.dispatch with
  | .ok _ => True
  | .error .breakerOpen => (decodedOrgId rt batch).isSome ∧ r.persisted = true
  | .error .transient =>
    kafkaMaxDeliveryAttempts ≤ attempts → (decodedOrgId rt batch).isSome ∧ r.persisted = true
  | .error _ => False

/-- The value is no JSON document or an object, and the outcome is one the loop can store. -/
def Harmless (s : ConsumerState) : LoopStep → Prop
  | .poll p r =>
    (∀ v, loads (log p (s.position p)) = some v → ∃ o, v = .obj o) ∧
    ∀ d b, delivery? loads (log p (s.position p)) = some (d, b) →
      r.Storable rt b ((s.attempts.get? (p, s.position p)).getD 0)
  | .reassign _ | .restart => True

end Statement

section Loop
variable {rt : Runtime} {loads : List UInt8 → Option Json} {log : Nat → Nat → List UInt8}
  {p o : Nat}

structure Caught (loads : List UInt8 → Option Json) (log : Nat → Nat → List UInt8)
    (s : ConsumerState) : Prop where
  committed : ∀ p, s.committed p ≤ s.position p
  settled : ∀ p o, o < s.position p → s.Settles loads log p o
  sane : s.poisoned = false

structure InHand (loads : List UInt8 → Option Json) (log : Nat → Nat → List UInt8) (p o : Nat)
    (s : ConsumerState) : Prop where
  here : s.position p = o + 1
  uncommitted : s.committed p ≤ o
  committed : ∀ q, s.committed q ≤ s.position q
  settled : ∀ q i, i < s.position q → (q, i) ≠ (p, o) → s.Settles loads log q i
  sane : s.poisoned = false

/-- The message in hand is settled too. -/
def Finished (loads : List UInt8 → Option Json) (log : Nat → Nat → List UInt8) (p o : Nat)
    (s : ConsumerState) : Prop :=
  s.position p = o + 1 ∧ Caught loads log s

theorem InHand.finish (h : InHand loads log p o s) (hs : s.Settles loads log p o) :
    Finished loads log p o s := by
  refine ⟨h.here, h.committed, ?_, h.sane⟩
  intro q i hi
  by_cases he : (q, i) = (p, o)
  · cases he
    exact hs
  · exact h.settled q i hi he

theorem Caught.take (h : Caught loads log s) (p : Nat) :
    InHand loads log p (s.position p)
      { s with position := Function.update s.position p (s.position p + 1) } := by
  refine ⟨by simp, h.committed p, ?_, ?_, h.sane⟩
  · intro q
    by_cases hq : q = p
    · subst hq
      simpa using Nat.le_succ_of_le (h.committed q)
    · simpa [hq] using h.committed q
  · intro q i hi hne
    apply h.settled q i
    by_cases hq : q = p
    · subst hq
      have hi' : i < s.position q + 1 := by simpa using hi
      have hne' : i ≠ s.position q := fun he => hne (by rw [he])
      omega
    · simpa [hq] using hi

theorem commitOffset_spec (c : CommitReply) :
    Proc.Spec (Finished loads log p o) (commitOffset p o c)
      (fun _ => Finished loads log p o) (Finished loads log p o) := by
  cases c with
  | ok =>
    apply Proc.Spec.modify
    intro s h
    refine ⟨h.1, ?_, h.2.settled, h.2.sane⟩
    intro q
    by_cases hq : q = p
    · subst hq
      simpa using h.1.ge
    · simpa [hq] using h.2.committed q
  | fenced => exact Proc.Spec.pure (fun _ h => h)
  | raises => exact Proc.Spec.raise (fun _ h => h)

theorem popAttempts_spec :
    Proc.Spec (Finished loads log p o) (popAttempts p o)
      (fun _ => Finished loads log p o) (Finished loads log p o) :=
  Proc.Spec.modify (fun _ h => ⟨h.1, h.2.committed, h.2.settled, h.2.sane⟩)

theorem commit_pop_spec (c : CommitReply) :
    Proc.Spec (Finished loads log p o) (do
      commitOffset p o c
      popAttempts p o : Consumer Unit)
      (fun _ => Finished loads log p o) (Finished loads log p o) :=
  Proc.Spec.bind (commitOffset_spec c) (fun _ => popAttempts_spec)

theorem pop_commit_spec (c : CommitReply) :
    Proc.Spec (Finished loads log p o) (do
      popAttempts p o
      commitOffset p o c : Consumer Unit)
      (fun _ => Finished loads log p o) (Finished loads log p o) :=
  Proc.Spec.bind popAttempts_spec (fun _ => commitOffset_spec c)

theorem persistCall_spec {row : StoredBatch} {r : PollReply}
    (hraw : delivery? loads (log p o) = some (row.destinationId, row.batch))
    (hp : row.partition = p) (ho : row.offset = o) (hr : r.persisted = true) :
    Proc.Spec (InHand loads log p o) (persistCall row r)
      (fun _ => Finished loads log p o) (Finished loads log p o) := by
  apply Proc.Spec.ite
  · intro _
    apply Proc.Spec.modify
    intro s h
    have h' : InHand loads log p o { s with stored := row :: s.stored } := by
      refine ⟨h.here, h.uncommitted, h.committed, ?_, h.sane⟩
      intro q i hi hne d b hd
      rcases h.settled q i hi hne d b hd with hin | ⟨row', hrow, hrest⟩
      · exact .inl hin
      · exact .inr ⟨row', List.mem_cons_of_mem _ hrow, hrest⟩
    apply h'.finish
    intro d b hd
    rw [hraw] at hd
    cases hd
    exact .inr ⟨row, List.mem_cons_self, hp, ho, rfl, rfl⟩
  · intro hno
    exact absurd hr hno

theorem storeWhole_spec {d : String} {b : List Json} {r : PollReply} (errorKind : String)
    (hraw : delivery? loads (log p o) = some (d, b))
    (hr : (decodedOrgId rt b).isSome ∧ r.persisted = true) :
    Proc.Spec (InHand loads log p o) (storeWhole rt p o d errorKind b r)
      (fun _ => Finished loads log p o) (Finished loads log p o) := by
  obtain ⟨org, horg⟩ := Option.isSome_iff_exists.1 hr.1
  unfold storeWhole
  rw [horg]
  exact persistCall_spec hraw rfl rfl hr.2

theorem onBreakerOpen_spec {d : String} {b : List Json} {r : PollReply}
    (hraw : delivery? loads (log p o) = some (d, b))
    (hr : (decodedOrgId rt b).isSome ∧ r.persisted = true) :
    Proc.Spec (InHand loads log p o) (onBreakerOpen rt p o d b r)
      (fun _ => Finished loads log p o) (Finished loads log p o) :=
  Proc.Spec.bind (storeWhole_spec "breaker_open" hraw hr) (fun _ => commit_pop_spec r.commit)

theorem seek_spec :
    Proc.Spec (InHand loads log p o) (seek p o) (fun _ => Caught loads log)
      (Caught loads log) := by
  apply Proc.Spec.modify
  intro s h
  refine ⟨?_, ?_, h.sane⟩
  · intro q
    by_cases hq : q = p
    · subst hq
      simpa using h.uncommitted
    · simpa [hq] using h.committed q
  · intro q i hi
    by_cases hq : q = p
    · subst hq
      have hi' : i < o := by simpa using hi
      exact h.settled q i (by rw [h.here]; omega) (fun he => by cases he; omega)
    · refine h.settled q i (by simpa [hq] using hi) (fun he => ?_)
      cases he
      exact hq rfl

def ConsumerState.attemptsOf (s : ConsumerState) (p o : Nat) : Nat :=
  (s.attempts.get? (p, o)).getD 0

theorem onTransient_spec {d : String} {b : List Json} {r : PollReply}
    (hraw : delivery? loads (log p o) = some (d, b))
    (hr : kafkaMaxDeliveryAttempts ≤ n → (decodedOrgId rt b).isSome ∧ r.persisted = true) :
    Proc.Spec (fun s => InHand loads log p o s ∧ s.attemptsOf p o = n)
      (onTransient rt p o d b r) (fun _ => Caught loads log) (Caught loads log) := by
  apply Proc.Spec.bind (Q := fun _ s => InHand loads log p o s ∧ s.attemptsOf p o = n + 1)
  · apply Proc.Spec.modify
    intro s h
    refine ⟨⟨h.1.here, h.1.uncommitted, h.1.committed, h.1.settled, h.1.sane⟩, ?_⟩
    simp [ConsumerState.attemptsOf, Dict.bump, ← h.2]
  · intro _
    apply Proc.Spec.get_bind
    intro s₀ h₀
    apply Proc.Spec.pre (P := InHand loads log p o) _ (fun s (hs : s = s₀) => hs ▸ h₀.1)
    apply Proc.Spec.ite
    · intro hmax
      have hn : kafkaMaxDeliveryAttempts ≤ n := by
        have h : kafkaMaxDeliveryAttempts < n + 1 := h₀.2 ▸ hmax
        omega
      apply Proc.Spec.weaken (Proc.Spec.bind (storeWhole_spec "exhausted" hraw (hr hn))
        (fun _ => pop_commit_spec r.commit)) (fun _ h => h) (fun _ _ h => h.2) (fun _ h => h.2)
    · exact fun _ => seek_spec

theorem processDelivery_ok (rt : Runtime) (p o : Nat) (r : PollReply)
    (h : r.dispatch = .ok ()) (d : String) (b : List Json) :
    ∃ c, processDelivery rt p o d b r = (do
      dispatchCall p o r
      commitOffset p o c
      popAttempts p o : Consumer Unit) := by
  unfold processDelivery dispatchCall
  rw [h]
  cases hc : r.commit with
  | ok => exact ⟨.ok, rfl⟩
  | fenced => exact ⟨.fenced, rfl⟩
  | raises => exact ⟨r.recommit, rfl⟩

theorem processDelivery_breakerOpen (r : PollReply) (h : r.dispatch = .error .breakerOpen)
    (d : String) (b : List Json) :
    processDelivery rt p o d b r = onBreakerOpen rt p o d b r := by
  unfold processDelivery dispatchCall
  rw [h]
  rfl

theorem processDelivery_transient (r : PollReply) (h : r.dispatch = .error .transient)
    (d : String) (b : List Json) :
    processDelivery rt p o d b r = onTransient rt p o d b r := by
  unfold processDelivery dispatchCall
  rw [h]
  rfl

theorem dispatchCall_spec {r : PollReply} (h : r.dispatch = .ok ()) :
    Proc.Spec (InHand loads log p o) (dispatchCall p o r)
      (fun _ => Finished loads log p o) (Finished loads log p o) := by
  unfold dispatchCall
  rw [h]
  apply Proc.Spec.modify
  intro s h
  have h' : InHand loads log p o { s with dispatched := (p, o) :: s.dispatched } := by
    refine ⟨h.here, h.uncommitted, h.committed, ?_, h.sane⟩
    intro q i hi hne d b hd
    exact (h.settled q i hi hne d b hd).imp_left (List.mem_cons_of_mem _)
  exact h'.finish (fun _ _ _ => .inl List.mem_cons_self)

theorem processDelivery_spec {d : String} {b : List Json} {r : PollReply}
    (hraw : delivery? loads (log p o) = some (d, b)) (hr : r.Storable rt b n) :
    Proc.Spec (fun s => InHand loads log p o s ∧ s.attemptsOf p o = n)
      (processDelivery rt p o d b r) (fun _ => Caught loads log) (Caught loads log) := by
  unfold PollReply.Storable at hr
  split at hr
  · next hd =>
    obtain ⟨c, heq⟩ := processDelivery_ok rt p o r hd d b
    rw [heq]
    exact Proc.Spec.weaken (Proc.Spec.bind (dispatchCall_spec hd) (fun _ => commit_pop_spec c))
      (fun _ h => h.1) (fun _ _ h => h.2) (fun _ h => h.2)
  · next hd =>
    rw [processDelivery_breakerOpen r hd]
    exact Proc.Spec.weaken (onBreakerOpen_spec hraw hr)
      (fun _ h => h.1) (fun _ _ h => h.2) (fun _ h => h.2)
  · next hd =>
    rw [processDelivery_transient r hd]
    exact onTransient_spec hraw hr
  · exact hr.elim

theorem discard_spec (hraw : delivery? loads (log p o) = none) (r : PollReply) :
    Proc.Spec (fun s => InHand loads log p o s ∧ s.attemptsOf p o = n) (discard p o r)
      (fun _ => Caught loads log) (Caught loads log) := by
  apply Proc.Spec.weaken (commit_pop_spec r.commit) _ (fun _ _ h => h.2) (fun _ h => h.2)
  intro s h
  apply h.1.finish
  intro d b hd
  rw [hraw] at hd
  cases hd

theorem handleMessage_spec {r : PollReply}
    (hobj : ∀ v, loads (log p o) = some v → ∃ o, v = .obj o)
    (hr : ∀ d b, delivery? loads (log p o) = some (d, b) → r.Storable rt b n) :
    Proc.Spec (fun s => InHand loads log p o s ∧ s.attemptsOf p o = n)
      (handleMessage rt loads p o (log p o) r) (fun _ => Caught loads log)
      (Caught loads log) := by
  unfold handleMessage
  cases hload : loads (log p o) with
  | none => exact discard_spec (by simp [delivery?, hload]) r
  | some v =>
    obtain ⟨fields, rfl⟩ := hobj v hload
    change Proc.Spec _ (match Obj.getN fields "destination_id", Obj.getN fields "batch" with
      | .str d, .list b => if d = "" then discard p o r else processDelivery rt p o d b r
      | _, _ => discard p o r) _ _
    split
    · next d b hdest hbatch =>
      apply Proc.Spec.ite
      · intro hempty
        exact discard_spec (by simp [delivery?, hload, hdest, hbatch, hempty]) r
      · intro hne
        have hraw : delivery? loads (log p o) = some (d, b) := by
          simp [delivery?, hload, hdest, hbatch, hne]
        exact processDelivery_spec hraw (hr d b hraw)
    · next hno =>
      refine discard_spec ?_ r
      simp only [delivery?, hload]

theorem pollMessage_caught {r : PollReply} (h : Caught loads log s)
    (hr : Harmless rt loads log s (.poll p r)) :
    Caught loads log (pollMessage rt loads log p r s) := by
  have hrun := handleMessage_spec hr.1 hr.2 _ ⟨h.take p, rfl⟩
  unfold pollMessage
  dsimp only
  split
  · next heq =>
    rw [heq] at hrun
    exact hrun
  · next heq =>
    rw [heq] at hrun
    exact ⟨hrun.committed, hrun.settled, hrun.sane⟩
  · next heq =>
    rw [heq] at hrun
    exact ⟨hrun.committed, hrun.settled, hrun.sane⟩

theorem Caught.rewind (h : Caught loads log s) (position : Nat → Nat)
    (hle : ∀ p, s.committed p ≤ position p ∧ position p ≤ s.position p) :
    Caught loads log { s with position := position } where
  committed p := (hle p).1
  settled p o ho := h.settled p o (lt_of_lt_of_le ho (hle p).2)
  sane := h.sane

/-- In a run whose polls are harmless, every message below a committed offset is settled and no
value ends the loop. -/
theorem kafka_at_least_once (rt : Runtime) (loads : List UInt8 → Option Json)
    (log : Nat → Nat → List UInt8) (s : ConsumerState)
    (hrun : (kafkaLane rt loads log).Reaches (Harmless rt loads log) {} s) :
    s.AtLeastOnce loads log := by
  have hcaught : Caught loads log s := by
    apply System.Reaches.invariant _ hrun
    · exact ⟨fun _ => le_rfl, fun _ _ h => absurd h (Nat.not_lt_zero _), rfl⟩
    · intro t a ht _ ha
      cases a with
      | poll p r => exact pollMessage_caught ht ha
      | reassign p =>
        apply ht.rewind
        intro q
        by_cases hq : q = p
        · subst hq
          simpa using ht.committed q
        · simpa [hq] using ht.committed q
      | restart =>
        have h := ht.rewind t.committed (fun p => ⟨le_rfl, ht.committed p⟩)
        exact ⟨h.committed, h.settled, h.sane⟩
  refine ⟨?_, hcaught.sane⟩
  intro p o ho
  exact hcaught.settled p o (lt_of_lt_of_le ho (hcaught.committed p))

end Loop

def asciiBytes (s : String) : List UInt8 := s.toList.map (fun c => UInt8.ofNat c.toNat)

def deliveryText : String := "\x7b\"destination_id\":\"siem\",\"batch\":[\x7b\x7d]\x7d"

/-- `json.loads` on the two messages `deliveryText` and `[1]`. -/
def sampleLoads (raw : List UInt8) : Option Json :=
  if raw = asciiBytes deliveryText then
    some (.obj [("destination_id", .str "siem"), ("batch", .list [.obj []])])
  else if raw = asciiBytes "[1]" then some (.list [.int 1])
  else none

def sampleLog (text : String) : Nat → Nat → List UInt8 := fun _ _ => asciiBytes text

theorem sampleLoads_delivery : sampleLoads (asciiBytes deliveryText) =
    some (.obj [("destination_id", .str "siem"), ("batch", .list [.obj []])]) := by
  decide +kernel

theorem sample_harmless (s : ConsumerState) {r : PollReply}
    (hr : r.Storable .ascii [.obj []] ((s.attempts.get? (0, s.position 0)).getD 0)) :
    Harmless .ascii sampleLoads (sampleLog deliveryText) s (.poll 0 r) := by
  have hdelivery : delivery? sampleLoads (asciiBytes deliveryText) =
      some ("siem", [.obj []]) := by
    decide +kernel
  constructor
  · intro v hv
    rw [sampleLog, sampleLoads_delivery] at hv
    cases hv
    exact ⟨_, rfl⟩
  · intro d b hd
    rw [sampleLog, hdelivery] at hd
    cases hd
    exact hr

/-- A message that fails once and is then dispatched. -/
def retriedOnce : ConsumerState :=
  pollMessage .ascii sampleLoads (sampleLog deliveryText) 0 { dispatch := .ok () }
    (pollMessage .ascii sampleLoads (sampleLog deliveryText) 0 { dispatch := .error .transient } {})

theorem failedOnce_running :
    (pollMessage .ascii sampleLoads (sampleLog deliveryText) 0
      { dispatch := .error .transient } {}).running = true := by
  decide +kernel

theorem kafka_at_least_once_retried :
    retriedOnce.AtLeastOnce sampleLoads (sampleLog deliveryText) :=
  kafka_at_least_once .ascii sampleLoads (sampleLog deliveryText) retriedOnce
    (.tail (.tail .refl
      ⟨.poll 0 { dispatch := .error .transient }, rfl,
        sample_harmless _ (fun h => absurd h (by decide)), rfl⟩)
      ⟨.poll 0 { dispatch := .ok () }, failedOnce_running, sample_harmless _ trivial, rfl⟩)

/-- An `OSError` of a syslog target commits a message that is nowhere, and a list where an
object is expected ends the loop. -/
theorem kafka_lane_loses_and_dies :
    (∃ s, (kafkaLane .ascii sampleLoads (sampleLog deliveryText)).Reaches (fun _ _ => True) {} s ∧
      ¬ s.AtLeastOnce sampleLoads (sampleLog deliveryText)) ∧
    ∃ s, (kafkaLane .ascii sampleLoads (sampleLog "[1]")).Reaches (fun _ _ => True) {} s ∧
      s.poisoned = true := by
  constructor
  · refine ⟨_, .tail .refl ⟨.poll 0 { dispatch := .error .connection }, rfl, trivial, rfl⟩, ?_⟩
    intro h
    have hfate := h.1 0 0 (by decide +kernel) "siem" [.obj []] (by decide +kernel)
    exact absurd hfate (by decide +kernel)
  · refine ⟨_, .tail .refl ⟨.poll 0 { dispatch := .ok () }, rfl, trivial, rfl⟩, ?_⟩
    decide +kernel

end CentralOps
