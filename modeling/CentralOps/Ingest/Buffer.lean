import CentralOps.Json
import CentralOps.Lib.Hands
import CentralOps.Lib.Rely

namespace CentralOps
set_option autoImplicit true

/-- What `RPOP key count` does: a client without the count raises `TypeError`. -/
inductive RpopReply where
  | typeError
  | popped (chunk : List String)

/-- How a cycle fares up to the point where it begins to collect. -/
inductive PrepareReply where
  | raised
  | skipped
  | ok

/-- Where `push_events` and a collection cycle of a `PushBufferCollector` await. -/
inductive BufferAsk where
  | lpush (payloads : List String) (maxLen : Int)
  | incrby (n : Nat)
  | rpop (count : Nat)
  | rpopOne
  | prepare
  | event (raw : Json)
  | finish (events : List Json)
  | beyond

/-- `LPUSH` answers with a length; a stage of a cycle with whether it did not raise. -/
abbrev BufferReply : BufferAsk → Type
  | .lpush _ _ => Nat
  | .incrby _ => Bool
  | .rpop _ => RpopReply
  | .rpopOne => Option String
  | .prepare => PrepareReply
  | .event _ => Bool
  | .finish _ => Bool
  | .beyond => Unit

abbrev BufferTask := Dialog BufferAsk BufferReply

namespace BufferTask

def lpush (payloads : List String) (maxLen : Int) : BufferTask Nat :=
  Dialog.query (BufferAsk.lpush payloads maxLen)

def incrby (n : Nat) : BufferTask Bool := Dialog.query (BufferAsk.incrby n)

def rpop (count : Nat) : BufferTask RpopReply := Dialog.query (BufferAsk.rpop count)

def rpopOne : BufferTask (Option String) := Dialog.query BufferAsk.rpopOne

def prepare : BufferTask PrepareReply := Dialog.query BufferAsk.prepare

def event (raw : Json) : BufferTask Bool := Dialog.query (BufferAsk.event raw)

def finish (events : List Json) : BufferTask Bool := Dialog.query (BufferAsk.finish events)

end BufferTask

inductive BufferResult where
  | pushed (accepted dropped : Nat)
  | skipped
  | collected
  | failed
  deriving DecidableEq

/-- `_DRAIN_CHUNK`. -/
def drainChunk : Nat := 500

section Programs
variable (dumps : Json → String) (loads : String → Option Json)

def pushEvents (events : List Obj) (maxLen : Int) : BufferTask BufferResult :=
  if events = [] then pure (.pushed 0 0)
  else do
    let payloads := events.map (fun ev => dumps (.obj ev))
    let lengthAfterPush ← BufferTask.lpush payloads maxLen
    let dropped := ((lengthAfterPush : Int) - maxLen).toNat
    if dropped = 0 then pure (.pushed payloads.length dropped)
    else do
      let _ ← BufferTask.incrby dropped
      pure (.pushed payloads.length dropped)

/-- The loop of `drain_events`, through a number of polls. -/
def drainEvents (budget : Nat) : Nat → List Json → BufferTask (List Json)
  | 0, out => .ask .beyond (fun _ => pure out)
  | polls + 1, out =>
    if budget ≤ out.length then pure out
    else do
      match ← BufferTask.rpop (min drainChunk (budget - out.length)) with
      | .typeError => do
        match ← BufferTask.rpopOne with
        | none => pure out
        | some raw => drainEvents budget polls (out ++ [raw].filterMap loads)
      | .popped chunk =>
        if chunk = [] then pure out
        else drainEvents budget polls (out ++ chunk.filterMap loads)

/-- The loop over `collect`; `false` when an event raises. -/
def collectEvents : List Json → BufferTask Bool
  | [] => pure true
  | raw :: events => do
    if ← BufferTask.event raw then collectEvents events else pure false

/-- `_run_collection_once`: all that is drained is in the hands of the cycle before it yields its
first event. -/
def collectionCycle (budget polls : Nat) : BufferTask BufferResult := do
  match ← BufferTask.prepare with
  | .raised => pure .failed
  | .skipped => pure .skipped
  | .ok => do
    let events ← drainEvents loads budget polls []
    if ← collectEvents events then do
      if ← BufferTask.finish events then pure .collected else pure .failed
    else pure .failed

end Programs

inductive BufferCall where
  | push (events : List Obj) (maxLen : Int)
  | cycle (budget polls : Nat)

def BufferCall.program (dumps : Json → String) (loads : String → Option Json) :
    BufferCall → BufferTask BufferResult
  | .push events maxLen => pushEvents dumps events maxLen
  | .cycle budget polls => collectionCycle loads budget polls

/-- The Redis list, newest first, and the dropped counter with what of it has expired; the payloads
accepted, those that the cap dropped and the counter counted, the events of completed cycles, and
the payloads that left the list and are with a worker. -/
structure BufferWorld where
  buffer : List String := []
  dropped : Nat := 0
  expired : Nat := 0
  accepted : List String := []
  counted : List String := []
  handed : List Json := []
  hands : Hands Nat String := []

/-- `LTRIM key 0 stop`; a negative stop counts from the end. -/
def ltrim (stop : Int) (l : List α) : List α :=
  l.take ((if stop < 0 then l.length + stop else stop) + 1).toNat

namespace BufferWorld

/-- `LPUSH` and `LTRIM` in one transaction; the worker counts what was trimmed afterwards. -/
def lpush (i : Nat) (payloads : List String) (maxLen : Int) (w : BufferWorld) : BufferWorld :=
  let pushed := payloads.reverse ++ w.buffer
  let kept := ltrim (maxLen - 1) pushed
  { w with
    buffer := kept
    accepted := w.accepted ++ payloads
    hands := w.hands.give i (pushed.drop kept.length).reverse }

def incrby (i n : Nat) (w : BufferWorld) : BufferWorld :=
  { w with
    dropped := w.dropped + n
    counted := w.counted ++ w.hands.of i
    hands := w.hands.empty i }

def oldest (n : Nat) (w : BufferWorld) : List String := w.buffer.reverse.take n

def rpop (i n : Nat) (w : BufferWorld) : BufferWorld :=
  { w with
    buffer := (w.buffer.reverse.drop n).reverse
    hands := w.hands.give i (w.oldest n) }

def finish (i : Nat) (events : List Json) (w : BufferWorld) : BufferWorld :=
  { w with
    handed := w.handed ++ events
    hands := w.hands.empty i }

/-- What the awaits of one worker may return, and what they leave. Redis commands succeed; a cycle
may raise before it collects, at any event and at its end. -/
def Answers (i : Nat) (w : BufferWorld) : (q : BufferAsk) → BufferReply q → BufferWorld → Prop
  | .lpush payloads maxLen, n, w' =>
    n = payloads.length + w.buffer.length ∧ w' = w.lpush i payloads maxLen
  | .incrby n, ok, w' => ok = true ∧ w' = w.incrby i n
  | .rpop n, reply, w' =>
    reply = .typeError ∧ w' = w ∨ reply = .popped (w.oldest n) ∧ w' = w.rpop i n
  | .rpopOne, raw, w' => raw = (w.oldest 1).head? ∧ w' = w.rpop i 1
  | .prepare, _, w' => w' = w
  | .event _, _, w' => w' = w
  | .finish events, ok, w' => w' = if ok then w.finish i events else w
  | .beyond, _, _ => False

/-- No cycle raises that has drained an event. -/
def Unfailing (i : Nat) (w : BufferWorld) (q : BufferAsk) (r : BufferReply q) (w' : BufferWorld) :
    Prop :=
  Answers i w q r w' ∧
    match q, r with
    | .event _, ok => ok = true
    | .finish _, ok => ok = true ∨ w.hands.of i = []
    | _, _ => True

def expire (w : BufferWorld) : BufferWorld :=
  { w with dropped := 0, expired := w.expired + w.dropped }

end BufferWorld

abbrev BufferCrew := Crew BufferWorld Nat BufferCall BufferAsk BufferReply BufferResult

def BufferCrew.initial : BufferCrew := ⟨{}, fun _ => none⟩

section Crews
variable (dumps : Json → String) (loads : String → Option Json)

def BufferCall.RoundTrips : BufferCall → Prop
  | .push events _ => ∀ ev ∈ events, loads (dumps (.obj ev)) = some (.obj ev)
  | .cycle _ _ => True

def BufferCall.Capped : BufferCall → Prop
  | .push _ maxLen => 1 ≤ maxLen
  | .cycle _ _ => True

/-- Calls of `push_events` and collection cycles of one integration and stream, at any time and in
any order. -/
def bufferRules (allowed : BufferCall → Prop)
    (answers : Nat → BufferWorld → (q : BufferAsk) → BufferReply q → BufferWorld → Prop) :
    CrewRules BufferWorld Nat BufferCall BufferAsk BufferReply BufferResult where
  program := BufferCall.program dumps loads
  starts _ _ call := call.RoundTrips dumps loads ∧ allowed call
  answers := answers
  moves w w' := w' = w.expire

/-- The list holds the newest of what was accepted. What is gone from it was counted by the cap,
handed to the pipeline in a completed cycle, or is with a worker; and the counter has counted what
the cap dropped, once. -/
structure BufferWorld.Conserved (w : BufferWorld) : Prop where
  gone : ∃ gone, w.accepted = gone ++ w.buffer.reverse ∧
    gone.Perm (w.counted ++ w.handed.map dumps ++ w.hands.items)
  counter : w.dropped + w.expired = w.counted.length

/-- Nothing is lost, and only calls that still run have anything in their hands. -/
structure NothingLost (x : BufferCrew) : Prop where
  conserved : x.shared.Conserved dumps
  hands : ∀ i, x.running i = none ∨ (∃ call result, x.running i = some (call, .done result)) →
    x.shared.hands.of i = []

end Crews

namespace BufferWorld

/-- The workers take and give only what is in their own hands. -/
def SameHand (i : Nat) (w u : BufferWorld) : Prop := u.hands.of i = w.hands.of i

def OtherHand (i : Nat) (w u : BufferWorld) : Prop := ∀ j, j ≠ i → SameHand j w u

section Sound
variable (dumps : Json → String) (loads : String → Option Json)

/-- A payload that is parsed to an event that it is the text of. -/
def Parses (payload : String) : Prop := ∃ ev, loads payload = some ev ∧ dumps ev = payload

structure Sound (w : BufferWorld) : Prop where
  conserved : w.Conserved dumps
  parses : ∀ payload ∈ w.buffer, Parses dumps loads payload

variable {dumps loads} {w : BufferWorld}

theorem filterMap_loads {chunk : List String} (h : ∀ payload ∈ chunk, Parses dumps loads payload) :
    (chunk.filterMap loads).map dumps = chunk := by
  induction chunk with
  | nil => rfl
  | cons payload chunk ih =>
    obtain ⟨ev, hev, htext⟩ := h payload List.mem_cons_self
    rw [List.filterMap_cons_some hev, List.map_cons, htext,
      ih (fun p hp => h p (List.mem_cons_of_mem _ hp))]

theorem mem_oldest (h : payload ∈ w.oldest n) : payload ∈ w.buffer :=
  List.mem_reverse.1 (List.mem_of_mem_take h)

theorem mem_ltrim {stop : Int} {l : List α} (h : a ∈ ltrim stop l) : a ∈ l :=
  List.mem_of_mem_take h

theorem ltrim_append (stop : Int) (l : List α) :
    ltrim stop l ++ l.drop (ltrim stop l).length = l := by
  rw [ltrim, List.length_take]
  generalize ((if stop < 0 then (l.length : Int) + stop else stop) + 1).toNat = n
  by_cases hn : n ≤ l.length
  · rw [Nat.min_eq_left hn, List.take_append_drop]
  · rw [Nat.min_eq_right (by omega), List.drop_length, List.append_nil,
      List.take_of_length_le (by omega)]

theorem length_drop_ltrim {maxLen : Int} (h : 1 ≤ maxLen) (l : List α) :
    (l.drop (ltrim (maxLen - 1) l).length).length = ((l.length : Int) - maxLen).toNat := by
  have hstop : ¬ maxLen - 1 < 0 := by omega
  rw [List.length_drop, ltrim, if_neg hstop, List.length_take]
  omega

theorem Sound.lpush (h : w.Sound dumps loads) {payloads : List String}
    (hparses : ∀ payload ∈ payloads, Parses dumps loads payload) (i : Nat) (maxLen : Int) :
    (w.lpush i payloads maxLen).Sound dumps loads where
  conserved := by
    obtain ⟨gone, haccepted, hgone⟩ := h.conserved.gone
    have hsplit := ltrim_append (maxLen - 1) (payloads.reverse ++ w.buffer)
    generalize hkept : ltrim (maxLen - 1) (payloads.reverse ++ w.buffer) = kept at hsplit
    generalize htrim : (payloads.reverse ++ w.buffer).drop kept.length = trimmed at hsplit
    have hlpush : w.lpush i payloads maxLen = { w with
        buffer := kept
        accepted := w.accepted ++ payloads
        hands := w.hands.give i trimmed.reverse } := by
      rw [BufferWorld.lpush, hkept, htrim]
    rw [hlpush]
    refine ⟨⟨gone ++ trimmed.reverse, ?_, ?_⟩, h.conserved.counter⟩
    · have hrev := congrArg List.reverse hsplit
      rw [List.reverse_append, List.reverse_append, List.reverse_reverse] at hrev
      rw [List.append_assoc, hrev, haccepted, List.append_assoc]
    · rw [Hands.items_give, ← List.append_assoc]
      exact hgone.append_right _
  parses payload hp := by
    have hmem := List.mem_append.1 (mem_ltrim hp)
    obtain hmem | hmem := hmem
    · exact hparses payload (List.mem_reverse.1 hmem)
    · exact h.parses payload hmem

theorem Sound.incrby (h : w.Sound dumps loads) (hn : n = (w.hands.of i).length) :
    (w.incrby i n).Sound dumps loads where
  conserved := by
    obtain ⟨gone, haccepted, hgone⟩ := h.conserved.gone
    refine ⟨⟨gone, haccepted, hgone.trans ?_⟩, ?_⟩
    · have hitems := (Hands.items_perm i w.hands).append_left (w.counted ++ w.handed.map dumps)
      refine hitems.trans ?_
      simp only [BufferWorld.incrby, List.append_assoc]
      apply List.Perm.append_left
      rw [← List.append_assoc, ← List.append_assoc]
      exact List.perm_append_comm.append_right _
    · rw [BufferWorld.incrby, List.length_append, ← hn, ← h.conserved.counter]
      simp only []
      omega
  parses := h.parses

theorem Sound.rpop (h : w.Sound dumps loads) (i n : Nat) : (w.rpop i n).Sound dumps loads where
  conserved := by
    obtain ⟨gone, haccepted, hgone⟩ := h.conserved.gone
    refine ⟨⟨gone ++ w.oldest n, ?_, ?_⟩, h.conserved.counter⟩
    · rw [BufferWorld.rpop, List.reverse_reverse, List.append_assoc, oldest, List.take_append_drop]
      exact haccepted
    · rw [BufferWorld.rpop, Hands.items_give, ← List.append_assoc]
      exact hgone.append_right _
  parses payload hp := h.parses payload (List.mem_reverse.1 (List.mem_of_mem_drop
    (List.mem_reverse.1 hp)))

theorem Sound.finish (h : w.Sound dumps loads) (hevents : w.hands.of i = events.map dumps) :
    (w.finish i events).Sound dumps loads where
  conserved := by
    obtain ⟨gone, haccepted, hgone⟩ := h.conserved.gone
    refine ⟨⟨gone, haccepted, hgone.trans ?_⟩, h.conserved.counter⟩
    have hitems := (Hands.items_perm i w.hands).append_left (w.counted ++ w.handed.map dumps)
    rw [hevents] at hitems
    refine hitems.trans ?_
    simp only [BufferWorld.finish, List.map_append, List.append_assoc]
    exact .refl _
  parses := h.parses

end Sound

section Programs
variable {dumps : Json → String} {loads : String → Option Json} {w : BufferWorld} {i : Nat}

abbrev Keeps (dumps : Json → String) (loads : String → Option Json) (i : Nat)
    (post : α → BufferWorld → Prop) (t : BufferTask α) (w : BufferWorld) : Prop :=
  Dialog.Meets (Unfailing i) (SameHand i) (OtherHand i) (Sound dumps loads) post t w

def EmptyHand (i : Nat) (w : BufferWorld) : Prop := w.hands.of i = []

def InHand (dumps : Json → String) (i : Nat) (events : List Json) (w : BufferWorld) : Prop :=
  w.hands.of i = events.map dumps

theorem otherHand_refl (i : Nat) (w : BufferWorld) : OtherHand i w w := fun _ _ => rfl

theorem lpush_hand (h : EmptyHand i w) {maxLen : Int} (hcap : 1 ≤ maxLen) (payloads : List String) :
    ((w.lpush i payloads maxLen).hands.of i).length =
      (((payloads.length + w.buffer.length : Nat) : Int) - maxLen).toNat := by
  have hlength := length_drop_ltrim hcap (payloads.reverse ++ w.buffer)
  rw [List.length_append, List.length_reverse] at hlength
  rw [lpush, Hands.of_give_self, show w.hands.of i = [] from h, List.nil_append,
    List.length_reverse]
  exact hlength

theorem pushEvents_keeps {events : List Obj} {maxLen : Int}
    (htrips : ∀ ev ∈ events, loads (dumps (.obj ev)) = some (.obj ev)) (hcap : 1 ≤ maxLen)
    (h : EmptyHand i w) :
    Keeps dumps loads i (fun _ u => EmptyHand i u) (pushEvents dumps events maxLen) w := by
  have hparses : ∀ payload ∈ events.map (fun ev => dumps (.obj ev)), Parses dumps loads payload := by
    intro payload hp
    obtain ⟨ev, hev, rfl⟩ := List.mem_map.1 hp
    exact ⟨.obj ev, htrips ev hev, rfl⟩
  rw [pushEvents]
  split
  · exact h
  · apply Dialog.Meets.query
    rintro t hst hI n u ⟨⟨rfl, rfl⟩, -⟩
    have hempty : EmptyHand i t := Eq.trans hst h
    have hlength := lpush_hand hempty hcap (events.map (fun ev => dumps (.obj ev)))
    refine ⟨hI.lpush hparses i maxLen, fun j hj => Hands.of_give_ne hj _ _, ?_⟩
    dsimp only
    split
    · next hdropped =>
      rw [hdropped] at hlength
      exact List.length_eq_zero_iff.1 hlength
    · apply Dialog.Meets.query
      rintro t' hst' hI' ok u' ⟨⟨-, rfl⟩, -⟩
      refine ⟨hI'.incrby ?_, fun j hj => Hands.of_empty_ne hj _, Hands.of_empty_self i _⟩
      rw [show t'.hands.of i = _ from hst']
      exact hlength.symm

theorem InHand.rpop (hI : w.Sound dumps loads) (h : InHand dumps i events w) (n : Nat) :
    InHand dumps i (events ++ (w.oldest n).filterMap loads) (w.rpop i n) := by
  rw [InHand, BufferWorld.rpop, Hands.of_give_self, show w.hands.of i = _ from h, List.map_append,
    filterMap_loads (fun payload hp => hI.parses payload (mem_oldest hp))]

theorem drainEvents_keeps {budget polls : Nat} {out : List Json} (h : InHand dumps i out w) :
    Keeps dumps loads i (InHand dumps i) (drainEvents loads budget polls out) w := by
  induction polls generalizing out w with
  | zero => exact fun t _ _ r u hr => hr.1.elim
  | succ polls ih =>
    rw [drainEvents]
    split
    · exact h
    · apply Dialog.Meets.query
      rintro t hst hI reply u ⟨hreply, -⟩
      have ht : InHand dumps i out t := Eq.trans hst h
      obtain ⟨rfl, rfl⟩ | ⟨rfl, rfl⟩ := hreply
      · refine ⟨hI, otherHand_refl i u, ?_⟩
        apply Dialog.Meets.query
        rintro t' hst' hI' raw u' ⟨⟨rfl, rfl⟩, -⟩
        have ht' : InHand dumps i out t' := Eq.trans hst' ht
        refine ⟨hI'.rpop i 1, fun j hj => Hands.of_give_ne hj _ _, ?_⟩
        have hpop := ht'.rpop hI' 1
        have hone : t'.oldest 1 = (t'.oldest 1).head?.toList := by
          rw [oldest]
          cases t'.buffer.reverse with
          | nil => rfl
          | cons payload rest => rfl
        rw [hone] at hpop
        cases hhead : (t'.oldest 1).head? with
        | none =>
          rw [hhead, Option.toList_none, List.filterMap_nil, List.append_nil] at hpop
          exact hpop
        | some raw =>
          rw [hhead, Option.toList_some] at hpop
          exact ih hpop
      · have hpop := ht.rpop hI (min drainChunk (budget - out.length))
        refine ⟨hI.rpop i _, fun j hj => Hands.of_give_ne hj _ _, ?_⟩
        dsimp only
        split
        · next hnil =>
          rw [hnil, List.filterMap_nil, List.append_nil] at hpop
          exact hpop
        · exact ih hpop

theorem collectEvents_keeps {all events : List Json} (h : InHand dumps i all w) :
    Keeps dumps loads i (fun ok u => ok = true ∧ InHand dumps i all u) (collectEvents events) w := by
  induction events generalizing w with
  | nil => exact ⟨rfl, h⟩
  | cons raw events ih =>
    rw [collectEvents]
    apply Dialog.Meets.query
    rintro t hst hI ok u ⟨rfl, rfl⟩
    exact ⟨hI, otherHand_refl i u, ih (Eq.trans hst h)⟩

theorem collectionCycle_keeps {budget polls : Nat} (h : EmptyHand i w) :
    Keeps dumps loads i (fun _ u => EmptyHand i u) (collectionCycle loads budget polls) w := by
  rw [collectionCycle]
  apply Dialog.Meets.query
  rintro t hst hI reply u ⟨rfl, -⟩
  have ht : EmptyHand i u := Eq.trans hst h
  refine ⟨hI, otherHand_refl i u, ?_⟩
  cases reply with
  | raised => exact ht
  | skipped => exact ht
  | ok =>
    apply Dialog.Meets.bind
    apply (drainEvents_keeps (show InHand dumps i [] _ from ht)).weaken
    intro events v hv
    apply Dialog.Meets.bind
    apply (collectEvents_keeps hv).weaken
    rintro ok v' ⟨rfl, hv'⟩
    rw [if_pos rfl]
    apply Dialog.Meets.query
    rintro t' hst' hI' ok' u' ⟨rfl, hraise⟩
    have ht' : InHand dumps i events t' := Eq.trans hst' hv'
    cases ok' with
    | true =>
      exact ⟨hI'.finish ht', fun j hj => Hands.of_empty_ne hj _, Hands.of_empty_self i _⟩
    | false =>
      obtain hfalse | hempty := hraise
      · cases hfalse
      · exact ⟨hI', otherHand_refl i t', hempty⟩

theorem initial_sound₀ : Sound dumps loads {} where
  conserved := ⟨⟨[], rfl, .refl _⟩, rfl⟩
  parses _ hp := nomatch hp

theorem Sound.expire (h : w.Sound dumps loads) : w.expire.Sound dumps loads where
  conserved := by
    refine ⟨h.conserved.gone, ?_⟩
    have hcounter := h.conserved.counter
    simp only [BufferWorld.expire]
    omega
  parses := h.parses

end Programs

end BufferWorld

/-- Where every cap is positive and no cycle raises that has drained an event, nothing is lost. -/
theorem push_loses_nothing (dumps : Json → String) (loads : String → Option Json) {x : BufferCrew}
    (h : Crew.Reaches (bufferRules dumps loads BufferCall.Capped BufferWorld.Unfailing)
      BufferCrew.initial x) : NothingLost dumps x := by
  have hassured : Crew.Assured (bufferRules dumps loads BufferCall.Capped BufferWorld.Unfailing)
      BufferWorld.SameHand BufferWorld.OtherHand (BufferWorld.Sound dumps loads)
      BufferWorld.EmptyHand x := by
    apply h.assured
    · exact fun i s t u hst htu => Eq.trans htu hst
    · exact fun i s => rfl
    · exact fun i s t hs hst => Eq.trans hst hs
    · exact fun i j s t hj hguar => hguar j hj
    · rintro w i call _ hempty ⟨htrips, hcap⟩
      cases call with
      | push events maxLen => exact BufferWorld.pushEvents_keeps htrips hcap hempty
      | cycle budget polls => exact BufferWorld.collectionCycle_keeps hempty
    · rintro w u hw rfl
      exact ⟨hw.expire, fun i => rfl⟩
    · exact ⟨BufferWorld.initial_sound₀, fun i => rfl⟩
  refine ⟨hassured.1.conserved, fun i hended => ?_⟩
  have hcontent := hassured.2 i
  obtain hnone | ⟨call, result, hdone⟩ := hended
  · rw [hnone] at hcontent
    exact hcontent
  · rw [hdone] at hcontent
    exact hcontent

/-- The text of an object with one whole number, and the object of such a text. -/
def fieldDumps : Json → String
  | .obj [(key, .int n)] => "\x7b\"" ++ key ++ "\":" ++ toString n ++ "\x7d"
  | _ => "null"

def fieldEvent (n : Nat) : Obj := [("i", .int n)]

def fieldLoads (payload : String) : Option Json :=
  ((List.range 10).map (fun n => Json.obj (fieldEvent n))).find? (fun ev => fieldDumps ev = payload)

namespace BufferWorld

/-- Redis as it answers, and cycles that raise at their first event or not at all. -/
def reply (raises : Bool) (i : Nat) (w : BufferWorld) :
    (q : BufferAsk) → BufferReply q × BufferWorld
  | .lpush payloads maxLen => (payloads.length + w.buffer.length, w.lpush i payloads maxLen)
  | .incrby n => (true, w.incrby i n)
  | .rpop n => (.popped (w.oldest n), w.rpop i n)
  | .rpopOne => ((w.oldest 1).head?, w.rpop i 1)
  | .prepare => (.ok, w)
  | .event _ => (!raises, w)
  | .finish events => (true, w.finish i events)
  | .beyond => ((), w)

def within (_ : BufferWorld) : BufferAsk → Bool
  | .beyond => false
  | _ => true

theorem answers_reply (raises : Bool) (i : Nat) (w : BufferWorld) (q : BufferAsk)
    (h : w.within q = true) : Answers i w q (reply raises i w q).1 (reply raises i w q).2 := by
  cases q with
  | lpush payloads maxLen => exact ⟨rfl, rfl⟩
  | incrby n => exact ⟨rfl, rfl⟩
  | rpop n => exact .inr ⟨rfl, rfl⟩
  | rpopOne => exact ⟨rfl, rfl⟩
  | beyond => cases h
  | _ => rfl

theorem unfailing_reply (i : Nat) (w : BufferWorld) (q : BufferAsk) (h : w.within q = true) :
    Unfailing i w q (reply false i w q).1 (reply false i w q).2 := by
  apply And.intro (answers_reply false i w q h)
  cases q with
  | event raw => rfl
  | finish events => exact .inl rfl
  | _ => exact trivial

end BufferWorld

def pushThenCollect (events : List Obj) (maxLen : Int) : List (Crew.Cue Nat BufferCall) :=
  .call 0 (.push events maxLen) :: List.replicate 3 (.go 0) ++
    .call 1 (.cycle 50000 3) :: List.replicate 9 (.go 1)

def bufferRun (raises : Bool) (events : List Obj) (maxLen : Int) : BufferCrew :=
  (pushThenCollect events maxLen).foldl
    (Crew.cue (bufferRules fieldDumps fieldLoads BufferCall.Capped BufferWorld.Unfailing)
      (BufferWorld.reply raises) BufferWorld.within) BufferCrew.initial

def fewEvents : List Obj := [fieldEvent 1, fieldEvent 2, fieldEvent 3]

theorem bufferRun_reaches {raises : Bool} {maxLen : Int} {allowed : BufferCall → Prop}
    {answers : Nat → BufferWorld → (q : BufferAsk) → BufferReply q → BufferWorld → Prop}
    (hpush : allowed (.push fewEvents maxLen)) (hcycle : allowed (.cycle 50000 3))
    (hreply : ∀ i w q, BufferWorld.within w q = true →
      answers i w q (BufferWorld.reply raises i w q).1 (BufferWorld.reply raises i w q).2) :
    Crew.Reaches (bufferRules fieldDumps fieldLoads allowed answers) BufferCrew.initial
      (bufferRun raises fewEvents maxLen) := by
  have htrips : ∀ ev ∈ fewEvents, fieldLoads (fieldDumps (.obj ev)) = some (.obj ev) := by
    decide +kernel
  apply Crew.reaches_foldl_cue
    (R := bufferRules fieldDumps fieldLoads allowed answers) _ hreply
  intro i call hcall _
  simp only [pushThenCollect, List.mem_append, List.mem_cons, List.mem_replicate, reduceCtorEq,
    and_false, or_false] at hcall
  obtain hcall | hcall := hcall
  · cases hcall
    exact ⟨htrips, hpush⟩
  · cases hcall
    exact ⟨trivial, hcycle⟩

/-- The oldest of three events is counted by a cap of two, and a cycle completes with the others. -/
theorem push_loses_nothing_few :
    (bufferRun false fewEvents 2).shared.counted.length = 1 ∧
      (bufferRun false fewEvents 2).shared.handed.length = 2 ∧
        NothingLost fieldDumps (bufferRun false fewEvents 2) := by
  refine ⟨by decide +kernel, by decide +kernel, push_loses_nothing fieldDumps fieldLoads ?_⟩
  exact bufferRun_reaches (by decide : (1 : Int) ≤ 2) trivial BufferWorld.unfailing_reply

/-- A cycle that raises at its first event has taken all three out of the system, and a cap of
zero counts events that it does not drop. -/
theorem push_loses_drained :
    (∃ x : BufferCrew, Crew.Reaches (bufferRules fieldDumps fieldLoads BufferCall.Capped
        BufferWorld.Answers) BufferCrew.initial x ∧ ¬ NothingLost fieldDumps x ∧
        (∀ i, x.running i = none) ∧ x.shared.accepted.length = 3 ∧ x.shared.buffer = [] ∧
          x.shared.counted = [] ∧ x.shared.handed.length = 0) ∧
      ∃ x : BufferCrew, Crew.Reaches (bufferRules fieldDumps fieldLoads (fun _ => True)
        BufferWorld.Unfailing) BufferCrew.initial x ∧ ¬ NothingLost fieldDumps x := by
  have hrest : ∀ i, (bufferRun true fewEvents 100000).running i = none := by
    intro i
    by_cases hi : i = 0 ∨ i = 1
    · obtain rfl | rfl := hi
      · exact Option.isNone_iff_eq_none.1 (by decide +kernel)
      · exact Option.isNone_iff_eq_none.1 (by decide +kernel)
    · rw [not_or] at hi
      apply Crew.foldl_cue_running_other
      intro m hm
      simp only [pushThenCollect, List.mem_append, List.mem_cons, List.mem_replicate] at hm
      obtain (rfl | ⟨-, rfl⟩) | (rfl | ⟨-, rfl⟩) := hm
      · exact hi.1
      · exact hi.1
      · exact hi.2
      · exact hi.2
  constructor
  · refine ⟨bufferRun true fewEvents 100000, ?_, fun hlost => ?_, hrest, ?_, ?_, ?_, ?_⟩
    · exact bufferRun_reaches (by decide : (1 : Int) ≤ 100000) trivial
        (BufferWorld.answers_reply true)
    · have hhand := hlost.hands 1 (.inl (hrest 1))
      revert hhand
      decide +kernel
    · decide +kernel
    · decide +kernel
    · decide +kernel
    · decide +kernel
  · refine ⟨bufferRun false fewEvents 0, ?_, fun hlost => ?_⟩
    · exact bufferRun_reaches trivial trivial BufferWorld.unfailing_reply
    · have hcounter := hlost.conserved.counter
      revert hcounter
      decide +kernel

end CentralOps
