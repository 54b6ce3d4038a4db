import CentralOps.Json
import CentralOps.Lib.Hands
import CentralOps.Lib.Rely

namespace CentralOps
set_option autoImplicit true

/-- The counters of `Receiver.stats`. -/
inductive Stat where
  | truncated
  | unknownSource
  | unclassified
  | accepted
  | droppedMemory
  deriving DecidableEq

inductive LineOutcome where
  | unknownSource
  | unclassified
  | accepted
  deriving DecidableEq

structure QueueKey where
  integrationId : Int
  stream : String
  platform : String
  deriving DecidableEq

structure Message where
  key : QueueKey
  seq : Nat
  event : Obj
  deriving DecidableEq

structure SourceMatch where
  integrationId : Int
  platform : String
  classify : Obj → Option String

/-- What `handle_line` reads beside the line: the sources, the registry, the parser, the stamp. -/
structure LineEnv where
  resolve : String → Int → String → Option SourceMatch
  registryHas : String → String → Bool
  parse : List UInt8 → Obj
  stamp : Obj → String → String → String → Obj

structure ReceiverConfig where
  batchMax : Nat
  maxLine : Nat

/-- `batch_max * 20`. -/
def ReceiverConfig.retention (cfg : ReceiverConfig) : Nat := cfg.batchMax * 20

/-- The queues and counters of a `Receiver`; the messages that arrived, that were pushed and that
the retention cap dropped, each drop with what it kept, and the messages that a flush has taken out
of the queues. -/
structure ReceiverWorld where
  queues : Dict QueueKey (List Message) := .empty
  stats : Dict Stat Nat := .empty
  arrived : List Message := []
  pushed : List Message := []
  dropped : List Message := []
  drops : List (List Message × List Message) := []
  hands : Hands Nat Message := []

/-- The white space that `bytes.strip` strips. -/
def byteSpace (b : UInt8) : Bool := 9 ≤ b && b ≤ 13 || b == 32

namespace ReceiverWorld

def stat (w : ReceiverWorld) (s : Stat) : Nat := (w.stats.get? s).getD 0

/-- `_bump`. -/
def bump (w : ReceiverWorld) (s : Stat) : ReceiverWorld := { w with stats := w.stats.bump s 1 }

def enqueue (w : ReceiverWorld) (key : QueueKey) (event : Obj) : ReceiverWorld :=
  let m : Message := ⟨key, w.arrived.length, event⟩
  { w with
    queues := w.queues.push key m
    arrived := w.arrived ++ [m] }

/-- `handle_line`, for a line that is already cut to length. -/
def handleCut (env : LineEnv) (raw : List UInt8) (peerIp : String) (port : Int)
    (transport : String) (w : ReceiverWorld) : Option LineOutcome × ReceiverWorld :=
  match env.resolve peerIp port transport with
  | none => (some .unknownSource, w.bump .unknownSource)
  | some source =>
    let event := env.parse raw
    match source.classify event with
    | none => (some .unclassified, w.bump .unclassified)
    | some stream =>
      if stream = "" ∨ env.registryHas source.platform stream = false then
        (some .unclassified, w.bump .unclassified)
      else
        let key : QueueKey := ⟨source.integrationId, stream, source.platform⟩
        (some .accepted, (w.enqueue key (env.stamp event stream transport peerIp)).bump .accepted)

def handleLine (cfg : ReceiverConfig) (env : LineEnv) (raw : List UInt8) (peerIp : String)
    (port : Int) (transport : String) (w : ReceiverWorld) : Option LineOutcome × ReceiverWorld :=
  if raw.all byteSpace then (none, w)
  else if cfg.maxLine < raw.length then
    handleCut env (raw.take cfg.maxLine) peerIp port transport (w.bump .truncated)
  else handleCut env raw peerIp port transport w

/-- `pending`. -/
def pending (w : ReceiverWorld) : Nat := w.queues.contents.length

/-- `queues, self._queues = self._queues, {}`. -/
def take (i : Nat) (w : ReceiverWorld) : ReceiverWorld :=
  { w with
    queues := .empty
    hands := w.hands.give i w.queues.contents }

def push (i : Nat) (events : List Message) (w : ReceiverWorld) : ReceiverWorld :=
  { w with
    pushed := w.pushed ++ events
    hands := w.hands.less i events.length }

def retain (cfg : ReceiverConfig) (i : Nat) (key : QueueKey) (events : List Message)
    (w : ReceiverWorld) : ReceiverWorld :=
  let q := w.queues.bucket key ++ events
  let hands := w.hands.less i events.length
  if cfg.retention < q.length then
    let droppedMem := q.length - cfg.retention
    { w with
      queues := w.queues.set key (q.drop droppedMem)
      stats := w.stats.bump .droppedMemory 1
      dropped := w.dropped ++ q.take droppedMem
      drops := w.drops ++ [(q.take droppedMem, q.drop droppedMem)]
      hands := hands }
  else { w with queues := w.queues.set key q, hands := hands }

end ReceiverWorld

inductive PushReply where
  | ok (accepted dropped : Nat)
  | raised
  | cancelled
  deriving DecidableEq

/-- Where `flush` awaits, or reads and writes what it shares. -/
inductive FlushAsk where
  | take
  | push (key : QueueKey) (events : List Message)
  | depth (key : QueueKey)
  | retain (key : QueueKey) (events : List Message)

/-- `buffer_depth` answers `none` when the task is cancelled there. -/
abbrev FlushReply : FlushAsk → Type
  | .take => List (QueueKey × List Message)
  | .push _ _ => PushReply
  | .depth _ => Option Nat
  | .retain _ _ => Unit

abbrev FlushTask := Dialog FlushAsk FlushReply

inductive FlushResult where
  | done (total : Nat)
  | cancelled

namespace FlushTask

def take : FlushTask (List (QueueKey × List Message)) := Dialog.query FlushAsk.take

def push (key : QueueKey) (events : List Message) : FlushTask PushReply :=
  Dialog.query (FlushAsk.push key events)

def depth (key : QueueKey) : FlushTask (Option Nat) := Dialog.query (FlushAsk.depth key)

def retain (key : QueueKey) (events : List Message) : FlushTask Unit :=
  Dialog.query (FlushAsk.retain key events)

end FlushTask

def flushQueues : List (QueueKey × List Message) → Nat → FlushTask FlushResult
  | [], total => pure (.done total)
  | (key, events) :: queues, total => do
    match ← FlushTask.push key events with
    | .cancelled => pure .cancelled
    | .raised => do
      FlushTask.retain key events
      flushQueues queues total
    | .ok accepted _ => do
      match ← FlushTask.depth key with
      | none => pure .cancelled
      | some _ => flushQueues queues (total + accepted)

/-- `Receiver.flush`. -/
def flush : FlushTask FlushResult := do
  let queues ← FlushTask.take
  flushQueues queues 0

namespace ReceiverWorld

/-- What the awaits of a flush may return, and what they leave: a push that raises or is cancelled
has written nothing. -/
def Answers (cfg : ReceiverConfig) (i : Nat) (w : ReceiverWorld) :
    (q : FlushAsk) → FlushReply q → ReceiverWorld → Prop
  | .take, queues, w' => queues = w.queues.entries ∧ w' = w.take i
  | .push _ events, reply, w' =>
    w' = match reply with
      | .ok _ _ => w.push i events
      | _ => w
  | .depth _, _, w' => w' = w
  | .retain key events, _, w' => w' = w.retain cfg i key events

/-- The messages that are in a queue or with a flush, but for the first `n` of one flush. -/
def unpushed (w : ReceiverWorld) (i n : Nat) : List Message :=
  w.queues.contents ++ (w.hands.less i n).items

/-- No flush is cancelled that has messages in its hands. What a flush pushes is older than all else
of its queue that is not pushed; what it puts back is newer than what is in the queue by then, and
the queue has one place too few for it at most. -/
def Orderly (cfg : ReceiverConfig) (i : Nat) (w : ReceiverWorld) (q : FlushAsk) (r : FlushReply q)
    (w' : ReceiverWorld) : Prop :=
  Answers cfg i w q r w' ∧
    match q, r with
    | .take, _ => True
    | .push key events, .ok _ _ =>
      ∀ e ∈ events, ∀ m ∈ w.unpushed i events.length, m.key = key → e.seq < m.seq
    | .push _ _, .raised => True
    | .push _ _, .cancelled => False
    | .depth _, none => w.hands.of i = []
    | .depth _, some _ => True
    | .retain key events, _ =>
      (∀ m ∈ w.queues.bucket key, ∀ e ∈ events, m.seq < e.seq) ∧
        (w.queues.bucket key ++ events).length ≤ cfg.retention + 1

def Moves (cfg : ReceiverConfig) (w w' : ReceiverWorld) : Prop :=
  ∃ env raw peerIp port transport, w' = (w.handleLine cfg env raw peerIp port transport).2

end ReceiverWorld

abbrev ReceiverCrew := Crew ReceiverWorld Nat Unit FlushAsk FlushReply FlushResult

def ReceiverCrew.initial : ReceiverCrew := ⟨{}, fun _ => none⟩

/-- Flushes of the flusher and of the stream handlers, at any time, while lines arrive. -/
def receiverRules (cfg : ReceiverConfig)
    (answers : Nat → ReceiverWorld → (q : FlushAsk) → FlushReply q → ReceiverWorld → Prop) :
    CrewRules ReceiverWorld Nat Unit FlushAsk FlushReply FlushResult where
  program _ := flush
  starts _ _ _ := True
  answers := answers
  moves := ReceiverWorld.Moves cfg

/-- Messages of one queue are in the order of their arrival, none twice. -/
def InOrder (ms : List Message) : Prop := ms.Pairwise (fun a b => a.key = b.key → a.seq < b.seq)

/-- What the receiver owes: while no flush runs every accepted message is pushed, pending or counted
as dropped; what was pushed was pushed once and in order; and every drop took the oldest. -/
structure MessagesKept (x : ReceiverCrew) : Prop where
  conserved : (∀ i, x.running i = none ∨ ∃ c r, x.running i = some (c, .done r)) →
    x.shared.stat .accepted =
      x.shared.pushed.length + x.shared.pending + x.shared.stat .droppedMemory
  order : InOrder x.shared.pushed
  oldest : ∀ drop ∈ x.shared.drops, ∀ a ∈ drop.1, ∀ b ∈ drop.2, a.seq < b.seq

namespace ReceiverWorld

def SameHand (i : Nat) (w u : ReceiverWorld) : Prop := u.hands.of i = w.hands.of i

def OtherHand (i : Nat) (w u : ReceiverWorld) : Prop := ∀ j, j ≠ i → SameHand j w u

/-- Where every message is: pushed, dropped, in a queue or with a flush. What was pushed is in order
and older than what of its queue is not, and so are the queues. -/
structure Sound (w : ReceiverWorld) : Prop where
  arrived : w.arrived.Perm (w.pushed ++ w.dropped ++ w.queues.contents ++ w.hands.items)
  accepted : w.stat .accepted = w.arrived.length
  counted : w.stat .droppedMemory = w.dropped.length
  numbered : ∀ m ∈ w.arrived, m.seq < w.arrived.length
  order : InOrder w.pushed
  front : ∀ p ∈ w.pushed, ∀ m ∈ w.queues.contents ++ w.hands.items, p.key = m.key → p.seq < m.seq
  queues : ∀ key, InOrder (w.queues.bucket key) ∧ ∀ m ∈ w.queues.bucket key, m.key = key
  drops : ∀ drop ∈ w.drops, ∀ a ∈ drop.1, ∀ b ∈ drop.2, a.seq < b.seq

section Sound
variable {w : ReceiverWorld}

theorem stat_bump_self (w : ReceiverWorld) (s : Stat) : (w.bump s).stat s = w.stat s + 1 := by
  rw [stat, bump, Dict.bump, Dict.get?_set_self, Option.getD_some, stat]

theorem stat_bump_ne (h : s ≠ t) (w : ReceiverWorld) : (w.bump t).stat s = w.stat s := by
  rw [stat, bump, Dict.bump, Dict.get?_set_ne _ h, stat]

theorem Sound.bump (h : w.Sound) (haccepted : s ≠ .accepted) (hdropped : s ≠ .droppedMemory) :
    (w.bump s).Sound where
  arrived := h.arrived
  accepted := (stat_bump_ne haccepted.symm w).trans h.accepted
  counted := (stat_bump_ne hdropped.symm w).trans h.counted
  numbered := h.numbered
  order := h.order
  front := h.front
  queues := h.queues
  drops := h.drops

theorem Sound.unpushed_arrived (h : w.Sound) (hm : m ∈ w.queues.contents ++ w.hands.items) :
    m ∈ w.arrived := by
  apply h.arrived.mem_iff.2
  rw [List.append_assoc]
  exact List.mem_append_right _ hm

theorem Sound.pushed_arrived (h : w.Sound) (hm : m ∈ w.pushed) : m ∈ w.arrived := by
  apply h.arrived.mem_iff.2
  rw [List.append_assoc, List.append_assoc]
  exact List.mem_append_left _ hm

theorem contents_push_perm (d : Dict QueueKey (List Message)) (key : QueueKey) (m : Message) :
    (d.push key m).contents.Perm (d.contents ++ [m]) := by
  have h := d.contents_set_perm key (d.bucket key ++ [m])
  rw [List.append_assoc, List.perm_append_left_iff] at h
  exact h.trans List.perm_append_comm

theorem Sound.enqueue (h : w.Sound) (key : QueueKey) (event : Obj) :
    ((w.enqueue key event).bump .accepted).Sound where
  arrived := by
    have hpush := contents_push_perm w.queues key ⟨key, w.arrived.length, event⟩
    have hall := h.arrived.append_right [(⟨key, w.arrived.length, event⟩ : Message)]
    apply hall.trans
    rw [List.append_assoc, List.append_assoc (w.pushed ++ w.dropped)]
    simp only [ReceiverWorld.enqueue, ReceiverWorld.bump, List.append_assoc]
    apply List.Perm.append_left
    apply List.Perm.append_left
    have hswap := (@List.perm_append_comm _ w.hands.items
      [(⟨key, w.arrived.length, event⟩ : Message)]).append_left w.queues.contents
    apply hswap.trans
    rw [← List.append_assoc]
    exact hpush.symm.append_right _
  accepted := by
    rw [stat_bump_self]
    change w.stat .accepted + 1 = (w.arrived ++ [_]).length
    rw [h.accepted, List.length_append, List.length_singleton]
  counted := (stat_bump_ne (by decide) _).trans h.counted
  numbered m hm := by
    change m.seq < (w.arrived ++ [_]).length
    rw [List.length_append, List.length_singleton]
    obtain hm | hm := List.mem_append.1 hm
    · exact Nat.lt_succ_of_lt (h.numbered m hm)
    · rw [List.mem_singleton.1 hm]
      exact Nat.lt_succ_self _
  order := h.order
  front p hp m hm hkey := by
    obtain hm | hm := List.mem_append.1 hm
    · have hm := (contents_push_perm w.queues key ⟨key, w.arrived.length, event⟩).mem_iff.1 hm
      obtain hm | hm := List.mem_append.1 hm
      · exact h.front p hp m (List.mem_append_left _ hm) hkey
      · rw [List.mem_singleton.1 hm]
        exact h.numbered p (h.pushed_arrived hp)
    · exact h.front p hp m (List.mem_append_right _ hm) hkey
  queues k := by
    change InOrder ((w.queues.push key _).bucket k) ∧ _
    obtain ⟨hsorted, hkeys⟩ := h.queues k
    simp only [ReceiverWorld.enqueue, ReceiverWorld.bump, Dict.bucket_push]
    by_cases hk : key = k
    · rw [if_pos hk]
      constructor
      · apply List.pairwise_append.2
        refine ⟨hsorted, List.pairwise_singleton _ _, fun a ha b hb _ => ?_⟩
        rw [List.mem_singleton.1 hb]
        have hin := List.mem_append_left w.hands.items (Dict.mem_contents.2 ⟨k, ha⟩)
        exact h.numbered a (h.unpushed_arrived hin)
      · intro m hm
        obtain hm | hm := List.mem_append.1 hm
        · exact hkeys m hm
        · rw [List.mem_singleton.1 hm]
          exact hk
    · rw [if_neg hk, List.append_nil]
      exact ⟨hsorted, hkeys⟩
  drops := h.drops

theorem Sound.handleCut (h : w.Sound) (env : LineEnv) (raw : List UInt8) (peerIp : String)
    (port : Int) (transport : String) : (handleCut env raw peerIp port transport w).2.Sound := by
  rw [ReceiverWorld.handleCut]
  split
  · exact h.bump (by decide) (by decide)
  · dsimp only
    split
    · exact h.bump (by decide) (by decide)
    · split
      · exact h.bump (by decide) (by decide)
      · exact h.enqueue _ _

theorem Sound.handleLine (h : w.Sound) (cfg : ReceiverConfig) (env : LineEnv) (raw : List UInt8)
    (peerIp : String) (port : Int) (transport : String) :
    (w.handleLine cfg env raw peerIp port transport).2.Sound := by
  rw [ReceiverWorld.handleLine]
  split
  · exact h
  · split
    · exact (h.bump (by decide) (by decide)).handleCut env _ peerIp port transport
    · exact h.handleCut env raw peerIp port transport

theorem Sound.take (h : w.Sound) (i : Nat) : (w.take i).Sound where
  arrived := by
    apply h.arrived.trans
    have hempty : (Dict.empty : Dict QueueKey (List Message)).contents = [] := rfl
    simp only [ReceiverWorld.take, Hands.items_give, hempty, List.append_nil, List.append_assoc]
    exact ((List.perm_append_comm).append_left _).append_left _
  accepted := h.accepted
  counted := h.counted
  numbered := h.numbered
  order := h.order
  front p hp m hm hkey := by
    apply h.front p hp m _ hkey
    simp only [ReceiverWorld.take, Hands.items_give, List.mem_append] at hm
    obtain hm | hm | hm := hm
    · obtain ⟨k, hk⟩ := Dict.mem_contents.1 hm
      cases hk
    · exact List.mem_append_right _ hm
    · exact List.mem_append_left _ hm
  queues key := ⟨List.Pairwise.nil, fun m hm => nomatch hm⟩
  drops := h.drops

structure Carries (i : Nat) (key : QueueKey) (events : List Message) (w : ReceiverWorld) : Prop where
  hand : (w.hands.of i).take events.length = events
  order : InOrder events
  keys : ∀ e ∈ events, e.key = key

theorem Carries.count (h : Carries i key events w) (m : Message) :
    w.hands.items.count m = events.count m + (w.hands.less i events.length).items.count m := by
  have hperm := Hands.items_less_perm i events.length w.hands
  rw [h.hand] at hperm
  rw [hperm.count_eq, List.count_append]

theorem Carries.mem_items (h : Carries i key events w) (he : e ∈ events) : e ∈ w.hands.items := by
  rw [← h.hand] at he
  exact Hands.mem_items_of (List.mem_of_mem_take he)

theorem mem_unpushed (hm : m ∈ w.unpushed i n) : m ∈ w.queues.contents ++ w.hands.items := by
  obtain hm | hm := List.mem_append.1 hm
  · exact List.mem_append_left _ hm
  · exact List.mem_append_right _ (Hands.mem_items_of_less hm)

theorem Sound.push (h : w.Sound) (hc : Carries i key events w)
    (hfirst : ∀ e ∈ events, ∀ m ∈ w.unpushed i events.length, m.key = key → e.seq < m.seq) :
    (w.push i events).Sound where
  arrived := by
    apply h.arrived.trans
    rw [List.perm_iff_count]
    intro m
    have hcount := hc.count m
    simp only [ReceiverWorld.push, List.count_append]
    omega
  accepted := h.accepted
  counted := h.counted
  numbered := h.numbered
  order := by
    apply List.pairwise_append.2
    refine ⟨h.order, hc.order, fun p hp e he hkey => ?_⟩
    exact h.front p hp e (List.mem_append_right _ (hc.mem_items he)) hkey
  front p hp m hm hkey := by
    obtain hp | hp := List.mem_append.1 hp
    · exact h.front p hp m (mem_unpushed hm) hkey
    · exact hfirst p hp m hm (hkey.symm.trans (hc.keys p hp))
  queues := h.queues
  drops := h.drops

theorem Sound.refilled (h : w.Sound) (hc : Carries i key events w)
    (hbehind : ∀ m ∈ w.queues.bucket key, ∀ e ∈ events, m.seq < e.seq) :
    InOrder (w.queues.bucket key ++ events) ∧
      ∀ m ∈ w.queues.bucket key ++ events, m.key = key := by
  obtain ⟨hsorted, hkeys⟩ := h.queues key
  constructor
  · apply List.pairwise_append.2
    exact ⟨hsorted, hc.order, fun a ha b hb _ => hbehind a ha b hb⟩
  · intro m hm
    obtain hm | hm := List.mem_append.1 hm
    · exact hkeys m hm
    · exact hc.keys m hm

/-- The queue `key` is given what it has and what a flush brings back, but for the first `n`. -/
def refill (i : Nat) (key : QueueKey) (events : List Message) (n : Nat) (w : ReceiverWorld) :
    ReceiverWorld :=
  { w with
    queues := w.queues.set key ((w.queues.bucket key ++ events).drop n)
    dropped := w.dropped ++ (w.queues.bucket key ++ events).take n
    hands := w.hands.less i events.length }

theorem refill_perm (hc : Carries i key events w) (n : Nat) :
    (w.pushed ++ w.dropped ++ w.queues.contents ++ w.hands.items).Perm
      (w.pushed ++ (w.refill i key events n).dropped ++ (w.refill i key events n).queues.contents ++
        (w.refill i key events n).hands.items) := by
  rw [List.perm_iff_count]
  intro m
  have hcount := hc.count m
  have hset := (w.queues.contents_set_perm key
    ((w.queues.bucket key ++ events).drop n)).count_eq m
  have hsplit := congrArg (List.count m) (List.take_append_drop n (w.queues.bucket key ++ events))
  simp only [List.count_append] at hset hsplit
  simp only [refill, List.count_append]
  omega

theorem refill_front (h : w.Sound) (hc : Carries i key events w) (hp : p ∈ w.pushed)
    (hm : m ∈ (w.refill i key events n).queues.contents ++ (w.refill i key events n).hands.items)
    (hkey : p.key = m.key) : p.seq < m.seq := by
  apply h.front p hp m _ hkey
  obtain hm | hm := List.mem_append.1 hm
  · obtain ⟨k, hk⟩ := Dict.mem_contents.1 hm
    rw [refill, Dict.bucket_set] at hk
    by_cases hkk : k = key
    · rw [if_pos hkk] at hk
      obtain hk | hk := List.mem_append.1 (List.mem_of_mem_drop hk)
      · exact List.mem_append_left _ (Dict.mem_contents.2 ⟨key, hk⟩)
      · exact List.mem_append_right _ (hc.mem_items hk)
    · rw [if_neg hkk] at hk
      exact List.mem_append_left _ (Dict.mem_contents.2 ⟨k, hk⟩)
  · exact List.mem_append_right _ (Hands.mem_items_of_less hm)

theorem refill_queues (h : w.Sound) (hc : Carries i key events w)
    (hbehind : ∀ m ∈ w.queues.bucket key, ∀ e ∈ events, m.seq < e.seq) (n : Nat) (k : QueueKey) :
    InOrder ((w.refill i key events n).queues.bucket k) ∧
      ∀ m ∈ (w.refill i key events n).queues.bucket k, m.key = k := by
  rw [refill, Dict.bucket_set]
  by_cases hk : k = key
  · obtain ⟨hsorted, hkeys⟩ := h.refilled hc hbehind
    rw [if_pos hk]
    exact ⟨hsorted.drop, fun m hm => (hkeys m (List.mem_of_mem_drop hm)).trans hk.symm⟩
  · rw [if_neg hk]
    exact h.queues k

theorem retain_fits (cfg : ReceiverConfig) (w : ReceiverWorld)
    (h : ¬ cfg.retention < (w.queues.bucket key ++ events).length) :
    w.retain cfg i key events = w.refill i key events 0 := by
  rw [retain, if_neg h, refill, List.drop_zero, List.take_zero, List.append_nil]

theorem Sound.retain (h : w.Sound) (hc : Carries i key events w)
    (hbehind : ∀ m ∈ w.queues.bucket key, ∀ e ∈ events, m.seq < e.seq)
    (hfits : (w.queues.bucket key ++ events).length ≤ cfg.retention + 1) :
    (w.retain cfg i key events).Sound := by
  by_cases hover : cfg.retention < (w.queues.bucket key ++ events).length
  · have hone : (w.queues.bucket key ++ events).length - cfg.retention = 1 := by omega
    have hretain : w.retain cfg i key events = { (w.refill i key events 1) with
        stats := w.stats.bump .droppedMemory 1
        drops := w.drops ++ [((w.queues.bucket key ++ events).take 1,
          (w.queues.bucket key ++ events).drop 1)] } := by
      rw [ReceiverWorld.retain, if_pos hover, hone]
      rfl
    rw [hretain]
    constructor
    · exact h.arrived.trans (refill_perm hc 1)
    · exact (stat_bump_ne (by decide) w).trans h.accepted
    · change (w.bump .droppedMemory).stat .droppedMemory =
        (w.dropped ++ (w.queues.bucket key ++ events).take 1).length
      rw [stat_bump_self, h.counted, List.length_append, List.length_take]
      omega
    · exact h.numbered
    · exact h.order
    · exact fun p hp m hm hkey => refill_front h hc hp hm hkey
    · exact refill_queues h hc hbehind 1
    · intro drop hdrop a ha b hb
      obtain hdrop | hdrop := List.mem_append.1 hdrop
      · exact h.drops drop hdrop a ha b hb
      · rw [List.mem_singleton.1 hdrop] at ha hb
        obtain ⟨hsorted, hkeys⟩ := h.refilled hc hbehind
        rw [InOrder, ← List.take_append_drop 1 (w.queues.bucket key ++ events)] at hsorted
        have hkey := (hkeys a (List.mem_of_mem_take ha)).trans
          (hkeys b (List.mem_of_mem_drop hb)).symm
        exact (List.pairwise_append.1 hsorted).2.2 a ha b hb hkey
  · rw [retain_fits cfg w hover]
    constructor
    · exact h.arrived.trans (refill_perm hc 0)
    · exact h.accepted
    · change w.stat .droppedMemory = (w.dropped ++ (w.queues.bucket key ++ events).take 0).length
      rw [h.counted, List.take_zero, List.append_nil]
    · exact h.numbered
    · exact h.order
    · exact fun p hp m hm hkey => refill_front h hc hp hm hkey
    · exact refill_queues h hc hbehind 0
    · exact h.drops

end Sound

section Programs
variable {cfg : ReceiverConfig} {w : ReceiverWorld} {i : Nat}

abbrev Keeps (cfg : ReceiverConfig) (i : Nat) (post : α → ReceiverWorld → Prop) (t : FlushTask α)
    (w : ReceiverWorld) : Prop :=
  Dialog.Meets (Orderly cfg i) (SameHand i) (OtherHand i) Sound post t w

def EmptyHand (i : Nat) (w : ReceiverWorld) : Prop := w.hands.of i = []

def Taken (queues : List (QueueKey × List Message)) : Prop :=
  ∀ p ∈ queues, InOrder p.2 ∧ ∀ m ∈ p.2, m.key = p.1

def InHand (i : Nat) (queues : List (QueueKey × List Message)) (w : ReceiverWorld) : Prop :=
  w.hands.of i = queues.flatMap Prod.snd

theorem InHand.carries {queues : List (QueueKey × List Message)} (htaken : Taken ((key, events) :: queues))
    (h : InHand i ((key, events) :: queues) w) : Carries i key events w where
  hand := by
    rw [show w.hands.of i = _ from h, List.flatMap_cons, List.take_left]
  order := (htaken (key, events) List.mem_cons_self).1
  keys := (htaken (key, events) List.mem_cons_self).2

theorem InHand.less {queues : List (QueueKey × List Message)} (h : InHand i ((key, events) :: queues) w) :
    (w.hands.less i events.length).of i = queues.flatMap Prod.snd := by
  rw [Hands.of_less_self, show w.hands.of i = _ from h, List.flatMap_cons, List.drop_left]

theorem retain_hands (cfg : ReceiverConfig) (i : Nat) (key : QueueKey) (events : List Message)
    (w : ReceiverWorld) : (w.retain cfg i key events).hands = w.hands.less i events.length := by
  rw [retain]
  split
  · rfl
  · rfl

theorem flushQueues_keeps {queues : List (QueueKey × List Message)} (htaken : Taken queues)
    (h : InHand i queues w) (total : Nat) :
    Keeps cfg i (fun _ u => EmptyHand i u) (flushQueues queues total) w := by
  induction queues generalizing w total with
  | nil => exact h
  | cons p queues ih =>
    obtain ⟨key, events⟩ := p
    have hrest : Taken queues := fun p hp => htaken p (List.mem_cons_of_mem _ hp)
    rw [flushQueues]
    apply Dialog.Meets.query
    rintro t hst hI reply u ⟨rfl, horderly⟩
    have ht : InHand i ((key, events) :: queues) t := Eq.trans hst h
    have hcarries := ht.carries htaken
    cases reply with
    | cancelled => exact horderly.elim
    | raised =>
      refine ⟨hI, fun _ _ => rfl, ?_⟩
      apply Dialog.Meets.query
      rintro t' hst' hI' r u' ⟨rfl, hbehind, hfits⟩
      have ht' : InHand i ((key, events) :: queues) t' := Eq.trans hst' ht
      refine ⟨hI'.retain (ht'.carries htaken) hbehind hfits, fun j hj => ?_, ih hrest ?_ total⟩
      · rw [SameHand, retain_hands]
        exact Hands.of_less_ne hj _ _
      · rw [InHand, retain_hands]
        exact ht'.less
    | ok accepted dropped =>
      refine ⟨hI.push hcarries horderly, fun j hj => Hands.of_less_ne hj _ _, ?_⟩
      apply Dialog.Meets.query
      rintro t' hst' hI' depth u' ⟨rfl, hempty⟩
      have ht' : InHand i queues u' := Eq.trans hst' ht.less
      refine ⟨hI', fun _ _ => rfl, ?_⟩
      cases depth with
      | none => exact hempty
      | some n => exact ih hrest ht' _

theorem flush_keeps (h : EmptyHand i w) :
    Keeps cfg i (fun _ u => EmptyHand i u) flush w := by
  rw [flush]
  apply Dialog.Meets.query
  rintro t hst hI queues u ⟨⟨rfl, rfl⟩, -⟩
  have ht : EmptyHand i t := Eq.trans hst h
  refine ⟨hI.take i, fun j hj => Hands.of_give_ne hj _ _, flushQueues_keeps ?_ ?_ 0⟩
  · intro p hp
    have hbucket : t.queues.bucket p.1 = p.2 := by
      rw [Dict.bucket, (t.queues.mem_entries_iff).1 hp, Option.getD_some]
    rw [← hbucket]
    exact hI.queues p.1
  · rw [InHand, take, Hands.of_give_self, show t.hands.of i = [] from ht, List.nil_append]
    rfl

theorem initial_sound₁ : Sound {} where
  arrived := .refl _
  accepted := rfl
  counted := rfl
  numbered _ hm := nomatch hm
  order := List.Pairwise.nil
  front _ hp := nomatch hp
  queues _ := ⟨List.Pairwise.nil, fun _ hm => nomatch hm⟩
  drops _ hdrop := nomatch hdrop

theorem handleCut_hands (env : LineEnv) (raw : List UInt8) (peerIp : String) (port : Int)
    (transport : String) : (handleCut env raw peerIp port transport w).2.hands = w.hands := by
  rw [handleCut]
  split
  · rfl
  · dsimp only
    split
    · rfl
    · split
      · rfl
      · rfl

theorem handleLine_hands (env : LineEnv) (raw : List UInt8) (peerIp : String) (port : Int)
    (transport : String) : (w.handleLine cfg env raw peerIp port transport).2.hands = w.hands := by
  rw [handleLine]
  split
  · rfl
  · split
    · exact handleCut_hands env _ peerIp port transport
    · exact handleCut_hands env raw peerIp port transport

end Programs

end ReceiverWorld

/-- Where every flush is orderly, messages are conserved, pushed in order and dropped oldest
first. -/
theorem messages_kept (cfg : ReceiverConfig) {x : ReceiverCrew}
    (h : Crew.Reaches (receiverRules cfg (ReceiverWorld.Orderly cfg)) ReceiverCrew.initial x) :
    MessagesKept x := by
  have hassured : Crew.Assured (receiverRules cfg (ReceiverWorld.Orderly cfg))
      ReceiverWorld.SameHand ReceiverWorld.OtherHand ReceiverWorld.Sound ReceiverWorld.EmptyHand
      x := by
    apply h.assured
    · exact fun i s t u hst htu => Eq.trans htu hst
    · exact fun i s => rfl
    · exact fun i s t hs hst => Eq.trans hst hs
    · exact fun i j s t hj hguar => hguar j hj
    · exact fun w i call _ hempty _ => ReceiverWorld.flush_keeps hempty
    · rintro w u hw ⟨env, raw, peerIp, port, transport, rfl⟩
      refine ⟨hw.handleLine cfg env raw peerIp port transport, fun i => ?_⟩
      exact congrArg (Hands.of i) (ReceiverWorld.handleLine_hands env raw peerIp port transport)
    · exact ⟨ReceiverWorld.initial_sound₁, fun i => rfl⟩
  obtain ⟨hsound, hworkers⟩ := hassured
  refine ⟨fun hrest => ?_, hsound.order, hsound.drops⟩
  have hnil : x.shared.hands = [] := by
    apply Hands.eq_nil
    intro i
    have hcontent := hworkers i
    obtain hnone | ⟨c, r, hdone⟩ := hrest i
    · rw [hnone] at hcontent
      exact hcontent
    · rw [hdone] at hcontent
      exact hcontent
  have hlength := hsound.arrived.length_eq
  rw [hnil] at hlength
  simp only [List.length_append, Hands.items, List.map_nil, List.length_nil, Nat.add_zero]
    at hlength
  rw [hsound.accepted, hlength, hsound.counted, ReceiverWorld.pending]
  omega

/-- A receiver that retains twenty messages, and lines of one source that are all accepted. -/
def smallReceiver : ReceiverConfig := ⟨1, 8192⟩

def lineEnv : LineEnv where
  resolve _ _ _ := some ⟨1, "fortinet_fortigate", fun _ => some "traffic"⟩
  registryHas _ _ := true
  parse _ := [("message", .str "a")]
  stamp event _ _ _ := event

def receiverReply (reply : PushReply) (i : Nat) (w : ReceiverWorld) :
    (q : FlushAsk) → FlushReply q × ReceiverWorld
  | .take => (w.queues.entries, w.take i)
  | .push _ events =>
    (reply, match reply with
      | .ok _ _ => w.push i events
      | _ => w)
  | .depth _ => (some 0, w)
  | .retain key events => ((), w.retain smallReceiver i key events)

theorem receiverReply_answers (reply : PushReply) (i : Nat) (w : ReceiverWorld) (q : FlushAsk) :
    ReceiverWorld.Answers smallReceiver i w q (receiverReply reply i w q).1
      (receiverReply reply i w q).2 := by
  cases q with
  | take => exact ⟨rfl, rfl⟩
  | push key events =>
    cases reply with
    | _ => rfl
  | _ => rfl

def orderlyNow (w : ReceiverWorld) : FlushAsk → Bool
  | .push key events =>
    decide (∀ e ∈ events, ∀ m ∈ w.unpushed 0 events.length, m.key = key → e.seq < m.seq)
  | .retain key events =>
    decide ((∀ m ∈ w.queues.bucket key, ∀ e ∈ events, m.seq < e.seq) ∧
      (w.queues.bucket key ++ events).length ≤ smallReceiver.retention + 1)
  | _ => true

theorem receiverReply_orderly {reply : PushReply} (hreply : reply ≠ .cancelled) (w : ReceiverWorld)
    (q : FlushAsk) (h : orderlyNow w q = true) :
    ReceiverWorld.Orderly smallReceiver 0 w q (receiverReply reply 0 w q).1
      (receiverReply reply 0 w q).2 := by
  apply And.intro (receiverReply_answers reply 0 w q)
  cases q with
  | take => exact trivial
  | push key events =>
    have hfirst := of_decide_eq_true h
    cases reply with
    | ok accepted dropped => exact hfirst
    | raised => exact trivial
    | cancelled => exact absurd rfl hreply
  | depth key => exact trivial
  | retain key events =>
    have hbehind := of_decide_eq_true h
    exact hbehind

namespace ReceiverCrew

def line (x : ReceiverCrew) : ReceiverCrew :=
  { x with shared := (x.shared.handleLine smallReceiver lineEnv [97] "10.0.0.1" 514 "udp").2 }

/-- A flush that runs from its beginning to its end while nothing else happens. -/
def flushed (reply : PushReply) (x : ReceiverCrew) : ReceiverCrew :=
  { x with shared := (flush.play (receiverReply reply 0) x.shared).2 }

def steps (reply : PushReply) (n : Nat) (x : ReceiverCrew) : ReceiverCrew :=
  Crew.goes (receiverRules smallReceiver (ReceiverWorld.Answers smallReceiver))
    (receiverReply reply) (fun _ _ => true) 0 n x

variable {answers : Nat → ReceiverWorld → (q : FlushAsk) → FlushReply q → ReceiverWorld → Prop}

theorem reaches_line (x : ReceiverCrew) : Crew.Reaches (receiverRules smallReceiver answers) x x.line :=
  .single (.move ⟨lineEnv, [97], "10.0.0.1", 514, "udp", rfl⟩)

theorem reaches_flushed {x : ReceiverCrew} {reply : PushReply} (hidle : x.running 0 = none)
    (h : Dialog.Runs (answers 0) flush x.shared (flush.play (receiverReply reply 0) x.shared).1
      (flush.play (receiverReply reply 0) x.shared).2) :
    Crew.Reaches (receiverRules smallReceiver answers) x (x.flushed reply) :=
  Crew.reaches_of_ended_call (R := receiverRules smallReceiver answers) (c := ()) hidle trivial h

theorem reaches_orderly {x : ReceiverCrew} {reply : PushReply} (hreply : reply ≠ .cancelled)
    (hidle : x.running 0 = none)
    (hpass : flush.passes (receiverReply reply 0) orderlyNow x.shared = true) :
    Crew.Reaches (receiverRules smallReceiver (ReceiverWorld.Orderly smallReceiver)) x
      (x.flushed reply) := by
  apply reaches_flushed hidle
  exact Dialog.runs_play (fun w q hq => receiverReply_orderly hreply w q hq) hpass

theorem reaches_steps (reply : PushReply) (n : Nat) (x : ReceiverCrew) :
    Crew.Reaches (receiverRules smallReceiver (ReceiverWorld.Answers smallReceiver)) x
      (x.steps reply n) :=
  Crew.reaches_goes (fun i w q _ => receiverReply_answers reply i w q) 0 n x

def begun (x : ReceiverCrew) : ReceiverCrew := x.put 0 (some ((), flush))

theorem reaches_begun {x : ReceiverCrew} (hidle : x.running 0 = none) :
    Crew.Reaches (receiverRules smallReceiver answers) x x.begun :=
  .single (.start (R := receiverRules smallReceiver answers) (c := ()) hidle trivial)

theorem reaches_alone {x : ReceiverCrew} (reply : PushReply) (hidle : x.running 0 = none) :
    Crew.Reaches (receiverRules smallReceiver (ReceiverWorld.Answers smallReceiver)) x
      (x.flushed reply) :=
  reaches_flushed hidle (Dialog.runs_play_self
    (fun w q => receiverReply_answers reply 0 w q) flush x.shared)

end ReceiverCrew

/-- Two lines, a flush whose push raises, a third line, and a flush that pushes all three. -/
def retriedFlush : ReceiverCrew :=
  (ReceiverCrew.initial.line.line.flushed .raised).line.flushed (.ok 3 0)

theorem messages_kept_retried :
    retriedFlush.shared.pushed.length = 3 ∧ MessagesKept retriedFlush := by
  have hreaches : Crew.Reaches (receiverRules smallReceiver (ReceiverWorld.Orderly smallReceiver))
      ReceiverCrew.initial retriedFlush :=
    (ReceiverCrew.reaches_line _).trans <| (ReceiverCrew.reaches_line _).trans <|
      (ReceiverCrew.reaches_orderly (by decide) rfl (by decide +kernel)).trans <|
        (ReceiverCrew.reaches_line _).trans <|
          ReceiverCrew.reaches_orderly (by decide) rfl (by decide +kernel)
  exact ⟨by decide +kernel, messages_kept smallReceiver hreaches⟩

def cancelledFlush : ReceiverCrew := ReceiverCrew.initial.line.flushed .cancelled

def receivedLines : Nat → ReceiverCrew
  | 0 => ReceiverCrew.initial
  | n + 1 => (receivedLines n).line

def crowdedFlush : ReceiverCrew := (receivedLines 22).flushed .raised

def overtakenFlush : ReceiverCrew :=
  ((((ReceiverCrew.initial.line.begun).steps .raised 1).line).steps .raised 3).flushed (.ok 2 0)

theorem receivedLines_reaches (n : Nat) :
    (receivedLines n).running = ReceiverCrew.initial.running ∧
      Crew.Reaches (receiverRules smallReceiver (ReceiverWorld.Answers smallReceiver))
        ReceiverCrew.initial (receivedLines n) := by
  induction n with
  | zero => exact ⟨rfl, .refl⟩
  | succ n ih => exact ⟨ih.1, ih.2.trans (ReceiverCrew.reaches_line _)⟩

/-- A cancelled flush loses its messages, a drop of two counts one, and messages that are put back
behind a newer one are pushed after it. -/
theorem messages_not_kept :
    (∃ x : ReceiverCrew, Crew.Reaches (receiverRules smallReceiver (ReceiverWorld.Answers
        smallReceiver)) ReceiverCrew.initial x ∧ (∀ i, x.running i = none) ∧
        x.shared.stat .accepted ≠
          x.shared.pushed.length + x.shared.pending + x.shared.stat .droppedMemory) ∧
      (∃ x : ReceiverCrew, Crew.Reaches (receiverRules smallReceiver (ReceiverWorld.Answers
        smallReceiver)) ReceiverCrew.initial x ∧ (∀ i, x.running i = none) ∧
        x.shared.dropped.length = 2 ∧ x.shared.stat .droppedMemory = 1) ∧
      ∃ x : ReceiverCrew, Crew.Reaches (receiverRules smallReceiver (ReceiverWorld.Answers
        smallReceiver)) ReceiverCrew.initial x ∧ ¬ InOrder x.shared.pushed := by
  refine ⟨⟨cancelledFlush, ?_, fun i => rfl, by decide +kernel⟩,
    ⟨crowdedFlush, ?_, fun i => ?_, by decide +kernel, by decide +kernel⟩,
    overtakenFlush, ?_, by rw [InOrder]; decide +kernel⟩
  · exact (ReceiverCrew.reaches_line _).trans (ReceiverCrew.reaches_alone .cancelled rfl)
  · obtain ⟨hrest, hreaches⟩ := receivedLines_reaches 22
    exact hreaches.trans (ReceiverCrew.reaches_alone .raised (congrFun hrest 0))
  · exact congrFun (receivedLines_reaches 22).1 i
  · have hidle : (((ReceiverCrew.initial.line.begun).steps .raised 1).line.steps .raised 3).running 0 =
        none := Option.isNone_iff_eq_none.1 (by decide +kernel)
    exact (ReceiverCrew.reaches_line _).trans <| (ReceiverCrew.reaches_begun rfl).trans <|
      (ReceiverCrew.reaches_steps .raised 1 _).trans <| (ReceiverCrew.reaches_line _).trans <|
        (ReceiverCrew.reaches_steps .raised 3 _).trans (ReceiverCrew.reaches_alone (.ok 2 0) hidle)

end CentralOps
