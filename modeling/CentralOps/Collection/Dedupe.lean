import Mathlib.Algebra.Order.Ring.Cast
import CentralOps.Json
import CentralOps.Lib.Decimal
import CentralOps.Lib.ExpiringValue
import CentralOps.Lib.Stages
import CentralOps.Lib.Words

namespace CentralOps
set_option autoImplicit true

def defaultTtlSeconds : Int := 86400

def minTtlSeconds : Int := 4 * 3600

def maxTtlSeconds : Int := 31 * 86400

def clampTtlSeconds (seconds : Int) : Int :=
  if seconds ≤ 0 then defaultTtlSeconds else max minTtlSeconds (min seconds maxTtlSeconds)

/-- `KEY_TMPL`. -/
def dedupeKey (integrationId : Int) (messageId : String) : String :=
  "dedupe:" ++ toString integrationId ++ ":" ++ messageId

def idCandidates : List String := ["id", "alertId", "eventId", "uuid", "incidentId"]

theorem clampTtlSeconds_nonneg (seconds : Int) : 0 ≤ clampTtlSeconds seconds := by
  rw [clampTtlSeconds]
  split
  · decide
  · exact le_max_of_le_left (by decide)

section MessageId
variable (rt : Runtime) (dumps : Json → String)

/-- `compute_message_id`; `dumps` is the `json.dumps` that sorts the keys. -/
def computeMessageId (event : Obj) (fallbackFields : List String) : String :=
  match idCandidates.find? (fun k => decide (event.getN k ≠ .null ∧ event.getN k ≠ .str "")) with
  | some candidate => rt.str (event.getN candidate)
  | none =>
    let sortedKeys := (event.map Prod.fst).mergeSort (fun a b => decide (a ≤ b))
    let fields := if fallbackFields.isEmpty then sortedKeys else fallbackFields
    (rt.sha256 (dumps (.obj (fields.eraseDups.map fun k => (k, event.getN k))))).toHex

/-- What the streams of each integration may yield, and the ids that their collectors read. -/
structure Collectors where
  yields : Int → String → Obj → Prop
  extractMessageId : Int → String → Obj → String

def Collectors.messageId (P : Collectors) (integrationId : Int) (stream : String) (event : Obj) :
    String :=
  let extracted := P.extractMessageId integrationId stream event
  if extracted = "" then computeMessageId rt dumps event [] else extracted

/-- A call of `claim`, with the stream that it is made for. -/
structure ClaimAsk where
  integrationId : Int
  stream : String
  messageId : String
  ttlSeconds : Int

def ClaimAsk.key (q : ClaimAsk) : String := dedupeKey q.integrationId q.messageId

structure CycleCall (P : Collectors) where
  integrationId : Int
  stream : String
  dedupeTtlSeconds : Int
  events : List Obj
  yielded : ∀ e ∈ events, P.yields integrationId stream e

variable {P : Collectors}

abbrev CycleTask := Dialog ClaimAsk (fun _ => Bool) (List Obj)

def claimEvent (call : CycleCall P) (kept : List Obj) (event : Obj) : CycleTask := do
  let msgId := P.messageId rt dumps call.integrationId call.stream event
  let fresh : Bool ← Dialog.query ⟨call.integrationId, call.stream, msgId, call.dedupeTtlSeconds⟩
  if !fresh then pure kept else pure (kept ++ [event])

/-- The loop of `_run_collection_once`, with the events that are not dropped as duplicates. -/
def claimLoop (call : CycleCall P) : CycleTask :=
  Dialog.fold (claimEvent rt dumps call) [] call.events

end MessageId

/-- A claim that was made, and whether the event was new. -/
structure ClaimRecord where
  ask : ClaimAsk
  at_ : Rat
  fresh : Bool

def ClaimRecord.until_ (c : ClaimRecord) : Rat := c.at_ + clampTtlSeconds c.ask.ttlSeconds

structure DedupeWorld where
  now : Rat := 0
  keys : String → Option (ExpiringValue Unit) := fun _ => none
  history : List ClaimRecord := []

namespace DedupeWorld

/-- `SET key 1 NX EX`. -/
def reply (w : DedupeWorld) (q : ClaimAsk) : Bool × DedupeWorld :=
  let record (fresh : Bool) : List ClaimRecord := ⟨q, w.now, fresh⟩ :: w.history
  match ExpiringValue.read w.now (w.keys q.key) with
  | some () => (false, { w with history := record false })
  | none => (true, { w with
      keys := Function.update w.keys q.key
        (ExpiringValue.setEx w.now (clampTtlSeconds q.ttlSeconds) ())
      history := record true })

/-- Time passes, or a key is evicted. -/
def Moves (w u : DedupeWorld) : Prop :=
  (∃ t, w.now ≤ t ∧ u = { w with now := t }) ∨
    ∃ key, u = { w with keys := Function.update w.keys key none }

end DedupeWorld

abbrev DedupeLaw := DedupeWorld → ClaimAsk → Prop

abbrev DedupeCrew (P : Collectors) :=
  Crew DedupeWorld Nat (CycleCall P) ClaimAsk (fun _ => Bool) (List Obj)

def DedupeCrew.idle (P : Collectors) : DedupeCrew P := ⟨{}, fun _ => none⟩

def dedupeRules (rt : Runtime) (dumps : Json → String) (P : Collectors) (allowed : DedupeLaw) :
    CrewRules DedupeWorld Nat (CycleCall P) ClaimAsk (fun _ => Bool) (List Obj) where
  program := claimLoop rt dumps
  starts _ _ _ := True
  answers _ w q r u := allowed w q ∧ (r, u) = w.reply q
  moves := DedupeWorld.Moves

structure ClaimRecord.Repeats (d c : ClaimRecord) : Prop where
  fresh : c.fresh = true
  integrationId : c.ask.integrationId = d.ask.integrationId
  messageId : c.ask.messageId = d.ask.messageId
  earlier : c.at_ ≤ d.at_
  within : d.at_ ≤ c.until_

def OwnDrops : List ClaimRecord → Prop
  | [] => True
  | d :: earlier =>
    (d.fresh = false → ∃ c ∈ earlier, d.Repeats c ∧ c.ask.stream = d.ask.stream) ∧ OwnDrops earlier

/-- No event of another stream stands claimed under the id. -/
def Unshared : DedupeLaw := fun w q => ∀ c ∈ w.history, ClaimRecord.Repeats ⟨q, w.now, false⟩ c →
  c.ask.stream = q.stream

def anyClaim : DedupeLaw := fun _ _ => True

section Own
variable (rt : Runtime) (dumps : Json → String) (P : Collectors)

/-- In every run under a law, streams drop only what they repeat themselves. -/
def StreamsOwn (allowed : DedupeLaw) : Prop :=
  ∀ x, Crew.Reaches (dedupeRules rt dumps P allowed) (DedupeCrew.idle P) x →
    OwnDrops x.shared.history

/-- No two streams of an integration may yield events of one id. -/
def StreamsApart : Prop := ∀ i s t e e', P.yields i s e → P.yields i t e' →
  P.messageId rt dumps i s e = P.messageId rt dumps i t e' → s = t

def FromStream (q : ClaimAsk) : Prop := ∃ e, P.yields q.integrationId q.stream e ∧
  P.messageId rt dumps q.integrationId q.stream e = q.messageId

end Own

theorem dedupeKey_inj (h : dedupeKey i m = dedupeKey j n) : i = j ∧ m = n := by
  have hlists := congrArg String.toList h
  simp only [dedupeKey, String.toList_append, List.append_assoc] at hlists
  obtain ⟨hid, hm⟩ := Words.cut_first (Decimal.colon_notMem_repr i) (Decimal.colon_notMem_repr j)
    (List.append_cancel_left hlists)
  exact ⟨Decimal.intRepr_injective (String.toList_inj.1 hid), String.toList_inj.1 hm⟩

structure DedupeWorld.Traced (w : DedupeWorld) : Prop where
  past : ∀ c ∈ w.history, c.at_ ≤ w.now
  keyed : ∀ k l, w.keys k = some l →
    ∃ c ∈ w.history, c.fresh = true ∧ c.ask.key = k ∧ l.deadline = c.until_

namespace DedupeWorld.Traced

variable {w u : DedupeWorld} {q : ClaimAsk}

theorem empty : Traced {} where
  past _ hc := absurd hc List.not_mem_nil
  keyed _ _ hl := nomatch hl

theorem move (h : w.Traced) (hu : w.Moves u) : u.Traced := by
  obtain ⟨t, ht, rfl⟩ | ⟨key, rfl⟩ := hu
  · exact ⟨fun c hc => (h.past c hc).trans ht, h.keyed⟩
  · constructor
    · exact h.past
    · intro k l hl
      change Function.update w.keys key none k = some l at hl
      by_cases hk : k = key
      · rw [hk, Function.update_self] at hl
        cases hl
      · rw [Function.update_of_ne hk] at hl
        exact h.keyed k l hl

theorem record (h : w.Traced) (fresh : Bool) :
    ({ w with history := ⟨q, w.now, fresh⟩ :: w.history } : DedupeWorld).Traced where
  past c hc := by
    obtain rfl | hc := List.mem_cons.1 hc
    · exact le_refl _
    · exact h.past c hc
  keyed k l hl := by
    obtain ⟨c, hc, hrest⟩ := h.keyed k l hl
    exact ⟨c, List.mem_cons_of_mem _ hc, hrest⟩

theorem repeats (h : w.Traced) (hread : ExpiringValue.read w.now (w.keys q.key) = some ()) :
    ∃ c ∈ w.history, ClaimRecord.Repeats ⟨q, w.now, false⟩ c := by
  have hsome : (ExpiringValue.read w.now (w.keys q.key)).isSome = true := by rw [hread]; rfl
  obtain ⟨l, hl, hle⟩ := ExpiringValue.isSome_read_iff.1 hsome
  obtain ⟨c, hc, hfresh, hkey, hdeadline⟩ := h.keyed q.key l hl
  obtain ⟨hid, hmsg⟩ := dedupeKey_inj hkey
  exact ⟨c, hc, hfresh, hid, hmsg, h.past c hc, hle.trans_eq hdeadline⟩

theorem reply (h : w.Traced) (hr : (r, u) = w.reply q) : u.Traced := by
  rw [DedupeWorld.reply] at hr
  split at hr
  · cases hr
    exact h.record false
  · cases hr
    have hrecord := h.record (q := q) true
    constructor
    · exact hrecord.past
    · intro k l hl
      change Function.update w.keys q.key _ k = some l at hl
      by_cases hk : k = q.key
      · rw [hk, Function.update_self] at hl
        cases hl
        exact ⟨⟨q, w.now, true⟩, List.mem_cons_self, rfl, hk.symm, rfl⟩
      · rw [Function.update_of_ne hk] at hl
        exact hrecord.keyed k l hl

theorem history (h : w.Traced) (hr : (r, u) = w.reply q) :
    ∃ d : ClaimRecord, u.history = d :: w.history ∧ d.ask = q ∧
      (d.fresh = false →
        ∃ c ∈ w.history, ClaimRecord.Repeats ⟨q, w.now, false⟩ c ∧ d.at_ = w.now) := by
  rw [DedupeWorld.reply] at hr
  split at hr
  · next hread =>
    cases hr
    obtain ⟨c, hc, hrepeats⟩ := h.repeats hread
    exact ⟨_, rfl, rfl, fun _ => ⟨c, hc, hrepeats, rfl⟩⟩
  · cases hr
    exact ⟨_, rfl, rfl, fun hfresh => nomatch hfresh⟩

end DedupeWorld.Traced

section Runs
variable {rt : Runtime} {dumps : Json → String} {P : Collectors} {allowed : DedupeLaw}

theorem claimLoop_asks (call : CycleCall P) :
    (claimLoop rt dumps call).Asks (FromStream rt dumps P) := by
  apply Dialog.Asks.fold
  intro kept e he
  apply Dialog.Asks.query ⟨e, call.yielded e he, rfl⟩
  intro fresh
  cases fresh with
  | true => exact Dialog.asks_pure _
  | false => exact Dialog.asks_pure _

theorem underway_idle : Crew.Underway (dedupeRules rt dumps P allowed) (DedupeCrew.idle P) := by
  intro i c t hi
  cases hi

/-- Streams drop only what they repeat, where every claim that the law allows is unshared. -/
theorem streamsOwn_of_unshared
    (h : ∀ w q, (∀ c ∈ w.history, FromStream rt dumps P c.ask) → FromStream rt dumps P q →
      allowed w q → Unshared w q) :
    StreamsOwn rt dumps P allowed := by
  intro x hx
  have hkept : x.shared.Traced ∧ (∀ c ∈ x.shared.history, FromStream rt dumps P c.ask) ∧
      OwnDrops x.shared.history := by
    apply hx.keeps (I := fun w => w.Traced ∧ (∀ c ∈ w.history, FromStream rt dumps P c.ask) ∧
      OwnDrops w.history) claimLoop_asks
    · rintro i w q r u hq ⟨htraced, hfrom, hown⟩ ⟨hlaw, hr⟩
      obtain ⟨d, hd, hask, hdrop⟩ := htraced.history hr
      refine ⟨htraced.reply hr, ?_, ?_⟩
      · rw [hd]
        intro c hc
        obtain rfl | hc := List.mem_cons.1 hc
        · exact hask ▸ hq
        · exact hfrom c hc
      · rw [hd]
        refine ⟨fun hfresh => ?_, hown⟩
        obtain ⟨c, hc, hrepeats, hat⟩ := hdrop hfresh
        have hstream := h w q hfrom hq hlaw c hc hrepeats
        subst hask
        exact ⟨c, hc, ⟨hrepeats.fresh, hrepeats.integrationId, hrepeats.messageId,
          hat ▸ hrepeats.earlier, hat ▸ hrepeats.within⟩, hstream⟩
    · rintro w u ⟨htraced, hfrom, hown⟩ hu
      have hsame : u.history = w.history := by
        obtain ⟨t, -, rfl⟩ | ⟨key, rfl⟩ := hu
        · rfl
        · rfl
      rw [hsame]
      exact ⟨htraced.move hu, hfrom, hown⟩
    · exact underway_idle
    · exact ⟨.empty, fun c hc => absurd hc List.not_mem_nil, trivial⟩
  exact hkept.2.2

theorem streamsOwn_of_apart (h : StreamsApart rt dumps P) : StreamsOwn rt dumps P anyClaim := by
  apply streamsOwn_of_unshared
  intro w q hfrom hq _ c hc hrepeats
  obtain ⟨e, he, hmsg⟩ := hfrom c hc
  obtain ⟨e', he', hmsg'⟩ := hq
  have hid := hrepeats.integrationId
  rw [hid] at he hmsg
  exact h _ _ _ e e' he he' (hmsg.trans (hrepeats.messageId.trans hmsg'.symm))

def oneEvent (i : Int) (s : String) (e : Obj) (h : P.yields i s e) : CycleCall P where
  integrationId := i
  stream := s
  dedupeTtlSeconds := defaultTtlSeconds
  events := [e]
  yielded _ he := List.mem_singleton.1 he ▸ h

theorem reaches_oneEvent {x : DedupeCrew P} (hidle : x.running 0 = none) (hyields : P.yields i s e)
    (hmsg : P.messageId rt dumps i s e = m) :
    Crew.Reaches (dedupeRules rt dumps P anyClaim) x
      { x with shared := (x.shared.reply ⟨i, s, m, defaultTtlSeconds⟩).2 } := by
  subst hmsg
  have hend : ∀ (r : Bool) (u : DedupeWorld), ∃ kept,
      Dialog.Runs ((dedupeRules rt dumps P anyClaim).answers 0)
        ((if !r then pure [] else pure ([] ++ [e]) : CycleTask) >>= pure) u kept u := by
    intro r u
    cases r with
    | true => exact ⟨_, .done⟩
    | false => exact ⟨_, .done⟩
  obtain ⟨kept, hkept⟩ := hend
    (x.shared.reply ⟨i, s, P.messageId rt dumps i s e, defaultTtlSeconds⟩).1
    (x.shared.reply ⟨i, s, P.messageId rt dumps i s e, defaultTtlSeconds⟩).2
  exact Crew.reaches_of_ended_call (c := oneEvent i s e hyields) hidle trivial
    (.ask ⟨trivial, rfl⟩ hkept)

theorem history_of_two {q p : ClaimAsk} (h : p.key = q.key) :
    ((({} : DedupeWorld).reply q).2.reply p).2.history = [⟨p, 0, false⟩, ⟨q, 0, true⟩] := by
  have hread : ExpiringValue.read 0
      (Function.update (fun _ => none) q.key
        (ExpiringValue.setEx 0 (clampTtlSeconds q.ttlSeconds) ()) p.key) = some () := by
    rw [h, Function.update_self, ExpiringValue.setEx, ExpiringValue.read, Option.filter_some,
      if_pos]
    · rfl
    · rw [decide_eq_true_eq, zero_add]
      exact Int.cast_nonneg (clampTtlSeconds_nonneg _)
  change (DedupeWorld.reply ⟨0, _, [⟨q, 0, true⟩]⟩ p).2.history = _
  rw [DedupeWorld.reply]
  simp only [hread]

theorem not_streamsOwn_of_shared (hs : P.yields i s e) (ht : P.yields i t d)
    (hsame : P.messageId rt dumps i s e = P.messageId rt dumps i t d) (hne : s ≠ t) :
    ¬ StreamsOwn rt dumps P anyClaim := by
  intro hown
  have hfirst : Crew.Reaches (dedupeRules rt dumps P anyClaim) (DedupeCrew.idle P) _ :=
    reaches_oneEvent rfl hs hsame
  have hboth := hfirst.trans (reaches_oneEvent (m := P.messageId rt dumps i t d) rfl ht rfl)
  have hhistory := history_of_two (q := ⟨i, s, P.messageId rt dumps i t d, defaultTtlSeconds⟩)
    (p := ⟨i, t, P.messageId rt dumps i t d, defaultTtlSeconds⟩) rfl
  have hdrop : OwnDrops _ := hhistory ▸ hown _ hboth
  obtain ⟨c, hc, -, hstream⟩ := hdrop.1 rfl
  obtain rfl := List.mem_singleton.1 hc
  exact hne hstream

end Runs

/-- Streams drop only their own duplicates in every run where no claim is shared, and in all runs
exactly where no two streams of an integration may yield one id. -/
theorem dedupe_own_streams (rt : Runtime) (dumps : Json → String) (P : Collectors) :
    StreamsOwn rt dumps P Unshared ∧
      (StreamsOwn rt dumps P anyClaim ↔ StreamsApart rt dumps P) := by
  constructor
  · exact streamsOwn_of_unshared fun _ _ _ _ h => h
  · constructor
    · intro h i s t e e' hs ht hsame
      by_contra hne
      exact not_streamsOwn_of_shared hs ht hsame hne h
    · exact streamsOwn_of_apart

/-- The integration 7 of the platform `sophos`, whose streams `alerts` and `siem_events` both read
the field `id`. -/
def sophosStreams : Collectors where
  yields i s e := i = 7 ∧ (s = "alerts" ∨ s = "siem_events") ∧ e = [("id", .str "e-1")]
  extractMessageId _ _ e :=
    if (e.getN "id").truthy then Runtime.ascii.str (e.getN "id") else ""

theorem siem_event_lost : ¬ StreamsOwn Runtime.ascii (fun _ => "") sophosStreams anyClaim := by
  apply not_streamsOwn_of_shared (i := 7) (s := "alerts") (t := "siem_events")
    (e := [("id", .str "e-1")]) (d := [("id", .str "e-1")])
  · exact ⟨rfl, .inl rfl, rfl⟩
  · exact ⟨rfl, .inr rfl, rfl⟩
  · rfl
  · decide

end CentralOps
