import Mathlib.Tactic.Linarith
import CentralOps.Inflight.WatchSet

namespace CentralOps
set_option autoImplicit true

structure AbsenceCycle where
  organizationId : Int
  rules : List CompiledInflightRule
  events : List MatchedEvent
  compiled : ∀ rule ∈ rules ++ events.map (fun m => m.rule), rule.absence = true →
    absenceMinWindowSeconds ≤ rule.windowSeconds ∧ rule.windowSeconds ≤ rule.forgetSeconds

namespace InflightAccumulator

theorem mem_watchedRules {acc : InflightAccumulator} (h : p ∈ acc.watchedRules) :
    p ∈ acc.absenceRules ∨ ∃ e ∈ acc.presences, p.2 = e.2.rule := by
  rw [watchedRules] at h
  generalize acc.presences = entries at h ⊢
  generalize acc.absenceRules = rules at h ⊢
  induction entries generalizing rules with
  | nil => exact .inl h
  | cons e entries ih =>
    rw [List.foldl_cons] at h
    obtain hin | ⟨e', he', hp⟩ := ih _ h
    · split at hin
      · exact .inl hin
      · obtain hin | hnew := List.mem_append.1 hin
        · exact .inl hin
        · rw [List.mem_singleton.1 hnew]
          exact .inr ⟨e, List.mem_cons_self, rfl⟩
    · exact .inr ⟨e', List.mem_cons_of_mem e he', hp⟩

section Collect
variable {rt : InflightRuntime} {cfg : InflightSettings}

theorem addToken_absenceRules (acc : InflightAccumulator) (rule : CompiledInflightRule)
    (envelope : Obj) (org : Int) (integrationId : Option Int) (token : String)
    (groupValue : Option String) :
    (addToken rt cfg acc rule envelope org integrationId token groupValue).1.absenceRules =
      acc.absenceRules := by
  rw [addToken]
  generalize eventSourcePointer rt envelope rule.groupByPath groupValue = pointer
  cases acc.pending.get? (inflightKey org rule token) with
  | some item =>
    simp only [addAgain]
    cases rule.legIndex with
    | none => rfl
    | some index =>
      simp only []
      split
      · rfl
      · cases pointer <;> rfl
  | none =>
    simp only [addNew]
    split
    · rfl
    · cases pointer <;> rfl

theorem add_absenceRules (acc : InflightAccumulator) (m : MatchedEvent) (org : Int) :
    (acc.add rt cfg m.rule m.envelope org m.integrationId).1.absenceRules = acc.absenceRules := by
  rw [add]
  cases m.rule.groupByPath with
  | none => exact addToken_absenceRules _ _ _ _ _ _ _
  | some path =>
    simp only []
    cases getPath (.obj m.envelope) path with
    | null => rfl
    | _ =>
      simp only []
      generalize documents.str rt.toMappingRuntime () _ = text
      cases text with
      | error e => rfl
      | ok value =>
        refine (addToken_absenceRules _ _ _ _ _ _ _).trans ?_
        split <;> rfl

theorem collect_absenceRules (acc : InflightAccumulator) (ms : List MatchedEvent) (org : Int) :
    (collect rt cfg org acc ms).absenceRules = acc.absenceRules := by
  induction ms generalizing acc with
  | nil => rfl
  | cons m ms ih => exact (ih _).trans (add_absenceRules acc m org)

end Collect
end InflightAccumulator

section Alerts
variable (rt : InflightRuntime) (cfg : InflightSettings)

namespace AbsenceCycle

def acc (c : AbsenceCycle) : InflightAccumulator :=
  collect rt cfg c.organizationId (InflightAccumulator.noteRules {} c.rules) c.events

theorem watched_compiled (c : AbsenceCycle) (hp : p ∈ (c.acc rt cfg).watchedRules) :
    absenceMinWindowSeconds ≤ p.2.windowSeconds ∧ p.2.windowSeconds ≤ p.2.forgetSeconds := by
  obtain hnoted | ⟨e, he, hrule⟩ := InflightAccumulator.mem_watchedRules hp
  · rw [acc, InflightAccumulator.collect_absenceRules] at hnoted
    have hwatched : p ∈ Assoc.collect (fun rule => some (rule.ruleId, rule)) []
        (c.rules.filter (fun rule => rule.absence)) := hnoted
    obtain hnone | ⟨rule, hin, hpair⟩ := Assoc.mem_collect hwatched
    · cases hnone
    · cases hpair
      obtain ⟨hin, habsence⟩ := List.mem_filter.1 hin
      exact c.compiled rule (List.mem_append_left _ hin) habsence
  · obtain ⟨hin, habsence⟩ := List.mem_filter.1 he
    have hget := ((c.acc rt cfg).pending.mem_entries_iff (k := e.1) (v := e.2)).1 hin
    have hnone : ∀ key item,
        (InflightAccumulator.noteRules {} c.rules).pending.get? key = some item →
        Backed rt cfg c.organizationId [] key item := fun key item h => nomatch h
    obtain ⟨m, hm, hown, -⟩ := (collect_backed hnone hget).first
    rw [hrule, ← hown]
    apply c.compiled m.rule _ (hown ▸ habsence)
    exact List.mem_append_right _ (List.mem_map_of_mem hm)

def flush (c : AbsenceCycle) : AbsenceFlush where
  organizationId := c.organizationId
  acc := c.acc rt cfg
  compiled _ hp := c.watched_compiled rt cfg hp

end AbsenceCycle

inductive AlertCall where
  | cycle (c : AbsenceCycle)
  | tick (t : AbsenceTick) (budget : Int)

def AlertCall.watchCall : AlertCall → WatchCall
  | .cycle c => .flush (c.flush rt cfg)
  | .tick t budget => .tick t budget

def AlertCall.Carries (org rid : Int) (token : String) : AlertCall → Prop
  | .cycle c => c.organizationId = org ∧ ∃ m ∈ c.events, m.rule.absence = true ∧
    m.rule.ruleId = rid ∧ m.token rt cfg = some token
  | .tick _ _ => False

/-- The time of a tick is that of its round. -/
def AlertCall.Timely (now : Rat) : AlertCall → Prop
  | .cycle _ => True
  | .tick t _ => t.now ≤ now

/-- From here on a key is not silent to the tick. -/
def AbsenceTick.opens (t : AbsenceTick) : Rat :=
  t.now - (t.rule.windowSeconds + cfg.absenceGraceSeconds)

def AbsenceTick.InWindow (t : AbsenceTick) (time : Rat) : Prop :=
  t.opens cfg ≤ time ∧ time ≤ t.now

/-- A presence that Redis has executed. -/
structure Presence where
  organizationId : Int
  ruleId : Int
  token : String
  time : Int

def Presence.isOf (org rid : Int) (token : String) (p : Presence) : Bool :=
  decide (p.organizationId = org ∧ p.ruleId = rid ∧ p.token = token)

/-- The hashes, and what has happened: when the flushes ran, the presences that were executed, the
newest first, the ticks that have read, and what they went on to record. -/
structure AlertWorld (ι : Type) where
  watch : WatchWorld := {}
  flushed : List (ι × Rat) := []
  stored : List Presence := []
  readers : List ι := []
  recorded : List (ι × RecordCall) := []

def presencesOf (org ts : Int) (writes : List SeenWrite) : List Presence :=
  writes.flatMap (fun write => write.tokens.map (fun token => ⟨org, write.ruleId, token, ts⟩))

variable {ι : Type} (work : ι → AlertCall)

namespace AlertWorld

/-- What an executed question of a worker leaves. -/
def done (w : AlertWorld ι) (i : ι) : (q : InflightAsk) → InflightReply q → AlertWorld ι
  | .clock, _ => { w with flushed := w.flushed ++ [(i, w.watch.now)] }
  | .readWatch _ _, r => if r.isSome then { w with readers := w.readers ++ [i] } else w
  | .record call, _ => { w with recorded := w.recorded ++ [(i, call)] }
  | .writeSeen org view writes ts, _ =>
    { w with
      watch := w.watch.after (.writeSeen org view writes ts)
      stored := presencesOf org ts writes ++ w.stored }
  | q, _ => { w with watch := w.watch.after q }

/-- Redis is not there, or its answer is lost. -/
def Fails : (q : InflightAsk) → InflightReply q → Prop
  | .readSeen _ _, r => r = none
  | .writeSeen _ _ _ _, r => r = none
  | .readWatch _ _, r => r = none
  | .forget _ _ _ _, r => r = none
  | .clearAlerted _ _ _, r => r = none
  | .markAlerted _ _ _ _, r => r = none
  | .writeTick _ _ _, r => r = none
  | _, _ => False

def Answers (i : ι) (w : AlertWorld ι) (q : InflightAsk) (r : InflightReply q)
    (u : AlertWorld ι) : Prop :=
  (w.watch.Replies q r ∧ u = w.done i q r) ∨ (Fails q r ∧ (u = w.done i q r ∨ u = w))

/-- The presence of a key that was executed last. -/
def last (w : AlertWorld ι) (org rid : Int) (token : String) : Option Presence :=
  w.stored.find? (Presence.isOf org rid token)

/-- When a tick reads, the last presence of each key that it watches and that a flush of its window
was given is of that window; and a flush that begins after a tick has read is later than it. -/
def Standing (i : ι) (w : AlertWorld ι) : InflightAsk → Prop
  | .readWatch org rid => ∀ t budget, work i = .tick t budget → ∀ token j time,
    (j, time) ∈ w.flushed → (work j).Carries rt cfg org rid token → t.InWindow cfg time →
    (w.watch.watched org rid).get? token = none ∨
      ∃ p, w.last org rid token = some p ∧ t.opens cfg ≤ p.time
  | .clock => ∀ k ∈ w.readers, ∀ t budget, work k = .tick t budget → t.now < w.watch.now
  | _ => True

end AlertWorld

abbrev AlertCrew (ι : Type) := Crew (AlertWorld ι) ι AlertCall InflightAsk InflightReply Unit

def idleAlerts : AlertCrew ι := ⟨{}, fun _ => none⟩

abbrev AlertLaw (ι : Type) := ι → AlertWorld ι → InflightAsk → Prop

def alertRules (allowed : AlertLaw ι) :
    CrewRules (AlertWorld ι) ι AlertCall InflightAsk InflightReply Unit where
  program c := (c.watchCall rt cfg).program cfg
  starts s i c := c = work i ∧ c.Timely s.watch.now
  answers i w q r u := allowed i w q ∧ w.Answers i q r u
  moves w u := ∃ later, w.watch.now ≤ later ∧
    u = { w with watch := { w.watch with now := later } }

def AlertWorld.NeverFalse (w : AlertWorld ι) : Prop :=
  ∀ i call, (i, call) ∈ w.recorded → ∀ t budget, work i = .tick t budget → ∀ token,
    call.dedupKey = absenceDedupKey t.organizationId t.ruleId token → ∀ j time,
    (j, time) ∈ w.flushed → (work j).Carries rt cfg t.organizationId t.ruleId token →
    ¬ t.InWindow cfg time

section Invariant
variable {rt cfg work} {w u : AlertWorld ι} {i : ι}

namespace AlertWorld

/-- What is there of a key is its last presence. -/
def Current (w : AlertWorld ι) : Prop :=
  ∀ org rid token v, (w.watch.watched org rid).get? token = some v →
    ∃ p, w.last org rid token = some p ∧ p.time = v

def Honest (rt : InflightRuntime) (cfg : InflightSettings) (work : ι → AlertCall)
    (w : AlertWorld ι) : Prop :=
  (∀ p ∈ w.recorded, p.1 ∈ w.readers) ∧ w.NeverFalse rt cfg work

def Later (work : ι → AlertCall) (w u : AlertWorld ι) : Prop :=
  w.readers ⊆ u.readers ∧ ∀ p ∈ u.flushed, p ∈ w.flushed ∨
    ∀ k ∈ w.readers, ∀ t budget, work k = .tick t budget → t.now < p.2

theorem later_refl (w : AlertWorld ι) : Later work w w :=
  ⟨List.Subset.refl _, fun _ hp => .inl hp⟩

theorem later_trans {v : AlertWorld ι} (h : Later work w v) (h' : Later work v u) :
    Later work w u := by
  constructor
  · exact fun _ hk => h'.1 (h.1 hk)
  · intro p hp
    obtain hp | hlate := h'.2 p hp
    · exact h.2 p hp
    · exact .inr fun k hk => hlate k (h.1 hk)

theorem Later.ran (h : Later work w u) (hread : i ∈ w.readers) (hwork : work i = .tick t budget)
    (hp : (j, time) ∈ u.flushed) (hwindow : t.InWindow cfg time) : (j, time) ∈ w.flushed := by
  obtain hp | hlate := h.2 _ hp
  · exact hp
  · exact absurd (hlate i hread t budget hwork) (not_lt.2 hwindow.2)

theorem Honest.later (h : w.Honest rt cfg work) (hle : Later work w u)
    (hrecorded : u.recorded = w.recorded) : u.Honest rt cfg work := by
  constructor
  · intro p hp
    rw [hrecorded] at hp
    exact hle.1 (h.1 p hp)
  · intro i call hin t budget hwork token hkey j time hflush hcarries hwindow
    rw [hrecorded] at hin
    have hran := hle.ran (h.1 _ hin) hwork hflush hwindow
    exact h.2 i call hin t budget hwork token hkey j time hran hcarries hwindow

theorem mem_presencesOf {p : Presence} :
    p ∈ presencesOf org ts writes ↔ p.organizationId = org ∧ p.time = ts ∧
      ∃ write ∈ writes, p.ruleId = write.ruleId ∧ p.token ∈ write.tokens := by
  rw [presencesOf, List.mem_flatMap]
  constructor
  · rintro ⟨write, hw, hp⟩
    obtain ⟨token, ht, rfl⟩ := List.mem_map.1 hp
    exact ⟨rfl, rfl, write, hw, rfl, ht⟩
  · rintro ⟨horg, hts, write, hw, hrid, ht⟩
    apply Exists.intro write
    obtain ⟨org', rid', token', ts'⟩ := p
    simp only at horg hts hrid ht
    rw [horg, hts, hrid]
    exact ⟨hw, List.mem_map_of_mem ht⟩

variable {c : WatchCall} {q : InflightAsk}

theorem Current.done (h : w.Current) (hsend : c.MaySend q) (r : InflightReply q) :
    (w.done i q r).Current := by
  cases q with
  | writeSeen org view writes ts =>
    intro org' rid token v hv
    have hget := hv.symm.trans
      (WatchWorld.watched_writes hsend.sound.ttl w.watch org ts org' rid token)
    have hlast : (w.done i (.writeSeen org view writes ts) r).last org' rid token =
        ((presencesOf org ts writes).find? (Presence.isOf org' rid token)).or
          (w.last org' rid token) := List.find?_append
    rw [hlast]
    split at hget
    · next hw =>
      cases hget
      cases hfind : (presencesOf org ts writes).find? (Presence.isOf org' rid token) with
      | some p => exact ⟨p, rfl, (mem_presencesOf.1 (List.mem_of_find?_eq_some hfind)).2.1⟩
      | none =>
        obtain ⟨write, hw, ⟨rfl, rfl⟩, ht⟩ := hw
        have hp : (⟨org', write.ruleId, token, ts⟩ : Presence) ∈ presencesOf org' ts writes :=
          mem_presencesOf.2 ⟨rfl, rfl, write, hw, rfl, ht⟩
        exact absurd (decide_eq_true ⟨rfl, rfl, rfl⟩) (List.find?_eq_none.1 hfind _ hp)
    · next hno =>
      have hfind : (presencesOf org ts writes).find? (Presence.isOf org' rid token) = none := by
        apply List.find?_eq_none.2
        intro p hp his
        obtain ⟨horg, -, write, hw, hrid, ht⟩ := mem_presencesOf.1 hp
        obtain ⟨rfl, rfl, rfl⟩ := of_decide_eq_true his
        exact hno ⟨write, hw, ⟨horg, hrid⟩, ht⟩
      rw [hfind]
      exact h org' rid token v hget.symm
  | forget org rid tokens alerted =>
    intro org' rid' token v hv
    have hget := hv.symm.trans
      (w.watch.watched_forget org rid (tokens.map Prod.fst) alerted org' rid' token)
    split at hget
    · cases hget
    · exact h org' rid' token v hget.symm
  | readWatch org rid =>
    rw [AlertWorld.done]
    split
    · exact h
    · exact h
  | _ => exact h

theorem Current.later {time : Rat} (h : w.Current) (hle : w.watch.now ≤ time) :
    ({ w with watch := { w.watch with now := time } } : AlertWorld ι).Current := by
  intro org rid token v hv
  obtain hsame | hgone := w.watch.watched_later hle org rid
  · rw [hsame] at hv
    exact h org rid token v hv
  · rw [hgone] at hv
    cases hv

theorem later_done (hq : w.Standing rt cfg work i q) (r : InflightReply q) :
    Later work w (w.done i q r) := by
  cases q with
  | clock =>
    apply And.intro (List.Subset.refl _)
    intro p hp
    obtain hp | hp := List.mem_append.1 hp
    · exact .inl hp
    · rw [List.mem_singleton.1 hp]
      exact .inr hq
  | readWatch org rid =>
    rw [AlertWorld.done]
    split
    · exact ⟨List.subset_append_left _ _, fun _ hp => .inl hp⟩
    · exact later_refl w
  | _ => exact later_refl w

/-- What holds of the hashes and of the history in every state of a run. -/
structure Right (rt : InflightRuntime) (cfg : InflightSettings) (work : ι → AlertCall)
    (w : AlertWorld ι) : Prop where
  current : w.Current
  honest : w.Honest rt cfg work

theorem Right.answers (h : w.Right rt cfg work) (hsend : c.MaySend q)
    (hq : w.Standing rt cfg work i q) (hno : ∀ call, q ≠ .record call)
    (hr : w.Answers i q r u) : u.Right rt cfg work ∧ Later work w u := by
  have hlate := later_done hq r
  have hrecorded : (w.done i q r).recorded = w.recorded := by
    cases q with
    | record call => exact absurd rfl (hno call)
    | readWatch org rid =>
      rw [AlertWorld.done]
      split <;> rfl
    | _ => rfl
  have hdone : (w.done i q r).Right rt cfg work :=
    ⟨h.current.done hsend r, h.honest.later hlate hrecorded⟩
  obtain ⟨-, rfl⟩ | ⟨-, rfl | rfl⟩ := hr
  · exact ⟨hdone, hlate⟩
  · exact ⟨hdone, hlate⟩
  · exact ⟨h, later_refl _⟩

end AlertWorld

theorem absenceDedupKey_inj (h : absenceDedupKey org rid token = absenceDedupKey org rid token') :
    token = token' := by
  have hlists := congrArg String.toList h
  simp only [absenceDedupKey, String.toList_append, List.append_cancel_left_eq] at hlists
  exact String.toList_inj.1 hlists

section Tick
variable {t : AbsenceTick} {budget : Int} {state : WatchState}

/-- What a tick knows once it has read: no flush of its window was given a key that it finds
silent. -/
structure Judged (rt : InflightRuntime) (cfg : InflightSettings) (work : ι → AlertCall) (i : ι)
    (t : AbsenceTick) (state : WatchState) (w : AlertWorld ι) : Prop where
  read : i ∈ w.readers
  quiet : ∀ seen ∈ t.candidates cfg state, ∀ j time, (j, time) ∈ w.flushed →
    (work j).Carries rt cfg t.organizationId t.ruleId seen.1 → ¬ t.InWindow cfg time

theorem Judged.later (hwork : work i = .tick t budget) (h : Judged rt cfg work i t state w)
    (hle : w.Later work u) : Judged rt cfg work i t state u := by
  apply Judged.mk (hle.1 h.read)
  intro seen hseen j time hflush hcarries hwindow
  exact h.quiet seen hseen j time (hle.ran h.read hwork hflush hwindow) hcarries hwindow

theorem judged_of_read (hwork : work i = .tick t budget) (hw : w.Current)
    (hq : w.Standing rt cfg work i (.readWatch t.organizationId t.ruleId))
    (hshows : w.watch.Shows t.organizationId t.ruleId state) :
    Judged rt cfg work i t state
      (w.done i (.readWatch t.organizationId t.ruleId) (some state)) := by
  apply Judged.mk (List.mem_append_right _ (List.mem_singleton_self i))
  intro seen hseen j time hflush hcarries hwindow
  obtain ⟨hin, hsilent⟩ := List.mem_filter.1 hseen
  have hget : (w.watch.watched t.organizationId t.ruleId).get? seen.1 = some seen.2 :=
    (Dict.mem_entries_iff _).1 (hshows.seen.mem_iff.1 hin)
  have hage : (t.rule.windowSeconds + cfg.absenceGraceSeconds : Rat) < t.now - seen.2 := by
    rw [Bool.and_eq_true] at hsilent
    exact of_decide_eq_true hsilent.2
  obtain hnone | ⟨p, hp, hopens⟩ := hq t budget hwork seen.1 j time hflush hcarries hwindow
  · rw [hget] at hnone
    cases hnone
  · obtain ⟨p', hp', htime⟩ := hw t.organizationId t.ruleId seen.1 seen.2 hget
    rw [hp] at hp'
    cases hp'
    rw [htime, AbsenceTick.opens] at hopens
    linarith

theorem Judged.record (hwork : work i = .tick t budget) (h : Judged rt cfg work i t state w)
    (hw : w.Right rt cfg work) (hseen : seen ∈ t.candidates cfg state)
    (hr : w.Answers i (.record (t.recordCall seen)) r u) :
    u.Right rt cfg work ∧ w.Later work u := by
  obtain ⟨-, rfl⟩ | ⟨hfails, -⟩ := hr
  · refine ⟨⟨hw.current, ?_, ?_⟩, AlertWorld.later_refl w⟩
    · intro p hp
      obtain hp | hp := List.mem_append.1 hp
      · exact hw.honest.1 p hp
      · rw [List.mem_singleton.1 hp]
        exact h.read
    · intro i' call hin t' budget' hwork' token hkey j time hflush hcarries
      obtain hin | hin := List.mem_append.1 hin
      · exact hw.honest.2 i' call hin t' budget' hwork' token hkey j time hflush hcarries
      · cases List.mem_singleton.1 hin
        rw [hwork] at hwork'
        cases hwork'
        have htoken : seen.1 = token := absenceDedupKey_inj hkey
        exact h.quiet seen hseen j time hflush (htoken ▸ hcarries)
  · exact absurd hfails id

end Tick
end Invariant

section Runs
variable {rt cfg work} {i : ι}

/-- The law under which a step may happen only where what it goes by stands. -/
def standingLaw (rt : InflightRuntime) (cfg : InflightSettings) (work : ι → AlertCall) :
    AlertLaw ι := fun i w q => w.Standing rt cfg work i q

theorem cycle_sat (c : AbsenceCycle) (s : AlertWorld ι) :
    Dialog.Sat ((alertRules rt cfg work (standingLaw rt cfg work)).answers i)
      (AlertWorld.Later work) (AlertWorld.Right rt cfg work) (fun _ _ => True)
      (((AlertCall.cycle c).watchCall rt cfg).program cfg) s := by
  apply ((AlertCall.cycle c).watchCall rt cfg).maySend.sat (K := fun _ => True)
  · intro w q r u hq hw _ hr
    apply hw.answers hq hr.1 _ hr.2
    rintro call rfl
    exact hq
  · exact fun _ _ _ _ => trivial
  · trivial

theorem tick_sat (hwork : work i = .tick t budget) (s : AlertWorld ι) :
    Dialog.Sat ((alertRules rt cfg work (standingLaw rt cfg work)).answers i)
      (AlertWorld.Later work) (AlertWorld.Right rt cfg work) (fun _ _ => True)
      (((AlertCall.tick t budget).watchCall rt cfg).program cfg) s := by
  apply Dialog.Sat.bind
  rw [AbsenceTick.evaluate]
  apply Dialog.Sat.query
  rintro w - hw locked u ⟨hq, hr⟩
  have hsend : (WatchCall.tick t budget).MaySend (.tickLock t.ruleId) := trivial
  have hlock := hw.answers hsend hq (by rintro _ ⟨⟩) hr
  refine ⟨hlock.1, hlock.2, ?_⟩
  cases locked with
  | false => exact trivial
  | true =>
    apply Dialog.Sat.query
    rintro w - hw read u ⟨hq, hr⟩
    have hsend : (WatchCall.tick t budget).MaySend (.readWatch t.organizationId t.ruleId) := trivial
    have hread := hw.answers hsend hq (by rintro _ ⟨⟩) hr
    refine ⟨hread.1, hread.2, ?_⟩
    cases read with
    | none => exact trivial
    | some state =>
      have hjudged : Judged rt cfg work i t state u := by
        obtain ⟨⟨state', hstate, hshows⟩, rfl⟩ | ⟨hfails, -⟩ := hr
        · cases hstate
          exact judged_of_read hwork hw.current hq hshows
        · cases hfails
      apply (AbsenceTick.judge_asks budget _).sat (K := Judged rt cfg work i t state) _ _ hjudged
      · intro w q r u hask hw hjudged hr
        have hsend : (WatchCall.tick t budget).MaySend q := hask.maySend
        cases q with
        | record call =>
          obtain ⟨seen, hseen, rfl⟩ := hask
          exact hjudged.record hwork hw hseen hr.2
        | _ => exact hw.answers hsend hr.1 (by rintro _ ⟨⟩) hr.2
      · exact fun w u h hle => h.later hwork hle

/-- No run of the law has a false alert. -/
def AlertsHold (ι : Type) [DecidableEq ι] (rt : InflightRuntime) (cfg : InflightSettings)
    (work : ι → AlertCall) (allowed : AlertLaw ι) : Prop :=
  ∀ x : AlertCrew ι, Crew.Reaches (alertRules rt cfg work allowed) idleAlerts x →
    x.shared.NeverFalse rt cfg work

/-- Where each step goes by what stands, no alert is false. -/
theorem alerts_hold_of_standing (ι : Type) [DecidableEq ι] (rt : InflightRuntime)
    (cfg : InflightSettings) (work : ι → AlertCall) :
    AlertsHold ι rt cfg work (standingLaw rt cfg work) := by
  intro x h
  have hsound : Crew.Sound (alertRules rt cfg work (standingLaw rt cfg work))
      (AlertWorld.Later work) (AlertWorld.Right rt cfg work) (fun _ _ _ => True) x := by
    apply h.sound
    · exact fun _ _ _ h h' => AlertWorld.later_trans h h'
    · exact fun _ _ _ _ _ _ => trivial
    · exact AlertWorld.later_refl
    · rintro s i c - ⟨rfl, -⟩
      cases hwork : work i with
      | cycle c => exact cycle_sat c s
      | tick t budget => exact tick_sat hwork s
    · rintro s u hs ⟨later, hle, rfl⟩
      exact ⟨⟨hs.current.later hle, hs.honest.1, hs.honest.2⟩, List.Subset.refl _,
        fun p hp => .inl hp⟩
    · constructor
      · constructor
        · exact fun _ _ _ _ hv => nomatch hv
        · exact ⟨fun _ hp => (List.not_mem_nil hp).elim, fun _ _ hp => nomatch hp⟩
      · exact fun _ _ _ hi => nomatch hi
  exact hsound.1.honest.2

end Runs

def hostLibrary : InflightRuntime where
  toMappingRuntime := MappingRuntime.ascii
  groupValueDigest s := s

def noGrace : InflightSettings := { absenceGraceSeconds := 0 }

def hostSeen : MatchedEvent where
  rule := silentHosts
  envelope := [("raw", .obj [("host", .str "a")])]
  integrationId := none

def silentCycle (events : List MatchedEvent) (h : ∀ m ∈ events, m.rule = silentHosts) :
    AbsenceCycle where
  organizationId := 1
  rules := [silentHosts]
  events := events
  compiled := by
    intro rule hrule _
    have hsame : rule = silentHosts := by
      obtain hrule | hrule := List.mem_append.1 hrule
      · exact List.mem_singleton.1 hrule
      · obtain ⟨m, hm, rfl⟩ := List.mem_map.1 hrule
        exact h m hm
    rw [hsame]
    decide

def seenCycle : AbsenceCycle := silentCycle [hostSeen] (by
  intro m hm
  rw [List.mem_singleton.1 hm]
  rfl)

def tickAt (now : Rat) : AbsenceTick := ⟨silentHosts, 1, now⟩

/-- Two cycles that see the host, one that does not, and a tick. -/
def hostWork : Nat → AlertCall
  | 0 => .cycle seenCycle
  | 1 => .cycle seenCycle
  | 2 => .cycle (silentCycle [] (fun _ hm => nomatch hm))
  | _ => .tick (tickAt 70) 200

/-- Redis is not there for the second cycle. -/
def lossyAnswer (i : Nat) (w : AlertWorld Nat) : (q : InflightAsk) → InflightReply q
  | .record _ => some ⟨1, 1⟩
  | .readSeen org asked => if i = 1 then none else w.watch.answer (.readSeen org asked)
  | q => w.watch.answer q

theorem answers_lossy (i : Nat) (w : AlertWorld Nat) (q : InflightAsk) :
    w.Answers i q (lossyAnswer i w q) (w.done i q (lossyAnswer i w q)) := by
  cases q with
  | readSeen org asked =>
    by_cases hi : i = 1
    · exact .inr ⟨if_pos hi, .inl rfl⟩
    · exact .inl ⟨if_neg hi, rfl⟩
  | record call => exact .inl ⟨trivial, rfl⟩
  | _ => exact .inl ⟨w.watch.replies_answer _, rfl⟩

def hostReply (i : Nat) (w : AlertWorld Nat) (q : InflightAsk) :
    InflightReply q × AlertWorld Nat :=
  (lossyAnswer i w q, w.done i q (lossyAnswer i w q))

def anyStep : AlertLaw Nat := fun _ _ _ => True

/-- Time passes up to `now`, and then a worker does its work as far as it is let. -/
def workAt (now : Rat) (i steps : Nat) (x : AlertCrew Nat) : AlertCrew Nat :=
  (.call i (hostWork i) :: List.replicate steps (.go i)).foldl
    (Crew.cue (alertRules hostLibrary noGrace hostWork anyStep) hostReply (fun _ _ => true))
    { x with shared := { x.shared with watch := { x.shared.watch with now := now } } }

theorem workAt_reaches {now : Rat} {i : Nat} (steps : Nat) {x : AlertCrew Nat}
    (hle : x.shared.watch.now ≤ now) (htimely : (hostWork i).Timely now) :
    Crew.Reaches (alertRules hostLibrary noGrace hostWork anyStep) x (workAt now i steps x) := by
  have hreply : ∀ i (w : AlertWorld Nat) q, true = true →
      (alertRules hostLibrary noGrace hostWork anyStep).answers i w q (hostReply i w q).1
        (hostReply i w q).2 := fun i w q _ => ⟨trivial, answers_lossy i w q⟩
  have hmove : Crew.Step (alertRules hostLibrary noGrace hostWork anyStep) x
      { x with shared := { x.shared with watch := { x.shared.watch with now := now } } } :=
    .move ⟨now, hle, rfl⟩
  apply Relation.ReflTransGen.head hmove
  apply Relation.ReflTransGen.trans (Crew.reaches_cue _ hreply)
  · apply Crew.reaches_foldl_cue _ hreply
    intro j c hc
    cases List.eq_of_mem_replicate hc
  · intro j c hc
    cases hc
    exact ⟨rfl, htimely⟩

def seenAtZero : AlertCrew Nat := workAt 0 0 3 idleAlerts

def lostAtFifty : AlertCrew Nat := workAt 50 1 2 seenAtZero

def renewedAtSixty : AlertCrew Nat := workAt 60 2 3 lostAtFifty

def tickedAtSeventy : AlertCrew Nat := workAt 70 3 3 renewedAtSixty

/-- The third cycle renews the heartbeat, and the tick finds a host silent that the second saw. -/
theorem lost_presence_alerts : ¬ AlertsHold Nat hostLibrary noGrace hostWork anyStep := by
  intro hholds
  have hseen : Crew.Reaches _ idleAlerts seenAtZero :=
    workAt_reaches 3 (by decide +kernel) trivial
  have hlost : Crew.Reaches _ seenAtZero lostAtFifty :=
    workAt_reaches 2 (by decide +kernel) trivial
  have hrenewed : Crew.Reaches _ lostAtFifty renewedAtSixty :=
    workAt_reaches 3 (by decide +kernel) trivial
  have hticked : Crew.Reaches _ renewedAtSixty tickedAtSeventy :=
    workAt_reaches 3 (by decide +kernel) (le_refl 70)
  have hreach := ((hseen.trans hlost).trans hrenewed).trans hticked
  have hrecorded : tickedAtSeventy.shared.recorded.map (fun p => (p.1, p.2.dedupKey)) =
      [(3, "absence:1:7:a")] := by decide +kernel
  have hflushed : tickedAtSeventy.shared.flushed = [(0, 0), (1, 50), (2, 60)] := by decide +kernel
  have hmem : ((3, "absence:1:7:a") : Nat × String) ∈
      tickedAtSeventy.shared.recorded.map (fun p => (p.1, p.2.dedupKey)) := by
    rw [hrecorded]
    exact List.mem_singleton_self _
  obtain ⟨⟨i, call⟩, hin, heq⟩ := List.mem_map.1 hmem
  obtain ⟨rfl, hkey⟩ := Prod.mk.inj heq
  have hcarries : (hostWork 1).Carries hostLibrary noGrace 1 7 "a" := by
    refine ⟨rfl, hostSeen, List.mem_singleton_self _, rfl, rfl, ?_⟩
    decide +kernel
  apply hholds tickedAtSeventy hreach 3 call hin (tickAt 70) 200 rfl "a" hkey 1 50 _ hcarries
  · constructor
    · decide +kernel
    · decide +kernel
  · rw [hflushed]
    decide


end Alerts
end CentralOps
