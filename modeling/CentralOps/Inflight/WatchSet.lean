import CentralOps.Lib.HashStore
import CentralOps.Lib.Stages
import CentralOps.Inflight.Collect
import CentralOps.Inflight.AbsenceTick

namespace CentralOps
set_option autoImplicit true

/-- The hashes of the absence rules by organization and rule, and the clock. -/
structure WatchWorld where
  now : Rat := 0
  /-- When each key was last seen. -/
  seen : HashStore (Int × Int) String Int := fun _ => none
  /-- The `last_cycle` of each `meta`. -/
  observed : HashStore (Int × Int) String Int := fun _ => none
  alerted : HashStore (Int × Int) String Nat := fun _ => none

namespace WatchWorld

def watched (w : WatchWorld) (org rid : Int) : Dict String Int := w.seen.hgetall w.now (org, rid)

def view (w : WatchWorld) (org : Int) : SeenView where
  size rid := (w.watched org rid).entries.length
  known rid token := ((w.watched org rid).get? token).isSome

/-- The commands of one rule in the second pipeline of a flush. -/
def touch (org ts : Int) (w : WatchWorld) (write : SeenWrite) : WatchWorld :=
  let key := (org, write.ruleId)
  let entries := write.tokens.map (fun token => (token, ts))
  { w with
    seen := (w.seen.hset w.now key entries).expire w.now key write.ttl
    observed := (w.observed.hset w.now key [("last_cycle", ts)]).expire w.now key write.ttl }

def forget (w : WatchWorld) (org rid : Int) (tokens alerted : List String) : WatchWorld :=
  { w with
    seen := w.seen.hdel w.now (org, rid) tokens
    alerted := w.alerted.hdel w.now (org, rid) alerted }

def markAlerted (w : WatchWorld) (org rid : Int) (ids : List (String × Nat)) (ttl : Int) :
    WatchWorld :=
  { w with alerted := (w.alerted.hset w.now (org, rid) ids).expire w.now (org, rid) ttl }

/-- What a command leaves. -/
def after (w : WatchWorld) : InflightAsk → WatchWorld
  | .writeSeen org _ writes ts => writes.foldl (touch org ts) w
  | .forget org rid tokens alerted => w.forget org rid (tokens.map Prod.fst) alerted
  | .clearAlerted org rid tokens => { w with alerted := w.alerted.hdel w.now (org, rid) tokens }
  | .markAlerted org rid ids ttl => w.markAlerted org rid ids ttl
  | .writeTick org rid ttl => { w with observed := w.observed.expire w.now (org, rid) ttl }
  | _ => w

/-- `HGETALL` gives the fields in any order. -/
structure Shows (w : WatchWorld) (org rid : Int) (state : WatchState) : Prop where
  lastCycle : state.lastCycle = (w.observed.hgetall w.now (org, rid)).get? "last_cycle"
  seen : state.seen.Perm (w.watched org rid).entries
  alerted : state.alerted.Perm (w.alerted.hgetall w.now (org, rid)).entries

/-- No command of Redis fails, and the other answers are any. -/
def Replies (w : WatchWorld) : (q : InflightAsk) → InflightReply q → Prop
  | .clock, r => r = w.now
  | .readSeen org _, r => r = some (w.view org)
  | .writeSeen _ _ _ _, r => r = some ()
  | .readWatch org rid, r => ∃ state, r = some state ∧ w.Shows org rid state
  | .forget _ _ _ _, r => r = some ()
  | .clearAlerted _ _ _, r => r = some ()
  | .markAlerted _ _ _ _, r => r = some ()
  | .writeTick _ _ _, r => r = some ()
  | _, _ => True

end WatchWorld

structure AbsenceFlush where
  organizationId : Int
  acc : InflightAccumulator
  compiled : ∀ p ∈ acc.watchedRules, absenceMinWindowSeconds ≤ p.2.windowSeconds ∧
    p.2.windowSeconds ≤ p.2.forgetSeconds

inductive WatchCall where
  | flush (f : AbsenceFlush)
  | tick (t : AbsenceTick) (budget : Int)

def WatchCall.program (cfg : InflightSettings) : WatchCall → InflightTask Unit
  | .flush f => do
    let _ ← f.acc.applyAbsencePresence cfg f.organizationId
    pure ()
  | .tick t budget => do
    let _ ← t.evaluate cfg budget {}
    pure ()

def WatchCall.forgets : WatchCall → String × Int → Bool
  | .flush _, _ => false
  | .tick t _, seen => t.forgets seen

abbrev WatchCrew (ι : Type) := Crew WatchWorld ι WatchCall InflightAsk InflightReply Unit

def idleWatch : WatchCrew ι := ⟨{}, fun _ => none⟩

/-- Which commands of a worker are let happen. -/
abbrev WatchLaw (ι : Type) := ι → WatchWorld → InflightAsk → Prop

/-- Flushes and ticks of any organizations and rules, in any order and at any times. -/
def watchRules (cfg : InflightSettings) (allowed : WatchLaw ι) :
    CrewRules WatchWorld ι WatchCall InflightAsk InflightReply Unit where
  program := WatchCall.program cfg
  starts _ _ _ := True
  answers i w q r u := (allowed i w q ∧ w.Replies q r) ∧ u = w.after q
  moves w u := ∃ later, w.now ≤ later ∧ u = { w with now := later }

/-- What is in both was not seen later before. -/
def WatchForward (before after : WatchWorld) : Prop :=
  ∀ org rid token v v', (before.watched org rid).get? token = some v →
    (after.watched org rid).get? token = some v' → v ≤ v'

/-- A flush writes its time, no time goes back, a command removes only what is old to its tick, and
the watch set stays within its cap. -/
structure WatchExact (ι : Type) [DecidableEq ι] (cfg : InflightSettings) (allowed : WatchLaw ι) :
    Prop where
  written : ∀ (x : WatchCrew ι) i c org view writes ts next r u,
    Crew.Reaches (watchRules cfg allowed) idleWatch x →
    x.running i = some (c, .ask (.writeSeen org view writes ts) next) →
    (watchRules cfg allowed).answers i x.shared (.writeSeen org view writes ts) r u →
    ∀ write ∈ writes, ∀ token ∈ write.tokens, (u.watched org write.ruleId).get? token = some ts
  forward : ∀ x y : WatchCrew ι, Crew.Reaches (watchRules cfg allowed) idleWatch x →
    Crew.Step (watchRules cfg allowed) x y → WatchForward x.shared y.shared
  kept : ∀ (x : WatchCrew ι) i c q next r u,
    Crew.Reaches (watchRules cfg allowed) idleWatch x → x.running i = some (c, .ask q next) →
    (watchRules cfg allowed).answers i x.shared q r u →
    ∀ org rid token v, (x.shared.watched org rid).get? token = some v →
      c.forgets (token, v) = false → (u.watched org rid).get? token ≠ none
  capped : ∀ x : WatchCrew ι, Crew.Reaches (watchRules cfg allowed) idleWatch x →
    ∀ org rid, (x.shared.watched org rid).entries.length ≤ cfg.absenceMaxKeysPerRule

/-- What a pipeline was decided on is still so: the flush's check admits all that it writes, none of
it is there with a later time, and what the tick forgets is still old to it. -/
def StillHolds (cfg : InflightSettings) (w : WatchWorld) (c : WatchCall) : InflightAsk → Prop
  | .writeSeen org _ writes ts => ∀ write ∈ writes,
    admitTokens ((w.view org).known write.ruleId)
      (cfg.absenceMaxKeysPerRule - (w.view org).size write.ruleId) write.tokens =
        (write.tokens, 0) ∧
    ∀ token ∈ write.tokens, ∀ v, (w.watched org write.ruleId).get? token = some v → v ≤ ts
  | .forget org rid tokens _ => ∀ seen ∈ tokens, ∀ v, (w.watched org rid).get? seen.1 = some v →
    c.forgets (seen.1, v) = true
  | _ => True

/-- In every run of the law a pipeline acts on what still holds. -/
def StandingRuns (ι : Type) [DecidableEq ι] (cfg : InflightSettings) (allowed : WatchLaw ι) : Prop :=
  ∀ (x : WatchCrew ι) i c q next, Crew.Reaches (watchRules cfg allowed) idleWatch x →
    x.running i = some (c, .ask q next) → allowed i x.shared q → StillHolds cfg x.shared c q

section Admission
variable {known : String → Bool} {budget : Nat} {tokens : List String}

theorem admitTokens_eq_iff :
    admitTokens known budget tokens = (tokens, 0) ↔
      (tokens.filter (fun token => !known token)).length ≤ budget := by
  induction tokens generalizing budget with
  | nil => simp [admitTokens]
  | cons token tokens ih =>
    rw [admitTokens]
    by_cases hk : known token = true
    · have hrest := @ih budget
      simp only [hk, if_true, Prod.ext_iff, List.cons.injEq, true_and, Bool.not_true,
        Bool.false_eq_true, not_false_eq_true, List.filter_cons_of_neg] at hrest ⊢
      exact hrest
    · by_cases hb : 0 < budget
      · have hrest := @ih (budget - 1)
        have hle : ∀ n, n ≤ budget - 1 ↔ n + 1 ≤ budget := by omega
        simp only [hk, hb, if_true, if_false, Prod.ext_iff, List.cons.injEq, true_and,
          Bool.false_eq_true, Bool.not_false, List.filter_cons_of_pos, List.length_cons,
          hle] at hrest ⊢
        exact hrest
      · have hzero : budget = 0 := by omega
        simp [hk, hzero]

theorem admitTokens_sublist : (admitTokens known budget tokens).1.Sublist tokens := by
  induction tokens generalizing budget with
  | nil => exact .refl _
  | cons token tokens ih =>
    rw [admitTokens]
    split
    · exact ih.cons_cons token
    · split
      · exact ih.cons_cons token
      · exact ih.cons token

theorem nodup_eraseDups (tokens : List String) : tokens.eraseDups.Nodup := by
  induction h : tokens.length using Nat.strong_induction_on generalizing tokens with
  | _ n ih =>
    cases tokens with
    | nil => exact .nil
    | cons token tokens =>
      have hlt : (tokens.filter (fun t => !t == token)).length < n := by
        have hle := List.length_filter_le (fun t => !t == token) tokens
        rw [List.length_cons] at h
        omega
      rw [List.eraseDups_cons, List.nodup_cons, List.mem_eraseDups, List.mem_filter]
      exact ⟨fun hin => by simp at hin, ih _ hlt _ rfl⟩

end Admission

structure SoundWrites (writes : List SeenWrite) : Prop where
  agree : ∀ a ∈ writes, ∀ b ∈ writes, a.ruleId = b.ruleId → a.tokens = b.tokens
  nodup : ∀ write ∈ writes, write.tokens.Nodup
  ttl : ∀ write ∈ writes, 0 ≤ write.ttl

def WatchCall.MaySend : WatchCall → InflightAsk → Prop
  | .flush _, .clock => True
  | .flush _, .readSeen _ _ => True
  | .flush _, .writeSeen _ _ writes _ => SoundWrites writes
  | .flush _, _ => False
  | .tick _ _, .writeSeen _ _ _ _ => False
  | .tick _ _, _ => True

section Asks
variable {cfg : InflightSettings}

theorem AbsenceFlush.seenWrites_sound (f : AbsenceFlush) (view : SeenView) :
    SoundWrites (f.acc.seenWrites cfg view) := by
  constructor
  · intro a ha b hb hid
    obtain ⟨p, -, rfl⟩ := List.mem_map.1 ha
    obtain ⟨p', -, rfl⟩ := List.mem_map.1 hb
    exact congrArg (fun rid => (f.acc.admitted cfg view rid).1) hid
  · intro write hw
    obtain ⟨p, -, rfl⟩ := List.mem_map.1 hw
    exact admitTokens_sublist.nodup (nodup_eraseDups _)
  · intro write hw
    obtain ⟨p, hp, rfl⟩ := List.mem_map.1 hw
    have hrule := f.compiled p ((List.perm_insertionSort _ _).mem_iff.1 hp)
    change 0 ≤ p.2.forgetSeconds + stateTtlSlack
    rw [absenceMinWindowSeconds] at hrule
    rw [stateTtlSlack]
    omega

theorem AbsenceFlush.maySend (f : AbsenceFlush) :
    (f.acc.applyAbsencePresence cfg f.organizationId).Asks (WatchCall.flush f).MaySend := by
  rw [InflightAccumulator.applyAbsencePresence]
  apply Dialog.Asks.query trivial
  intro now
  by_cases hr : f.acc.watchedRules = []
  · rw [if_pos hr]
    exact Dialog.asks_pure _
  · rw [if_neg hr]
    apply Dialog.Asks.query trivial
    intro read
    cases read with
    | none => exact Dialog.asks_pure _
    | some view =>
      apply Dialog.Asks.query
      · exact f.seenWrites_sound view
      intro written
      cases written <;> exact Dialog.asks_pure _

theorem AbsenceTick.Judging.maySend {t : AbsenceTick} {state : WatchState} {q : InflightAsk}
    (h : t.Judging cfg state q) : (WatchCall.tick t budget).MaySend q := by
  cases q with
  | writeSeen org view writes ts => exact absurd h id
  | _ => trivial

theorem AbsenceTick.maySend (t : AbsenceTick) (budget : Int) (result : AbsenceTickResult) :
    (t.evaluate cfg budget result).Asks (WatchCall.tick t budget).MaySend := by
  rw [AbsenceTick.evaluate]
  apply Dialog.Asks.query trivial
  intro locked
  split
  · exact Dialog.asks_pure _
  · apply Dialog.Asks.query trivial
    intro read
    cases read with
    | none => exact Dialog.asks_pure _
    | some state =>
      exact (AbsenceTick.judge_asks budget _).mono fun _ => AbsenceTick.Judging.maySend

theorem WatchCall.maySend (c : WatchCall) : (c.program cfg).Asks c.MaySend := by
  cases c with
  | flush f => exact f.maySend.bind (fun _ => Dialog.asks_pure _)
  | tick t budget => exact (t.maySend budget _).bind (fun _ => Dialog.asks_pure _)

end Asks

namespace WatchWorld
variable {w : WatchWorld} {org rid ts : Int} {writes : List SeenWrite} {write : SeenWrite}
  {tokens alerted : List String} {token : String}

theorem watched_touch (w : WatchWorld) (org ts : Int) (write : SeenWrite) (h : 0 ≤ write.ttl)
    (org' rid : Int) (token : String) :
    ((touch org ts w write).watched org' rid).get? token =
      if (org' = org ∧ rid = write.ruleId) ∧ token ∈ write.tokens then some ts
      else (w.watched org' rid).get? token := by
  have httl : (0 : Rat) ≤ (write.ttl : Rat) := by exact_mod_cast h
  by_cases hkey : (org', rid) = (org, write.ruleId)
  · obtain ⟨rfl, rfl⟩ := Prod.mk.inj hkey
    have hset : (touch org' ts w write).watched org' write.ruleId =
        (w.watched org' write.ruleId).update (write.tokens.map (fun token => (token, ts))) :=
      (HashStore.hgetall_expire_self _ _ _ httl).trans (HashStore.hgetall_hset_self _ _ _ _)
    rw [hset, Dict.get?_update_const]
    simp
  · have hother : (touch org ts w write).watched org' rid = w.watched org' rid :=
      HashStore.hgetall_congr ((HashStore.expire_ne hkey _).trans (HashStore.hset_ne hkey _))
    rw [hother, if_neg]
    rintro ⟨⟨rfl, rfl⟩, -⟩
    exact hkey rfl

theorem watched_writes (httl : ∀ write ∈ writes, 0 ≤ write.ttl) (w : WatchWorld)
    (org ts org' rid : Int) (token : String) :
    ((writes.foldl (touch org ts) w).watched org' rid).get? token =
      if ∃ write ∈ writes, (org' = org ∧ rid = write.ruleId) ∧ token ∈ write.tokens then some ts
      else (w.watched org' rid).get? token := by
  induction writes generalizing w with
  | nil => simp
  | cons write writes ih =>
    have hrest := ih (fun write hw => httl write (List.mem_cons_of_mem _ hw)) (touch org ts w write)
    rw [List.foldl_cons, hrest, watched_touch w org ts write (httl write List.mem_cons_self)]
    by_cases hw : (org' = org ∧ rid = write.ruleId) ∧ token ∈ write.tokens
    · simp [hw]
    · simp [hw]

theorem watched_written (h : SoundWrites writes) (hw : write ∈ writes) (w : WatchWorld)
    (org ts : Int) (token : String) :
    ((writes.foldl (touch org ts) w).watched org write.ruleId).get? token =
      if token ∈ write.tokens then some ts else (w.watched org write.ruleId).get? token := by
  rw [watched_writes h.ttl]
  by_cases ht : token ∈ write.tokens
  · rw [if_pos ht, if_pos ⟨write, hw, ⟨rfl, rfl⟩, ht⟩]
  · rw [if_neg ht, if_neg]
    rintro ⟨write', hw', ⟨-, hid⟩, ht'⟩
    exact ht (h.agree write' hw' write hw hid.symm ▸ ht')

theorem watched_unwritten (h : SoundWrites writes) (w : WatchWorld) (ts : Int)
    (hno : ¬∃ write ∈ writes, org' = org ∧ rid = write.ruleId) (token : String) :
    ((writes.foldl (touch org ts) w).watched org' rid).get? token =
      (w.watched org' rid).get? token := by
  rw [watched_writes h.ttl, if_neg]
  rintro ⟨write, hw, hkey, -⟩
  exact hno ⟨write, hw, hkey⟩

theorem watched_forget (w : WatchWorld) (org rid : Int) (tokens alerted : List String)
    (org' rid' : Int) (token : String) :
    ((w.forget org rid tokens alerted).watched org' rid').get? token =
      if (org' = org ∧ rid' = rid) ∧ token ∈ tokens then none
      else (w.watched org' rid').get? token := by
  by_cases hkey : (org', rid') = (org, rid)
  · obtain ⟨rfl, rfl⟩ := Prod.mk.inj hkey
    have hdel : ((w.forget org' rid' tokens alerted).watched org' rid').get? token =
        if token ∈ tokens then none else (w.watched org' rid').get? token :=
      HashStore.get?_hgetall_hdel_self _ _ _ _ _
    rw [hdel]
    simp
  · have hother : (w.forget org rid tokens alerted).watched org' rid' = w.watched org' rid' :=
      HashStore.hgetall_congr (HashStore.hdel_ne hkey _)
    rw [hother, if_neg]
    rintro ⟨⟨rfl, rfl⟩, -⟩
    exact hkey rfl

theorem watched_later (w : WatchWorld) {later : Rat} (h : w.now ≤ later) (org rid : Int) :
    ({ w with now := later } : WatchWorld).watched org rid = w.watched org rid ∨
      ({ w with now := later } : WatchWorld).watched org rid = .empty :=
  HashStore.hgetall_later w.seen (org, rid) h

end WatchWorld

section Commands
variable {cfg : InflightSettings} {w u : WatchWorld} {c : WatchCall} {q : InflightAsk}

theorem WatchCall.MaySend.sound (h : c.MaySend (.writeSeen org view writes ts)) :
    SoundWrites writes := by
  cases c with
  | flush f => exact h
  | tick t budget => exact absurd h id

theorem WatchCall.MaySend.cases (h : c.MaySend q) :
    (∃ org view writes ts, q = .writeSeen org view writes ts ∧ SoundWrites writes) ∨
    (∃ org rid tokens alerted, q = .forget org rid tokens alerted) ∨
    ∀ org rid, (w.after q).watched org rid = w.watched org rid := by
  cases q with
  | writeSeen org view writes ts => exact .inl ⟨org, view, writes, ts, rfl, h.sound⟩
  | forget org rid tokens alerted => exact .inr (.inl ⟨org, rid, tokens, alerted, rfl⟩)
  | _ => exact .inr (.inr fun _ _ => rfl)

theorem forward_after (h : c.MaySend q) (hq : StillHolds cfg w c q) :
    WatchForward w (w.after q) := by
  intro org' rid' token v v' hv hv'
  obtain ⟨org, view, writes, ts, rfl, hsound⟩ | ⟨org, rid, tokens, alerted, rfl⟩ | hsame :=
    h.cases (w := w)
  · have hget := hv'.symm.trans (WatchWorld.watched_writes hsound.ttl w org ts org' rid' token)
    split at hget
    · next hw =>
      obtain ⟨write, hw, ⟨rfl, rfl⟩, ht⟩ := hw
      cases hget
      exact (hq write hw).2 token ht v hv
    · rw [hv] at hget
      cases hget
      exact le_refl v
  · have hget := hv'.symm.trans
      (w.watched_forget org rid (tokens.map Prod.fst) alerted org' rid' token)
    split at hget
    · cases hget
    · rw [hv] at hget
      cases hget
      exact le_refl v
  · rw [hsame, hv] at hv'
    cases hv'
    exact le_refl v

theorem kept_after (h : c.MaySend q) (hq : StillHolds cfg w c q)
    (hv : (w.watched org' rid').get? token = some v) (hnew : c.forgets (token, v) = false) :
    ((w.after q).watched org' rid').get? token ≠ none := by
  obtain ⟨org, view, writes, ts, rfl, hsound⟩ | ⟨org, rid, tokens, alerted, rfl⟩ | hsame :=
    h.cases (w := w)
  · intro hnone
    have hget := hnone.symm.trans (WatchWorld.watched_writes hsound.ttl w org ts org' rid' token)
    split at hget
    · cases hget
    · rw [hv] at hget
      cases hget
  · intro hnone
    have hget := hnone.symm.trans
      (w.watched_forget org rid (tokens.map Prod.fst) alerted org' rid' token)
    split at hget
    · next ht =>
      obtain ⟨⟨rfl, rfl⟩, ht⟩ := ht
      obtain ⟨seen, hseen, rfl⟩ := List.mem_map.1 ht
      have hold := hq seen hseen v hv
      rw [hnew] at hold
      cases hold
    · rw [hv] at hget
      cases hget
  · rw [hsame, hv]
    exact Option.some_ne_none v

theorem capped_write_iff (hsound : SoundWrites writes) {write : SeenWrite} (hw : write ∈ writes)
    (hcap : (w.watched org write.ruleId).entries.length ≤ cap) :
    ((writes.foldl (WatchWorld.touch org ts) w).watched org write.ruleId).entries.length ≤ cap ↔
      admitTokens ((w.view org).known write.ruleId) (cap - (w.view org).size write.ruleId)
        write.tokens = (write.tokens, 0) := by
  have hlength := Dict.length_of_set_keys (hsound.nodup write hw)
    (WatchWorld.watched_written hsound hw w org ts)
  rw [admitTokens_eq_iff, hlength]
  change _ ↔ (write.tokens.filter
    (fun token => !((w.watched org write.ruleId).get? token).isSome)).length ≤
      cap - (w.watched org write.ruleId).entries.length
  omega

def WatchWorld.Capped (cap : Nat) (w : WatchWorld) : Prop :=
  ∀ org rid, (w.watched org rid).entries.length ≤ cap

theorem capped_after (h : c.MaySend q) (hq : StillHolds cfg w c q)
    (hw : w.Capped cfg.absenceMaxKeysPerRule) : (w.after q).Capped cfg.absenceMaxKeysPerRule := by
  intro org' rid'
  obtain ⟨org, view, writes, ts, rfl, hsound⟩ | ⟨org, rid, tokens, alerted, rfl⟩ | hsame :=
    h.cases (w := w)
  · by_cases hkey : ∃ write ∈ writes, org' = org ∧ rid' = write.ruleId
    · obtain ⟨write, hin, rfl, rfl⟩ := hkey
      exact (capped_write_iff hsound hin (hw org' write.ruleId)).2 (hq write hin).1
    · apply (Dict.length_le _).trans (hw org' rid')
      intro token hne
      exact (WatchWorld.watched_unwritten hsound w ts hkey token).symm ▸ hne
  · apply (Dict.length_le _).trans (hw org' rid')
    intro token hne hnone
    apply hne
    apply (w.watched_forget org rid (tokens.map Prod.fst) alerted org' rid' token).trans
    rw [hnone, ite_self]
  · rw [hsame]
    exact hw org' rid'

end Commands

section Runs
variable {ι : Type} [DecidableEq ι] {cfg : InflightSettings} {allowed : WatchLaw ι}
  {x y : WatchCrew ι}

theorem maySend_of_reached (hx : Crew.Reaches (watchRules cfg allowed) idleWatch x)
    (hrun : x.running i = some (c, .ask q next)) : c.MaySend q :=
  (c.maySend.leaves (hx.underway (fun _ _ _ h => nomatch h) i c _ hrun)).1

theorem watchForward_refl (w : WatchWorld) : WatchForward w w := by
  intro org rid token v v' hv hv'
  rw [hv] at hv'
  cases hv'
  exact le_refl v

theorem watchForward_later {w : WatchWorld} {later : Rat} (h : w.now ≤ later) :
    WatchForward w { w with now := later } := by
  intro org rid token v v' hv hv'
  obtain hsame | hgone := w.watched_later h org rid
  · rw [hsame, hv] at hv'
    cases hv'
    exact le_refl v
  · rw [hgone] at hv'
    cases hv'

theorem forward_of_standing (hruns : StandingRuns ι cfg allowed)
    (hx : Crew.Reaches (watchRules cfg allowed) idleWatch x)
    (h : Crew.Step (watchRules cfg allowed) x y) : WatchForward x.shared y.shared := by
  cases h with
  | start hidle hs => exact watchForward_refl x.shared
  | answer hrun hr =>
    obtain ⟨⟨hallowed, -⟩, rfl⟩ := hr
    exact forward_after (maySend_of_reached hx hrun) (hruns _ _ _ _ _ hx hrun hallowed)
  | finish hrun => exact watchForward_refl x.shared
  | move hm =>
    obtain ⟨later, hle, rfl⟩ := hm
    exact watchForward_later hle

theorem capped_of_standing (hruns : StandingRuns ι cfg allowed)
    (hx : Crew.Reaches (watchRules cfg allowed) idleWatch x) :
    x.shared.Capped cfg.absenceMaxKeysPerRule := by
  induction hx with
  | refl => exact fun org rid => Nat.zero_le _
  | @tail y z hy hlast ih =>
    cases hlast with
    | start hidle hs => exact ih
    | answer hrun hr =>
      obtain ⟨⟨hallowed, -⟩, rfl⟩ := hr
      exact capped_after (maySend_of_reached hy hrun) (hruns _ _ _ _ _ hy hrun hallowed) ih
    | finish hrun => exact ih
    | move hm =>
      obtain ⟨later, hle, rfl⟩ := hm
      intro org rid
      obtain hsame | hgone := y.shared.watched_later hle org rid
      · rw [hsame]
        exact ih org rid
      · rw [hgone]
        exact Nat.zero_le _

/-- The watch set is exact in just those runs where each pipeline acts on what still holds. -/
theorem watch_set_exact_iff (ι : Type) [DecidableEq ι] (cfg : InflightSettings)
    (allowed : WatchLaw ι) : WatchExact ι cfg allowed ↔ StandingRuns ι cfg allowed := by
  constructor
  · intro hexact x i c q next hx hrun hallowed
    have hsend := maySend_of_reached hx hrun
    cases q with
    | writeSeen org view writes ts =>
      have hr : (watchRules cfg allowed).answers i x.shared (.writeSeen org view writes ts)
          (some ()) _ := ⟨⟨hallowed, rfl⟩, rfl⟩
      have hstep : Crew.Step (watchRules cfg allowed) x _ := .answer hrun hr
      intro write hw
      constructor
      · apply (capped_write_iff hsend.sound hw (hexact.capped x hx org write.ruleId)).1
        exact hexact.capped _ (hx.tail hstep) org write.ruleId
      · intro token ht v hv
        exact hexact.forward x _ hx hstep org write.ruleId token v ts hv
          (hexact.written x i c org view writes ts next _ _ hx hrun hr write hw token ht)
    | forget org rid tokens alerted =>
      have hr : (watchRules cfg allowed).answers i x.shared (.forget org rid tokens alerted)
          (some ()) _ := ⟨⟨hallowed, rfl⟩, rfl⟩
      intro seen hseen v hv
      by_contra hnew
      apply hexact.kept x i c _ next _ _ hx hrun hr org rid seen.1 v hv (Bool.not_eq_true _ ▸ hnew)
      apply (x.shared.watched_forget org rid (tokens.map Prod.fst) alerted org rid seen.1).trans
      exact if_pos ⟨⟨rfl, rfl⟩, List.mem_map_of_mem hseen⟩
    | _ => exact trivial
  · intro hruns
    constructor
    · intro x i c org view writes ts next r u hx hrun hr write hw token ht
      obtain ⟨⟨-, -⟩, rfl⟩ := hr
      have hsound := (maySend_of_reached hx hrun).sound
      exact (WatchWorld.watched_written hsound hw x.shared org ts token).trans (if_pos ht)
    · exact fun x y hx hy => forward_of_standing hruns hx hy
    · intro x i c q next r u hx hrun hr org rid token v hv hnew
      obtain ⟨⟨hallowed, -⟩, rfl⟩ := hr
      exact kept_after (maySend_of_reached hx hrun) (hruns _ _ _ _ _ hx hrun hallowed) hv hnew
    · exact fun x hx => capped_of_standing hruns hx

end Runs

namespace WatchWorld

def state (w : WatchWorld) (org rid : Int) : WatchState where
  lastCycle := (w.observed.hgetall w.now (org, rid)).get? "last_cycle"
  seen := (w.watched org rid).entries
  alerted := (w.alerted.hgetall w.now (org, rid)).entries

/-- The lock is free, and the database is not there. -/
def answer (w : WatchWorld) : (q : InflightAsk) → InflightReply q
  | .clock => w.now
  | .readSeen org _ => some (w.view org)
  | .readWatch org rid => some (w.state org rid)
  | .tickLock _ => true
  | .lagging _ _ _ _ | .closeDetection _ => false
  | .warnFlushCap _ => ()
  | .writeSeen _ _ _ _ | .forget _ _ _ _ | .clearAlerted _ _ _ | .markAlerted _ _ _ _
  | .writeTick _ _ _ => some ()
  | .writeLegs _ | .readLegs _ | .dropLegs _ | .bumpWindows _ | .readWindows _ | .openSession
  | .closeSession | .record _ => none

theorem replies_answer (w : WatchWorld) (q : InflightAsk) : w.Replies q (w.answer q) := by
  cases q with
  | readWatch org rid => exact ⟨w.state org rid, rfl, rfl, .refl _, .refl _⟩
  | _ => first | rfl | trivial

end WatchWorld

def silentHosts : CompiledInflightRule where
  ruleId := 7
  name := "silent hosts"
  severityId := 4
  suppressionWindowSeconds := 3600
  groupByPath := some ["raw", "host"]
  clauses := []
  windowSeconds := 60
  absence := true
  forgetSeconds := 100

def hostCycle (host : String) : AbsenceFlush where
  organizationId := 1
  acc :=
    { pending := Dict.empty.set ("inflight:1:7:" ++ host)
        { rule := silentHosts, integrationId := none, source := [], token := host }
      absenceRules := [(7, silentHosts)] }
  compiled := by
    intro p hp
    have hrule : p = (7, silentHosts) := List.mem_singleton.1 hp
    rw [hrule]
    decide

def oneHost : InflightSettings := { absenceMaxKeysPerRule := 1 }

def anyWatch : WatchLaw Nat := fun _ _ _ => True

def watchSchedule (x : WatchCrew Nat) (ms : List (Crew.Cue Nat WatchCall)) : WatchCrew Nat :=
  ms.foldl (Crew.cue (watchRules oneHost anyWatch) (fun _ w q => (w.answer q, w.after q))
    (fun _ _ => true)) x

theorem watchSchedule_reaches (x : WatchCrew Nat) (ms : List (Crew.Cue Nat WatchCall)) :
    Crew.Reaches (watchRules oneHost anyWatch) x (watchSchedule x ms) := by
  apply Crew.reaches_foldl_cue
  · exact fun _ _ _ _ => trivial
  · exact fun _ w q _ => ⟨⟨trivial, w.replies_answer q⟩, rfl⟩

/-- Two flushes both find the room of one key. -/
def overfull : WatchCrew Nat :=
  watchSchedule idleWatch
    [.call 0 (.flush (hostCycle "a")), .call 1 (.flush (hostCycle "b")), .go 0, .go 1, .go 0, .go 1,
      .go 0, .go 1]

def seenOnce : WatchCrew Nat :=
  watchSchedule idleWatch [.call 0 (.flush (hostCycle "a")), .go 0, .go 0, .go 0, .go 0]

def seenAgain : WatchCrew Nat :=
  watchSchedule { seenOnce with shared := { seenOnce.shared with now := 101 } }
    [.call 1 (.tick ⟨silentHosts, 1, 101⟩ 200), .go 1, .go 1, .call 0 (.flush (hostCycle "a")), .go 0,
      .go 0, .go 0]

def forgotten : WatchCrew Nat := watchSchedule seenAgain [.go 1]

/-- Two flushes overfill the watch set, and a tick removes what was seen at its own time. -/
theorem watch_set_inexact :
    (∃ x : WatchCrew Nat, Crew.Reaches (watchRules oneHost anyWatch) idleWatch x ∧
      oneHost.absenceMaxKeysPerRule < (x.shared.watched 1 7).entries.length) ∧
    ∃ x y : WatchCrew Nat, Crew.Reaches (watchRules oneHost anyWatch) idleWatch x ∧
      Crew.Reaches (watchRules oneHost anyWatch) x y ∧ y.shared.now = x.shared.now ∧
      (x.shared.watched 1 7).get? "a" = some 101 ∧ x.shared.now = 101 ∧
      (y.shared.watched 1 7).get? "a" = none := by
  constructor
  · exact ⟨overfull, watchSchedule_reaches _ _, by decide +kernel⟩
  · have hold : seenOnce.shared.now = 0 := by decide +kernel
    have hmove : Crew.Step (watchRules oneHost anyWatch) seenOnce
        { seenOnce with shared := { seenOnce.shared with now := 101 } } := by
      apply Crew.Step.move
      refine ⟨101, ?_, rfl⟩
      rw [hold]
      decide +kernel
    have hagain : Crew.Reaches (watchRules oneHost anyWatch) idleWatch seenAgain :=
      ((watchSchedule_reaches _ _).tail hmove).trans (watchSchedule_reaches _ _)
    exact ⟨seenAgain, forgotten, hagain, watchSchedule_reaches _ _, by decide +kernel,
      by decide +kernel, by decide +kernel, by decide +kernel⟩

end CentralOps
