import CentralOps.Json
import CentralOps.Pipeline.CaptureRing

namespace CentralOps
set_option autoImplicit true

/-- The meta of a session, beside what is counted there. -/
structure SessionMeta extends CaptureSession where
  id : Option String := none
  orgId : Option Int := none
  vendor : Option String := none
  status : Option String := none
  expiresAt : Rat := 0

namespace SessionMeta

def Listens (m : SessionMeta) : Prop := m.status = some "active"

instance (m : SessionMeta) : Decidable m.Listens := inferInstanceAs (Decidable (_ = _))

/-- `_session_is_active`. -/
def isActive (m : SessionMeta) (now : Rat) : Bool := decide (m.Listens ∧ now ≤ m.expiresAt)

end SessionMeta

/-- A batch with its outcome, and the entries that `_entries_for` makes of it for a session. -/
structure Tap where
  batch : List Json
  outcome : String
  entriesFor : SessionMeta → List String

inductive SessionAsk where
  | time
  | absentCached (orgId : Int)
  | tapBlind
  | smembers (orgId : Int)
  | hgetall (sid : String)
  | srem (orgId : Int) (sid : String)
  | hsetStopped (sid : String)
  | delete (sid : String) (orgId : Int)
  | ring (sid : String) (m : CaptureSession) (q : CaptureAsk)

/-- A command that raises answers none. -/
abbrev SessionReply : SessionAsk → Type
  | .time => Rat
  | .absentCached _ => Bool
  | .tapBlind => Bool
  | .smembers _ => Option (List String)
  | .hgetall _ => Option (Option SessionMeta)
  | .srem _ _ => Option Unit
  | .hsetStopped _ => Option Unit
  | .delete _ _ => Option Unit
  | .ring _ _ q => CaptureAnswer q

def SessionAsk.ringOf : SessionAsk → Option String
  | .ring sid _ _ => some sid
  | _ => none

abbrev SessionTask := Dialog SessionAsk SessionReply

namespace SessionTask

def ask (q : SessionAsk) : SessionTask (SessionReply q) := Dialog.query q

/-- The loop of `active_sessions` over the ids of the index. -/
def readSessions (orgId : Int) (now : Rat) :
    List SessionMeta → List String → SessionTask (List SessionMeta)
  | out, [] => pure out
  | out, sid :: ids => do
    match ← ask (.hgetall sid) with
    | none => pure []
    | some none =>
      match ← ask (.srem orgId sid) with
      | none => pure []
      | some () => readSessions orgId now out ids
    | some (some m) =>
      if m.isActive now then
        readSessions orgId now (out ++ [{ m with id := some (m.id.getD sid) }]) ids
      else readSessions orgId now out ids

/-- `active_sessions`. -/
def activeSessions (orgId : Int) : SessionTask (List SessionMeta) := do
  let now : Rat ← ask .time
  if (← ask (.absentCached orgId)) = true then pure []
  else
    match ← ask (.smembers orgId) with
    | none => pure []
    | some ids => readSessions orgId now [] ids

/-- `active_sessions_sync`. -/
def activeSessionsSync (orgId : Int) : SessionTask (List SessionMeta) := do
  if (← ask .tapBlind) = true then pure [] else activeSessions orgId

def appendTo (append : Append → CaptureTask Bool) (tap : Tap) : List SessionMeta → SessionTask Unit
  | [] => pure ()
  | m :: metas =>
    let sid := m.id.getD ""
    let entries := tap.entriesFor m
    if sid = "" ∨ entries = [] then appendTo append tap metas
    else do
      let returned ← (append ⟨entries, tap.outcome⟩).within
        (SessionAsk.ring sid m.toCaptureSession) (fun _ r => r)
      if returned = true then appendTo append tap metas else pure ()

/-- The sessions that a call is given, or those that it looks up. -/
def resolve (sessions : Option (List SessionMeta)) (lookup : SessionTask (List SessionMeta)) :
    SessionTask (List SessionMeta) :=
  match sessions with
  | some metas => pure metas
  | none => lookup

/-- `record`, with the sessions that it is given. -/
def record (tap : Tap) (orgId : Int) (sessions : Option (List SessionMeta)) : SessionTask Unit :=
  if tap.batch = [] then pure ()
  else do
    let metas ← resolve sessions (activeSessions orgId)
    appendTo (fun a => Dialog.query (CaptureAsk.pipeline a false)) tap metas

/-- `record_sync`. -/
def recordSync (tap : Tap) (orgId : Int) (sessions : Option (List SessionMeta)) :
    SessionTask Unit :=
  if tap.batch = [] then pure ()
  else do
    if (← ask .tapBlind) = true then pure ()
    else
      let metas ← resolve sessions (activeSessionsSync orgId)
      appendTo appendEntries tap metas

def stopSession (sid : String) (orgId : Int) : SessionTask Unit := do
  match ← ask (.hgetall sid) with
  | none => pure ()
  | some none => pure ()
  | some (some m) =>
    if m.orgId.getD (-1) ≠ orgId then pure ()
    else do
      let _ ← ask (.hsetStopped sid)
      pure ()

def deleteSession (sid : String) (orgId : Int) : SessionTask Unit := do
  let _ ← ask (.delete sid orgId)
  pure ()

end SessionTask

inductive SessionCall where
  | record (tap : Tap) (orgId : Int) (sessions : Option (List SessionMeta))
  | recordSync (tap : Tap) (orgId : Int) (sessions : Option (List SessionMeta))
  | stop (sid : String) (orgId : Int)
  | delete (sid : String) (orgId : Int)

namespace SessionCall

def program : SessionCall → SessionTask Unit
  | .record tap orgId sessions => SessionTask.record tap orgId sessions
  | .recordSync tap orgId sessions => SessionTask.recordSync tap orgId sessions
  | .stop sid orgId => SessionTask.stopSession sid orgId
  | .delete sid orgId => SessionTask.deleteSession sid orgId

def sessions : SessionCall → List SessionMeta
  | .record _ _ sessions => sessions.getD []
  | .recordSync _ _ sessions => sessions.getD []
  | _ => []

end SessionCall

/-- The sessions in Redis. Beside them: the sessions that each worker has found active, and those of
them that were neither stopped nor deleted since; the sessions that were stopped or deleted; and of
every append, whether its worker's session was still such and whether it had been closed. -/
structure SessionWorld where
  now : Rat := 0
  metas : String → Option SessionMeta := fun _ => none
  rings : String → CaptureRing := fun _ => {}
  index : Int → List String := fun _ => []
  found : List (Nat × String) := []
  fresh : List (Nat × String) := []
  closed : List String := []
  deleted : List String := []
  appends : List (Bool × Bool) := []

namespace SessionWorld

def hset (w : SessionWorld) (sid : String) (f : SessionMeta → SessionMeta) : SessionWorld :=
  { w with metas := Function.update w.metas sid (some (f ((w.metas sid).getD {}))) }

def dropMeta (w : SessionWorld) (sid : String) : SessionWorld :=
  { w with
    metas := Function.update w.metas sid none
    rings := Function.update w.rings sid
      { events := (w.rings sid).events, appended := (w.rings sid).appended } }

def dropEvents (w : SessionWorld) (sid : String) : SessionWorld :=
  { w with rings := Function.update w.rings sid { w.rings sid with events := [] } }

def unlist (w : SessionWorld) (orgId : Int) (sid : String) : SessionWorld :=
  { w with index := Function.update w.index orgId ((w.index orgId).erase sid) }

/-- A worker reads the meta. -/
def find (w : SessionWorld) (i : Nat) (sid : String) : SessionWorld :=
  match w.metas sid with
  | none => w
  | some m =>
    if m.Listens then { w with found := (i, sid) :: w.found, fresh := (i, sid) :: w.fresh } else w

def close (w : SessionWorld) (sid : String) : SessionWorld :=
  { w with
    closed := sid :: w.closed
    fresh := w.fresh.filter (fun p => decide (p.2 ≠ sid)) }

def stop (w : SessionWorld) (sid : String) : SessionWorld :=
  (w.hset sid (fun m => { m with status := some "stopped" })).close sid

def delete (w : SessionWorld) (sid : String) (orgId : Int) : SessionWorld :=
  let u := (((w.dropMeta sid).dropEvents sid).unlist orgId sid).close sid
  { u with deleted := sid :: u.deleted }

/-- What a command of an append leaves. -/
def append (w : SessionWorld) (i : Nat) (sid : String) (ring : CaptureRing) : SessionWorld :=
  if ring.appended = (w.rings sid).appended then w
  else
    { w.hset sid id with
      rings := Function.update w.rings sid ring
      appends := (decide ((i, sid) ∈ w.fresh), decide (sid ∈ w.closed)) :: w.appends }

/-- `start_session`, whose id is new. -/
def start (w : SessionWorld) (sid : String) (m : SessionMeta) (orgId : Int) : SessionWorld :=
  { w with
    metas := Function.update w.metas sid (some m)
    index := Function.update w.index orgId ((w.index orgId).insert sid) }

/-- A command that raises may have been carried out. -/
def Answers (i : Nat) (w : SessionWorld) : (q : SessionAsk) → SessionReply q → SessionWorld → Prop
  | .time, r, u => r = w.now ∧ u = w
  | .absentCached _, _, u => u = w
  | .tapBlind, _, u => u = w
  | .smembers orgId, r, u => (∀ ids, r = some ids → ids.Perm (w.index orgId)) ∧ u = w
  | .hgetall sid, r, u => r = none ∧ u = w ∨ r = some (w.metas sid) ∧ u = w.find i sid
  | .srem orgId sid, r, u => r = none ∧ u = w ∨ u = w.unlist orgId sid
  | .hsetStopped sid, r, u => r = none ∧ u = w ∨ u = w.stop sid
  | .delete sid orgId, r, u => r = none ∧ u = w ∨ u = w.delete sid orgId
  | .ring sid m q, r, u => ∃ ring, (w.rings sid).Effect m q r ring ∧ u = w.append i sid ring

inductive Moves (w : SessionWorld) : SessionWorld → Prop
  | pass (t : Rat) : w.now ≤ t → Moves w { w with now := t }
  | expireMeta (sid : String) : Moves w (w.dropMeta sid)
  | expireEvents (sid : String) : Moves w (w.dropEvents sid)
  | start (sid : String) (m : SessionMeta) (orgId : Int) : sid ∉ w.closed → m.id = some sid →
      Moves w (w.start sid m orgId)

end SessionWorld

abbrev SessionLaw := Nat → SessionWorld → SessionAsk → Prop

def CaptureAsk.appends : CaptureAsk → Bool
  | .evalsha _ => true
  | .pipeline _ _ => true
  | _ => false

def freely : SessionLaw := fun _ _ _ => True

/-- From a worker's reading of a meta to its append the session is neither stopped nor deleted. -/
def undisturbed : SessionLaw := fun i w q =>
  match q with
  | .ring sid _ q => q.appends = true → (i, sid) ∈ w.fresh
  | _ => True

abbrev SessionCrew := Crew SessionWorld Nat SessionCall SessionAsk SessionReply Unit

def SessionCrew.initial : SessionCrew := ⟨{}, fun _ => none⟩

/-- Workers that record, stop and delete in any order; the sessions that a call is given its worker
has found active before. -/
def sessionRules (law : SessionLaw) :
    CrewRules SessionWorld Nat SessionCall SessionAsk SessionReply Unit where
  program := SessionCall.program
  starts w i c := ∀ m ∈ c.sessions, ∃ sid, m.id = some sid ∧ (i, sid) ∈ w.found
  answers i w q r u := law i w q ∧ w.Answers i q r u
  moves := SessionWorld.Moves

/-- A session that was stopped or deleted gets no entry more, and one that was deleted holds no
events. -/
structure DeletionFinal (law : SessionLaw) : Prop where
  silent : ∀ x y : SessionCrew, Crew.Reaches (sessionRules law) SessionCrew.initial x →
    Crew.Reaches (sessionRules law) x y → ∀ sid ∈ x.shared.closed,
      (y.shared.rings sid).appended = (x.shared.rings sid).appended
  empty : ∀ x : SessionCrew, Crew.Reaches (sessionRules law) SessionCrew.initial x →
    ∀ sid ∈ x.shared.deleted, (x.shared.rings sid).events = []

section Sessions
variable {w u v : SessionWorld} {i : Nat} {sid : String}

namespace SessionWorld

theorem hset_metas (w : SessionWorld) (sid : String) (f : SessionMeta → SessionMeta)
    (s : String) : (w.hset sid f).metas s =
      if s = sid then some (f ((w.metas sid).getD {})) else w.metas s := Function.update_apply ..

theorem dropMeta_metas (w : SessionWorld) (sid s : String) :
    (w.dropMeta sid).metas s = if s = sid then none else w.metas s := Function.update_apply ..

structure Consistent (w : SessionWorld) : Prop where
  deaf : ∀ sid ∈ w.closed, ∀ m, w.metas sid = some m → ¬ m.Listens
  named : ∀ sid m, w.metas sid = some m → m.id = none ∨ m.id = some sid
  fresh : ∀ p ∈ w.fresh, p.2 ∉ w.closed
  found : ∀ p ∈ w.found, p ∈ w.fresh ∨ p.2 ∈ w.closed

theorem initial_consistent : Consistent {} := ⟨nofun, nofun, nofun, nofun⟩

theorem Consistent.hset (h : w.Consistent) (sid : String) {f : SessionMeta → SessionMeta}
    (hid : ∀ m, (f m).id = m.id) (hf : ∀ m, (f m).Listens → m.Listens) :
    (w.hset sid f).Consistent := by
  refine ⟨fun s hs m hm hl => ?_, fun s m hm => ?_, h.fresh, h.found⟩
  · rw [hset_metas] at hm
    split at hm
    · next heq =>
      subst heq
      obtain rfl := Option.some.inj hm
      have hold := hf _ hl
      cases hmeta : w.metas s with
      | none =>
        rw [hmeta] at hold
        exact nomatch hold
      | some m =>
        rw [hmeta] at hold
        exact h.deaf s hs m hmeta hold
    · exact h.deaf s hs m hm hl
  · rw [hset_metas] at hm
    split at hm
    · next heq =>
      subst heq
      obtain rfl := Option.some.inj hm
      rw [hid]
      cases hmeta : w.metas s with
      | none => exact .inl rfl
      | some m => exact h.named s m hmeta
    · exact h.named s m hm

theorem Consistent.dropMeta (h : w.Consistent) (sid : String) : (w.dropMeta sid).Consistent := by
  refine ⟨fun s hs m hm => ?_, fun s m hm => ?_, h.fresh, h.found⟩
  · rw [dropMeta_metas] at hm
    split at hm
    · cases hm
    · exact h.deaf s hs m hm
  · rw [dropMeta_metas] at hm
    split at hm
    · cases hm
    · exact h.named s m hm

theorem Consistent.find (h : w.Consistent) (i : Nat) (sid : String) :
    (w.find i sid).Consistent := by
  rw [SessionWorld.find]
  cases hm : w.metas sid with
  | none => exact h
  | some m =>
    simp only []
    split
    · next hl =>
      refine ⟨h.deaf, h.named, fun p hp => ?_, fun p hp => ?_⟩
      · obtain rfl | hp := List.mem_cons.1 hp
        · exact fun hclosed => h.deaf sid hclosed m hm hl
        · exact h.fresh p hp
      · obtain rfl | hp := List.mem_cons.1 hp
        · exact .inl List.mem_cons_self
        · exact (h.found p hp).imp_left (List.mem_cons_of_mem _)
    · exact h

theorem Consistent.close (h : w.Consistent) (hdeaf : ∀ m, w.metas sid = some m → ¬ m.Listens) :
    (w.close sid).Consistent := by
  refine ⟨fun s hs m hm => ?_, h.named, fun p hp => ?_, fun p hp => ?_⟩
  · obtain rfl | hs := List.mem_cons.1 hs
    · exact hdeaf m hm
    · exact h.deaf s hs m hm
  · obtain ⟨hp, hne⟩ := List.mem_filter.1 hp
    intro hs
    obtain rfl | hs := List.mem_cons.1 hs
    · exact of_decide_eq_true hne rfl
    · exact h.fresh p hp hs
  · by_cases hs : p.2 = sid
    · exact .inr (hs ▸ List.mem_cons_self)
    · obtain hfresh | hclosed := h.found p hp
      · exact .inl (List.mem_filter.2 ⟨hfresh, decide_eq_true hs⟩)
      · exact .inr (List.mem_cons_of_mem _ hclosed)

theorem Consistent.stop (h : w.Consistent) (sid : String) : (w.stop sid).Consistent := by
  apply (h.hset sid _ _).close
  · intro m hm
    rw [hset_metas, if_pos rfl] at hm
    obtain rfl := Option.some.inj hm
    change ¬ some "stopped" = some "active"
    decide
  · exact fun m => rfl
  · exact fun m hl => absurd hl (by change ¬ some "stopped" = some "active"; decide)

theorem Consistent.delete (h : w.Consistent) (sid : String) (orgId : Int) :
    (w.delete sid orgId).Consistent := by
  have hdropped := h.dropMeta sid
  have hdeaf : ∀ m, (w.dropMeta sid).metas sid = some m → ¬ m.Listens := by
    intro m hm
    rw [dropMeta_metas, if_pos rfl] at hm
    cases hm
  have hbare : (((w.dropMeta sid).dropEvents sid).unlist orgId sid).Consistent :=
    ⟨hdropped.deaf, hdropped.named, hdropped.fresh, hdropped.found⟩
  have hclosed := hbare.close hdeaf
  exact ⟨hclosed.deaf, hclosed.named, hclosed.fresh, hclosed.found⟩

theorem Consistent.append (h : w.Consistent) (i : Nat) (sid : String) (ring : CaptureRing) :
    (w.append i sid ring).Consistent := by
  rw [SessionWorld.append]
  split
  · exact h
  · have hset := h.hset sid (f := id) (fun _ => rfl) (fun _ hl => hl)
    exact ⟨hset.deaf, hset.named, hset.fresh, hset.found⟩

/-- Whatever is answered, the world stays consistent. -/
theorem Consistent.answers {q : SessionAsk} {r : SessionReply q} (h : w.Consistent)
    (hr : w.Answers i q r u) : u.Consistent := by
  cases q with
  | time => exact hr.2 ▸ h
  | absentCached orgId => exact hr ▸ h
  | tapBlind => exact hr ▸ h
  | smembers orgId => exact hr.2 ▸ h
  | hgetall sid =>
    obtain ⟨-, rfl⟩ | ⟨-, rfl⟩ := hr
    · exact h
    · exact h.find i sid
  | srem orgId sid =>
    obtain ⟨-, rfl⟩ | rfl := hr
    · exact h
    · exact ⟨h.deaf, h.named, h.fresh, h.found⟩
  | hsetStopped sid =>
    obtain ⟨-, rfl⟩ | rfl := hr
    · exact h
    · exact h.stop sid
  | delete sid orgId =>
    obtain ⟨-, rfl⟩ | rfl := hr
    · exact h
    · exact h.delete sid orgId
  | ring sid m q =>
    obtain ⟨ring, -, rfl⟩ := hr
    exact h.append i sid ring

theorem Consistent.moves (h : w.Consistent) (hm : w.Moves u) : u.Consistent := by
  cases hm with
  | pass t hle => exact ⟨h.deaf, h.named, h.fresh, h.found⟩
  | expireMeta sid => exact h.dropMeta sid
  | expireEvents sid => exact ⟨h.deaf, h.named, h.fresh, h.found⟩
  | start sid m orgId hopen hid =>
    have hown : m.id = none ∨ m.id = some sid := .inr hid
    have hmetas : ∀ s, (w.start sid m orgId).metas s = if s = sid then some m else w.metas s :=
      fun s => Function.update_apply ..
    refine ⟨fun s hs m' hm' => ?_, fun s m' hm' => ?_, h.fresh, h.found⟩
    · have hne : s ≠ sid := by
        rintro rfl
        exact hopen hs
      rw [hmetas, if_neg hne] at hm'
      exact h.deaf s hs m' hm'
    · rw [hmetas] at hm'
      split at hm'
      · next heq =>
        subst heq
        obtain rfl := Option.some.inj hm'
        exact hown
      · exact h.named s m' hm'

def Later (w u : SessionWorld) : Prop :=
  ∀ sid ∈ w.closed, sid ∈ u.closed ∧ (u.rings sid).appended = (w.rings sid).appended ∧
    ((w.rings sid).events = [] → (u.rings sid).events = [])

theorem Later.refl (w : SessionWorld) : Later w w := fun _ hs => ⟨hs, rfl, fun h => h⟩

theorem Later.trans (h : Later w u) (h' : Later u v) : Later w v := by
  intro sid hs
  obtain ⟨hu, happended, hempty⟩ := h sid hs
  obtain ⟨hv, happended', hempty'⟩ := h' sid hu
  exact ⟨hv, happended'.trans happended, fun he => hempty' (hempty he)⟩

theorem later_dropMeta (w : SessionWorld) (sid : String) : Later w (w.dropMeta sid) := by
  intro s hs
  by_cases heq : s = sid
  · subst heq
    simp [dropMeta, hs]
  · simp [dropMeta, hs, heq]

theorem later_dropEvents (w : SessionWorld) (sid : String) : Later w (w.dropEvents sid) := by
  intro s hs
  by_cases heq : s = sid
  · subst heq
    simp [dropEvents, hs]
  · simp [dropEvents, hs, heq]

theorem later_close (w : SessionWorld) (sid : String) : Later w (w.close sid) :=
  fun _ hs => ⟨List.mem_cons_of_mem _ hs, rfl, fun h => h⟩

theorem later_delete (w : SessionWorld) (sid : String) (orgId : Int) :
    Later w (w.delete sid orgId) :=
  ((later_dropMeta w sid).trans (later_dropEvents _ sid)).trans fun _ hs =>
    ⟨List.mem_cons_of_mem _ hs, rfl, fun h => h⟩

theorem later_find (w : SessionWorld) (i : Nat) (sid : String) : Later w (w.find i sid) := by
  rw [find]
  cases w.metas sid with
  | none => exact .refl w
  | some m =>
    simp only []
    split
    · exact Later.refl w
    · exact Later.refl w

theorem later_append (w : SessionWorld) (i : Nat) (ring : CaptureRing)
    (hopen : ring.appended = (w.rings sid).appended ∨ sid ∉ w.closed) :
    Later w (w.append i sid ring) := by
  rw [append]
  split
  · exact .refl w
  · next hne =>
    intro s hs
    have heq : s ≠ sid := by
      rintro rfl
      exact hopen.elim hne fun hnot => hnot hs
    have hring : Function.update w.rings sid ring s = w.rings s := Function.update_of_ne heq _ _
    exact ⟨hs, congrArg CaptureRing.appended hring, (congrArg CaptureRing.events hring).trans⟩

theorem find_deleted (w : SessionWorld) (i : Nat) (sid : String) :
    (w.find i sid).deleted = w.deleted := by
  rw [find]
  cases w.metas sid with
  | none => rfl
  | some m =>
    simp only []
    split
    · rfl
    · rfl

theorem append_deleted (w : SessionWorld) (i : Nat) (sid : String) (ring : CaptureRing) :
    (w.append i sid ring).deleted = w.deleted := by
  rw [append]
  split
  · rfl
  · rfl

def Emptied (w : SessionWorld) : Prop :=
  ∀ sid ∈ w.deleted, sid ∈ w.closed ∧ (w.rings sid).events = []

theorem Emptied.later (h : w.Emptied) (hlater : Later w u) (hdeleted : u.deleted = w.deleted) :
    u.Emptied := by
  intro sid hs
  obtain ⟨hclosed, hempty⟩ := h sid (hdeleted ▸ hs)
  obtain ⟨hclosed', -, hempty'⟩ := hlater sid hclosed
  exact ⟨hclosed', hempty' hempty⟩

theorem Emptied.delete (h : w.Emptied) (sid : String) (orgId : Int) :
    (w.delete sid orgId).Emptied := by
  intro s hs
  obtain rfl | hs := List.mem_cons.1 hs
  · exact ⟨List.mem_cons_self, by simp [SessionWorld.delete, dropEvents, unlist, close]⟩
  · obtain ⟨hclosed, hempty⟩ := h s hs
    obtain ⟨hclosed', -, hempty'⟩ := later_delete w sid orgId s hclosed
    exact ⟨hclosed', hempty' hempty⟩

/-- What is answered under the law leaves the closed sessions alone. -/
theorem later_answers {q : SessionAsk} {r : SessionReply q} (h : w.Consistent)
    (hlaw : undisturbed i w q) (hr : w.Answers i q r u) :
    Later w u ∧ (w.Emptied → u.Emptied) := by
  cases q with
  | time =>
    obtain ⟨-, rfl⟩ := hr
    exact ⟨.refl u, fun he => he⟩
  | absentCached orgId =>
    obtain rfl := hr
    exact ⟨.refl u, fun he => he⟩
  | tapBlind =>
    obtain rfl := hr
    exact ⟨.refl u, fun he => he⟩
  | smembers orgId =>
    obtain ⟨-, rfl⟩ := hr
    exact ⟨.refl u, fun he => he⟩
  | hgetall sid =>
    obtain ⟨-, rfl⟩ | ⟨-, rfl⟩ := hr
    · exact ⟨.refl u, fun he => he⟩
    · exact ⟨later_find w i sid, fun he => he.later (later_find w i sid) (find_deleted w i sid)⟩
  | srem orgId sid =>
    obtain ⟨-, rfl⟩ | rfl := hr
    · exact ⟨.refl u, fun he => he⟩
    · exact ⟨Later.refl w, fun he => he⟩
  | hsetStopped sid =>
    obtain ⟨-, rfl⟩ | rfl := hr
    · exact ⟨.refl u, fun he => he⟩
    · exact ⟨later_close w sid, fun he => he.later (later_close w sid) rfl⟩
  | delete sid orgId =>
    obtain ⟨-, rfl⟩ | rfl := hr
    · exact ⟨.refl u, fun he => he⟩
    · exact ⟨later_delete w sid orgId, fun he => he.delete sid orgId⟩
  | ring sid m q =>
    obtain ⟨ring, hring, rfl⟩ := hr
    have hopen : ring.appended = (w.rings sid).appended ∨ sid ∉ w.closed := by
      cases q with
      | appendSha => exact .inl (congrArg _ hring)
      | scriptLoad => exact .inl (congrArg _ hring)
      | evalsha a => exact .inr (h.fresh _ (hlaw rfl))
      | pipeline a marks => exact .inr (h.fresh _ (hlaw rfl))
    have hlater := later_append w i ring hopen
    exact ⟨hlater, fun he => he.later hlater (append_deleted w i sid ring)⟩

theorem later_moves (hm : w.Moves u) : Later w u ∧ (w.Emptied → u.Emptied) := by
  cases hm with
  | pass t hle => exact ⟨Later.refl w, fun he => he⟩
  | expireMeta sid =>
    exact ⟨later_dropMeta w sid, fun he => he.later (later_dropMeta w sid) rfl⟩
  | expireEvents sid =>
    exact ⟨later_dropEvents w sid, fun he => he.later (later_dropEvents w sid) rfl⟩
  | start sid m orgId hopen hid => exact ⟨Later.refl w, fun he => he⟩

end SessionWorld

theorem undisturbed_keeps {x y : SessionCrew} {I : SessionWorld → Prop}
    (h : Crew.Reaches (sessionRules undisturbed) x y)
    (hunderway : Crew.Underway (sessionRules undisturbed) x) (hx : x.shared.Consistent)
    (hI : I x.shared)
    (hlater : ∀ w u, SessionWorld.Later w u ∧ (w.Emptied → u.Emptied) → I w → I u) :
    y.shared.Consistent ∧ I y.shared := by
  apply h.keeps (p := fun _ => True) (I := fun w => w.Consistent ∧ I w)
    (fun c => Dialog.asks_true _) _ _ hunderway ⟨hx, hI⟩
  · rintro i w q r u - ⟨hw, hIw⟩ ⟨hlaw, hr⟩
    exact ⟨hw.answers hr, hlater w u (SessionWorld.later_answers hw hlaw hr) hIw⟩
  · rintro w u ⟨hw, hIw⟩ hm
    exact ⟨hw.moves hm, hlater w u (SessionWorld.later_moves hm) hIw⟩

theorem deletionFinal_of_undisturbed : DeletionFinal undisturbed := by
  have hunderway : Crew.Underway (sessionRules undisturbed) SessionCrew.initial :=
    fun i c t ht => nomatch ht
  constructor
  · intro x y hx hxy sid hs
    have hconsistent := (undisturbed_keeps (I := fun _ => True) hx hunderway
      SessionWorld.initial_consistent trivial (fun _ _ _ h => h)).1
    apply (undisturbed_keeps (I := fun w => sid ∈ w.closed ∧
      (w.rings sid).appended = (x.shared.rings sid).appended) hxy
      (hx.underway hunderway) hconsistent ⟨hs, rfl⟩ _).2.2
    rintro w u ⟨hlater, -⟩ ⟨hclosed, happended⟩
    obtain ⟨hclosed', happended', -⟩ := hlater sid hclosed
    exact ⟨hclosed', happended'.trans happended⟩
  · intro x hx sid hs
    have hemptied := (undisturbed_keeps (I := SessionWorld.Emptied) hx hunderway
      SessionWorld.initial_consistent nofun (fun _ _ h => h.2)).2
    exact (hemptied sid hs).2

section Races

structure SessionWorld.Raced (w : SessionWorld) : Prop where
  consistent : w.Consistent
  appends : ∀ p ∈ w.appends, p.1 = !p.2

def SessionWorld.Knows (w u : SessionWorld) : Prop := ∀ p ∈ w.found, p ∈ u.found

namespace SessionWorld

theorem append_found (w : SessionWorld) (i : Nat) (sid : String) (ring : CaptureRing) :
    (w.append i sid ring).found = w.found := by
  rw [append]
  split
  · rfl
  · rfl

theorem knows_find (w : SessionWorld) (i : Nat) (sid : String) : Knows w (w.find i sid) := by
  rw [find]
  cases w.metas sid with
  | none => exact fun p hp => hp
  | some m =>
    simp only []
    split
    · exact fun p hp => List.mem_cons_of_mem _ hp
    · exact fun p hp => hp

theorem find_appends (w : SessionWorld) (i : Nat) (sid : String) :
    (w.find i sid).appends = w.appends := by
  rw [find]
  cases w.metas sid with
  | none => rfl
  | some m =>
    simp only []
    split
    · rfl
    · rfl

theorem Raced.append (h : w.Raced) (ring : CaptureRing) (hfound : (i, sid) ∈ w.found) :
    (w.append i sid ring).Raced := by
  refine ⟨h.consistent.append i sid ring, ?_⟩
  rw [SessionWorld.append]
  split
  · exact h.appends
  · intro p hp
    obtain rfl | hp := List.mem_cons.1 hp
    · by_cases hfresh : (i, sid) ∈ w.fresh
      · have hopen : sid ∉ w.closed := h.consistent.fresh _ hfresh
        rw [decide_eq_true hfresh, decide_eq_false hopen]
        rfl
      · have hclosed : sid ∈ w.closed := (h.consistent.found _ hfound).resolve_left hfresh
        rw [decide_eq_false hfresh, decide_eq_true hclosed]
        rfl
    · exact h.appends p hp

theorem Raced.answers {q : SessionAsk} {r : SessionReply q} (h : w.Raced)
    (hr : w.Answers i q r u) (hq : ∀ sid, q.ringOf = some sid → (i, sid) ∈ w.found) :
    u.Raced ∧ Knows w u := by
  have hsame : u.appends = w.appends → u.found = w.found → u.Raced ∧ Knows w u :=
    fun happends hfound => ⟨⟨h.consistent.answers hr, happends ▸ h.appends⟩,
      fun p hp => hfound ▸ hp⟩
  cases q with
  | time => exact hsame (hr.2 ▸ rfl) (hr.2 ▸ rfl)
  | absentCached orgId => exact hsame (hr ▸ rfl) (hr ▸ rfl)
  | tapBlind => exact hsame (hr ▸ rfl) (hr ▸ rfl)
  | smembers orgId => exact hsame (hr.2 ▸ rfl) (hr.2 ▸ rfl)
  | hgetall sid =>
    obtain ⟨-, rfl⟩ | ⟨-, rfl⟩ := hr
    · exact ⟨h, fun p hp => hp⟩
    · exact ⟨⟨h.consistent.find i sid, find_appends w i sid ▸ h.appends⟩, knows_find w i sid⟩
  | srem orgId sid =>
    obtain ⟨-, rfl⟩ | rfl := hr
    · exact ⟨h, fun p hp => hp⟩
    · exact hsame rfl rfl
  | hsetStopped sid =>
    obtain ⟨-, rfl⟩ | rfl := hr
    · exact ⟨h, fun p hp => hp⟩
    · exact hsame rfl rfl
  | delete sid orgId =>
    obtain ⟨-, rfl⟩ | rfl := hr
    · exact ⟨h, fun p hp => hp⟩
    · exact hsame rfl rfl
  | ring sid m q =>
    obtain ⟨ring, -, rfl⟩ := hr
    have hfound : (i, sid) ∈ w.found := hq sid rfl
    exact ⟨h.append ring hfound, fun p hp => append_found w i sid ring ▸ hp⟩

theorem Raced.moves (h : w.Raced) (hm : w.Moves u) : u.Raced ∧ Knows w u := by
  have hconsistent := h.consistent.moves hm
  cases hm with
  | _ => exact ⟨⟨hconsistent, h.appends⟩, fun p hp => hp⟩

end SessionWorld

def FoundBy (i : Nat) (metas : List SessionMeta) (w : SessionWorld) : Prop :=
  ∀ m ∈ metas, ∃ sid, m.id = some sid ∧ (i, sid) ∈ w.found

theorem FoundBy.mono {metas : List SessionMeta} (h : FoundBy i metas w)
    (hknows : SessionWorld.Knows w u) : FoundBy i metas u := by
  intro m hm
  obtain ⟨sid, hid, hfound⟩ := h m hm
  exact ⟨sid, hid, hknows _ hfound⟩

/-- What a worker does among others, where nothing is forbidden. -/
abbrev SessionTask.Sat (i : Nat) (post : α → SessionWorld → Prop) (t : SessionTask α)
    (w : SessionWorld) : Prop :=
  Dialog.Sat ((sessionRules freely).answers i) SessionWorld.Knows SessionWorld.Raced post t w

namespace SessionTask

theorem Sat.idle {q : SessionAsk} {f : SessionReply q → SessionTask α}
    {post : α → SessionWorld → Prop} (hq : q.ringOf = none)
    (h : ∀ t r u, SessionWorld.Knows w t → t.Raced → t.Answers i q r u → SessionWorld.Knows t u →
      Sat i post (f r) u) : Sat i post (ask q >>= f) w := by
  apply Dialog.Sat.query
  intro t hwt ht r u hr
  obtain ⟨hu, htu⟩ := ht.answers hr.2 (fun sid he => nomatch hq.symm.trans he)
  exact ⟨hu, htu, h t r u hwt ht hr.2 htu⟩

theorem foundBy_find {t : SessionWorld} {m : SessionMeta} {now : Rat} (h : t.Consistent)
    (hm : t.metas sid = some m) (hactive : m.isActive now = true) :
    FoundBy i [{ m with id := some (m.id.getD sid) }] (t.find i sid) := by
  have hl : m.Listens := (of_decide_eq_true hactive).1
  have hid : m.id.getD sid = sid := by
    obtain hnone | hsome := h.named sid m hm
    · rw [hnone]
      rfl
    · rw [hsome]
      rfl
  intro m' hm'
  obtain rfl := List.mem_singleton.1 hm'
  refine ⟨sid, congrArg some hid, ?_⟩
  rw [SessionWorld.find, hm]
  simp only [hl, if_true]
  exact List.mem_cons_self

theorem readSessions_sat (orgId : Int) (now : Rat) {ids : List String} {out : List SessionMeta}
    (h : FoundBy i out w) :
    Sat i (fun metas u => FoundBy i metas u) (readSessions orgId now out ids) w := by
  induction ids generalizing out w with
  | nil => exact h
  | cons sid ids ih =>
    apply Sat.idle rfl
    intro t r u hwt ht hr htu
    have hu := (h.mono hwt).mono htu
    obtain ⟨rfl, -⟩ | ⟨rfl, rfl⟩ := hr
    · exact fun _ hm => nomatch hm
    · cases hm : t.metas sid with
      | none =>
        apply Sat.idle rfl
        intro t' r' u' htt' _ _ htu'
        cases r' with
        | none => exact fun _ hm => nomatch hm
        | some _ => exact ih ((hu.mono htt').mono htu')
      | some m =>
        simp only []
        split
        · next hactive =>
          apply ih
          intro m' hm'
          obtain hm' | hm' := List.mem_append.1 hm'
          · exact hu m' hm'
          · exact foundBy_find ht.consistent hm hactive m' hm'
        · exact ih hu

theorem activeSessions_sat (orgId : Int) :
    Sat i (fun metas u => FoundBy i metas u) (activeSessions orgId) w := by
  apply Sat.idle rfl
  intro t now u _ _ _ _
  apply Sat.idle rfl
  intro t absent u _ _ _ _
  cases absent with
  | true => exact fun _ hm => nomatch hm
  | false =>
    apply Sat.idle rfl
    intro t ids u _ _ _ _
    cases ids with
    | none => exact fun _ hm => nomatch hm
    | some ids => exact readSessions_sat orgId now (fun _ hm => nomatch hm)

theorem activeSessionsSync_sat (orgId : Int) :
    Sat i (fun metas u => FoundBy i metas u) (activeSessionsSync orgId) w := by
  apply Sat.idle rfl
  intro t blind u _ _ _ _
  cases blind with
  | true => exact fun _ hm => nomatch hm
  | false => exact activeSessions_sat orgId

theorem appendTo_asks (append : Append → CaptureTask Bool) (tap : Tap) (ok : String → Prop)
    {metas : List SessionMeta} (h : ∀ m ∈ metas, ok (m.id.getD "")) :
    (appendTo append tap metas).Asks (fun q => ∃ sid, q.ringOf = some sid ∧ ok sid) := by
  induction metas with
  | nil => exact trivial
  | cons m metas ih =>
    have hrest := ih fun m' hm' => h m' (List.mem_cons_of_mem _ hm')
    rw [appendTo]
    split
    · exact hrest
    · apply Dialog.Asks.bind
      · exact Dialog.asks_within (fun q => ⟨_, rfl, h m List.mem_cons_self⟩) _
      · intro returned
        split
        · exact hrest
        · exact trivial

theorem appendTo_sat (append : Append → CaptureTask Bool) (tap : Tap) {metas : List SessionMeta}
    (h : FoundBy i metas w) : Sat i (fun _ _ => True) (appendTo append tap metas) w := by
  have hasks := appendTo_asks append tap (fun sid => ∃ m ∈ metas, m.id.getD "" = sid)
    (fun m hm => ⟨m, hm, rfl⟩)
  apply hasks.sat (K := FoundBy i metas) _ (fun s u hs hsu => hs.mono hsu) h
  rintro t q r u ⟨_, hring, m, hm, rfl⟩ ht hfound ⟨-, hr⟩
  obtain ⟨sid, hid, hmem⟩ := hfound m hm
  apply ht.answers hr
  intro sid' he
  rw [hring, hid] at he
  obtain rfl := Option.some.inj he
  exact hmem

end SessionTask

theorem SessionTask.resolve_sat (append : Append → CaptureTask Bool) (tap : Tap)
    {sessions : Option (List SessionMeta)} {lookup : SessionTask (List SessionMeta)}
    (h : FoundBy i (sessions.getD []) w)
    (hlookup : Sat i (fun metas u => FoundBy i metas u) lookup w) :
    Sat i (fun _ _ => True)
      (resolve sessions lookup >>= fun metas => appendTo append tap metas) w := by
  apply Dialog.Sat.bind
  cases sessions with
  | some metas => exact appendTo_sat append tap h
  | none =>
    apply Dialog.Sat.weaken hlookup
    exact fun metas u hu => appendTo_sat append tap hu

theorem SessionCall.program_sat (c : SessionCall) (h : FoundBy i c.sessions w) :
    SessionTask.Sat i (fun _ _ => True) c.program w := by
  cases c with
  | record tap orgId sessions =>
    change SessionTask.Sat i _ (SessionTask.record tap orgId sessions) w
    rw [SessionTask.record]
    split
    · exact trivial
    · exact SessionTask.resolve_sat _ tap h (SessionTask.activeSessions_sat orgId)
  | recordSync tap orgId sessions =>
    change SessionTask.Sat i _ (SessionTask.recordSync tap orgId sessions) w
    rw [SessionTask.recordSync]
    split
    · exact trivial
    · apply SessionTask.Sat.idle rfl
      intro t blind u hwt _ _ htu
      cases blind with
      | true => exact trivial
      | false =>
        exact SessionTask.resolve_sat _ tap ((h.mono hwt).mono htu)
          (SessionTask.activeSessionsSync_sat orgId)
  | stop sid orgId =>
    apply SessionTask.Sat.idle rfl
    intro t r u _ _ _ _
    cases r with
    | none => exact trivial
    | some found =>
      cases found with
      | none => exact trivial
      | some m =>
        simp only []
        split
        · exact trivial
        · apply SessionTask.Sat.idle rfl
          exact fun _ _ _ _ _ _ _ => trivial
  | delete sid orgId =>
    apply SessionTask.Sat.idle rfl
    exact fun _ _ _ _ _ _ _ => trivial

theorem raced_reaches {x : SessionCrew}
    (h : Crew.Reaches (sessionRules freely) SessionCrew.initial x) : x.shared.Raced := by
  have hsound : Crew.Sound (sessionRules freely) SessionWorld.Knows SessionWorld.Raced
      (fun _ _ _ => True) x := by
    apply h.sound
    · exact fun s t u hst htu p hp => htu p (hst p hp)
    · exact fun _ _ _ _ _ _ => trivial
    · exact fun s p hp => hp
    · exact fun w i c _ hs => c.program_sat hs
    · exact fun w u hw hm => hw.moves hm
    · exact ⟨⟨SessionWorld.initial_consistent, nofun⟩, nofun⟩
  exact hsound.1

end Races

end Sessions

/-- Deletion is final in every run where no session is closed between its lookup and an append; and in
every run at all an append comes after the closing of its session just where the session was closed
since its worker found it active. -/
theorem capture_deletion_guarded (x : SessionCrew) : DeletionFinal undisturbed ∧
    (Crew.Reaches (sessionRules freely) SessionCrew.initial x →
      ∀ p ∈ x.shared.appends, p.1 = !p.2) :=
  ⟨deletionFinal_of_undisturbed, fun hx => (raced_reaches hx).appends⟩

section Schedule

/-- Redis carries out every command. -/
def CaptureRing.reply (m : CaptureSession) (w : CaptureRing) :
    (q : CaptureAsk) → CaptureAnswer q × CaptureRing
  | .appendSha => (true, w)
  | .scriptLoad => (.done, w)
  | .evalsha a => (.done, w.runScript m a)
  | .pipeline a marks => (true, w.runPipeline m a marks)

def SessionWorld.reply (i : Nat) (w : SessionWorld) :
    (q : SessionAsk) → SessionReply q × SessionWorld
  | .time => (w.now, w)
  | .absentCached _ => (false, w)
  | .tapBlind => (false, w)
  | .smembers orgId => (some (w.index orgId), w)
  | .hgetall sid => (some (w.metas sid), w.find i sid)
  | .srem orgId sid => (some (), w.unlist orgId sid)
  | .hsetStopped sid => (some (), w.stop sid)
  | .delete sid orgId => (some (), w.delete sid orgId)
  | .ring sid m q => (((w.rings sid).reply m q).1, w.append i sid ((w.rings sid).reply m q).2)

theorem reply_answers (i : Nat) (w : SessionWorld) (q : SessionAsk) :
    w.Answers i q (w.reply i q).1 (w.reply i q).2 := by
  cases q with
  | time => exact ⟨rfl, rfl⟩
  | absentCached orgId => exact rfl
  | tapBlind => exact rfl
  | smembers orgId => exact ⟨fun ids hids => Option.some.inj hids ▸ .refl _, rfl⟩
  | hgetall sid => exact .inr ⟨rfl, rfl⟩
  | srem orgId sid => exact .inr rfl
  | hsetStopped sid => exact .inr rfl
  | delete sid orgId => exact .inr rfl
  | ring sid m q =>
    refine ⟨_, ?_, rfl⟩
    cases q with
    | _ => exact rfl

/-- A session of the organization 1 for five minutes. -/
def openSession : SessionMeta where
  id := some "s1"
  orgId := some 1
  status := some "active"
  expiresAt := 300

def listening : SessionCrew := ⟨({} : SessionWorld).start "s1" openSession 1, fun _ => none⟩

def deliveredTap : Tap := ⟨[.obj []], "delivered", fun _ => [emptyEventEntry]⟩

def lateRecord : SessionCrew :=
  [Crew.Cue.call 0 (.record deliveredTap 1 none), .go 0, .go 0, .go 0, .go 0,
    .call 1 (.delete "s1" 1), .go 1, .go 0].foldl
    (Crew.cue (sessionRules freely) SessionWorld.reply (fun _ _ => true)) listening

/-- A deleted session holds an event again. -/
theorem capture_outlives_deletion : ¬ DeletionFinal freely := by
  intro h
  have hstart : Crew.Reaches (sessionRules freely) SessionCrew.initial listening :=
    .single (.move (.start "s1" openSession 1 (nofun) rfl))
  have hreach : Crew.Reaches (sessionRules freely) listening lateRecord := by
    apply Crew.reaches_foldl_cue
    · intro i c hc w m hm
      simp only [List.mem_cons, Crew.Cue.call.injEq, reduceCtorEq, false_or, or_false,
        List.not_mem_nil] at hc
      obtain ⟨-, rfl⟩ | ⟨-, rfl⟩ := hc
      · cases hm
      · cases hm
    · exact fun i w q _ => ⟨trivial, reply_answers i w q⟩
  have hdeleted : "s1" ∈ lateRecord.shared.deleted := by decide +kernel
  have hfull : (lateRecord.shared.rings "s1").events ≠ [] := by decide +kernel
  exact hfull (h.empty lateRecord (hstart.trans hreach) "s1" hdeleted)

end Schedule

end CentralOps
