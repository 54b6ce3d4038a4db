import Mathlib.Tactic.Linarith
import CentralOps.Lib.Rely
import CentralOps.Lib.Stages
import CentralOps.Inflight.Detections

namespace CentralOps
set_option autoImplicit true

namespace DetectionTable

/-- The row that an `INSERT` makes. -/
def fresh (t : DetectionTable) (now : Rat) (call : RecordCall) : DetectionRow where
  id := (t.rows.map (fun row => row.id)).foldl max 0 + 1
  organizationId := call.organizationId
  dedupKey := call.dedupKey
  severityId := call.severityId
  ruleId := call.ruleId
  ruleName := call.ruleName
  integrationId := call.integrationId
  suppressionWindowSeconds := call.suppressionWindowSeconds
  firstSeen := now
  lastSeen := now
  count := 1
  closed := false

def insert (t : DetectionTable) (now : Rat) (call : RecordCall) : DetectionTable where
  rows := t.rows ++ [t.fresh now call]
  counted := by
    intro row hrow
    obtain hrow | hrow := List.mem_append.1 hrow
    · exact t.counted row hrow
    · obtain rfl := List.mem_singleton.1 hrow
      exact le_refl 1

/-- The `UPDATE` by the id of the row that was read. -/
def bumpRow (read : DetectionRow) (now : Rat) (row : DetectionRow) : DetectionRow :=
  if row.id = read.id then { row with count := read.count + 1, lastSeen := now } else row

def bump (t : DetectionTable) (read : DetectionRow) (now : Rat) : DetectionTable where
  rows := t.rows.map (bumpRow read now)
  counted := by
    intro row hrow
    obtain ⟨old, hold, rfl⟩ := List.mem_map.1 hrow
    rw [bumpRow]
    split
    · exact Nat.le_add_left 1 read.count
    · exact t.counted old hold

def total (t : DetectionTable) : Nat := (t.rows.map (fun row => row.count)).sum

def newest (t : DetectionTable) : Option DetectionRow := t.rows.foldl newer none

end DetectionTable

/-- What `record` asks, each answer a statement of its transaction. -/
inductive RecordAsk where
  | utcnow
  | lock (organizationId : Int) (dedupKey : String)
  | select (call : RecordCall)
  | update (read : DetectionRow) (now : Rat)
  | insert (call : RecordCall) (now : Rat)

abbrev RecordAnswer : RecordAsk → Type
  | .utcnow => Rat
  | .lock _ _ => Unit
  | .select _ => Option DetectionRow
  | .update _ _ => Unit
  | .insert _ _ => Unit

/-- The rest of `record` once the open row of the key is read. -/
def writeDetection (call : RecordCall) (now : Rat) (existing : Option DetectionRow) :
    Dialog RecordAsk RecordAnswer Unit :=
  match existing.filter (fun row => now - row.suppressionWindowSeconds ≤ row.lastSeen) with
  | some row => Dialog.query (RecordAsk.update row now)
  | none => Dialog.query (RecordAsk.insert call now)

/-- `record`; the commit goes with the write, and with it the lock. -/
def recordDetection (call : RecordCall) : Dialog RecordAsk RecordAnswer Unit := do
  let now : Rat ← Dialog.query RecordAsk.utcnow
  Dialog.query (RecordAsk.lock call.organizationId call.dedupKey)
  let existing : Option DetectionRow ← Dialog.query (RecordAsk.select call)
  writeDetection call now existing

/-- The rows of one key, the clock, who holds the lock of the key, and how many calls have
committed. -/
structure DetectionWorld (ι : Type) where
  table : DetectionTable := ⟨[], fun _ h => nomatch h⟩
  clock : Rat := 0
  holder : Option ι := none
  completed : Nat := 0

namespace DetectionWorld

variable {ι : Type}

def ready (w : DetectionWorld ι) : RecordAsk → Bool
  | .lock _ _ => w.holder.isNone
  | _ => true

/-- The answer to a statement of a worker, and what it leaves. -/
def reply (i : ι) (w : DetectionWorld ι) : (q : RecordAsk) → RecordAnswer q × DetectionWorld ι
  | .utcnow => (w.clock, w)
  | .lock _ _ => ((), { w with holder := some i })
  | .select call => (w.table.existing call, w)
  | .update read now =>
    ((), { w with
      table := w.table.bump read now
      holder := none
      completed := w.completed + 1 })
  | .insert call now =>
    ((), { w with
      table := w.table.insert now call
      holder := none
      completed := w.completed + 1 })

end DetectionWorld

variable {ι : Type}

abbrev RecordCrew (ι : Type) :=
  Crew (DetectionWorld ι) ι RecordCall RecordAsk RecordAnswer Unit

def idleRecorders : RecordCrew ι := ⟨{}, fun _ => none⟩

/-- A key, and the suppression window of the calls on it. -/
structure DedupKey where
  organizationId : Int
  dedupKey : String
  window : Int

def DedupKey.Calls (key : DedupKey) (call : RecordCall) : Prop :=
  call.organizationId = key.organizationId ∧ call.dedupKey = key.dedupKey ∧
    call.suppressionWindowSeconds = key.window

/-- Which statements of a worker are let happen. -/
abbrev RecordLaw (ι : Type) := ι → DetectionWorld ι → RecordAsk → Prop

/-- Workers that record on one key, in any order and at any times. -/
def recordRules (key : DedupKey) (allowed : RecordLaw ι) :
    CrewRules (DetectionWorld ι) ι RecordCall RecordAsk RecordAnswer Unit where
  program := recordDetection
  starts _ _ call := key.Calls call
  answers i w q r u := (allowed i w q ∧ w.ready q = true) ∧ (r, u) = w.reply i q
  moves w u := ∃ t, u = { w with clock := t }

def NotBehind (w : DetectionWorld ι) : RecordAsk → Prop
  | .update read now => ∀ row ∈ w.table.rows, row.id = read.id → row.lastSeen ≤ now
  | _ => True

def PastWindow (key : DedupKey) (before after : DetectionTable) : Prop :=
  ∀ row ∈ after.rows, (∀ old ∈ before.rows, old.id ≠ row.id) →
    ∀ newest, before.newest = some newest → newest.lastSeen + key.window < row.lastSeen

/-- Every row is still there, and seen no earlier. -/
def Forward (before after : DetectionTable) : Prop :=
  ∀ row ∈ before.rows, ∃ row' ∈ after.rows, row'.id = row.id ∧ row.lastSeen ≤ row'.lastSeen

/-- The counts add up to the calls that have committed, no row is seen earlier than it was, and rows
are created past the window only. -/
structure DedupExact (ι : Type) [DecidableEq ι] (key : DedupKey) (allowed : RecordLaw ι) : Prop where
  counted : ∀ x : RecordCrew ι, Crew.Reaches (recordRules key allowed) idleRecorders x →
    x.shared.table.total = x.shared.completed
  forward : ∀ x y : RecordCrew ι, Crew.Reaches (recordRules key allowed) idleRecorders x →
    Crew.Reaches (recordRules key allowed) x y → Forward x.shared.table y.shared.table
  spaced : ∀ x y : RecordCrew ι, Crew.Reaches (recordRules key allowed) idleRecorders x →
    Crew.Step (recordRules key allowed) x y → PastWindow key x.shared.table y.shared.table

namespace DetectionTable

variable {t : DetectionTable} {key : DedupKey} {row read : DetectionRow} {now : Rat}
  {call : RecordCall}

structure Keyed (key : DedupKey) (t : DetectionTable) : Prop where
  ids : (t.rows.map (fun row => row.id)).Nodup
  rows : ∀ row ∈ t.rows, row.organizationId = key.organizationId ∧ row.dedupKey = key.dedupKey ∧
    row.suppressionWindowSeconds = key.window ∧ row.closed = false

theorem Keyed.existing (h : t.Keyed key) (hcall : key.Calls call) : t.existing call = t.newest := by
  rw [DetectionTable.existing, newest, List.filter_eq_self.2]
  intro row hrow
  obtain ⟨horg, hkey, -, hopen⟩ := h.rows row hrow
  simp [horg, hkey, hopen, hcall.1, hcall.2.1]

theorem fresh_id_gt (now : Rat) (call : RecordCall) (hrow : row ∈ t.rows) :
    row.id < (t.fresh now call).id := by
  have hmem : row.id ∈ t.rows.map (fun row => row.id) := List.mem_map_of_mem hrow
  change row.id < (t.rows.map (fun row => row.id)).foldl max 0 + 1
  rw [List.foldl_max_eq_max (List.ne_nil_of_mem hmem)]
  have hle := List.le_max_of_mem hmem
  omega

theorem bumpRow_id (read row : DetectionRow) (now : Rat) : (bumpRow read now row).id = row.id := by
  rw [bumpRow]
  split <;> rfl

theorem bump_ids (t : DetectionTable) (read : DetectionRow) (now : Rat) :
    (t.bump read now).rows.map (fun row => row.id) = t.rows.map (fun row => row.id) := by
  rw [bump, List.map_map]
  exact List.map_congr_left fun row _ => bumpRow_id read row now

theorem Keyed.bump (h : t.Keyed key) (read : DetectionRow) (now : Rat) :
    (t.bump read now).Keyed key := by
  constructor
  · rw [bump_ids]
    exact h.ids
  · intro row hrow
    obtain ⟨old, hold, rfl⟩ := List.mem_map.1 hrow
    rw [bumpRow]
    split
    · exact h.rows old hold
    · exact h.rows old hold

theorem Keyed.insert (h : t.Keyed key) (now : Rat) (hcall : key.Calls call) :
    (t.insert now call).Keyed key := by
  constructor
  · rw [DetectionTable.insert, List.map_append, List.nodup_append]
    refine ⟨h.ids, List.nodup_singleton _, ?_⟩
    intro id hid id' hid'
    obtain ⟨row, hrow, rfl⟩ := List.mem_map.1 hid
    obtain rfl := List.mem_singleton.1 hid'
    exact (t.fresh_id_gt now call hrow).ne
  · intro row hrow
    obtain hrow | hrow := List.mem_append.1 hrow
    · exact h.rows row hrow
    · obtain rfl := List.mem_singleton.1 hrow
      exact ⟨hcall.1, hcall.2.1, hcall.2.2, rfl⟩

theorem total_insert (t : DetectionTable) (now : Rat) (call : RecordCall) :
    (t.insert now call).total = t.total + 1 := by
  rw [total, insert, List.map_append, List.sum_append]
  rfl

theorem sum_bumpRow {rows : List DetectionRow} (hids : (rows.map (fun row => row.id)).Nodup)
    (hread : read ∈ rows) (now : Rat) :
    ((rows.map (bumpRow read now)).map (fun row => row.count)).sum =
      (rows.map (fun row => row.count)).sum + 1 := by
  induction rows with
  | nil => cases hread
  | cons row rows ih =>
    rw [List.map_cons, List.nodup_cons] at hids
    obtain ⟨hnew, hids⟩ := hids
    simp only [List.map_cons, List.sum_cons]
    obtain rfl | hread := List.mem_cons.1 hread
    · have hrest : rows.map (bumpRow read now) = rows.map id := by
        apply List.map_congr_left
        intro row hrow
        apply if_neg
        intro hid
        exact hnew (List.mem_map.2 ⟨row, hrow, hid⟩)
      have hbumped : (bumpRow read now read).count = read.count + 1 := by rw [bumpRow, if_pos rfl]
      rw [hrest, hbumped, List.map_id]
      omega
    · have hother : bumpRow read now row = row := by
        apply if_neg
        intro hid
        exact hnew (List.mem_map.2 ⟨read, hread, hid.symm⟩)
      rw [hother, ih hids hread]
      omega

theorem Keyed.total_bump (h : t.Keyed key) (hread : read ∈ t.rows) (now : Rat) :
    (t.bump read now).total = t.total + 1 := sum_bumpRow h.ids hread now

theorem newest_mem (h : t.newest = some row) : row ∈ t.rows := by
  obtain hnone | hrow := newer_mem h
  · cases hnone
  · exact hrow

theorem pastWindow_bump (key : DedupKey) (t : DetectionTable) (read : DetectionRow) (now : Rat) :
    PastWindow key t (t.bump read now) := by
  intro row hrow hnew
  obtain ⟨old, hold, rfl⟩ := List.mem_map.1 hrow
  exact absurd (bumpRow_id read old now).symm (hnew old hold)

theorem Keyed.pastWindow_insert (h : t.Keyed key)
    (hpast : t.newest.filter (fun row => now - row.suppressionWindowSeconds ≤ row.lastSeen) = none) :
    PastWindow key t (t.insert now call) := by
  intro row hrow hnew newest hnewest
  obtain hrow | hrow := List.mem_append.1 hrow
  · exact absurd rfl (hnew row hrow)
  · obtain rfl := List.mem_singleton.1 hrow
    obtain ⟨-, -, hwindow, -⟩ := h.rows newest (newest_mem hnewest)
    have hlate := Option.filter_eq_none_iff.1 hpast newest hnewest
    rw [decide_eq_true_iff, hwindow] at hlate
    change newest.lastSeen + key.window < now
    linarith

end DetectionTable
section Rely
variable {key : DedupKey} {allowed : RecordLaw ι} {i : ι} {s u : DetectionWorld ι}

/-- While a worker holds the lock of the key, its rows stay as they are. -/
def Relies (i : ι) (s u : DetectionWorld ι) : Prop :=
  s.holder = some i → u.holder = some i ∧ u.table = s.table

def Gives (key : DedupKey) (i : ι) (s u : DetectionWorld ι) : Prop :=
  (∀ j, j ≠ i → Relies j s u) ∧ PastWindow key s.table u.table

/-- The rows are the key's, and count the calls that have committed. -/
structure DetectionWorld.Counts (key : DedupKey) (w : DetectionWorld ι) : Prop where
  keyed : w.table.Keyed key
  total : w.table.total = w.completed

theorem pastWindow_refl (key : DedupKey) (t : DetectionTable) : PastWindow key t t :=
  fun row hrow hnew => absurd rfl (hnew row hrow)

theorem Relies.of_holder (h : s.holder = some i) (hj : j ≠ i) : Relies j s u := by
  intro hholder
  rw [h] at hholder
  exact absurd (Option.some.inj hholder).symm hj

/-- A worker that holds the lock writes what the newest row calls for. -/
theorem writeDetection_meets {call : RecordCall} (hcall : key.Calls call) (now : Rat)
    (hs : s.holder = some i) :
    Dialog.Meets ((recordRules key allowed).answers i) (Relies i) (Gives key i)
      (DetectionWorld.Counts key) (fun _ _ => True)
      (writeDetection call now (s.table.existing call)) s := by
  rw [writeDetection]
  split
  · next row hrow =>
    rintro t ht hcounts r u ⟨-, hr⟩
    obtain ⟨hholder, htable⟩ := ht hs
    cases hr
    have hread : row ∈ t.table.rows := by
      rw [htable]
      exact DetectionTable.existing_mem s.table call (Option.filter_eq_some_iff.1 hrow).1
    refine ⟨⟨hcounts.keyed.bump row now, ?_⟩, ⟨?_, ?_⟩, trivial⟩
    · exact (hcounts.keyed.total_bump hread now).trans (congrArg (· + 1) hcounts.total)
    · exact fun j hj => .of_holder hholder hj
    · exact DetectionTable.pastWindow_bump key t.table row now
  · next hrow =>
    rintro t ht hcounts r u ⟨-, hr⟩
    obtain ⟨hholder, htable⟩ := ht hs
    cases hr
    rw [← htable, hcounts.keyed.existing hcall] at hrow
    refine ⟨⟨hcounts.keyed.insert now hcall, ?_⟩, ⟨?_, ?_⟩, trivial⟩
    · exact (t.table.total_insert now call).trans (congrArg (· + 1) hcounts.total)
    · exact fun j hj => .of_holder hholder hj
    · exact hcounts.keyed.pastWindow_insert hrow

theorem recordDetection_meets {call : RecordCall} (hcall : key.Calls call)
    (s : DetectionWorld ι) :
    Dialog.Meets ((recordRules key allowed).answers i) (Relies i) (Gives key i)
      (DetectionWorld.Counts key) (fun _ _ => True) (recordDetection call) s := by
  apply Dialog.Meets.query
  rintro t ht hcounts now u ⟨-, hr⟩
  cases hr
  refine ⟨hcounts, ⟨fun j hj h => ⟨h, rfl⟩, pastWindow_refl key _⟩, ?_⟩
  apply Dialog.Meets.query
  rintro t ht hcounts r u ⟨⟨-, hready⟩, hr⟩
  cases hr
  have hfree : t.holder = none := Option.isNone_iff_eq_none.1 hready
  refine ⟨⟨hcounts.keyed, hcounts.total⟩, ⟨fun j hj h => ?_, pastWindow_refl key _⟩, ?_⟩
  · rw [hfree] at h
    cases h
  apply Dialog.Meets.query
  rintro t ht hcounts existing u ⟨-, hr⟩
  obtain ⟨hholder, -⟩ := ht rfl
  cases hr
  refine ⟨hcounts, ⟨fun j hj h => ⟨h, rfl⟩, pastWindow_refl key _⟩, ?_⟩
  exact writeDetection_meets hcall _ hholder

theorem relies_trans (i : ι) (s t u : DetectionWorld ι) (hst : Relies i s t)
    (htu : Relies i t u) : Relies i s u := by
  intro hs
  obtain ⟨ht, htable⟩ := hst hs
  obtain ⟨hu, htable'⟩ := htu ht
  exact ⟨hu, htable'.trans htable⟩

variable [DecidableEq ι] {x y : RecordCrew ι}

theorem recorders_assured (h : Crew.Reaches (recordRules key allowed) idleRecorders x) :
    Crew.Assured (recordRules key allowed) Relies (Gives key) (DetectionWorld.Counts key)
      (fun _ _ => True) x := by
  apply h.assured relies_trans (fun _ _ h => ⟨h, rfl⟩) (fun _ _ _ _ _ => trivial)
  · exact fun i j s t hj hgives => hgives.1 j hj
  · exact fun s i call _ _ hcall => recordDetection_meets hcall s
  · rintro s u hcounts ⟨t, rfl⟩
    exact ⟨⟨hcounts.keyed, hcounts.total⟩, fun i h => ⟨h, rfl⟩⟩
  · exact ⟨⟨⟨.nil, fun row hrow => nomatch hrow⟩, rfl⟩, fun i => trivial⟩

theorem pastWindow_step (hx : Crew.Reaches (recordRules key allowed) idleRecorders x)
    (h : Crew.Step (recordRules key allowed) x y) :
    PastWindow key x.shared.table y.shared.table := by
  obtain hsame | ⟨i, -, hpast⟩ | ⟨t, hmove⟩ :=
    (recorders_assured hx).step (fun _ _ h => ⟨h, rfl⟩) h
  · rw [hsame]
    exact pastWindow_refl key _
  · exact hpast
  · rw [hmove]
    exact pastWindow_refl key _

end Rely
section Order
variable {t t' t'' : DetectionTable}

theorem forward_refl (t : DetectionTable) : Forward t t := fun row hrow => ⟨row, hrow, rfl, le_refl _⟩

theorem Forward.trans (h : Forward t t') (h' : Forward t' t'') : Forward t t'' := by
  intro row hrow
  obtain ⟨row', hrow', hid, hle⟩ := h row hrow
  obtain ⟨row'', hrow'', hid', hle'⟩ := h' row' hrow'
  exact ⟨row'', hrow'', hid'.trans hid, hle.trans hle'⟩

theorem forward_insert (t : DetectionTable) (now : Rat) (call : RecordCall) :
    Forward t (t.insert now call) :=
  fun row hrow => ⟨row, List.mem_append_left _ hrow, rfl, le_refl _⟩

theorem forward_bump_iff {read : DetectionRow} {now : Rat} :
    Forward t (t.bump read now) ↔ ∀ row ∈ t.rows, row.id = read.id → row.lastSeen ≤ now := by
  constructor
  · intro h row hrow hid
    obtain ⟨row', hrow', hid', hle⟩ := h row hrow
    obtain ⟨old, hold, rfl⟩ := List.mem_map.1 hrow'
    rw [DetectionTable.bumpRow_id] at hid'
    rwa [DetectionTable.bumpRow, if_pos (hid'.trans hid)] at hle
  · intro h row hrow
    refine ⟨_, List.mem_map_of_mem hrow, DetectionTable.bumpRow_id read row now, ?_⟩
    rw [DetectionTable.bumpRow]
    split
    · next hid => exact h row hrow hid
    · exact le_refl _

variable {w u : DetectionWorld ι} {i : ι}

theorem forward_reply {q : RecordAsk} {r : RecordAnswer q} (h : (r, u) = w.reply i q)
    (horder : NotBehind w q) : Forward w.table u.table := by
  cases q with
  | update read now =>
    cases h
    exact forward_bump_iff.2 horder
  | insert call now =>
    cases h
    exact forward_insert _ _ _
  | _ =>
    cases h
    exact forward_refl _

variable [DecidableEq ι] {key : DedupKey} {allowed : RecordLaw ι} {x y : RecordCrew ι}

/-- In every run of the law a bump is not behind the row that it bumps. -/
def OrderedRuns (ι : Type) [DecidableEq ι] (key : DedupKey) (allowed : RecordLaw ι) : Prop :=
  ∀ (x : RecordCrew ι) (i : ι) (call : RecordCall) (q : RecordAsk)
    (next : RecordAnswer q → Dialog RecordAsk RecordAnswer Unit),
    Crew.Reaches (recordRules key allowed) idleRecorders x →
    x.running i = some (call, .ask q next) → allowed i x.shared q → NotBehind x.shared q

theorem forward_step (hruns : OrderedRuns ι key allowed)
    (hx : Crew.Reaches (recordRules key allowed) idleRecorders x)
    (h : Crew.Step (recordRules key allowed) x y) : Forward x.shared.table y.shared.table := by
  cases h with
  | start hidle hs => exact forward_refl _
  | answer hrun hr => exact forward_reply hr.2 (hruns _ _ _ _ _ hx hrun hr.1.1)
  | finish hrun => exact forward_refl _
  | move hm =>
    obtain ⟨t, rfl⟩ := hm
    exact forward_refl _

theorem forward_reaches (hruns : OrderedRuns ι key allowed)
    (hx : Crew.Reaches (recordRules key allowed) idleRecorders x)
    (h : Crew.Reaches (recordRules key allowed) x y) : Forward x.shared.table y.shared.table := by
  induction h with
  | refl => exact forward_refl _
  | tail hrun hlast ih => exact ih.trans (forward_step hruns (hx.trans hrun) hlast)

end Order
/-- The record of a key is exact in just those runs where no bump is behind the row that it
bumps. -/
theorem record_exact_iff (ι : Type) [DecidableEq ι] (key : DedupKey) (allowed : RecordLaw ι) :
    DedupExact ι key allowed ↔ OrderedRuns ι key allowed := by
  constructor
  · intro hexact x i call q next hx hrun hallowed
    cases q with
    | update read now =>
      have hstep : Crew.Step (recordRules key allowed) x _ := .answer hrun ⟨⟨hallowed, rfl⟩, rfl⟩
      exact forward_bump_iff.1 (hexact.forward x _ hx (.single hstep))
    | _ => exact trivial
  · intro hruns
    exact
      { counted := fun x hx => (recorders_assured hx).1.total
        forward := fun x y hx hy => forward_reaches hruns hx hy
        spaced := fun x y hx hy => pastWindow_step hx hy }

def hostKey : DedupKey := ⟨1, "inflight:1:7:host-a", 300⟩

def hostMatch : RecordCall where
  organizationId := 1
  dedupKey := "inflight:1:7:host-a"
  severityId := 4
  ruleId := "7"
  ruleName := "logon"
  integrationId := none
  suppressionWindowSeconds := 300
  evidence := []

def anyStatement : RecordLaw Nat := fun _ _ _ => True

def lockedOut : RecordCrew Nat :=
  let first := [.call 0 hostMatch, .go 0].foldl
    (Crew.cue (recordRules hostKey anyStatement) DetectionWorld.reply DetectionWorld.ready)
    idleRecorders
  [.call 1 hostMatch, .go 1, .go 1, .go 1, .go 1].foldl
    (Crew.cue (recordRules hostKey anyStatement) DetectionWorld.reply DetectionWorld.ready)
    { first with shared := { first.shared with clock := 1 } }

def letIn : RecordCrew Nat :=
  [.go 0, .go 0, .go 0].foldl
    (Crew.cue (recordRules hostKey anyStatement) DetectionWorld.reply DetectionWorld.ready)
    lockedOut

theorem host_schedule (x : RecordCrew Nat) {ms : List (Crew.Cue Nat RecordCall)}
    (hcalls : ∀ i c, .call i c ∈ ms → c = hostMatch) :
    Crew.Reaches (recordRules hostKey anyStatement) x
      (ms.foldl (Crew.cue (recordRules hostKey anyStatement) DetectionWorld.reply
        DetectionWorld.ready) x) := by
  have hstarts : ∀ i c, .call i c ∈ ms → ∀ s : DetectionWorld Nat,
      (recordRules hostKey anyStatement).starts s i c := by
    intro i c hc s
    rw [hcalls i c hc]
    exact ⟨rfl, rfl, rfl⟩
  have hreply : ∀ i (s : DetectionWorld Nat) q, s.ready q = true →
      (recordRules hostKey anyStatement).answers i s q (s.reply i q).1 (s.reply i q).2 :=
    fun i s q hq => ⟨⟨trivial, hq⟩, rfl⟩
  exact Crew.reaches_foldl_cue hstarts hreply x

theorem last_seen_goes_back :
    ∃ x y : RecordCrew Nat, Crew.Reaches (recordRules hostKey anyStatement) idleRecorders x ∧
      Crew.Reaches (recordRules hostKey anyStatement) x y ∧
      ¬ Forward x.shared.table y.shared.table := by
  have hlater : lockedOut.shared.table.rows.map (fun row => row.lastSeen) = [1] := by
    decide +kernel
  have hback : letIn.shared.table.rows.map (fun row => row.lastSeen) = [0] := by decide +kernel
  refine ⟨lockedOut, letIn, ?_, host_schedule _ (by simp), fun h => ?_⟩
  · have hfirst : Crew.Reaches (recordRules hostKey anyStatement) idleRecorders
        ([.call 0 hostMatch, .go 0].foldl (Crew.cue (recordRules hostKey anyStatement)
          DetectionWorld.reply DetectionWorld.ready) idleRecorders) := host_schedule _ (by simp)
    exact (hfirst.tail (.move ⟨1, rfl⟩)).trans (host_schedule _ (by simp))
  · obtain ⟨row, hrow, hseen⟩ := List.mem_map.1 (hlater ▸ List.mem_singleton_self (1 : Rat))
    obtain ⟨row', hrow', -, hle⟩ := h row hrow
    have hzero : row'.lastSeen ∈ [(0 : Rat)] := hback ▸ List.mem_map_of_mem hrow'
    rw [List.mem_singleton.1 hzero, hseen] at hle
    exact absurd hle (by decide +kernel)

end CentralOps
