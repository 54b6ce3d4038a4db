import CentralOps.Inflight.Flush

namespace CentralOps
set_option autoImplicit true

/-- A row of the detections, with the columns that `record` reads and writes. -/
structure DetectionRow where
  id : Nat
  organizationId : Int
  dedupKey : String
  severityId : Int
  ruleId : String
  ruleName : String
  integrationId : Option Int
  suppressionWindowSeconds : Int
  firstSeen : Rat
  lastSeen : Rat
  count : Nat
  closed : Bool

structure DetectionTable where
  rows : List DetectionRow
  counted : ∀ row ∈ rows, 1 ≤ row.count

namespace DetectionTable

/-- The row with the higher id. -/
def newer : Option DetectionRow → DetectionRow → Option DetectionRow
  | none, row => some row
  | some best, row => if best.id < row.id then some row else some best

def existing (t : DetectionTable) (call : RecordCall) : Option DetectionRow :=
  (t.rows.filter (fun row => decide (row.organizationId = call.organizationId) &&
    decide (row.dedupKey = call.dedupKey) && !row.closed)).foldl
      newer none

def suppressing (t : DetectionTable) (now : Rat) (call : RecordCall) : Option DetectionRow :=
  (t.existing call).filter (fun row => decide (now - row.suppressionWindowSeconds ≤ row.lastSeen))

def creates (t : DetectionTable) (now : Rat) (call : RecordCall) : Bool :=
  (t.suppressing now call).isNone

/-- The row as `record` commits it. -/
def committed (t : DetectionTable) (now : Rat) (call : RecordCall) : DetectionRow :=
  match t.suppressing now call with
  | some row => { row with count := row.count + 1, lastSeen := now }
  | none =>
    { id := (t.rows.map (fun row => row.id)).foldl max 0 + 1
      organizationId := call.organizationId
      dedupKey := call.dedupKey
      severityId := call.severityId
      ruleId := call.ruleId
      ruleName := call.ruleName
      integrationId := call.integrationId
      suppressionWindowSeconds := call.suppressionWindowSeconds
      firstSeen := now
      lastSeen := now
      count := 1
      closed := false }

theorem newer_mem {rows : List DetectionRow} (h : rows.foldl newer best = some row) :
    best = some row ∨ row ∈ rows := by
  induction rows generalizing best with
  | nil => exact .inl h
  | cons r rows ih =>
    obtain hbest | hrows := ih h
    · cases best with
      | none =>
        rw [newer, Option.some.injEq] at hbest
        exact .inr (hbest ▸ List.mem_cons_self)
      | some b =>
        rw [newer] at hbest
        by_cases hlt : b.id < r.id
        · rw [if_pos hlt, Option.some.injEq] at hbest
          exact .inr (hbest ▸ List.mem_cons_self)
        · rw [if_neg hlt] at hbest
          exact .inl hbest
    · exact .inr (List.mem_cons_of_mem r hrows)

theorem existing_mem (t : DetectionTable) (call : RecordCall) (h : t.existing call = some row) :
    row ∈ t.rows := by
  obtain hnone | hrow := newer_mem h
  · cases hnone
  · exact (List.mem_filter.1 hrow).1

theorem committed_count (t : DetectionTable) (now : Rat) (call : RecordCall) :
    (t.committed now call).count = 1 ↔ t.creates now call = true := by
  rw [committed, creates]
  cases h : t.suppressing now call with
  | none => simp
  | some row =>
    have hrow := t.counted row (t.existing_mem call (Option.filter_eq_some_iff.1 h).1)
    simp
    omega

theorem committed_pos (t : DetectionTable) (now : Rat) (call : RecordCall) :
    1 ≤ (t.committed now call).count := by
  rw [committed]
  cases t.suppressing now call with
  | none => exact le_rfl
  | some row => exact Nat.le_add_left 1 row.count

end DetectionTable

end CentralOps
