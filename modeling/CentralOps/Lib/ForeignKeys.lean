import Mathlib.Data.List.Basic

set_option autoImplicit true

inductive OnDelete where
  | noAction | restrict | cascade | setNull
  deriving DecidableEq

structure ForeignKey (T C : Type) where
  child : T
  column : C
  parent : T
  onDelete : OnDelete
  deriving DecidableEq

structure TableRow (T C K D : Type) where
  table : T
  id : K
  refs : C → Option K
  data : D

variable {T C K D : Type}

def TableRow.key (r : TableRow T C K D) : T × K := (r.table, r.id)

namespace ForeignKey

section Delete
variable [DecidableEq T] [DecidableEq C] [DecidableEq K]

/-- The row that a row names by the foreign key. -/
def target (fk : ForeignKey T C) (r : TableRow T C K D) : Option (T × K) :=
  if r.table = fk.child then (r.refs fk.column).map (fun k => (fk.parent, k)) else none

/-- The row names one of these rows. -/
def Meets (fk : ForeignKey T C) (gone : List (T × K)) (r : TableRow T C K D) : Prop :=
  ∃ key, fk.target r = some key ∧ key ∈ gone

instance (fk : ForeignKey T C) (gone : List (T × K)) (r : TableRow T C K D) :
    Decidable (fk.Meets gone r) :=
  match h : fk.target r with
  | none => isFalse (by rintro ⟨key, hkey, -⟩; rw [h] at hkey; cases hkey)
  | some key =>
    if hmem : key ∈ gone then isTrue ⟨key, h, hmem⟩
    else isFalse (by rintro ⟨key', hkey, hmem'⟩; rw [h] at hkey; cases hkey; exact hmem hmem')

variable (fks : List (ForeignKey T C)) (rows : List (TableRow T C K D))

def Pulled (gone : List (T × K)) (r : TableRow T C K D) : Prop :=
  ∃ fk ∈ fks, fk.onDelete = .cascade ∧ fk.Meets gone r

instance (gone : List (T × K)) (r : TableRow T C K D) : Decidable (Pulled fks gone r) :=
  inferInstanceAs (Decidable (∃ fk ∈ fks, _))

def pull (gone : List (T × K)) : List (T × K) :=
  (rows.filter (fun r => decide (r.key ∉ gone ∧ Pulled fks gone r))).map TableRow.key

/-- What a deletion takes along after a number of rounds. -/
def closure : Nat → List (T × K) → List (T × K)
  | 0, gone => gone
  | n + 1, gone => closure n (gone ++ pull fks rows gone)

/-- The row without the references that are set to `NULL`. -/
def cleared (gone : List (T × K)) (r : TableRow T C K D) : TableRow T C K D :=
  { r with
    refs := fun c =>
      if ∃ fk ∈ fks, fk.column = c ∧ fk.onDelete = .setNull ∧ fk.Meets gone r then none
      else r.refs c }

/-- The rows that `DELETE FROM t WHERE p` takes along. -/
def doomed (t : T) (p : TableRow T C K D → Bool) : List (T × K) :=
  closure fks rows rows.length
    ((rows.filter (fun r => decide (r.table = t) && p r)).map TableRow.key)

def survivors (t : T) (p : TableRow T C K D → Bool) : List (TableRow T C K D) :=
  rows.filter (fun r => decide (r.key ∉ doomed fks rows t p))

/-- A row that stays names one that goes, and the foreign key neither cascades nor sets `NULL`. -/
def Blocks (t : T) (p : TableRow T C K D → Bool) (fk : ForeignKey T C) : Prop :=
  (fk.onDelete = .noAction ∨ fk.onDelete = .restrict) ∧
    ∃ r ∈ survivors fks rows t p, fk.Meets (doomed fks rows t p) r

instance (t : T) (p : TableRow T C K D → Bool) (fk : ForeignKey T C) :
    Decidable (Blocks fks rows t p fk) :=
  inferInstanceAs (Decidable (_ ∧ ∃ r ∈ survivors fks rows t p, _))

/-- `DELETE FROM t WHERE p`, or the foreign key that it would violate. -/
def delete (t : T) (p : TableRow T C K D → Bool) :
    Except (ForeignKey T C) (List (TableRow T C K D)) :=
  match fks.find? (fun fk => decide (Blocks fks rows t p fk)) with
  | some fk => .error fk
  | none => .ok ((survivors fks rows t p).map (cleared fks (doomed fks rows t p)))

end Delete

section Laws
variable [DecidableEq T] [DecidableEq K] {fks : List (ForeignKey T C)}
  {rows out : List (TableRow T C K D)} {gone : List (T × K)} {fk : ForeignKey T C}
  {r : TableRow T C K D} {t : T} {p : TableRow T C K D → Bool}

def Closed (fks : List (ForeignKey T C)) (rows : List (TableRow T C K D))
    (gone : List (T × K)) : Prop := ∀ r ∈ rows, Pulled fks gone r → r.key ∈ gone

theorem mem_pull {key : T × K} : key ∈ pull fks rows gone ↔
    ∃ r ∈ rows, r.key = key ∧ key ∉ gone ∧ Pulled fks gone r := by
  rw [pull, List.mem_map]
  constructor
  · rintro ⟨r, hr, rfl⟩
    obtain ⟨hmem, hcond⟩ := List.mem_filter.1 hr
    exact ⟨r, hmem, rfl, of_decide_eq_true hcond⟩
  · rintro ⟨r, hmem, rfl, hcond⟩
    exact ⟨r, List.mem_filter.2 ⟨hmem, decide_eq_true hcond⟩, rfl⟩

theorem closed_of_pull_eq_nil (h : pull fks rows gone = []) : Closed fks rows gone := by
  intro r hr hpulled
  by_contra hnot
  have hmem : r.key ∈ pull fks rows gone := mem_pull.2 ⟨r, hr, rfl, hnot, hpulled⟩
  rw [h] at hmem
  cases hmem

theorem closure_of_pull_eq_nil (h : pull fks rows gone = []) (n : Nat) :
    closure fks rows n gone = gone := by
  induction n with
  | zero => rfl
  | succ n ih => rw [closure, h, List.append_nil, ih]

theorem subset_closure (n : Nat) (gone : List (T × K)) : gone ⊆ closure fks rows n gone := by
  induction n generalizing gone with
  | zero => exact List.Subset.refl gone
  | succ n ih => exact List.Subset.trans (List.subset_append_left gone _) (ih _)

theorem left_lt (h : pull fks rows gone ≠ []) :
    (rows.filter (fun r => decide (r.key ∉ gone ++ pull fks rows gone))).length <
      (rows.filter (fun r => decide (r.key ∉ gone))).length := by
  obtain ⟨key, hkey⟩ := List.exists_mem_of_ne_nil _ h
  obtain ⟨r, hr, rfl, hnot, -⟩ := mem_pull.1 hkey
  have hsplit : rows.filter (fun r => decide (r.key ∉ gone ++ pull fks rows gone)) =
      (rows.filter (fun r => decide (r.key ∉ gone))).filter
        (fun r => decide (r.key ∉ pull fks rows gone)) := by
    rw [List.filter_filter]
    apply List.filter_congr
    intro r _
    simp only [List.mem_append, not_or, Bool.decide_and, Bool.and_comm]
  rw [hsplit, List.length_filter_lt_length_iff_exists]
  refine ⟨r, List.mem_filter.2 ⟨hr, decide_eq_true hnot⟩, ?_⟩
  simp only [hkey, not_true_eq_false, decide_false, Bool.false_eq_true, not_false_eq_true]

theorem closure_closed {n : Nat}
    (h : (rows.filter (fun r => decide (r.key ∉ gone))).length ≤ n) :
    Closed fks rows (closure fks rows n gone) := by
  induction n generalizing gone with
  | zero =>
    intro r hr _
    by_contra hnot
    have hmem : r ∈ rows.filter (fun r => decide (r.key ∉ gone)) :=
      List.mem_filter.2 ⟨hr, decide_eq_true hnot⟩
    rw [List.length_eq_zero_iff.1 (Nat.le_zero.1 h)] at hmem
    cases hmem
  | succ n ih =>
    by_cases hnil : pull fks rows gone = []
    · rw [closure_of_pull_eq_nil hnil]
      exact closed_of_pull_eq_nil hnil
    · exact ih (Nat.le_of_lt_succ (Nat.lt_of_lt_of_le (left_lt hnil) h))

theorem mem_closure {n : Nat} {key : T × K} (h : key ∈ closure fks rows n gone) :
    key ∈ gone ∨ ∃ fk ∈ fks, fk.onDelete = .cascade ∧ fk.child = key.1 := by
  induction n generalizing gone with
  | zero => exact .inl h
  | succ n ih =>
    obtain hmem | hcascade := ih h
    · obtain hmem | hpull := List.mem_append.1 hmem
      · exact .inl hmem
      · obtain ⟨r, -, rfl, -, fk, hfk, haction, key', htarget, -⟩ := mem_pull.1 hpull
        rw [target] at htarget
        split at htarget
        · next hchild => exact .inr ⟨fk, hfk, haction, hchild.symm⟩
        · cases htarget
    · exact .inr hcascade

theorem doomed_closed (t : T) (p : TableRow T C K D → Bool) :
    Closed fks rows (doomed fks rows t p) := closure_closed (List.length_filter_le _ _)

theorem mem_doomed (hr : r ∈ rows) (htable : r.table = t) (hp : p r = true) :
    r.key ∈ doomed fks rows t p := by
  apply subset_closure
  apply List.mem_map_of_mem
  rw [List.mem_filter, decide_eq_true htable, hp]
  exact ⟨hr, rfl⟩

theorem notMem_doomed (hne : r.table ≠ t)
    (hcascade : ∀ fk ∈ fks, fk.onDelete = .cascade → fk.child ≠ r.table) :
    r.key ∉ doomed fks rows t p := by
  intro hmem
  obtain hmem | ⟨fk, hfk, haction, hchild⟩ := mem_closure hmem
  · obtain ⟨r', hr', hkey⟩ := List.mem_map.1 hmem
    have htable := (Bool.and_eq_true_iff.1 (List.mem_filter.1 hr').2).1
    exact hne ((congrArg Prod.fst hkey).symm.trans (of_decide_eq_true htable))
  · exact hcascade fk hfk haction hchild

theorem mem_survivors : r ∈ survivors fks rows t p ↔ r ∈ rows ∧ r.key ∉ doomed fks rows t p := by
  rw [survivors, List.mem_filter, decide_eq_true_eq]

structure Intact (fks : List (ForeignKey T C)) (rows : List (TableRow T C K D)) : Prop where
  unique : (rows.map TableRow.key).Nodup
  named : ∀ r ∈ rows, ∀ fk ∈ fks, ∀ key, fk.target r = some key → ∃ parent ∈ rows, parent.key = key

theorem intact_of_all (hunique : (rows.map TableRow.key).Nodup)
    (hnamed : ∀ r ∈ rows, ∀ fk ∈ fks, (fk.target r).all (fun key =>
      decide (key ∈ rows.map TableRow.key)) = true) : Intact fks rows := by
  refine ⟨hunique, fun r hr fk hfk key htarget => ?_⟩
  have hkey := hnamed r hr fk hfk
  rw [htarget] at hkey
  exact List.mem_map.1 (of_decide_eq_true hkey)

variable [DecidableEq C]

theorem delete_ok (h : delete fks rows t p = .ok out) :
    (∀ fk ∈ fks, ¬ Blocks fks rows t p fk) ∧
      out = (survivors fks rows t p).map (cleared fks (doomed fks rows t p)) := by
  rw [delete] at h
  cases hfind : fks.find? (fun fk => decide (Blocks fks rows t p fk)) with
  | some fk =>
    rw [hfind] at h
    cases h
  | none =>
    rw [hfind] at h
    cases h
    refine ⟨fun fk hfk hblocks => ?_, rfl⟩
    exact (List.find?_eq_none.1 hfind fk hfk) (decide_eq_true hblocks)

theorem delete_blocked (hfk : fk ∈ fks)
    (haction : fk.onDelete = .noAction ∨ fk.onDelete = .restrict)
    (hr : r ∈ rows) (hstays : r.key ∉ doomed fks rows t p)
    (hmeets : fk.Meets (doomed fks rows t p) r) : ∃ fk, delete fks rows t p = .error fk := by
  cases h : delete fks rows t p with
  | error fk => exact ⟨fk, rfl⟩
  | ok out =>
    exact absurd ⟨haction, r, mem_survivors.2 ⟨hr, hstays⟩, hmeets⟩ ((delete_ok h).1 fk hfk)

theorem target_cleared {key : T × K} (h : fk.target (cleared fks gone r) = some key) :
    fk.target r = some key := by
  have htarget : fk.target (cleared fks gone r) = if r.table = fk.child then
      ((cleared fks gone r).refs fk.column).map (fun k => (fk.parent, k)) else none := rfl
  rw [htarget] at h
  rw [target]
  split at h
  · next hchild =>
    rw [if_pos hchild]
    rw [cleared] at h
    simp only [] at h
    split at h
    · cases h
    · exact h
  · cases h

def Unbound (fks : List (ForeignKey T C)) (rows : List (TableRow T C K D)) : Prop :=
  ∀ r ∈ rows, ∀ fk ∈ fks, fk.onDelete = .noAction ∨ fk.onDelete = .restrict → fk.target r = none

theorem Unbound.delete (h : Unbound fks rows) (t : T) (p : TableRow T C K D → Bool) :
    ∃ out, delete fks rows t p = .ok out ∧ Unbound fks out := by
  have hfree : fks.find? (fun fk => decide (Blocks fks rows t p fk)) = none := by
    rw [List.find?_eq_none]
    intro fk hfk hblocks
    obtain ⟨haction, r, hr, key, htarget, -⟩ := of_decide_eq_true hblocks
    rw [h r (mem_survivors.1 hr).1 fk hfk haction] at htarget
    cases htarget
  refine ⟨_, by rw [ForeignKey.delete, hfree], ?_⟩
  intro r hr fk hfk haction
  obtain ⟨old, hold, rfl⟩ := List.mem_map.1 hr
  have hnone := h old (mem_survivors.1 hold).1 fk hfk haction
  cases htarget : fk.target (cleared fks (doomed fks rows t p) old) with
  | none => rfl
  | some key =>
    rw [target_cleared htarget] at hnone
    cases hnone

/-- A reference that is set to `NULL` names no row that went. -/
theorem not_meets_cleared (hfk : fk ∈ fks) (haction : fk.onDelete = .setNull) :
    ¬ fk.Meets gone (cleared fks gone r) := by
  rintro ⟨key, htarget, hmem⟩
  have hold := target_cleared htarget
  have hnull : (cleared fks gone r).refs fk.column = none :=
    if_pos ⟨fk, hfk, rfl, haction, key, hold, hmem⟩
  rw [target, hnull] at htarget
  split at htarget
  · cases htarget
  · cases htarget

/-- A row of another table without cascades stays, with all that is not set to `NULL`. -/
theorem delete_keeps (h : delete fks rows t p = .ok out) (hr : r ∈ rows) (hne : r.table ≠ t)
    (hcascade : ∀ fk ∈ fks, fk.onDelete = .cascade → fk.child ≠ r.table) :
    ∃ r' ∈ out, r'.key = r.key ∧ r'.data = r.data ∧
      ∀ c, (∀ fk ∈ fks, fk.onDelete = .setNull → fk.child = r.table → fk.column ≠ c) →
        r'.refs c = r.refs c := by
  obtain ⟨-, rfl⟩ := delete_ok h
  refine ⟨cleared fks (doomed fks rows t p) r,
    List.mem_map_of_mem (mem_survivors.2 ⟨hr, notMem_doomed hne hcascade⟩), rfl, rfl,
    fun c hc => if_neg ?_⟩
  rintro ⟨fk, hfk, hcolumn, haction, key, htarget, -⟩
  rw [target] at htarget
  split at htarget
  · next hchild => exact hc fk hfk haction hchild.symm hcolumn
  · cases htarget

theorem delete_origin (h : delete fks rows t p = .ok out) (hr : r ∈ out) :
    ∃ old ∈ rows, r = cleared fks (doomed fks rows t p) old ∧ old.key ∉ doomed fks rows t p := by
  obtain ⟨-, rfl⟩ := delete_ok h
  obtain ⟨old, hold, rfl⟩ := List.mem_map.1 hr
  obtain ⟨hrows, hstays⟩ := mem_survivors.1 hold
  exact ⟨old, hrows, rfl, hstays⟩

theorem Intact.delete (hintact : Intact fks rows) (h : delete fks rows t p = .ok out) :
    Intact fks out := by
  obtain ⟨hblocks, hout⟩ := delete_ok h
  constructor
  · rw [hout, List.map_map]
    have hkeys : (survivors fks rows t p).map
        (TableRow.key ∘ cleared fks (doomed fks rows t p)) =
        (survivors fks rows t p).map TableRow.key := rfl
    rw [hkeys]
    exact hintact.unique.sublist (List.Sublist.map _ List.filter_sublist)
  · intro r hr fk hfk key htarget
    obtain ⟨old, hrows, rfl, hstays⟩ := delete_origin h hr
    have hold := target_cleared htarget
    obtain ⟨parent, hparent, rfl⟩ := hintact.named old hrows fk hfk key hold
    have hlives : parent.key ∉ doomed fks rows t p := by
      intro hgone
      cases haction : fk.onDelete with
      | cascade =>
        exact hstays (doomed_closed t p old hrows ⟨fk, hfk, haction, _, hold, hgone⟩)
      | setNull => exact not_meets_cleared hfk haction ⟨_, htarget, hgone⟩
      | noAction =>
        exact hblocks fk hfk ⟨.inl haction, old, mem_survivors.2 ⟨hrows, hstays⟩, _, hold, hgone⟩
      | restrict =>
        exact hblocks fk hfk ⟨.inr haction, old, mem_survivors.2 ⟨hrows, hstays⟩, _, hold, hgone⟩
    refine ⟨cleared fks (doomed fks rows t p) parent, ?_, rfl⟩
    rw [hout]
    exact List.mem_map_of_mem (mem_survivors.2 ⟨hparent, hlives⟩)

end Laws

end ForeignKey
