import Mathlib.Data.List.Basic
import Mathlib.Data.List.Nodup

set_option autoImplicit true

/-! The rows of a table with a primary key. -/

namespace KeyedRows

section Operations
variable {α κ : Type} [DecidableEq κ] (key : α → κ)

def get (rows : List α) (k : κ) : Option α := rows.find? (fun r => decide (key r = k))

def modify (rows : List α) (k : κ) (f : α → α) : List α :=
  rows.map (fun r => if key r = k then f r else r)

def remove (rows : List α) (k : κ) : List α := rows.filter (fun r => decide (key r ≠ k))

end Operations

section Laws
variable {α β κ : Type} [DecidableEq κ] {key : α → κ} {rows : List α} {k : κ} {f : α → α}
  {r : α} {p : α → Bool}

theorem get_eq_some (h : get key rows k = some r) : r ∈ rows ∧ key r = k := by
  rw [get] at h
  have hkey := List.find?_some (p := fun r => decide (key r = k)) h
  exact ⟨List.mem_of_find?_eq_some h, of_decide_eq_true hkey⟩

theorem get_eq_none (h : get key rows k = none) (hr : r ∈ rows) : key r ≠ k := by
  intro hkey
  rw [get, List.find?_eq_none] at h
  exact h r hr (decide_eq_true hkey)

theorem get_of_mem (hunique : (rows.map key).Nodup) (hr : r ∈ rows) (hkey : key r = k) :
    get key rows k = some r := by
  cases h : get key rows k with
  | none => exact absurd hkey (get_eq_none h hr)
  | some r' =>
    obtain ⟨hr', hkey'⟩ := get_eq_some h
    rw [List.inj_on_of_nodup_map hunique hr hr' (hkey.trans hkey'.symm)]

theorem mem_modify : r ∈ modify key rows k f ↔
    ∃ old ∈ rows, (if key old = k then f old else old) = r := List.mem_map

theorem map_modify (g : α → β) (hf : ∀ r, g (f r) = g r) :
    (modify key rows k f).map g = rows.map g := by
  rw [modify, List.map_map]
  apply List.map_congr_left
  intro r _
  rw [Function.comp_apply]
  split
  · exact hf r
  · rfl

theorem filter_modify (h : ∀ r ∈ rows, key r = k → p r = false ∧ p (f r) = false) :
    (modify key rows k f).filter p = rows.filter p := by
  induction rows with
  | nil => rfl
  | cons a rows ih =>
    have htail := ih (fun r hr => h r (List.mem_cons_of_mem a hr))
    rw [modify, List.map_cons]
    by_cases hkey : key a = k
    · obtain ⟨hbefore, hafter⟩ := h a List.mem_cons_self hkey
      rw [if_pos hkey, List.filter_cons_of_neg (Bool.eq_false_iff.1 hafter),
        List.filter_cons_of_neg (Bool.eq_false_iff.1 hbefore)]
      exact htail
    · rw [if_neg hkey, List.filter_cons, List.filter_cons]
      split
      · exact congrArg (a :: ·) htail
      · exact htail

theorem filter_remove (h : ∀ r ∈ rows, key r = k → p r = false) :
    (remove key rows k).filter p = rows.filter p := by
  rw [remove, List.filter_filter]
  apply List.filter_congr
  intro r hr
  by_cases hkey : key r = k
  · rw [h r hr hkey, Bool.false_and]
  · rw [decide_eq_true hkey, Bool.and_true]

theorem nodup_modify (hf : ∀ r, key (f r) = key r) (hunique : (rows.map key).Nodup) :
    ((modify key rows k f).map key).Nodup := by
  rw [map_modify key hf]
  exact hunique

omit [DecidableEq κ] in
/-- Two views of rows that keep their keys agree row by row. -/
theorem map_perm_iff {shown : List α} {g h : α → β} (tag : β → κ) (hshown : shown.Perm rows)
    (hunique : (rows.map key).Nodup) (hg : ∀ r, tag (g r) = key r) (hh : ∀ r, tag (h r) = key r) :
    (shown.map g).Perm (rows.map h) ↔ ∀ r ∈ rows, g r = h r := by
  constructor
  · intro hperm r hr
    obtain ⟨r', hr', hview⟩ := List.mem_map.1 (hperm.mem_iff.2 (List.mem_map_of_mem hr))
    have hkey : key r' = key r := by rw [← hg, ← hh, hview]
    rwa [List.inj_on_of_nodup_map hunique (hshown.subset hr') hr hkey] at hview
  · intro hsame
    rw [← List.map_congr_left hsame]
    exact hshown.map g

theorem nodup_remove (hunique : (rows.map key).Nodup) : ((remove key rows k).map key).Nodup :=
  hunique.sublist (List.Sublist.map _ List.filter_sublist)

end Laws

section Named
variable {α κ ν : Type} [DecidableEq κ] [DecidableEq ν] {key : α → κ} {name : α → ν}
  {seen : α → Bool} {rows shown : List α} {n : ν} {o : Option α} {f : α → α} {r : α}

/-- The one row of a name among those that are seen, or that there is none. -/
def Named (name : α → ν) (seen : α → Bool) (rows : List α) (n : ν) (o : Option α) : Prop :=
  ∀ r, o = some r ↔ r ∈ rows ∧ seen r = true ∧ name r = n

omit [DecidableEq ν] in
theorem Named.of_mem (hnames : ((rows.filter seen).map name).Nodup) (hr : r ∈ rows.filter seen) :
    Named name seen rows (name r) (some r) := by
  obtain ⟨hmem, hseen⟩ := List.mem_filter.1 hr
  intro s
  constructor
  · rintro ⟨⟩
    exact ⟨hmem, hseen, rfl⟩
  · rintro ⟨hs, hsees, hname⟩
    rw [List.inj_on_of_nodup_map hnames (List.mem_filter.2 ⟨hs, hsees⟩) hr hname]

theorem Named.find?_eq (h : Named name seen rows n o)
    (hshown : ∀ r, r ∈ shown ↔ r ∈ rows ∧ seen r = true) :
    shown.find? (fun r => decide (name r = n)) = o := by
  cases hfind : shown.find? (fun r => decide (name r = n)) with
  | some r =>
    have hname := List.find?_some (p := fun r => decide (name r = n)) hfind
    obtain ⟨hr, hseen⟩ := (hshown r).1 (List.mem_of_find?_eq_some hfind)
    exact ((h r).2 ⟨hr, hseen, of_decide_eq_true hname⟩).symm
  | none =>
    cases o with
    | none => rfl
    | some r =>
      obtain ⟨hr, hseen, hname⟩ := (h r).1 rfl
      exact absurd (decide_eq_true hname)
        (List.find?_eq_none.1 hfind r ((hshown r).2 ⟨hr, hseen⟩))

omit [DecidableEq ν] in
theorem Named.append_other (h : Named name seen rows n o) (hname : name r ≠ n) :
    Named name seen (rows ++ [r]) n o := by
  intro r'
  rw [h r', List.mem_append, List.mem_singleton]
  constructor
  · rintro ⟨hmem, hrest⟩
    exact ⟨.inl hmem, hrest⟩
  · rintro ⟨hmem | rfl, hseen, hn⟩
    · exact ⟨hmem, hseen, hn⟩
    · exact absurd hn hname

omit [DecidableEq ν] in
theorem Named.append_new (h : Named name seen rows n none) (hseen : seen r = true)
    (hname : name r = n) : Named name seen (rows ++ [r]) n (some r) := by
  intro r'
  rw [Option.some.injEq, List.mem_append, List.mem_singleton]
  constructor
  · rintro rfl
    exact ⟨.inr rfl, hseen, hname⟩
  · rintro ⟨hmem | rfl, hseen', hn⟩
    · cases (h r').2 ⟨hmem, hseen', hn⟩
    · rfl

omit [DecidableEq ν] in
theorem Named.modify_other (hunique : (rows.map key).Nodup) (h : Named name seen rows n o)
    (hr : r ∈ rows) (hname : name r ≠ n) (hf : name (f r) ≠ n) :
    Named name seen (modify key rows (key r) f) n o := by
  intro r'
  rw [h r', mem_modify]
  constructor
  · rintro ⟨hmem, hseen, hn⟩
    refine ⟨⟨r', hmem, if_neg ?_⟩, hseen, hn⟩
    intro hkey
    exact hname (List.inj_on_of_nodup_map hunique hmem hr hkey ▸ hn)
  · rintro ⟨⟨old, hold, rfl⟩, hseen, hn⟩
    by_cases hkey : key old = key r
    · rw [if_pos hkey, List.inj_on_of_nodup_map hunique hold hr hkey] at hn
      exact absurd hn hf
    · rw [if_neg hkey] at hseen hn ⊢
      exact ⟨hold, hseen, hn⟩

omit [DecidableEq ν] in
theorem Named.modify_same (hunique : (rows.map key).Nodup) (h : Named name seen rows n (some r))
    (hseen : seen (f r) = true) (hname : name (f r) = n) :
    Named name seen (modify key rows (key r) f) n (some (f r)) := by
  obtain ⟨hr, -, -⟩ := (h r).1 rfl
  intro r'
  rw [Option.some.injEq, mem_modify]
  constructor
  · rintro rfl
    exact ⟨⟨r, hr, if_pos rfl⟩, hseen, hname⟩
  · rintro ⟨⟨old, hold, rfl⟩, hseen', hn⟩
    by_cases hkey : key old = key r
    · rw [if_pos hkey, List.inj_on_of_nodup_map hunique hold hr hkey]
    · rw [if_neg hkey] at hseen' hn
      have hsame : r = old := Option.some.inj ((h old).2 ⟨hold, hseen', hn⟩)
      exact absurd (congrArg key hsame.symm) hkey

theorem countP_modify (hf : ∀ r, seen (f r) = seen r) {k : κ} :
    (modify key rows k f).countP seen = rows.countP seen := by
  rw [modify, List.countP_map]
  apply List.countP_congr
  intro r _
  rw [Function.comp_apply]
  split
  · rw [hf]
  · exact Iff.rfl

end Named

end KeyedRows

structure IdSource (κ : Type) where
  next : List κ → κ
  fresh : ∀ used, next used ∉ used

theorem IdSource.nodup_append {κ : Type} (ids : IdSource κ) {used : List κ} (h : used.Nodup) :
    (used ++ [ids.next used]).Nodup :=
  List.nodup_append.2 ⟨h, List.nodup_singleton _, by
    intro a ha b hb
    rw [List.mem_singleton.1 hb]
    exact fun hab => ids.fresh used (hab ▸ ha)⟩
