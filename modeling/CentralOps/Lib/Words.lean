import Mathlib.Data.List.DropRight

namespace Words
set_option autoImplicit true

/-- The maximal runs of a list that hold no separator. -/
def runs (p : α → Bool) (s : List α) : List (List α) := (s.splitOnP p).filter (fun w => !w.isEmpty)

/-- Each maximal run of separators is replaced by `sep`; the flag is whether the list goes on with
such a run. -/
def squash (p : α → Bool) (sep : α) : Bool → List α → List α
  | _, [] => []
  | inRun, c :: s =>
    if p c then
      if inRun then squash p sep true s else sep :: squash p sep true s
    else c :: squash p sep false s

def trim [DecidableEq α] (sep : α) (s : List α) : List α :=
  (s.dropWhile (· = sep)).rdropWhile (· = sep)

variable {p : α → Bool} {sep c : α} {s : List α}

theorem runs_nil : runs p [] = [] := rfl

theorem runs_sep (h : p c = true) : runs p (c :: s) = runs p s := by
  rw [runs, List.splitOnP_cons_eq_if_modifyHead, if_pos h]
  rfl

theorem splitOnP_forall (p : α → Bool) (s : List α) : ∀ w ∈ s.splitOnP p, ∀ a ∈ w, p a = false := by
  induction s with
  | nil =>
    intro w hw a ha
    obtain rfl := List.mem_singleton.1 hw
    exact absurd ha List.not_mem_nil
  | cons c s ih =>
    intro w hw a ha
    rw [List.splitOnP_cons_eq_if_modifyHead] at hw
    split at hw
    · obtain rfl | hw := List.mem_cons.1 hw
      · exact absurd ha List.not_mem_nil
      · exact ih w hw a ha
    · next hc =>
      cases hs : s.splitOnP p with
      | nil => exact absurd hs (List.splitOnP_ne_nil p s)
      | cons v vs =>
        rw [hs, List.modifyHead_cons] at hw
        obtain rfl | hw := List.mem_cons.1 hw
        · obtain rfl | ha := List.mem_cons.1 ha
          · exact Bool.eq_false_iff.2 hc
          · exact ih v (hs ▸ List.mem_cons_self) a ha
        · exact ih w (hs ▸ List.mem_cons_of_mem v hw) a ha

theorem notMem_runs (hc : p c = true) (hw : w ∈ runs p s) : c ∉ w := by
  intro hin
  have hfalse := splitOnP_forall p s w (List.mem_filter.1 hw).1 c hin
  exact Bool.false_ne_true (hfalse.symm.trans hc)

theorem runs_ne_nil (hw : w ∈ runs p s) : w ≠ [] := by
  rintro rfl
  cases (List.mem_filter.1 hw).2

theorem intercalate_cons (sep : α) (w : List α) (ws : List (List α)) :
    [sep].intercalate (w :: ws) = w ++ ws.flatMap (fun v => sep :: v) := by
  induction ws generalizing w with
  | nil => rw [List.intercalate_singleton, List.flatMap_nil, List.append_nil]
  | cons v ws ih => rw [List.intercalate_cons_cons, ih, List.flatMap_cons, List.append_assoc]; rfl

theorem intercalate_inj [DecidableEq α] {ws ws' : List (List α)} (h : ∀ w ∈ ws, sep ∉ w)
    (h' : ∀ w ∈ ws', sep ∉ w) (hne : ws ≠ []) (hne' : ws' ≠ []) :
    [sep].intercalate ws = [sep].intercalate ws' ↔ ws = ws' := by
  constructor
  · intro he
    rw [← List.splitOn_intercalate sep h hne, he, List.splitOn_intercalate sep h' hne']
  · rintro rfl
    rfl

theorem cut_first {c : α} {a b x y : List α} (ha : c ∉ a) (hb : c ∉ b)
    (h : a ++ c :: x = b ++ c :: y) : a = b ∧ x = y := by
  induction a generalizing b with
  | nil =>
    cases b with
    | nil => exact ⟨rfl, (List.cons.inj h).2⟩
    | cons d b =>
      rw [List.nil_append, List.cons_append] at h
      exact absurd ((List.cons.inj h).1 ▸ List.mem_cons_self) hb
  | cons d a ih =>
    cases b with
    | nil =>
      rw [List.nil_append, List.cons_append] at h
      exact absurd ((List.cons.inj h).1 ▸ List.mem_cons_self) ha
    | cons e b =>
      rw [List.mem_cons, not_or] at ha hb
      obtain ⟨rfl, ht⟩ := List.cons.inj h
      obtain ⟨rfl, hxy⟩ := ih ha.2 hb.2 ht
      exact ⟨rfl, hxy⟩

theorem cut_last {c : α} {a b x y : List α} (hx : c ∉ x) (hy : c ∉ y)
    (h : a ++ c :: x = b ++ c :: y) : a = b ∧ x = y := by
  have hrev := congrArg List.reverse h
  simp only [List.reverse_append, List.reverse_cons, List.append_assoc, List.singleton_append]
    at hrev
  obtain ⟨hxy, hab⟩ := cut_first (by simpa using hx) (by simpa using hy) hrev
  exact ⟨List.reverse_injective hab, List.reverse_injective hxy⟩

theorem intercalate_mark (c : α) {ws : List (List α)} (hne : ws ≠ []) :
    [c].intercalate ws ++ [c] = ws.flatMap (fun w => w ++ [c]) := by
  obtain ⟨w, ws, rfl⟩ := List.exists_cons_of_ne_nil hne
  rw [intercalate_cons]
  induction ws generalizing w with
  | nil => simp
  | cons v ws ih =>
    have hrest := ih v (List.cons_ne_nil v ws)
    simp only [List.flatMap_cons, List.append_assoc] at hrest ⊢
    rw [List.cons_append, hrest]
    simp

theorem append_mark [DecidableEq α] (c : α) (s : List α) :
    s ++ [c] = (s.splitOn c).flatMap (fun w => w ++ [c]) := by
  rw [← intercalate_mark c (List.splitOn_ne_nil c s), List.intercalate_splitOn]

theorem flatMap_mark_inj {c : α} {ws ws' : List (List α)} (h : ∀ w ∈ ws, c ∉ w)
    (h' : ∀ w ∈ ws', c ∉ w) :
    ws.flatMap (fun w => w ++ [c]) = ws'.flatMap (fun w => w ++ [c]) ↔ ws = ws' := by
  refine ⟨fun he => ?_, fun he => he ▸ rfl⟩
  induction ws generalizing ws' with
  | nil =>
    cases ws' with
    | nil => rfl
    | cons w' ws' => simp at he
  | cons w ws ih =>
    cases ws' with
    | nil => simp at he
    | cons w' ws' =>
      rw [List.flatMap_cons, List.flatMap_cons, List.append_assoc, List.append_assoc] at he
      obtain ⟨rfl, hrest⟩ := cut_first (h w List.mem_cons_self) (h' w' List.mem_cons_self) he
      rw [ih (fun v hv => h v (List.mem_cons_of_mem w hv))
        (fun v hv => h' v (List.mem_cons_of_mem w hv)) hrest]

section Trim
variable [DecidableEq α]

theorem rdropWhile_cons_ne (h : c ≠ sep) (s : List α) :
    (c :: s).rdropWhile (· = sep) = c :: s.rdropWhile (· = sep) := by
  rw [List.rdropWhile, List.reverse_cons, List.dropWhile_append]
  split
  · next hs =>
    rw [List.isEmpty_iff] at hs
    simp [List.rdropWhile, hs, h]
  · rw [List.reverse_append]
    rfl

theorem rdropWhile_cons_self (s : List α) :
    (sep :: s).rdropWhile (· = sep) =
      if s.rdropWhile (· = sep) = [] then [] else sep :: s.rdropWhile (· = sep) := by
  rw [List.rdropWhile, List.reverse_cons, List.dropWhile_append]
  split
  · next hs =>
    rw [List.isEmpty_iff] at hs
    simp [List.rdropWhile, hs]
  · next hs =>
    rw [List.isEmpty_iff] at hs
    rw [List.reverse_append, if_neg (by rwa [List.rdropWhile, List.reverse_eq_nil_iff])]
    rfl

/-- The squashed list, cut at its end: in a run it goes on with the rest of the run and then the
others, after separators it goes on with the runs. -/
theorem squash_trimmed (hsep : p sep = true) (s : List α) :
    (∀ w ws, s.splitOnP p = w :: ws → (squash p sep false s).rdropWhile (· = sep) =
      w ++ (ws.filter (fun w => !w.isEmpty)).flatMap (fun v => sep :: v)) ∧
    (squash p sep true s).rdropWhile (· = sep) = [sep].intercalate (runs p s) := by
  induction s with
  | nil =>
    refine ⟨fun w ws h => ?_, rfl⟩
    obtain ⟨rfl, rfl⟩ := List.cons.inj h
    rfl
  | cons c s ih =>
    obtain ⟨hin, hout⟩ := ih
    by_cases hc : p c = true
    · refine ⟨fun w ws h => ?_, ?_⟩
      · rw [List.splitOnP_cons_eq_if_modifyHead, if_pos hc] at h
        obtain ⟨rfl, rfl⟩ := List.cons.inj h
        rw [squash, if_pos hc, if_neg Bool.false_ne_true, rdropWhile_cons_self, hout,
          List.nil_append]
        change (if [sep].intercalate (runs p s) = [] then [] else _) =
          (runs p s).flatMap (fun v => sep :: v)
        cases hr : runs p s with
        | nil => rfl
        | cons v vs =>
          have hv : v ≠ [] := runs_ne_nil (hr ▸ List.mem_cons_self)
          rw [intercalate_cons, if_neg (by simp [hv]), List.flatMap_cons]
          rfl
      · rw [squash, if_pos hc, if_pos rfl, hout, runs_sep hc]
    · have hne : c ≠ sep := by
        rintro rfl
        exact hc hsep
      cases hs : s.splitOnP p with
      | nil => exact absurd hs (List.splitOnP_ne_nil p s)
      | cons w ws =>
        have hsplit : (c :: s).splitOnP p = (c :: w) :: ws := by
          rw [List.splitOnP_cons_eq_if_modifyHead, if_neg hc, hs]
          rfl
        have hrest : ∀ b, (squash p sep b (c :: s)).rdropWhile (· = sep) =
            (c :: w) ++ (ws.filter (fun w => !w.isEmpty)).flatMap (fun v => sep :: v) := by
          intro b
          rw [squash, if_neg hc, rdropWhile_cons_ne hne, hin w ws hs, List.cons_append]
        refine ⟨fun v vs h => ?_, ?_⟩
        · rw [hsplit] at h
          obtain ⟨rfl, rfl⟩ := List.cons.inj h
          exact hrest false
        · rw [hrest true, runs, hsplit, List.filter_cons_of_pos rfl, intercalate_cons]

theorem dropWhile_squash (hsep : p sep = true) (b : Bool) (s : List α) :
    (squash p sep b s).dropWhile (· = sep) = squash p sep true s := by
  induction s generalizing b with
  | nil => rfl
  | cons c s ih =>
    by_cases hc : p c = true
    · cases b with
      | true => rw [squash, if_pos hc, if_pos rfl, ih]
      | false =>
        rw [squash, if_pos hc, if_neg Bool.false_ne_true, List.dropWhile_cons_of_pos (by simp), ih,
          squash, if_pos hc, if_pos rfl]
    · have hne : c ≠ sep := by
        rintro rfl
        exact hc hsep
      rw [squash, if_neg hc, List.dropWhile_cons_of_neg (by simp [hne]), squash, if_neg hc]

theorem trim_squash (hsep : p sep = true) (s : List α) :
    trim sep (squash p sep false s) = [sep].intercalate (runs p s) := by
  rw [trim, dropWhile_squash hsep, (squash_trimmed hsep s).2]

end Trim

section Keep
variable [DecidableEq α]

def keepFirst (sep : α) (keep : Nat) (w : List α) (s : List α) : List α :=
  [sep].intercalate ((s.splitOn sep).take keep ++ ((s.splitOn sep).drop keep).map fun _ => w)

theorem splitOn_sep (sep : α) (s : List α) : (sep :: s).splitOn sep = [] :: s.splitOn sep := by
  rw [List.splitOn, List.splitOnP_cons_eq_if_modifyHead, if_pos (beq_self_eq_true sep)]
  rfl

theorem splitOn_cons {sep a : α} (h : a ≠ sep) (s : List α) :
    (a :: s).splitOn sep = (s.splitOn sep).modifyHead (a :: ·) := by
  rw [List.splitOn, List.splitOnP_cons_eq_if_modifyHead, if_neg (by simpa using h)]
  rfl

theorem splitOn_append (sep : α) (s t : List α) :
    (s ++ sep :: t).splitOn sep = s.splitOn sep ++ t.splitOn sep :=
  List.splitOnP_append_cons s t (beq_self_eq_true sep)

theorem splitOn_free (h : sep ∉ s) : s.splitOn sep = [s] := by
  apply List.splitOnP_eq_singleton
  intro a ha
  rw [beq_eq_false_iff_ne]
  rintro rfl
  exact h ha

theorem keepFirst_sep (sep : α) (keep : Nat) (w s : List α) :
    keepFirst sep (keep + 1) w (sep :: s) = sep :: keepFirst sep keep w s := by
  have hne : (s.splitOn sep).take keep ++ ((s.splitOn sep).drop keep).map (fun _ => w) ≠ [] := by
    intro hnil
    have hlen := congrArg List.length hnil
    rw [List.length_append, List.length_map, List.length_take, List.length_drop] at hlen
    have hpos := List.length_pos_of_ne_nil (List.splitOn_ne_nil sep s)
    simp at hlen
    omega
  obtain ⟨v, vs, hvs⟩ := List.exists_cons_of_ne_nil hne
  rw [keepFirst, keepFirst, splitOn_sep, List.take_succ_cons, List.drop_succ_cons, List.cons_append,
    hvs, intercalate_cons, intercalate_cons, List.flatMap_cons]
  rfl

theorem keepFirst_cons {sep a : α} (h : a ≠ sep) (keep : Nat) (w s : List α) :
    keepFirst sep (keep + 1) w (a :: s) = a :: keepFirst sep (keep + 1) w s := by
  obtain ⟨v, vs, hvs⟩ := List.exists_cons_of_ne_nil (List.splitOn_ne_nil sep s)
  rw [keepFirst, keepFirst, splitOn_cons h, hvs, List.modifyHead_cons, List.take_succ_cons,
    List.take_succ_cons, List.drop_succ_cons, List.drop_succ_cons, List.cons_append,
    List.cons_append, intercalate_cons, intercalate_cons]
  rfl

theorem splitOn_length_eq {sep : α} {s s' : List α}
    (h : List.Forall₂ (fun a b => a = sep ↔ b = sep) s s') :
    (s.splitOn sep).length = (s'.splitOn sep).length := by
  induction h with
  | nil => rfl
  | @cons a b s s' hab _ ih =>
    by_cases ha : a = sep
    · rw [ha, hab.1 ha, splitOn_sep, splitOn_sep, List.length_cons, List.length_cons, ih]
    · rw [splitOn_cons ha, splitOn_cons fun hb => ha (hab.2 hb), List.length_modifyHead,
        List.length_modifyHead, ih]

/-- What is kept of them is cut at the same place. -/
theorem keepFirst_eq_take {sep : α} {s s' : List α}
    (h : List.Forall₂ (fun a b => a = sep ↔ b = sep) s s') (keep : Nat) (w : List α) :
    ∃ n tail, keepFirst sep keep w s = s.take n ++ tail ∧
      keepFirst sep keep w s' = s'.take n ++ tail := by
  induction h generalizing keep with
  | nil => exact ⟨0, _, rfl, rfl⟩
  | @cons a b s s' hab hrest ih =>
    cases keep with
    | zero =>
      have hlen := splitOn_length_eq (List.Forall₂.cons hab hrest)
      refine ⟨0, keepFirst sep 0 w (a :: s), rfl, ?_⟩
      rw [keepFirst, keepFirst, List.take_zero, List.take_zero, List.drop_zero, List.drop_zero,
        List.map_const', List.map_const', hlen]
      rfl
    | succ keep =>
      by_cases ha : a = sep
      · obtain ⟨n, tail, hs, hs'⟩ := ih keep
        refine ⟨n + 1, tail, ?_, ?_⟩
        · rw [ha, keepFirst_sep, hs]
          rfl
        · rw [hab.1 ha, keepFirst_sep, hs']
          rfl
      · obtain ⟨n, tail, hs, hs'⟩ := ih (keep + 1)
        refine ⟨n + 1, tail, ?_, ?_⟩
        · rw [keepFirst_cons ha, hs]
          rfl
        · rw [keepFirst_cons fun hb => ha (hab.2 hb), hs']
          rfl

end Keep
end Words
