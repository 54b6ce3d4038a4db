import Mathlib.Data.List.Basic

namespace RoundRobin
set_option autoImplicit true

/-- What the groups have at one place, group by group. -/
def layer (n : Nat) (gs : List (List α)) : List α := gs.filterMap fun g => g[n]?

/-- The first rounds: one element of each group in each round. -/
def layers (n : Nat) (gs : List (List α)) : List α := (List.range n).flatMap fun i => layer i gs

/-- What a group has been dealt when the rounds stop inside one: the groups before that point one
element more. -/
def dealt (n i : Nat) (gs : List (List α)) : List (List α) :=
  (gs.take i).map (·.take (n + 1)) ++ (gs.drop i).map (·.take n)

@[simp] theorem layers_zero (gs : List (List α)) : layers 0 gs = [] := rfl

theorem layers_succ (n : Nat) (gs : List (List α)) :
    layers (n + 1) gs = layers n gs ++ layer n gs := by
  rw [layers, List.range_succ, List.flatMap_append, List.flatMap_singleton]
  rfl

theorem layer_cons (n : Nat) (g : List α) (gs : List (List α)) :
    layer n (g :: gs) = g[n]?.toList ++ layer n gs := by
  rw [layer, List.filterMap_cons]
  cases g[n]? <;> rfl

theorem layer_eq_nil_iff (n : Nat) (gs : List (List α)) :
    layer n gs = [] ↔ ∀ g ∈ gs, g.length ≤ n := by
  simp [layer, List.filterMap_eq_nil_iff]

theorem flatten_take_perm (n : Nat) (gs : List (List α)) :
    ((gs.map (·.take n)).flatten ++ layer n gs).Perm (gs.map (·.take (n + 1))).flatten := by
  induction gs with
  | nil => exact .refl _
  | cons g gs ih =>
    rw [List.map_cons, List.map_cons, List.flatten_cons, List.flatten_cons, layer_cons,
      List.take_add_one]
    calc (g.take n ++ (gs.map (·.take n)).flatten) ++ (g[n]?.toList ++ layer n gs)
        _ = g.take n ++ ((gs.map (·.take n)).flatten ++ (g[n]?.toList ++ layer n gs)) :=
          List.append_assoc ..
        List.Perm _ (g.take n ++ (g[n]?.toList ++ ((gs.map (·.take n)).flatten ++ layer n gs))) := by
          apply List.Perm.append_left
          rw [← List.append_assoc, ← List.append_assoc]
          exact List.perm_append_comm.append_right _
        _ = (g.take n ++ g[n]?.toList) ++ ((gs.map (·.take n)).flatten ++ layer n gs) :=
          (List.append_assoc ..).symm
        List.Perm _ ((g.take n ++ g[n]?.toList) ++ (gs.map (·.take (n + 1))).flatten) :=
          ih.append_left _

theorem layers_perm (n : Nat) (gs : List (List α)) :
    (layers n gs).Perm (gs.map (·.take n)).flatten := by
  induction n with
  | zero => simp
  | succ n ih =>
    rw [layers_succ]
    exact (ih.append_right _).trans (flatten_take_perm n gs)

theorem take_layer (n j : Nat) (gs : List (List α)) :
    ∃ i, (layer n gs).take j = layer n (gs.take i) := by
  induction gs generalizing j with
  | nil => exact ⟨0, by simp [layer]⟩
  | cons g gs ih =>
    cases hg : g[n]? with
    | none =>
      obtain ⟨i, hi⟩ := ih j
      refine ⟨i + 1, ?_⟩
      rw [List.take_succ_cons, layer_cons, layer_cons, hg]
      exact hi
    | some a =>
      cases j with
      | zero => exact ⟨0, by simp [layer]⟩
      | succ j =>
        obtain ⟨i, hi⟩ := ih j
        refine ⟨i + 1, ?_⟩
        rw [List.take_succ_cons, layer_cons, layer_cons, hg]
        exact congrArg (a :: ·) hi

theorem dealt_perm (n j : Nat) (gs : List (List α)) :
    ∃ i, (layers n gs ++ (layer n gs).take j).Perm (dealt n i gs).flatten := by
  obtain ⟨i, hi⟩ := take_layer n j gs
  refine ⟨i, ?_⟩
  rw [hi, dealt, List.flatten_append]
  have hsplit : (gs.map (·.take n)).flatten =
      ((gs.take i).map (·.take n)).flatten ++ ((gs.drop i).map (·.take n)).flatten := by
    rw [← List.flatten_append, ← List.map_append, List.take_append_drop]
  have hcolumns := (layers_perm n gs).append_right (layer n (gs.take i))
  rw [hsplit] at hcolumns
  have hswap := (@List.perm_append_comm _ ((gs.drop i).map (·.take n)).flatten
    (layer n (gs.take i))).append_left ((gs.take i).map (·.take n)).flatten
  rw [← List.append_assoc, ← List.append_assoc] at hswap
  exact (hcolumns.trans hswap).trans ((flatten_take_perm n (gs.take i)).append_right _)

theorem dealt_sublist (n i : Nat) (gs : List (List α)) :
    (dealt n i gs).flatten.Sublist gs.flatten := by
  have hsplit : gs.flatten = (gs.take i).flatten ++ (gs.drop i).flatten := by
    rw [← List.flatten_append, List.take_append_drop]
  have hpart : ∀ (m : Nat) (hs : List (List α)), ((hs.map (·.take m)).flatten).Sublist hs.flatten := by
    intro m hs
    induction hs with
    | nil => exact .slnil
    | cons h hs ih => exact (List.take_sublist m h).append ih
  rw [dealt, List.flatten_append, hsplit]
  exact (hpart _ _).append (hpart _ _)

theorem dealt_eq_of_layer_nil {n : Nat} {gs : List (List α)} (h : layer n gs = []) (i : Nat) :
    dealt n i gs = gs := by
  have hwhole : ∀ m, n ≤ m → ∀ hs : List (List α), (∀ g ∈ hs, g ∈ gs) → hs.map (·.take m) = hs := by
    intro m hm hs hsub
    rw [List.map_congr_left fun g hg =>
      List.take_of_length_le (Nat.le_trans ((layer_eq_nil_iff n gs).1 h g (hsub g hg)) hm), List.map_id']
  rw [dealt, hwhole (n + 1) (Nat.le_succ n) _ fun g hg => List.mem_of_mem_take hg,
    hwhole n (Nat.le_refl n) _ fun g hg => List.mem_of_mem_drop hg, List.take_append_drop]

end RoundRobin
