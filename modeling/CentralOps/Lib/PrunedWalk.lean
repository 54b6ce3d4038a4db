import Mathlib.Data.List.Basic

/-! A walk that collects the leaves below a node of a graph, left to right. It skips the nodes that
a test names and everything below them, goes down a bounded number of levels, and stops when it has
collected enough. -/

namespace PrunedWalk
set_option autoImplicit true

variable {ν β : Type} (cap : Nat) (kids : ν → List ν) (leaf : ν → β) (skip : ν → Bool)

/-- A loop that ends early, once enough has been collected. -/
def collect (step : α → List β → List β) : List α → List β → List β
  | [], out => out
  | a :: as, out => if cap ≤ (step a out).length then step a out else collect step as (step a out)

def walk : Nat → ν → List β → List β
  | 0, _, out => out
  | left + 1, v, out =>
    if cap ≤ out.length then out
    else if skip v then out
    else match kids v with
      | [] => out ++ [leaf v]
      | ws => collect cap (walk left) ws out

inductive LeafBelow : ν → List ν → ν → Prop
  | here : kids v = [] → LeafBelow v [v] v
  | down : w ∈ kids v → LeafBelow w path u → LeafBelow v (v :: path) u

/-- No node that the walk enters lies below the last level. -/
def shallow : Nat → ν → Bool
  | 0, _ => false
  | left + 1, v => skip v || (kids v).all (shallow left)

def Reported (v : ν) (b : β) : Prop :=
  ∃ path u, LeafBelow kids v path u ∧ leaf u = b ∧ ∀ w ∈ path, skip w = false

variable {cap kids leaf skip}

theorem LeafBelow.head (h : LeafBelow kids v path u) : v ∈ path := by
  cases h with
  | here _ => exact List.mem_singleton_self v
  | down _ _ => exact List.mem_cons_self

theorem LeafBelow.last (h : LeafBelow kids v path u) : u ∈ path := by
  induction h with
  | here _ => exact List.mem_singleton_self _
  | down _ _ ih => exact List.mem_cons_of_mem _ ih

theorem collect_length_le {step : α → List β → List β} {as : List α}
    (hstep : ∀ a ∈ as, ∀ out, out.length ≤ cap → (step a out).length ≤ cap)
    (hout : out.length ≤ cap) : (collect cap step as out).length ≤ cap := by
  induction as generalizing out with
  | nil => exact hout
  | cons a as ih =>
    obtain ⟨ha, has⟩ := List.forall_mem_cons.1 hstep
    rw [collect]
    split
    · exact ha out hout
    · exact ih has (ha out hout)

theorem collect_grows {step : α → List β → List β} {as : List α}
    (hstep : ∀ a ∈ as, ∀ out, out.length ≤ (step a out).length) (out : List β) :
    out.length ≤ (collect cap step as out).length := by
  induction as generalizing out with
  | nil => exact Nat.le_refl _
  | cons a as ih =>
    obtain ⟨ha, has⟩ := List.forall_mem_cons.1 hstep
    rw [collect]
    split
    · exact ha out
    · exact Nat.le_trans (ha out) (ih has (step a out))

/-- A loop that did not end early has collected what each step collects. -/
theorem mem_collect {step : α → List β → List β} {P : α → β → Prop} {as : List α}
    (hgrows : ∀ a ∈ as, ∀ out, out.length ≤ (step a out).length)
    (hstep : ∀ a ∈ as, ∀ out, (step a out).length < cap → ∀ b, b ∈ step a out ↔ b ∈ out ∨ P a b)
    (hcap : (collect cap step as out).length < cap) (b : β) :
    b ∈ collect cap step as out ↔ b ∈ out ∨ ∃ a ∈ as, P a b := by
  induction as generalizing out with
  | nil => simp [collect]
  | cons a as ih =>
    obtain ⟨hga, hgas⟩ := List.forall_mem_cons.1 hgrows
    obtain ⟨ha, has⟩ := List.forall_mem_cons.1 hstep
    rw [collect] at hcap ⊢
    split
    · rename_i hfull
      rw [if_pos hfull] at hcap
      exact absurd hcap (Nat.not_lt.2 hfull)
    · rename_i hroom
      rw [if_neg hroom] at hcap
      rw [ih hgas has hcap, ha out (Nat.lt_of_not_le hroom), List.exists_mem_cons_iff, or_assoc]

theorem collect_map (f : α → γ) (step : γ → List β → List β) (as : List α) (out : List β) :
    collect cap step (as.map f) out = collect cap (fun a => step (f a)) as out := by
  induction as generalizing out with
  | nil => rfl
  | cons a as ih => rw [List.map_cons, collect, collect, ih]

/-- The walk never collects more than the cap, on any graph. -/
theorem walk_length_le (left : Nat) (v : ν) (hout : out.length ≤ cap) :
    (walk cap kids leaf skip left v out).length ≤ cap := by
  induction left generalizing v out with
  | zero => exact hout
  | succ left ih =>
    rw [walk]
    split
    · exact hout
    · rename_i hroom
      split
      · exact hout
      · split
        · rw [List.length_append, List.length_singleton]
          exact Nat.lt_of_not_le hroom
        · exact collect_length_le (fun w _ out hout => ih w hout) hout

theorem walk_grows (left : Nat) (v : ν) (out : List β) :
    out.length ≤ (walk cap kids leaf skip left v out).length := by
  induction left generalizing v out with
  | zero => exact Nat.le_refl _
  | succ left ih =>
    rw [walk]
    split
    · exact Nat.le_refl _
    · split
      · exact Nat.le_refl _
      · split
        · rw [List.length_append]
          exact Nat.le_add_right _ _
        · exact collect_grows (fun w _ out => ih w out) out

theorem reported_of_skip (h : skip v = true) : ¬ Reported kids leaf skip v b := by
  rintro ⟨path, u, hbelow, _, hskip⟩
  rw [hskip v hbelow.head] at h
  cases h

theorem reported_leaf (h : skip v = false) (hv : kids v = []) :
    Reported kids leaf skip v b ↔ b = leaf v := by
  constructor
  · rintro ⟨path, u, hbelow, rfl, _⟩
    cases hbelow with
    | here _ => rfl
    | down hw _ =>
      rw [hv] at hw
      cases hw
  · rintro rfl
    exact ⟨[v], v, .here hv, rfl, fun w hw => (List.mem_singleton.1 hw) ▸ h⟩

theorem reported_node (h : skip v = false) (hv : kids v ≠ []) :
    Reported kids leaf skip v b ↔ ∃ w ∈ kids v, Reported kids leaf skip w b := by
  constructor
  · rintro ⟨path, u, hbelow, hu, hskip⟩
    cases hbelow with
    | here hnil => exact absurd hnil hv
    | down hw hbelow =>
      exact ⟨_, hw, _, u, hbelow, hu, fun x hx => hskip x (List.mem_cons_of_mem _ hx)⟩
  · rintro ⟨w, hw, path, u, hbelow, hu, hskip⟩
    exact ⟨v :: path, u, .down hw hbelow, hu, List.forall_mem_cons.2 ⟨h, hskip⟩⟩

/-- A walk that met neither of its bounds has collected the leaves that no skipped node stands
above. -/
theorem mem_walk (left : Nat) (v : ν) (hdepth : shallow kids skip left v = true)
    (hcap : (walk cap kids leaf skip left v out).length < cap) (b : β) :
    b ∈ walk cap kids leaf skip left v out ↔ b ∈ out ∨ Reported kids leaf skip v b := by
  induction left generalizing v out b with
  | zero => cases hdepth
  | succ left ih =>
    rw [shallow, Bool.or_eq_true, List.all_eq_true] at hdepth
    rw [walk] at hcap ⊢
    split
    · rename_i hfull
      rw [if_pos hfull] at hcap
      exact absurd hcap (Nat.not_lt.2 hfull)
    · rename_i hroom
      rw [if_neg hroom] at hcap
      split
      · rename_i hskip
        exact (or_iff_left (reported_of_skip hskip)).symm
      · rename_i hskip
        rw [if_neg hskip] at hcap
        rw [Bool.not_eq_true] at hskip
        have hkids := hdepth.resolve_left (by rw [hskip]; exact Bool.false_ne_true)
        split
        · rename_i hv
          rw [List.mem_append, List.mem_singleton, reported_leaf hskip hv]
        · rename_i hv
          rw [reported_node hskip hv]
          split at hcap
          · contradiction
          · exact mem_collect (fun w _ out => walk_grows left w out)
              (fun w hw out hlt b => ih w (hkids w hw) hlt b) hcap b

end PrunedWalk
