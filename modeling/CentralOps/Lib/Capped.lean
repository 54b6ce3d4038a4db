import Mathlib.Data.List.Basic
import Mathlib.Data.List.Count
import Mathlib.Data.Int.Order.Basic

set_option autoImplicit true

/-- Of the admissions up to each one, newest first, at most its limit count for it. -/
def Capped (limit : α → Int) (counts : α → α → Bool) : List α → Prop
  | [] => True
  | a :: l => ((a :: l).countP (counts a) : Int) ≤ limit a ∧ Capped limit counts l

theorem countP_cons_le (a : α) (l : List α) (p : α → Bool) : (a :: l).countP p ≤ l.countP p + 1 := by
  rw [List.countP_cons]
  split <;> omega

theorem Capped.mono {limit : α → Int} {counts counts' : α → α → Bool} {l : List α}
    (h : Capped limit counts l) (himp : ∀ a ∈ l, ∀ b ∈ l, counts' a b = true → counts a b = true) :
    Capped limit counts' l := by
  induction l with
  | nil => trivial
  | cons a l ih =>
    have hcount : (a :: l).countP (counts' a) ≤ (a :: l).countP (counts a) :=
      List.countP_mono_left (fun b hb => himp a List.mem_cons_self b hb)
    constructor
    · exact Int.le_trans (Int.ofNat_le.2 hcount) h.1
    · exact ih h.2 (fun b hb c hc =>
        himp b (List.mem_cons_of_mem a hb) c (List.mem_cons_of_mem a hc))

/-- Those that all count for each other are at most as many as the limit of one of them allows. -/
theorem Capped.countP_le {limit : α → Int} {counts : α → α → Bool} {l : List α}
    (h : Capped limit counts l) {p : α → Bool}
    (hp : ∀ a ∈ l, p a = true → ∀ b ∈ l, p b = true → counts a b = true)
    (hsome : ∃ a ∈ l, p a = true) : ∃ a ∈ l, p a = true ∧ (l.countP p : Int) ≤ limit a := by
  induction l with
  | nil =>
    obtain ⟨a, ha, -⟩ := hsome
    cases ha
  | cons a l ih =>
    by_cases ha : p a = true
    · refine ⟨a, List.mem_cons_self, ha, Int.le_trans (Int.ofNat_le.2 ?_) h.1⟩
      exact List.countP_mono_left (fun b hb hpb => hp a List.mem_cons_self ha b hb hpb)
    · have hrest : ∃ b ∈ l, p b = true := by
        obtain ⟨b, hb, hpb⟩ := hsome
        obtain rfl | hb := List.mem_cons.1 hb
        · exact absurd hpb ha
        · exact ⟨b, hb, hpb⟩
      obtain ⟨b, hb, hpb, hle⟩ := ih h.2 (fun b hb hpb c hc hpc =>
        hp b (List.mem_cons_of_mem a hb) hpb c (List.mem_cons_of_mem a hc) hpc) hrest
      rw [List.countP_cons_of_neg ha]
      exact ⟨b, List.mem_cons_of_mem a hb, hpb, hle⟩
