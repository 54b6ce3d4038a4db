import Mathlib.Algebra.Order.Ring.Nat
import Mathlib.Data.List.Basic
import Mathlib.Logic.Function.Iterate

/-! Reading a list that is sorted by time, from a window on and at most so many at once: the next
window begins at the last element that was read. -/

namespace Windows
set_option autoImplicit true

variable {α τ : Type} [LinearOrder τ] (time : α → τ) (l : List α) (cap : Nat)

/-- The elements from a time on. -/
def since (w : τ) : List α := l.filter (fun a => w ≤ time a)

/-- The elements at a time. -/
def at_ (t : τ) : List α := l.filter (fun a => time a = t)

/-- What is read from a window on. -/
def page (w : τ) : List α := (since time l w).take cap

/-- The next window. -/
def advance (w : τ) : τ := ((page time l cap w).getLast?.map time).getD w

def Sorted : Prop := l.Pairwise (fun a b => time a ≤ time b)

variable {time l cap} {w t : τ} {a : α}

theorem mem_since : a ∈ since time l w ↔ a ∈ l ∧ w ≤ time a := by
  rw [since, List.mem_filter, decide_eq_true_eq]

theorem Sorted.since_sorted (h : Sorted time l) (w : τ) : Sorted time (since time l w) :=
  List.Pairwise.filter _ h

theorem page_subset (ha : a ∈ page time l cap w) : a ∈ since time l w := List.mem_of_mem_take ha

theorem page_eq_since (h : (since time l w).length ≤ cap) : page time l cap w = since time l w :=
  List.take_of_length_le h

theorem le_advance : w ≤ advance time l cap w := by
  rw [advance]
  cases hlast : (page time l cap w).getLast? with
  | none => exact le_rfl
  | some a => exact (mem_since.1 (page_subset (List.mem_of_getLast? hlast))).2

theorem Sorted.le_getLast {l : List α} (h : Sorted time l) (ha : a ∈ l) {b : α}
    (hlast : l.getLast? = some b) : time a ≤ time b := by
  obtain ⟨front, rfl⟩ := List.getLast?_eq_some_iff.1 hlast
  obtain ha | ha := List.mem_append.1 ha
  · exact (List.pairwise_append.1 h).2.2 a ha b (List.mem_singleton_self b)
  · rw [List.mem_singleton.1 ha]

theorem Sorted.page_le (h : Sorted time l) (ha : a ∈ page time l cap w) :
    time a ≤ advance time l cap w := by
  have hpage : Sorted time (page time l cap w) := (h.since_sorted w).take
  rw [advance]
  cases hlast : (page time l cap w).getLast? with
  | none =>
    rw [List.getLast?_eq_none_iff.1 hlast] at ha
    cases ha
  | some b => exact hpage.le_getLast ha hlast

theorem Sorted.mem_page (h : Sorted time l) (ha : a ∈ since time l w)
    (hbefore : time a < advance time l cap w) : a ∈ page time l cap w := by
  have hsplit := List.take_append_drop cap (since time l w)
  have hsorted := h.since_sorted w
  rw [← hsplit] at ha hsorted
  obtain ha | ha := List.mem_append.1 ha
  · exact ha
  · exfalso
    rw [advance] at hbefore
    cases hlast : (page time l cap w).getLast? with
    | none =>
      rw [hlast] at hbefore
      exact absurd (mem_since.1 (List.mem_of_mem_drop ha)).2 (not_le.2 hbefore)
    | some b =>
      rw [hlast] at hbefore
      have hle := (List.pairwise_append.1 hsorted).2.2 b (List.mem_of_getLast? hlast) a ha
      exact absurd hle (not_le.2 hbefore)

theorem sublist_filter {l' : List α} {p : α → Bool} (h : l'.Sublist l) (hp : ∀ a ∈ l', p a = true) :
    l'.Sublist (l.filter p) := by
  have hfilter := h.filter p
  rwa [List.filter_eq_self.2 hp] at hfilter

theorem since_sublist {w' : τ} (h : w ≤ w') :
    (since time l w').Sublist (since time l w) := by
  apply List.monotone_filter_right
  intro a ha
  exact decide_eq_true (le_trans h (of_decide_eq_true ha))

theorem since_length_lt {w' : τ} (h : w ≤ w') (ha : a ∈ since time l w) (hout : time a < w') :
    (since time l w').length < (since time l w).length := by
  obtain hlt | heq := Nat.lt_or_eq_of_le (since_sublist h).length_le
  · exact hlt
  · rw [← (since_sublist h).eq_of_length heq] at ha
    exact absurd (mem_since.1 ha).2 (not_le.2 hout)

/-- A full page either leaves something behind its window, or all of it is of one time. -/
theorem Sorted.progress (h : Sorted time l) (hfull : cap ≤ (since time l w).length) :
    (since time l (advance time l cap w)).length < (since time l w).length ∨
      since time l (advance time l cap w) = since time l w ∧
        cap ≤ (at_ time l (advance time l cap w)).length := by
  by_cases hout : ∃ a ∈ since time l w, time a < advance time l cap w
  · obtain ⟨a, ha, hout⟩ := hout
    exact .inl (since_length_lt le_advance ha hout)
  · right
    have hall : ∀ a ∈ since time l w, advance time l cap w ≤ time a := by
      intro a ha
      by_contra hlt
      exact hout ⟨a, ha, not_le.1 hlt⟩
    constructor
    · apply (since_sublist le_advance).eq_of_length_le
      apply List.Sublist.length_le
      exact sublist_filter List.filter_sublist fun a ha => decide_eq_true (hall a ha)
    · have hlen : (page time l cap w).length = cap := by
        rw [page, List.length_take, Nat.min_eq_left hfull]
      refine hlen.symm.le.trans (List.Sublist.length_le ?_)
      apply sublist_filter ((List.take_sublist _ _).trans List.filter_sublist)
      intro a ha
      exact decide_eq_true (le_antisymm (h.page_le ha) (hall a (page_subset ha)))

variable (time l cap) in
def windowAt (w : τ) (k : Nat) : τ := (advance time l cap)^[k] w

/-- Some window is the last: less than a page begins at it. -/
def Ends (time : α → τ) (l : List α) (cap : Nat) (w : τ) : Prop :=
  ∃ k, (since time l (windowAt time l cap w k)).length < cap

def Covers (time : α → τ) (l : List α) (cap : Nat) (w : τ) (n : Nat) : Prop :=
  ∀ a ∈ since time l w, ∃ k < n, a ∈ page time l cap (windowAt time l cap w k)

theorem Covers.succ (h : Sorted time l) {n : Nat}
    (hc : Covers time l cap (advance time l cap w) n) : Covers time l cap w (n + 1) := by
  intro a ha
  by_cases hnext : advance time l cap w ≤ time a
  · obtain ⟨k, hk, hpage⟩ := hc a (mem_since.2 ⟨(mem_since.1 ha).1, hnext⟩)
    exact ⟨k + 1, Nat.succ_lt_succ hk, hpage⟩
  · exact ⟨0, Nat.succ_pos n, h.mem_page ha (not_le.1 hnext)⟩

theorem covers_of_ends (h : Sorted time l) {k : Nat}
    (hend : (since time l (windowAt time l cap w k)).length ≤ cap) :
    Covers time l cap w (k + 1) := by
  induction k generalizing w with
  | zero =>
    intro a ha
    refine ⟨0, Nat.one_pos, ?_⟩
    rw [page_eq_since hend]
    exact ha
  | succ k ih => exact (ih hend).succ h

theorem Sorted.ends (h : Sorted time l) (hcond : ∀ t, w ≤ t → (at_ time l t).length < cap) :
    Ends time l cap w := by
  induction hn : (since time l w).length using Nat.strong_induction_on generalizing w with
  | _ n ih =>
    by_cases hfull : cap ≤ (since time l w).length
    · obtain hlt | ⟨-, hstuck⟩ := h.progress hfull
      · obtain ⟨k, hk⟩ := ih _ (hn ▸ hlt) (fun t ht => hcond t (le_trans le_advance ht)) rfl
        exact ⟨k + 1, hk⟩
      · exact absurd (hcond _ le_advance) (not_lt.2 hstuck)
    · exact ⟨0, not_le.1 hfull⟩

theorem Sorted.covers (h : Sorted time l)
    (hcond : ∀ t, w ≤ t → (at_ time l t).length < cap ∨ (since time l t).length ≤ cap) :
    ∃ n, Covers time l cap w n := by
  induction hn : (since time l w).length using Nat.strong_induction_on generalizing w with
  | _ n ih =>
    by_cases hall : (since time l w).length ≤ cap
    · exact ⟨1, covers_of_ends (k := 0) h hall⟩
    · obtain hlt | ⟨hsame, hstuck⟩ := h.progress (not_le.1 hall).le
      · obtain ⟨m, hm⟩ := ih _ (hn ▸ hlt) (fun t ht => hcond t (le_trans le_advance ht)) rfl
        exact ⟨m + 1, hm.succ h⟩
      · obtain hfew | hfew := hcond (advance time l cap w) le_advance
        · exact absurd hfew (not_lt.2 hstuck)
        · rw [hsame] at hfew
          exact absurd hfew hall

theorem Sorted.split (h : Sorted time l) (t : τ) :
    l.filter (fun a => time a < t) ++ since time l t = l := by
  induction l with
  | nil => rfl
  | cons a l ih =>
    obtain ⟨hfirst, hrest⟩ := List.pairwise_cons.1 h
    by_cases hat : time a < t
    · have hkeep : since time (a :: l) t = since time l t :=
        List.filter_cons_of_neg (by simpa using hat)
      rw [List.filter_cons_of_pos (by simpa using hat), hkeep, List.cons_append, ih hrest]
    · have hall : ∀ b ∈ a :: l, t ≤ time b := by
        intro b hb
        obtain rfl | hb := List.mem_cons.1 hb
        · exact not_lt.1 hat
        · exact (not_lt.1 hat).trans (hfirst b hb)
      rw [List.filter_eq_nil_iff.2 (by simpa using hall), List.nil_append]
      exact List.filter_eq_self.2 fun b hb => decide_eq_true (hall b hb)

theorem since_since (h : w ≤ t) : since time (since time l w) t = since time l t := by
  rw [since, since, since, List.filter_filter]
  apply List.filter_congr
  intro a _
  rw [← Bool.decide_and, decide_eq_decide]
  exact ⟨And.left, fun hat => ⟨hat, h.trans hat⟩⟩

/-- A time with a full page of its own holds the window back. -/
theorem Sorted.advance_le (h : Sorted time l) (hwt : w ≤ t) (hfull : cap ≤ (at_ time l t).length) :
    advance time l cap w ≤ t := by
  by_contra hpast
  obtain ⟨b, hb, hlate⟩ : ∃ b ∈ page time l cap w, t < time b := by
    rw [advance, not_le] at hpast
    cases hlast : (page time l cap w).getLast? with
    | none =>
      rw [hlast] at hpast
      exact absurd hwt (not_le.2 hpast)
    | some b =>
      rw [hlast] at hpast
      exact ⟨b, List.mem_of_getLast? hlast, hpast⟩
  have hsorted := h.since_sorted w
  rw [← List.take_append_drop cap (since time l w)] at hsorted
  have hrest : ((since time l w).drop cap).filter (fun a => time a = t) = [] := by
    rw [List.filter_eq_nil_iff]
    intro a ha heq
    have hle := (List.pairwise_append.1 hsorted).2.2 b hb a ha
    rw [of_decide_eq_true heq] at hle
    exact absurd hle (not_le.2 hlate)
  have hat : at_ time l t = (page time l cap w).filter (fun a => time a = t) := by
    have hsince : at_ time l t = (since time l w).filter (fun a => time a = t) := by
      rw [at_, since, List.filter_filter]
      apply List.filter_congr
      intro a _
      rw [← Bool.decide_and, decide_eq_decide]
      exact ⟨fun heq => ⟨heq, heq ▸ hwt⟩, And.left⟩
    conv_lhs => rw [hsince, ← List.take_append_drop cap (since time l w), List.filter_append, hrest,
      List.append_nil]
    rfl
  have hfew : ((page time l cap w).filter (fun a => time a = t)).length <
      (page time l cap w).length := by
    rw [List.length_filter_lt_length_iff_exists]
    exact ⟨b, hb, by simpa using hlate.ne'⟩
  have hcap : (page time l cap w).length ≤ cap := List.length_take_le _ _
  rw [hat] at hfull
  omega

theorem Sorted.windowAt_le (h : Sorted time l) (hwt : w ≤ t)
    (hfull : cap ≤ (at_ time l t).length) (k : Nat) : windowAt time l cap w k ≤ t := by
  induction k generalizing w with
  | zero => exact hwt
  | succ k ih => exact ih (h.advance_le hwt hfull)

theorem Sorted.ends_iff (h : Sorted time l) :
    Ends time l cap w ↔ ∀ t, w ≤ t → (at_ time l t).length < cap := by
  refine ⟨?_, h.ends⟩
  rintro ⟨k, hk⟩ t hwt
  by_contra hfew
  have hfull : cap ≤ (at_ time l t).length := not_lt.1 hfew
  have hat : (at_ time l t).Sublist (since time l (windowAt time l cap w k)) := by
    apply sublist_filter List.filter_sublist
    intro a ha
    have hwindow := h.windowAt_le hwt hfull k
    rw [← of_decide_eq_true (List.mem_filter.1 ha).2] at hwindow
    exact decide_eq_true hwindow
  exact absurd (hfull.trans hat.length_le) (not_le.2 hk)

theorem Sorted.covers_iff (h : Sorted time l) (hnodup : l.Nodup) :
    (∃ n, Covers time l cap w n) ↔
      ∀ t, w ≤ t → (at_ time l t).length < cap ∨ (since time l t).length ≤ cap := by
  refine ⟨?_, h.covers⟩
  rintro ⟨n, hcovers⟩ t hwt
  by_contra hboth
  rw [not_or, not_lt, not_le] at hboth
  obtain ⟨hfull, hmore⟩ := hboth
  -- the element behind the first page of `t` is on no page
  have hmem : (since time l t)[cap] ∈ since time l t := List.getElem_mem hmore
  have hlate : t ≤ time (since time l t)[cap] := (mem_since.1 hmem).2
  obtain ⟨k, -, hpage⟩ := hcovers _ (mem_since.2 ⟨(mem_since.1 hmem).1, hwt.trans hlate⟩)
  have hwindow := h.windowAt_le hwt hfull k
  rw [page, ← (h.since_sorted _).split t, since_since hwindow, List.take_append] at hpage
  obtain hbefore | hpage := List.mem_append.1 hpage
  · have hout := (List.mem_filter.1 (List.mem_of_mem_take hbefore)).2
    exact absurd (of_decide_eq_true hout) (not_lt.2 hlate)
  · have hsplit : ((since time l t).take cap ++ (since time l t).drop cap).Nodup := by
      rw [List.take_append_drop]
      exact hnodup.filter _
    have htake : (since time l t)[cap] ∈ (since time l t).take cap :=
      (List.take_subset_take_left _ (Nat.sub_le _ _)) hpage
    have hdrop : (since time l t)[cap] ∈ (since time l t).drop cap :=
      List.drop_eq_getElem_cons hmore ▸ List.mem_cons_self
    exact (List.nodup_append.1 hsplit).2.2 _ htake _ hdrop rfl

end Windows
