import Mathlib.Data.List.Chain

set_option autoImplicit true

namespace GreedyParts
variable {full : List α → α → Bool}

def parts (full : List α → α → Bool) (cur : List α) : List α → List (List α)
  | [] => [cur]
  | x :: xs => if full cur x then cur :: parts full [x] xs else parts full (cur ++ [x]) xs

/-- A part that had room for each of its elements after the first. -/
inductive Packed (full : List α → α → Bool) : List α → Prop
  | single (x : α) : Packed full [x]
  | snoc : Packed full c → full c x = false → Packed full (c ++ [x])

theorem Packed.ne_nil (h : Packed full c) : c ≠ [] := by
  cases h with
  | single x => exact List.cons_ne_nil x []
  | snoc _ _ => exact List.append_ne_nil_of_right_ne_nil _ (List.cons_ne_nil _ _)

theorem flatten_parts (cur xs : List α) : (parts full cur xs).flatten = cur ++ xs := by
  induction xs generalizing cur with
  | nil => rw [parts, List.flatten_singleton, List.append_nil]
  | cons x xs ih =>
    rw [parts]
    split
    · rw [List.flatten_cons, ih, List.singleton_append]
    · rw [ih, List.append_assoc, List.singleton_append]

theorem packed_of_mem_parts {cur xs : List α} (h : Packed full cur) :
    ∀ c ∈ parts full cur xs, Packed full c := by
  induction xs generalizing cur with
  | nil =>
    intro c hc
    rw [List.mem_singleton.1 hc]
    exact h
  | cons x xs ih =>
    intro c hc
    rw [parts] at hc
    split at hc
    · obtain rfl | hc := List.mem_cons.1 hc
      · exact h
      · exact ih (.single x) c hc
    · next hroom => exact ih (h.snoc (Bool.not_eq_true _ ▸ hroom)) c hc

theorem prefix_of_parts (full : List α → α → Bool) (cur xs : List α) :
    ∃ c rest, parts full cur xs = c :: rest ∧ cur <+: c := by
  induction xs generalizing cur with
  | nil => exact ⟨cur, [], rfl, List.prefix_rfl⟩
  | cons x xs ih =>
    rw [parts]
    split
    · exact ⟨cur, _, rfl, List.prefix_rfl⟩
    · obtain ⟨c, rest, hparts, hprefix⟩ := ih (cur ++ [x])
      exact ⟨c, rest, hparts, (List.prefix_append cur [x]).trans hprefix⟩

theorem isChain_parts (cur xs : List α) :
    (parts full cur xs).IsChain (fun c d => ∀ x, d.head? = some x → full c x = true) := by
  induction xs generalizing cur with
  | nil => exact .singleton cur
  | cons x xs ih =>
    rw [parts]
    split
    · next hfull =>
      have hrest := ih [x]
      obtain ⟨c, rest, hparts, ⟨tail, rfl⟩⟩ := prefix_of_parts full [x] xs
      rw [hparts] at hrest ⊢
      apply List.isChain_cons_cons.2 ⟨?_, hrest⟩
      intro y hy
      rw [List.singleton_append, List.head?_cons, Option.some.injEq] at hy
      exact hy ▸ hfull
    · exact ih (cur ++ [x])

theorem Packed.room (h : Packed full c) :
    ∀ {b t : List α} {x : α}, c = b ++ x :: t → b ≠ [] → full b x = false := by
  induction h with
  | single y =>
    intro b t x heq hb
    obtain ⟨z, b, rfl⟩ := List.exists_cons_of_ne_nil hb
    simp at heq
  | snoc _ hroom ih =>
    intro b t x heq hb
    obtain rfl | ⟨t, y, rfl⟩ := List.eq_nil_or_concat' t
    · obtain ⟨rfl, hy⟩ := List.append_inj' heq rfl
      cases hy
      exact hroom
    · exact ih (List.append_inj' (heq.trans (List.append_assoc b (x :: t) [y]).symm) rfl).1 hb

/-- No division into packed parts that began earlier has fewer of them, where a part that has no
room has none with more elements before it. -/
theorem length_parts_le (hmono : ∀ a c x, c ≠ [] → full c x = true → full (a ++ c) x = true)
    {b cur xs : List α} {chunks : List (List α)} (hcur : cur ≠ [])
    (hpacked : ∀ c ∈ chunks, Packed full c) (h : chunks.flatten = b ++ cur ++ xs) :
    (parts full cur xs).length ≤ chunks.length := by
  induction xs generalizing b cur chunks with
  | nil =>
    apply List.length_pos_of_ne_nil
    rintro rfl
    exact List.append_ne_nil_of_right_ne_nil b hcur (by simpa using h.symm)
  | cons x xs ih =>
    rw [parts]
    split
    · next hfull =>
      cases chunks with
      | nil => simp at h
      | cons q qs =>
        obtain ⟨hq, hqs⟩ := List.forall_mem_cons.1 hpacked
        rw [List.flatten_cons] at h
        apply Nat.succ_le_succ
        obtain ⟨rest, -, hrest⟩ | ⟨rest, rfl, hrest⟩ := List.append_eq_append_iff.1 h
        · exact ih (List.cons_ne_nil x []) hqs (b := rest) (by simpa using hrest)
        · cases rest with
          | nil => exact ih (List.cons_ne_nil x []) hqs (b := []) hrest.symm
          | cons y rest =>
            obtain ⟨rfl, -⟩ := List.cons.inj hrest
            have hroom := hq.room rfl (List.append_ne_nil_of_right_ne_nil b hcur)
            rw [hmono b cur x hcur hfull] at hroom
            cases hroom
    · exact ih (List.append_ne_nil_of_left_ne_nil hcur [x]) hpacked (b := b) (by simpa using h)

end GreedyParts
