import CentralOps.Delivery.Dispatch
import CentralOps.Lib.GreedyParts

namespace CentralOps
set_option autoImplicit true

def serializedSize (rt : Runtime) (ev : Obj) : Nat := rt.dumpsSize (.obj ev)

def totalSize (rt : Runtime) (chunk : List Obj) : Nat := (chunk.map (serializedSize rt)).sum

def BreaksCap (rt : Runtime) (maxItems maxBytes : Int) (chunk : List Obj) (ev : Obj) : Prop :=
  maxItems < (chunk ++ [ev]).length ∨ 0 < maxBytes ∧ maxBytes < totalSize rt (chunk ++ [ev])

/-- The batch in order, in chunks within both caps that have no room left. -/
structure ChunksUnderCaps (rt : Runtime) (maxItems maxBytes : Int) (batch : List Obj)
    (chunks : List (List Obj)) : Prop where
  whole : chunks.flatten = batch
  nonempty : batch ≠ [] → ∀ chunk ∈ chunks, chunk ≠ []
  items : ∀ chunk ∈ chunks, chunk.length ≤ maxItems
  bytes : 0 < maxBytes → ∀ chunk ∈ chunks, totalSize rt chunk ≤ maxBytes ∨ chunk.length = 1
  greedy : chunks.IsChain (fun chunk next =>
    ∀ ev, next.head? = some ev → BreaksCap rt maxItems maxBytes chunk ev)

section Caps
variable (rt : Runtime) (maxItems maxBytes : Nat)

def noRoom (chunk : List Obj) (ev : Obj) : Bool :=
  decide (maxItems ≤ chunk.length) || (decide (0 < maxBytes) &&
    decide (maxBytes < (chunk.map (eventBytes rt maxBytes)).sum + eventBytes rt maxBytes ev))

theorem chunkLoop_eq_parts {cur : List Obj} (hcur : cur ≠ []) (batch : List Obj) :
    chunkLoop rt maxItems maxBytes cur (cur.map (eventBytes rt maxBytes)).sum batch =
      GreedyParts.parts (noRoom rt maxItems maxBytes) cur batch := by
  induction batch generalizing cur with
  | nil => rw [chunkLoop, GreedyParts.parts, if_neg (by simpa using hcur)]
  | cons ev batch ih =>
    have hfull : chunkFull rt maxItems maxBytes cur (cur.map (eventBytes rt maxBytes)).sum ev =
        noRoom rt maxItems maxBytes cur ev := by
      rw [chunkFull, List.isEmpty_eq_false_iff.2 hcur]
      rfl
    have hsize : (cur.map (eventBytes rt maxBytes)).sum + eventBytes rt maxBytes ev =
        ((cur ++ [ev]).map (eventBytes rt maxBytes)).sum := by simp
    have hstart : eventBytes rt maxBytes ev = ([ev].map (eventBytes rt maxBytes)).sum := by simp
    have hnext : cur ++ [ev] ≠ [] := List.append_ne_nil_of_left_ne_nil hcur _
    rw [chunkLoop, GreedyParts.parts, hfull, hsize, ih hnext]
    nth_rewrite 1 [hstart]
    rw [ih (List.cons_ne_nil ev [])]

theorem chunkBatch_eq_parts (ev : Obj) (batch : List Obj) :
    chunkBatch rt maxItems maxBytes (ev :: batch) =
      GreedyParts.parts (noRoom rt maxItems maxBytes) [ev] batch := by
  have hloop : chunkLoop rt maxItems maxBytes [] 0 (ev :: batch) =
      chunkLoop rt maxItems maxBytes [ev] (([ev].map (eventBytes rt maxBytes)).sum) batch := by
    simp [chunkLoop, chunkFull]
  have hparts := chunkLoop_eq_parts rt maxItems maxBytes (List.cons_ne_nil ev []) batch
  obtain ⟨chunk, rest, hcons, -⟩ :=
    GreedyParts.prefix_of_parts (noRoom rt maxItems maxBytes) [ev] batch
  rw [chunkBatch, List.isEmpty_cons, if_neg Bool.false_ne_true, hloop, hparts, hcons]
  rfl

variable {rt maxItems maxBytes}

theorem noRoom_iff {chunk : List Obj} {ev : Obj} :
    noRoom rt maxItems maxBytes chunk ev = true ↔ BreaksCap rt maxItems maxBytes chunk ev := by
  have hsize : 0 < maxBytes → (chunk.map (eventBytes rt maxBytes)).sum +
      eventBytes rt maxBytes ev = totalSize rt (chunk ++ [ev]) := by
    intro hpos
    have hbytes : eventBytes rt maxBytes = serializedSize rt := by
      funext ev
      exact if_pos hpos
    rw [hbytes, totalSize, List.map_append, List.sum_append, List.map_singleton,
      List.sum_singleton]
  rw [noRoom, BreaksCap, Bool.or_eq_true, Bool.and_eq_true, decide_eq_true_eq, decide_eq_true_eq,
    decide_eq_true_eq, List.length_append, List.length_singleton]
  constructor
  · rintro (hitems | ⟨hpos, hbytes⟩)
    · exact .inl (by omega)
    · rw [hsize hpos] at hbytes
      exact .inr ⟨by omega, by omega⟩
  · rintro (hitems | ⟨hpos, hbytes⟩)
    · exact .inl (by omega)
    · have hpos : 0 < maxBytes := by omega
      rw [hsize hpos]
      exact .inr ⟨hpos, by omega⟩

theorem caps_of_packed (hitems : 1 ≤ maxItems) {chunk : List Obj}
    (h : GreedyParts.Packed (noRoom rt maxItems maxBytes) chunk) :
    chunk.length ≤ maxItems ∧
      (0 < maxBytes → totalSize rt chunk ≤ maxBytes ∨ chunk.length = 1) := by
  cases h with
  | single ev => exact ⟨hitems, fun _ => .inr rfl⟩
  | @snoc chunk ev _ hroom =>
    have hfits : ¬ BreaksCap rt maxItems maxBytes chunk ev := by
      rw [← noRoom_iff, hroom]
      exact Bool.false_ne_true
    rw [BreaksCap, not_or, not_and, Int.not_lt, Int.not_lt] at hfits
    refine ⟨by exact_mod_cast hfits.1, fun hpos => .inl ?_⟩
    exact_mod_cast hfits.2 (by exact_mod_cast hpos)

theorem noRoom_append (before : List Obj) {chunk : List Obj} {ev : Obj}
    (h : noRoom rt maxItems maxBytes chunk ev = true) :
    noRoom rt maxItems maxBytes (before ++ chunk) ev = true := by
  simp only [noRoom, Bool.or_eq_true, Bool.and_eq_true, decide_eq_true_eq, List.length_append,
    List.map_append, List.sum_append] at h ⊢
  omega

theorem packed_of_caps {chunk : List Obj} (hne : chunk ≠ []) (hitems : chunk.length ≤ maxItems)
    (hbytes : 0 < maxBytes → totalSize rt chunk ≤ maxBytes ∨ chunk.length = 1) :
    GreedyParts.Packed (noRoom rt maxItems maxBytes) chunk := by
  induction chunk using List.reverseRecOn with
  | nil => exact absurd rfl hne
  | append_singleton chunk ev ih =>
    by_cases hone : chunk = []
    · subst hone
      exact .single ev
    · have hlength := List.length_pos_of_ne_nil hone
      rw [List.length_append, List.length_singleton] at hitems hbytes
      have htotal : 0 < maxBytes → totalSize rt (chunk ++ [ev]) ≤ maxBytes := by
        intro hpos
        exact (hbytes hpos).resolve_right (by omega)
      have hroom : ¬ BreaksCap rt maxItems maxBytes chunk ev := by
        rintro (hover | ⟨hpos, hover⟩)
        · rw [List.length_append, List.length_singleton] at hover
          omega
        · have hfits := htotal (by omega)
          omega
      refine .snoc (ih hone (by omega) fun hpos => .inl ?_)
        (Bool.eq_false_of_not_eq_true (noRoom_iff.not.2 hroom))
      have hfits := htotal hpos
      rw [totalSize, List.map_append, List.sum_append] at hfits
      exact (Nat.le_add_right _ _).trans hfits

end Caps

end CentralOps
