import Mathlib.Data.List.Basic

set_option autoImplicit true

/-- Entries that are taken one after the other. Each commits by itself what it writes, and the first
that fails ends the batch. -/
def runBatch (step : σ → ι → Except ε (ο × σ)) : List ι → σ → Except ε (List ο) × σ
  | [], s => (.ok [], s)
  | e :: es, s =>
    match step s e with
    | .error x => (.error x, s)
    | .ok (o, s') => ((runBatch step es s').1.map (o :: ·), (runBatch step es s').2)

def AtTurns (step : σ → ι → Except ε (ο × σ)) (P : σ → ι → Prop) : List ι → σ → Prop
  | [], _ => True
  | e :: es, s => P s e ∧ ∀ o s', step s e = .ok (o, s') → AtTurns step P es s'

def RefusedFirst (refused settled : ι → Prop) : List ι → Prop
  | [] => False
  | e :: es => refused e ∨ settled e ∧ RefusedFirst refused settled es

namespace Batch
variable {step : σ → ι → Except ε (ο × σ)} {P Q : σ → ι → Prop} {es fs : List ι} {s s' : σ}
  {os : List ο} {o : ο} {e : ι} {x : ε}

theorem error_cons (h : step s e = .error x) : runBatch step (e :: es) s = (.error x, s) := by
  rw [runBatch, h]

theorem ok_cons (h : step s e = .ok (o, s')) : runBatch step (e :: es) s =
    ((runBatch step es s').1.map (o :: ·), (runBatch step es s').2) := by
  rw [runBatch, h]

theorem append_error (h : runBatch step es s = (.error x, s')) :
    runBatch step (es ++ fs) s = (.error x, s') := by
  induction es generalizing s with
  | nil =>
    rw [runBatch] at h
    cases h
  | cons e es ih =>
    cases hstep : step s e with
    | error y =>
      rw [error_cons hstep] at h
      rw [List.cons_append, error_cons hstep, h]
    | ok next =>
      obtain ⟨o, t⟩ := next
      rw [ok_cons hstep] at h
      rw [List.cons_append, ok_cons hstep]
      cases hrest : runBatch step es t with
      | mk result u =>
        rw [hrest] at h
        obtain ⟨hresult, hu⟩ := Prod.mk.inj h
        cases result with
        | ok _ => cases hresult
        | error y =>
          cases hresult
          rw [ih (hrest.trans (congrArg _ hu))]
          rfl

theorem append_ok (h : runBatch step es s = (.ok os, s')) : runBatch step (es ++ fs) s =
    ((runBatch step fs s').1.map (os ++ ·), (runBatch step fs s').2) := by
  induction es generalizing s os with
  | nil =>
    cases h
    rw [List.nil_append]
    cases hrest : runBatch step fs s' with
    | mk result u =>
      cases result with
      | ok _ => rfl
      | error _ => rfl
  | cons e es ih =>
    cases hstep : step s e with
    | error y =>
      rw [error_cons hstep] at h
      cases h
    | ok next =>
      obtain ⟨o, t⟩ := next
      rw [ok_cons hstep] at h
      rw [List.cons_append, ok_cons hstep]
      cases hrest : runBatch step es t with
      | mk result u =>
        rw [hrest] at h
        obtain ⟨hresult, hu⟩ := Prod.mk.inj h
        cases result with
        | error _ => cases hresult
        | ok rest =>
          cases hresult
          rw [ih (hrest.trans (congrArg _ hu))]
          cases (runBatch step fs s').1 with
          | ok _ => rfl
          | error _ => rfl

theorem map_entries (f : κ → ι) (es : List κ) (s : σ) :
    runBatch step (es.map f) s = runBatch (fun s e => step s (f e)) es s := by
  induction es generalizing s with
  | nil => rfl
  | cons e es ih =>
    rw [List.map_cons, runBatch, runBatch]
    cases step s (f e) with
    | error x => rfl
    | ok next => simp only [ih]

theorem map_outputs (g : ο → κ) (es : List ι) (s : σ) :
    runBatch (fun s e => (step s e).map (fun p => (g p.1, p.2))) es s =
      ((runBatch step es s).1.map (List.map g), (runBatch step es s).2) := by
  induction es generalizing s with
  | nil => rfl
  | cons e es ih =>
    cases hstep : step s e with
    | error x =>
      rw [error_cons hstep, runBatch, hstep]
      rfl
    | ok next =>
      obtain ⟨o, t⟩ := next
      rw [ok_cons hstep, runBatch, hstep]
      change ((runBatch _ es t).1.map (g o :: ·), (runBatch _ es t).2) = _
      rw [ih]
      cases (runBatch step es t).1 with
      | error x => rfl
      | ok os => rfl

theorem length_outputs (h : (runBatch step es s).1 = .ok os) : os.length = es.length := by
  induction es generalizing s os with
  | nil =>
    cases h
    rfl
  | cons e es ih =>
    cases hstep : step s e with
    | error x =>
      rw [error_cons hstep] at h
      cases h
    | ok next =>
      obtain ⟨o, t⟩ := next
      rw [ok_cons hstep] at h
      cases hrest : (runBatch step es t).1 with
      | error x =>
        rw [hrest] at h
        cases h
      | ok rest =>
        rw [hrest] at h
        cases h
        rw [List.length_cons, List.length_cons, ih hrest]

theorem still {report : ι → ο} (hstep : ∀ e ∈ es, step s e = .ok (report e, s)) :
    runBatch step es s = (.ok (es.map report), s) := by
  induction es with
  | nil => rfl
  | cons e es ih =>
    rw [ok_cons (hstep e List.mem_cons_self),
      ih (fun e he => hstep e (List.mem_cons_of_mem _ he))]
    rfl

theorem keeps {R : σ → σ → Prop} (hrefl : ∀ s, R s s) (htrans : ∀ s t u, R s t → R t u → R s u)
    (hstep : ∀ s e o s', P s e → step s e = .ok (o, s') → R s s') (h : AtTurns step P es s) :
    R s (runBatch step es s).2 := by
  induction es generalizing s with
  | nil => exact hrefl s
  | cons e es ih =>
    cases hnext : step s e with
    | error x =>
      rw [error_cons hnext]
      exact hrefl s
    | ok next =>
      obtain ⟨o, t⟩ := next
      rw [ok_cons hnext]
      exact htrans _ _ _ (hstep s e o t h.1 hnext) (ih (h.2 o t hnext))

theorem AtTurns.unconditional (step : σ → ι → Except ε (ο × σ)) (es : List ι) (s : σ) :
    AtTurns step (fun _ _ => True) es s := by
  induction es generalizing s with
  | nil => trivial
  | cons e es ih => exact ⟨trivial, fun _ s' _ => ih s'⟩

section Atomic
variable {refused settled : σ → ι → Prop} {size : σ → Nat}

/-- A step that fails is refused, one that is settled writes nothing, and any other leaves more than
there was. -/
structure Commits (step : σ → ι → Except ε (ο × σ)) (refused settled : σ → ι → Prop)
    (size : σ → Nat) : Prop where
  refuses : ∀ s e, refused s e ↔ ∃ x, step s e = .error x
  stays : ∀ s e o s', step s e = .ok (o, s') → settled s e → s' = s
  grows : ∀ s e o s', step s e = .ok (o, s') → ¬ settled s e → size s < size s'
  apart : ∀ s e, settled s e → ¬ refused s e

theorem Commits.size_le (hcommits : Commits step refused settled size)
    (hstep : step s e = .ok (o, s')) : size s ≤ size s' := by
  by_cases hsettled : settled s e
  · exact Nat.le_of_eq (congrArg size (hcommits.stays s e o s' hstep hsettled).symm)
  · exact Nat.le_of_lt (hcommits.grows s e o s' hstep hsettled)

theorem Commits.size_batch (hcommits : Commits step refused settled size) :
    size s ≤ size (runBatch step es s).2 := by
  induction es generalizing s with
  | nil => exact Nat.le_refl _
  | cons e es ih =>
    cases hstep : step s e with
    | error x => exact Nat.le_of_eq (congrArg (fun p => size p.2) (error_cons hstep).symm)
    | ok next =>
      obtain ⟨o, t⟩ := next
      rw [ok_cons hstep]
      exact Nat.le_trans (hcommits.size_le hstep) ih

theorem Commits.fails_iff (hcommits : Commits step refused settled size) :
    (∃ x, (runBatch step es s).1 = .error x) ↔ ¬ AtTurns step (fun s e => ¬ refused s e) es s := by
  induction es generalizing s with
  | nil =>
    constructor
    · rintro ⟨x, hx⟩
      cases hx
    · intro h
      exact absurd trivial h
  | cons e es ih =>
    cases hstep : step s e with
    | error x =>
      have hrefused : refused s e := (hcommits.refuses s e).2 ⟨x, hstep⟩
      constructor
      · intro _ h
        exact h.1 hrefused
      · intro _
        exact ⟨x, by rw [error_cons hstep]⟩
    | ok next =>
      obtain ⟨o, t⟩ := next
      have haccepted : ¬ refused s e := by
        intro hrefused
        obtain ⟨x, hx⟩ := (hcommits.refuses s e).1 hrefused
        rw [hstep] at hx
        cases hx
      have hfails : (∃ x, (runBatch step (e :: es) s).1 = .error x) ↔
          ∃ x, (runBatch step es t).1 = .error x := by
        rw [ok_cons hstep]
        cases (runBatch step es t).1 with
        | error y => exact ⟨fun _ => ⟨y, rfl⟩, fun _ => ⟨y, rfl⟩⟩
        | ok rest => exact ⟨nofun, nofun⟩
      rw [hfails, ih]
      constructor
      · intro h hturns
        exact h (hturns.2 o t hstep)
      · intro h hturns
        apply h
        refine ⟨haccepted, fun o' t' hstep' => ?_⟩
        rw [hstep] at hstep'
        cases hstep'
        exact hturns

theorem Commits.refusedFirst_fails (hcommits : Commits step refused settled size)
    (h : RefusedFirst (refused s) (settled s) es) :
    ¬ AtTurns step (fun s e => ¬ refused s e) es s := by
  induction es with
  | nil => exact h.elim
  | cons e es ih =>
    intro hturns
    obtain hrefused | ⟨hsettled, hrest⟩ := h
    · exact hturns.1 hrefused
    · cases hstep : step s e with
      | error x => exact hturns.1 ((hcommits.refuses s e).2 ⟨x, hstep⟩)
      | ok next =>
        obtain ⟨o, t⟩ := next
        obtain rfl := hcommits.stays s e o t hstep hsettled
        exact ih hrest (hturns.2 o t hstep)

/-- A failed batch leaves everything as it was just where no entry is refused, or the first that
would write is. -/
theorem Commits.atomic_iff (hcommits : Commits step refused settled size) :
    ((∃ x, (runBatch step es s).1 = .error x) → (runBatch step es s).2 = s) ↔
      AtTurns step (fun s e => ¬ refused s e) es s ∨ RefusedFirst (refused s) (settled s) es := by
  induction es with
  | nil =>
    constructor
    · intro _
      exact .inl trivial
    · rintro _ ⟨x, hx⟩
      cases hx
  | cons e es ih =>
    by_cases hrefused : refused s e
    · obtain ⟨x, hstep⟩ := (hcommits.refuses s e).1 hrefused
      constructor
      · intro _
        exact .inr (.inl hrefused)
      · intro _ _
        rw [error_cons hstep]
    · cases hstep : step s e with
      | error x => exact absurd ((hcommits.refuses s e).2 ⟨x, hstep⟩) hrefused
      | ok next =>
        obtain ⟨o, t⟩ := next
        have hturns : AtTurns step (fun s e => ¬ refused s e) (e :: es) s ↔
            AtTurns step (fun s e => ¬ refused s e) es t := by
          constructor
          · intro h
            exact h.2 o t hstep
          · intro h
            refine ⟨hrefused, fun o' t' hstep' => ?_⟩
            rw [hstep] at hstep'
            cases hstep'
            exact h
        by_cases hsettled : settled s e
        · obtain rfl := hcommits.stays s e o t hstep hsettled
          rw [hturns, RefusedFirst, or_iff_right hrefused, and_iff_right hsettled, ← ih,
            hcommits.fails_iff, hcommits.fails_iff, hturns, ok_cons hstep]
        · have hgrows := hcommits.grows s e o t hstep hsettled
          rw [RefusedFirst, or_iff_right hrefused]
          constructor
          · intro h
            refine .inl (by_contra fun hfails => ?_)
            have hsame := h (hcommits.fails_iff.2 hfails)
            rw [ok_cons hstep] at hsame
            have hsize : size t ≤ size (runBatch step es t).2 := hcommits.size_batch
            rw [hsame] at hsize
            exact Nat.lt_irrefl _ (Nat.lt_of_lt_of_le hgrows hsize)
          · rintro (h | ⟨hnot, -⟩) hfails
            · exact absurd h (hcommits.fails_iff.1 hfails)
            · exact absurd hnot hsettled

end Atomic

section Preview
variable {preview : σ → ι → ο} {s₀ : σ}

/-- What a batch reports is what a preview at the start announces just where every entry is seen at
its turn as it was at the start. -/
theorem reports_iff (hpreview : ∀ s e o s', step s e = .ok (o, s') → o = preview s e)
    (h : (runBatch step es s).1 = .ok os) :
    os = es.map (preview s₀) ↔ AtTurns step (fun s e => preview s e = preview s₀ e) es s := by
  induction es generalizing s os with
  | nil =>
    cases h
    exact ⟨fun _ => trivial, fun _ => rfl⟩
  | cons e es ih =>
    cases hstep : step s e with
    | error x =>
      rw [error_cons hstep] at h
      cases h
    | ok next =>
      obtain ⟨o, t⟩ := next
      rw [ok_cons hstep] at h
      cases hrest : (runBatch step es t).1 with
      | error x =>
        rw [hrest] at h
        cases h
      | ok rest =>
        rw [hrest] at h
        cases h
        rw [List.map_cons, List.cons.injEq, hpreview s e o t hstep, ih hrest]
        constructor
        · rintro ⟨hhead, htail⟩
          refine ⟨hhead, fun o' t' hstep' => ?_⟩
          rw [hstep] at hstep'
          cases hstep'
          exact htail
        · intro h
          exact ⟨h.1, h.2 o t hstep⟩

end Preview

end Batch
