import CentralOps.Lib.Proc

set_option autoImplicit true

namespace Proc

variable {σ ε α β γ : Type}

section Bind
variable {m : Proc σ ε α} {f : α → Proc σ ε β} {s : σ}

theorem bind_ok (h : m s = .ok a s') (f : α → Proc σ ε β) : (m >>= f) s = f a s' := by
  rw [bind_apply, h]

theorem bind_raised (h : m s = .raised e s') (f : α → Proc σ ε β) :
    (m >>= f) s = .raised e s' := by
  rw [bind_apply, h]

theorem bind_crashed (h : m s = .crashed s') (f : α → Proc σ ε β) :
    (m >>= f) s = .crashed s' := by
  rw [bind_apply, h]

theorem bind_eq_ok (h : (m >>= f) s = .ok b s'') : ∃ a s', m s = .ok a s' ∧ f a s' = .ok b s'' := by
  cases hm : m s with
  | ok a s' =>
    rw [bind_ok hm] at h
    exact ⟨a, s', rfl, h⟩
  | raised e s' =>
    rw [bind_raised hm] at h
    cases h
  | crashed s' =>
    rw [bind_crashed hm] at h
    cases h

theorem attempt_ok (h : m s = .ok a s') : attempt m s = .ok (.ok a) s' := by
  unfold attempt
  rw [h]

theorem attempt_raised (h : m s = .raised e s') : attempt m s = .ok (.error e) s' := by
  unfold attempt
  rw [h]

theorem attempt_crashed (h : m s = .crashed s') : attempt m s = .crashed s' := by
  unfold attempt
  rw [h]

end Bind

/-- Every call that the loop comes to, with what the loop carries there, meets `H`. -/
def FoldAlways (f : β → α → Proc σ ε β) (H : β → α → σ → Prop) : β → List α → σ → Prop
  | _, [], _ => True
  | b, a :: as, s => H b a s ∧ ∀ b' s', f b a s = .ok b' s' → FoldAlways f H b' as s'

section Fold
variable {f : β → α → Proc σ ε β} {H H' : β → α → σ → Prop} {as : List α}

theorem FoldAlways.mono (h : ∀ b a s, H b a s → H' b a s) {b : β} {s : σ}
    (hf : FoldAlways f H b as s) : FoldAlways f H' b as s := by
  induction as generalizing b s with
  | nil => trivial
  | cons a as ih => exact ⟨h b a s hf.1, fun b' s' hstep => ih (hf.2 b' s' hstep)⟩

theorem FoldAlways.and {b : β} {s : σ} (h : FoldAlways f H b as s) (h' : FoldAlways f H' b as s) :
    FoldAlways f (fun b a s => H b a s ∧ H' b a s) b as s := by
  induction as generalizing b s with
  | nil => trivial
  | cons a as ih => exact ⟨⟨h.1, h'.1⟩, fun b' s' hstep => ih (h.2 b' s' hstep) (h'.2 b' s' hstep)⟩

theorem fold_raised {b : β} {s : σ} {e : ε} (h : f b a s = .raised e s') :
    fold f b (a :: as) s = .raised e s' :=
  bind_raised h _

theorem foldAlways_raised (b : β) (as : List α) (s : σ) :
    FoldAlways f (fun b' a s' => ∀ e s'', f b' a s' = .raised e s'' →
      fold f b as s = .raised e s'') b as s := by
  induction as generalizing b s with
  | nil => trivial
  | cons a as ih =>
    refine ⟨fun e s' hraised => fold_raised hraised, ?_⟩
    intro b' s' hstep
    have hrest : fold f b (a :: as) s = fold f b' as s' := bind_ok hstep _
    rw [hrest]
    exact ih b' s'

end Fold
end Proc
