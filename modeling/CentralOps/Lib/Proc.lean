import Mathlib.Logic.Basic

set_option autoImplicit true

/-- How a procedure ends, with the state it leaves: by returning, by an exception, or by a
crash, which nothing catches. -/
inductive Ending (σ ε α : Type) where
  | ok (a : α) (s : σ)
  | raised (e : ε) (s : σ)
  | crashed (s : σ)

def Ending.state : Ending σ ε α → σ
  | .ok _ s | .raised _ s | .crashed s => s

def Proc (σ ε α : Type) := σ → Ending σ ε α

namespace Proc

variable {σ ε α β : Type}

instance : Monad (Proc σ ε) where
  pure a := fun s => .ok a s
  bind m f := fun s =>
    match m s with
    | .ok a s' => f a s'
    | .raised e s' => .raised e s'
    | .crashed s' => .crashed s'

theorem bind_apply (m : Proc σ ε α) (f : α → Proc σ ε β) (s : σ) : (m >>= f) s =
    match m s with
    | .ok a s' => f a s'
    | .raised e s' => .raised e s'
    | .crashed s' => .crashed s' := rfl

def raise (e : ε) : Proc σ ε α := fun s => .raised e s

def crash : Proc σ ε α := fun s => .crashed s

def get : Proc σ ε σ := fun s => .ok s s

theorem get_bind_apply (f : σ → Proc σ ε α) (s : σ) : (get >>= f) s = f s s := rfl

def modify (f : σ → σ) : Proc σ ε Unit := fun s => .ok () (f s)

/-- `try m`, with the exception it raised, if any, as a value. -/
def attempt (m : Proc σ ε α) : Proc σ ε (Except ε α) := fun s =>
  match m s with
  | .ok a s' => .ok (.ok a) s'
  | .raised e s' => .ok (.error e) s'
  | .crashed s' => .crashed s'

/-- `f` on each element in turn. -/
def each (f : α → Proc σ ε β) : List α → Proc σ ε (List β)
  | [] => pure []
  | a :: as => do
    let b ← f a
    let bs ← each f as
    pure (b :: bs)

/-- The loop over `as` that carries `b`. -/
def fold (f : β → α → Proc σ ε β) : β → List α → Proc σ ε β
  | b, [] => pure b
  | b, a :: as => do
    let b' ← f b a
    fold f b' as

/-- From `P`, the procedure returns in `Q`; an exception or a crash leaves `R`. -/
def Spec (P : σ → Prop) (m : Proc σ ε α) (Q : α → σ → Prop) (R : σ → Prop) : Prop :=
  ∀ s, P s →
    match m s with
    | .ok a s' => Q a s'
    | .raised _ s' => R s'
    | .crashed s' => R s'

variable {P P' R R' : σ → Prop} {Q : α → σ → Prop} {Q' : β → σ → Prop}
  {m : Proc σ ε α} {f : α → Proc σ ε β}

theorem Spec.pure {a : α} (h : ∀ s, P s → Q a s) : Spec P (Pure.pure a : Proc σ ε α) Q R :=
  fun s hs => h s hs

theorem Spec.raise {e : ε} (h : ∀ s, P s → R s) : Spec P (Proc.raise e : Proc σ ε α) Q R :=
  fun s hs => h s hs

theorem Spec.crash (h : ∀ s, P s → R s) : Spec P (Proc.crash : Proc σ ε α) Q R :=
  fun s hs => h s hs

theorem Spec.modify {g : σ → σ} {Q : Unit → σ → Prop} (h : ∀ s, P s → Q () (g s)) :
    Spec P (Proc.modify g : Proc σ ε Unit) Q R :=
  fun s hs => h s hs

theorem Spec.get_bind {g : σ → Proc σ ε β} (h : ∀ s₀, P s₀ → Spec (fun s => s = s₀) (g s₀) Q' R) :
    Spec P (Proc.get >>= g) Q' R :=
  fun s hs => h s hs s rfl

theorem Spec.bind (hm : Spec P m Q R) (hf : ∀ a, Spec (Q a) (f a) Q' R) :
    Spec P (m >>= f) Q' R := by
  intro s hs
  have h := hm s hs
  change match (match m s with
    | .ok a s' => f a s'
    | .raised e s' => .raised e s'
    | .crashed s' => .crashed s') with
    | .ok a s' => Q' a s'
    | .raised _ s' => R s'
    | .crashed s' => R s'
  cases hms : m s with
  | ok a s' => rw [hms] at h; exact hf a s' h
  | raised e s' => rw [hms] at h; exact h
  | crashed s' => rw [hms] at h; exact h

theorem Spec.weaken {Q₀ : α → σ → Prop} (hm : Spec P m Q R) (hP : ∀ s, P' s → P s)
    (hQ : ∀ a s, Q a s → Q₀ a s) (hR : ∀ s, R s → R' s) : Spec P' m Q₀ R' := by
  intro s hs
  have h := hm s (hP s hs)
  cases hms : m s with
  | ok a s' => rw [hms] at h; exact hQ a s' h
  | raised e s' => rw [hms] at h; exact hR s' h
  | crashed s' => rw [hms] at h; exact hR s' h

theorem Spec.pre (hm : Spec P m Q R) (hP : ∀ s, P' s → P s) : Spec P' m Q R :=
  hm.weaken hP (fun _ _ h => h) (fun _ h => h)

theorem Spec.post {Q₀ : α → σ → Prop} (hm : Spec P m Q R) (hQ : ∀ a s, Q a s → Q₀ a s) :
    Spec P m Q₀ R :=
  hm.weaken (fun _ h => h) hQ (fun _ h => h)

theorem Spec.exit (hm : Spec P m Q R) (hR : ∀ s, R s → R' s) : Spec P m Q R' :=
  hm.weaken (fun _ h => h) (fun _ _ h => h) hR

theorem Spec.ite {c : Prop} [Decidable c] {m' : Proc σ ε α} (ht : c → Spec P m Q R)
    (hf : ¬ c → Spec P m' Q R) : Spec P (if c then m else m') Q R := by
  split
  · next h => exact ht h
  · next h => exact hf h

theorem Spec.assume {p : Prop} (h : p → Spec P m Q R) : Spec (fun s => P s ∧ p) m Q R :=
  fun s hs => h hs.2 s hs.1

theorem Spec.or {Q₀ : α → σ → Prop} (h : Spec P m Q R) (h' : Spec P' m Q₀ R) :
    Spec (fun s => P s ∨ P' s) m (fun a s => Q a s ∨ Q₀ a s) R := by
  rintro s (hs | hs)
  · exact Spec.post h (fun _ _ hq => .inl hq) s hs
  · exact Spec.post h' (fun _ _ hq => .inr hq) s hs

theorem Spec.attempt {Q₀ : Except ε α → σ → Prop} (hm : Spec P m (fun a => Q₀ (.ok a)) R)
    (he : ∀ e s, R s → Q₀ (.error e) s) : Spec P (Proc.attempt m) Q₀ R := by
  intro s hs
  have h := hm s hs
  unfold Proc.attempt
  cases hms : m s with
  | ok a s' => rw [hms] at h; exact h
  | raised e s' => rw [hms] at h; exact he e s' h
  | crashed s' => rw [hms] at h; exact h

theorem Spec.state (hm : Spec P m Q R) (hQ : ∀ a s, Q a s → R s) (hs : P s) :
    R (m s).state := by
  have h := hm s hs
  cases hms : m s with
  | ok a s' => rw [hms] at h; exact hQ a s' h
  | raised e s' => rw [hms] at h; exact h
  | crashed s' => rw [hms] at h; exact h

/-- The procedure keeps an invariant, however it ends. -/
def Keeps (I : σ → Prop) (m : Proc σ ε α) : Prop := Spec I m (fun _ => I) I

variable {I : σ → Prop}

theorem Keeps.pure (a : α) : Keeps I (Pure.pure a : Proc σ ε α) := Spec.pure (fun _ h => h)

theorem Keeps.raise (e : ε) : Keeps I (Proc.raise e : Proc σ ε α) := Spec.raise (fun _ h => h)

theorem Keeps.crash : Keeps I (Proc.crash : Proc σ ε α) := Spec.crash (fun _ h => h)

theorem Keeps.modify {g : σ → σ} (h : ∀ s, I s → I (g s)) :
    Keeps I (Proc.modify g : Proc σ ε Unit) := Spec.modify h

theorem Keeps.bind (hm : Keeps I m) (hf : ∀ a, Keeps I (f a)) : Keeps I (m >>= f) :=
  Spec.bind hm hf

theorem Keeps.ite {c : Prop} [Decidable c] {m' : Proc σ ε α} (ht : Keeps I m)
    (hf : Keeps I m') : Keeps I (if c then m else m') :=
  Spec.ite (fun _ => ht) (fun _ => hf)

theorem Keeps.state (hm : Keeps I m) (hs : I s) : I (m s).state :=
  Spec.state hm (fun _ _ h => h) hs

/-- From `P`, the procedure returns in `Q` or raises in `E`; it does not crash. -/
def Ends (P : σ → Prop) (m : Proc σ ε α) (Q : α → σ → Prop) (E : ε → σ → Prop) : Prop :=
  ∀ s, P s →
    match m s with
    | .ok a s' => Q a s'
    | .raised e s' => E e s'
    | .crashed _ => False

variable {E : ε → σ → Prop}

theorem Ends.pure {a : α} (h : ∀ s, P s → Q a s) : Ends P (Pure.pure a : Proc σ ε α) Q E :=
  fun s hs => h s hs

theorem Ends.raise {e : ε} (h : ∀ s, P s → E e s) : Ends P (Proc.raise e : Proc σ ε α) Q E :=
  fun s hs => h s hs

theorem Ends.modify {g : σ → σ} {Q : Unit → σ → Prop} (h : ∀ s, P s → Q () (g s)) :
    Ends P (Proc.modify g : Proc σ ε Unit) Q E :=
  fun s hs => h s hs

theorem Ends.get_bind {g : σ → Proc σ ε β} (h : ∀ s₀, P s₀ → Ends (fun s => s = s₀) (g s₀) Q' E) :
    Ends P (Proc.get >>= g) Q' E :=
  fun s hs => h s hs s rfl

theorem Ends.bind (hm : Ends P m Q E) (hf : ∀ a, Ends (Q a) (f a) Q' E) :
    Ends P (m >>= f) Q' E := by
  intro s hs
  have h := hm s hs
  change match (match m s with
    | .ok a s' => f a s'
    | .raised e s' => .raised e s'
    | .crashed s' => .crashed s') with
    | .ok a s' => Q' a s'
    | .raised e s' => E e s'
    | .crashed _ => False
  cases hms : m s with
  | ok a s' => rw [hms] at h; exact hf a s' h
  | raised e s' => rw [hms] at h; exact h
  | crashed s' => rw [hms] at h; exact h.elim

theorem Ends.pre (hm : Ends P m Q E) (hP : ∀ s, P' s → P s) : Ends P' m Q E :=
  fun s hs => hm s (hP s hs)

theorem Ends.post {Q₀ : α → σ → Prop} (hm : Ends P m Q E) (hQ : ∀ a s, Q a s → Q₀ a s) :
    Ends P m Q₀ E := by
  intro s hs
  have h := hm s hs
  cases hms : m s with
  | ok a s' => rw [hms] at h; exact hQ a s' h
  | raised e s' => rw [hms] at h; exact h
  | crashed s' => rw [hms] at h; exact h

theorem Ends.ite {c : Prop} [Decidable c] {m' : Proc σ ε α} (ht : c → Ends P m Q E)
    (hf : ¬ c → Ends P m' Q E) : Ends P (if c then m else m') Q E := by
  split
  · next h => exact ht h
  · next h => exact hf h

theorem Ends.attempt {K : Except ε α → σ → Prop} (hm : Ends P m (fun a => K (.ok a))
    (fun e => K (.error e))) : Ends P (Proc.attempt m) K E := by
  intro s hs
  have h := hm s hs
  unfold Proc.attempt
  cases hms : m s with
  | ok a s' => rw [hms] at h; exact h
  | raised e s' => rw [hms] at h; exact h
  | crashed s' => rw [hms] at h; exact h.elim

theorem Ends.each {g : α → Proc σ ε β} {I : List α → σ → Prop} {l : List α}
    (h : ∀ done a rest, l = done ++ a :: rest → Ends (I done) (g a) (fun _ => I (done ++ [a])) E) :
    Ends (I []) (Proc.each g l) (fun _ => I l) E := by
  suffices ∀ rest done, l = done ++ rest →
      Ends (I done) (Proc.each g rest) (fun _ => I l) E from this l [] rfl
  intro rest
  induction rest with
  | nil =>
    intro done hd
    rw [List.append_nil] at hd
    subst hd
    exact Ends.pure (fun _ hs => hs)
  | cons a rest ih =>
    intro done hd
    have hrest : l = (done ++ [a]) ++ rest := by simp [hd]
    exact Ends.bind (h done a rest hd)
      (fun _ => Ends.bind (ih (done ++ [a]) hrest) (fun _ => Ends.pure (fun _ hs => hs)))

end Proc
