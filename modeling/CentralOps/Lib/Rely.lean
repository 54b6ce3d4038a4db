import CentralOps.Lib.Dialog

set_option autoImplicit true

namespace Dialog

variable {Q : Type} {A : Q → Type} {α β S : Type}

/-- What holds of a run among others that keep `rely` between its answers: its own answers keep
`guar` and the invariant, and it returns in `post`. -/
def Meets (answers : S → (q : Q) → A q → S → Prop) (rely guar : S → S → Prop) (I : S → Prop)
    (post : α → S → Prop) : Dialog Q A α → S → Prop
  | done a, s => post a s
  | ask q next, s => ∀ t, rely s t → I t → ∀ r u, answers t q r u →
      I u ∧ guar t u ∧ Meets answers rely guar I post (next r) u

section Rules
variable {answers : S → (q : Q) → A q → S → Prop} {rely guar : S → S → Prop} {I : S → Prop}
  {post : α → S → Prop} {post' : β → S → Prop}

theorem Meets.query {q : Q} {f : A q → Dialog Q A β}
    (h : ∀ t, rely s t → I t → ∀ r u, answers t q r u →
      I u ∧ guar t u ∧ Meets answers rely guar I post' (f r) u) :
    Meets answers rely guar I post' (Dialog.query q >>= f) s := h

theorem Meets.bind {t : Dialog Q A α} {f : α → Dialog Q A β}
    (h : Meets answers rely guar I (fun a s => Meets answers rely guar I post' (f a) s) t s) :
    Meets answers rely guar I post' (t >>= f) s := by
  change Meets answers rely guar I post' (t.bind f) s
  induction t generalizing s with
  | done a => exact h
  | ask q next ih =>
    intro t ht hI r u hr
    obtain ⟨hu, hguar, hnext⟩ := h t ht hI r u hr
    exact ⟨hu, hguar, ih r hnext⟩

theorem Meets.weaken {post₀ : α → S → Prop} {t : Dialog Q A α}
    (h : Meets answers rely guar I post t s) (hpost : ∀ a s, post a s → post₀ a s) :
    Meets answers rely guar I post₀ t s := by
  induction t generalizing s with
  | done a => exact hpost a s h
  | ask q next ih =>
    intro t ht hI r u hr
    obtain ⟨hu, hguar, hnext⟩ := h t ht hI r u hr
    exact ⟨hu, hguar, ih r hnext⟩

theorem Meets.fold {f : β → α → Dialog Q A β} {inv : β → S → Prop} {as : List α}
    (hf : ∀ b a s, a ∈ as → inv b s → Meets answers rely guar I inv (f b a) s) (h : inv b s) :
    Meets answers rely guar I inv (Dialog.fold f b as) s := by
  induction as generalizing b s with
  | nil => exact h
  | cons a as ih =>
    apply Meets.bind
    apply (hf b a s List.mem_cons_self h).weaken
    exact fun b' s' hb' => ih (fun b a s ha => hf b a s (List.mem_cons_of_mem _ ha)) hb'

theorem Meets.stable (htrans : ∀ s t u, rely s t → rely t u → rely s u)
    (hpost : ∀ a s t, post a s → rely s t → post a t) {t : Dialog Q A α}
    (h : Meets answers rely guar I post t s) (hs : rely s s') :
    Meets answers rely guar I post t s' := by
  cases t with
  | done a => exact hpost a s s' h hs
  | ask q next => exact fun t ht hI => h t (htrans s s' t hs ht) hI

theorem Meets.of_asks {p : Q → Prop} {ret : α → Prop} {t : Dialog Q A α} (ht : t.Asks p)
    (hret : t.Returns ret)
    (hp : ∀ s q r u, p q → I s → answers s q r u → I u ∧ guar s u ∧ rely s u)
    (htrans : ∀ s t u, rely s t → rely t u → rely s u) (hrefl : ∀ s, rely s s) (s : S) :
    Meets answers rely guar I (fun a u => ret a ∧ rely s u) t s := by
  suffices h : ∀ s', rely s s' → Meets answers rely guar I (fun a u => ret a ∧ rely s u) t s' from
    h s (hrefl s)
  induction t with
  | done a => exact fun s' hs' => ⟨hret, hs'⟩
  | ask q next ih =>
    intro s' hs' t hst hI r u hr
    obtain ⟨hu, hguar, hrely⟩ := hp t q r u ht.1 hI hr
    exact ⟨hu, hguar, ih r (ht.2 r) (hret r) u (htrans s t u (htrans s s' t hs' hst) hrely)⟩

end Rules

end Dialog

namespace Crew

variable {S ι C Q : Type} {A : Q → Type} {α : Type} {R : CrewRules S ι C Q A α}
  {rely guar : ι → S → S → Prop} {I : S → Prop} {rest : ι → S → Prop}

/-- What holds of one worker: at rest its `rest`, and at work that it comes to rest. -/
def Content (R : CrewRules S ι C Q A α) (rely guar : ι → S → S → Prop) (I : S → Prop)
    (rest : ι → S → Prop) (i : ι) (o : Option (C × Dialog Q A α)) (s : S) : Prop :=
  match o with
  | none => rest i s
  | some (_, t) => Dialog.Meets (R.answers i) (rely i) (guar i) I (fun _ u => rest i u) t s

def Assured (R : CrewRules S ι C Q A α) (rely guar : ι → S → S → Prop) (I : S → Prop)
    (rest : ι → S → Prop) (x : Crew S ι C Q A α) : Prop :=
  I x.shared ∧ ∀ i, Content R rely guar I rest i (x.running i) x.shared

theorem Content.stable (htrans : ∀ s t u, rely i s t → rely i t u → rely i s u)
    (hrest : ∀ s t, rest i s → rely i s t → rest i t)
    (h : Content R rely guar I rest i o s) (hs : rely i s s') :
    Content R rely guar I rest i o s' := by
  cases o with
  | none => exact hrest s s' h hs
  | some run => exact Dialog.Meets.stable htrans (fun _ s t => hrest s t) h hs

theorem Reaches.assured [DecidableEq ι]
    (htrans : ∀ i s t u, rely i s t → rely i t u → rely i s u) (hrefl : ∀ i s, rely i s s)
    (hrest : ∀ i s t, rest i s → rely i s t → rest i t)
    (hguar : ∀ i j s t, j ≠ i → guar i s t → rely j s t)
    (hstart : ∀ s i c, I s → rest i s → R.starts s i c →
      Dialog.Meets (R.answers i) (rely i) (guar i) I (fun _ u => rest i u) (R.program c) s)
    (hmove : ∀ s u, I s → R.moves s u → I u ∧ ∀ i, rely i s u) {x y : Crew S ι C Q A α}
    (h : Reaches R x y) (hx : Assured R rely guar I rest x) : Assured R rely guar I rest y := by
  induction h with
  | refl => exact hx
  | @tail y z _ hlast ih =>
    have hput : ∀ i o u, I u → (∀ j, j ≠ i → rely j y.shared u) →
        Content R rely guar I rest i o u →
        Assured R rely guar I rest { (y.put i o) with shared := u } := by
      intro i o u hu hothers ho
      apply And.intro hu
      intro j
      by_cases hji : j = i
      · subst hji
        change Content R rely guar I rest j ((y.put j o).running j) u
        rw [put_running_self]
        exact ho
      · change Content R rely guar I rest j ((y.put i o).running j) u
        rw [put_running_ne y o hji]
        exact (ih.2 j).stable (htrans j) (hrest j) (hothers j hji)
    cases hlast with
    | @start i c hidle hs =>
      have hcontent := ih.2 i
      rw [hidle] at hcontent
      exact hput i _ y.shared ih.1 (fun j _ => hrefl j _) (hstart y.shared i c ih.1 hcontent hs)
    | @answer i c q next r u hrun hr =>
      have hcontent := ih.2 i
      rw [hrun] at hcontent
      obtain ⟨hu, hguar', hnext⟩ := hcontent y.shared (hrefl i _) ih.1 r u hr
      exact hput i _ u hu (fun j hj => hguar i j _ _ hj hguar') hnext
    | @finish i c a hrun =>
      have hcontent := ih.2 i
      rw [hrun] at hcontent
      exact hput i none y.shared ih.1 (fun j _ => hrefl j _) hcontent
    | @move u hm =>
      obtain ⟨hu, hrely⟩ := hmove y.shared u ih.1 hm
      exact ⟨hu, fun i => (ih.2 i).stable (htrans i) (hrest i) (hrely i)⟩

theorem Assured.step [DecidableEq ι] {x y : Crew S ι C Q A α} (hx : Assured R rely guar I rest x)
    (hrefl : ∀ i s, rely i s s) (h : Step R x y) :
    y.shared = x.shared ∨ (∃ i, guar i x.shared y.shared) ∨ R.moves x.shared y.shared := by
  cases h with
  | start hidle hs => exact .inl rfl
  | @answer i c q next r u hrun hr =>
    have hcontent := hx.2 i
    rw [hrun] at hcontent
    exact .inr (.inl ⟨i, (hcontent x.shared (hrefl i _) hx.1 r u hr).2.1⟩)
  | finish hrun => exact .inl rfl
  | move hm => exact .inr (.inr hm)

end Crew
