import CentralOps.Lib.Renaming

set_option autoImplicit true

/-- A scalar, or an address in `P`. -/
def Ref.Within (P : Nat → Prop) : Ref κ → Prop
  | .scalar _ => True
  | .addr a => P a

theorem Ref.Within.mono {P P' : Nat → Prop} (hP : ∀ a, P a → P' a) {v : Ref κ} (hv : v.Within P) :
    v.Within P' := by
  cases v with
  | scalar x => trivial
  | addr a => exact hP a hv

theorem Ref.Within.paired {P : Nat → Prop} {R : Nat → Nat → Prop} (hR : ∀ a, P a → R a a) {v : Ref κ}
    (hv : v.Within P) : Ref.Paired R v v := by
  cases v with
  | scalar x => exact .scalar x
  | addr a => exact .addr (hR a hv)

theorem Ref.Paired.within {P : Nat → Prop} {R : Nat → Nat → Prop} (hR : ∀ a b, R a b → P a)
    {v v' : Ref κ} (hv : Ref.Paired R v v') : v.Within P := by
  cases hv with
  | scalar x => trivial
  | addr hab => exact hR _ _ hab

/-- Every member of a container. -/
def Shape.All (P : ν → Prop) : Shape κ ν → Prop
  | .scalar _ => True
  | .list xs => ∀ x ∈ xs, P x
  | .dict fs => ∀ p ∈ fs, P p.2

theorem Shape.All.mono {P P' : ν → Prop} (hP : ∀ v, P v → P' v) {c : Shape κ ν} (hc : c.All P) :
    c.All P' := by
  cases c with
  | scalar x => trivial
  | list xs => exact fun x hx => hP x (hc x hx)
  | dict fs => exact fun p hp => hP p.2 (hc p hp)

theorem Shape.All.rel {P : ν → Prop} {V : ν → ν → Prop} (hV : ∀ v, P v → V v v) {c : Shape κ ν}
    (hc : c.All P) : Shape.Rel V c c := by
  cases c with
  | scalar x => exact .scalar x
  | list xs => exact .list (List.forall₂_same.2 fun x hx => hV x (hc x hx))
  | dict fs => exact .dict (List.forall₂_same.2 fun p hp => ⟨rfl, hV p.2 (hc p hp)⟩)

theorem forall₂_left {V : ν → ν' → Prop} {P : ν → Prop} (hV : ∀ v v', V v v' → P v)
    (h : List.Forall₂ V xs ys) : ∀ x ∈ xs, P x := by
  induction h with
  | nil => exact fun x hx => absurd hx List.not_mem_nil
  | cons hv _ ih => exact List.forall_mem_cons.2 ⟨hV _ _ hv, ih⟩

theorem Shape.Rel.all {P : ν → Prop} {V : ν → ν' → Prop} (hV : ∀ v v', V v v' → P v)
    {c : Shape κ ν} {c' : Shape κ ν'} (hc : Shape.Rel V c c') : c.All P := by
  cases hc with
  | scalar x => trivial
  | list h => exact forall₂_left hV h
  | dict h => exact forall₂_left (P := fun p => P p.2) (fun p q hpq => hV _ _ hpq.2) h

theorem all_lookup {P : ν → Prop} {fs : List (String × ν)} (hfs : ∀ p ∈ fs, P p.2)
    (hk : fs.lookup k = some v) : P v :=
  hfs (k, v) (Assoc.mem_of_lookup hk)

theorem all_set {P : ν → Prop} {fs : List (String × ν)} (hfs : ∀ p ∈ fs, P p.2) (k : String)
    (hv : P v) : ∀ p ∈ Assoc.set k v fs, P p.2 := by
  intro p hp
  rcases Assoc.mem_of_mem_set hp with rfl | hp
  · exact hv
  · exact hfs p hp

namespace Heap

variable {κ : Type} {h h' : Heap κ} {K : Nat → Prop}

/-- A reference to an existing cell that is not in `K`. -/
def Outside (K : Nat → Prop) (h : Heap κ) (v : Ref κ) : Prop :=
  v.Within (fun a => a < h.length ∧ ¬ K a)

/-- No reference dangles, and no cell outside `K` refers to one of `K`. -/
structure Fenced (K : Nat → Prop) (h : Heap κ) : Prop where
  found : ∀ (a : Nat) (c : Shape κ (Ref κ)), h[a]? = some c → c.All (Ref.Within (· < h.length))
  apart : ∀ (a : Nat) (c : Shape κ (Ref κ)), h[a]? = some c → ¬ K a → c.All (Ref.Within (¬ K ·))
  below : ∀ a, K a → a < h.length

theorem fenced_found
    (hfound : ∀ (a : Nat) (c : Shape κ (Ref κ)), h[a]? = some c → c.All (Ref.Within (· < h.length))) :
    Fenced (fun _ => False) h where
  found := hfound
  apart a c hc _ := by
    refine (hfound a c hc).mono fun v hv => ?_
    exact Ref.Within.mono (fun _ _ => id) hv
  below _ ha := ha.elim

theorem Outside.mono (hle : h.length ≤ h'.length) {v : Ref κ} (hv : Outside K h v) :
    Outside K h' v :=
  Ref.Within.mono (fun _ ha => ⟨ha.1.trans_le hle, ha.2⟩) hv

theorem Outside.found {v : Ref κ} (hv : Outside K h v) : v.Within (· < h.length) :=
  Ref.Within.mono (fun _ ha => ha.1) hv

theorem Outside.apart {v : Ref κ} (hv : Outside K h v) : v.Within (¬ K ·) :=
  Ref.Within.mono (fun _ ha => ha.2) hv

theorem Outside.within {v : Ref κ} (hfound : v.Within (· < h.length)) (hapart : v.Within (¬ K ·)) :
    Outside K h v := by
  cases v with
  | scalar x => trivial
  | addr a => exact ⟨hfound, hapart⟩

theorem All.outside {c : Shape κ (Ref κ)} (hfound : c.All (Ref.Within (· < h.length)))
    (hapart : c.All (Ref.Within (¬ K ·))) : c.All (Outside K h) := by
  cases c with
  | scalar x => trivial
  | list xs => exact fun x hx => Outside.within (hfound x hx) (hapart x hx)
  | dict fs => exact fun p hp => Outside.within (hfound p hp) (hapart p hp)

theorem Fenced.cell (hf : Fenced K h) {c : Shape κ (Ref κ)} (ha : h[a]? = some c) (hK : ¬ K a) :
    c.All (Outside K h) :=
  All.outside (hf.found a c ha) (hf.apart a c ha hK)

/-- What stands in a value outside `K` is outside `K`. -/
theorem Fenced.shape (hf : Fenced K h) {v : Ref κ} (hv : Outside K h v) :
    (h.shape v).All (Outside K h) := by
  cases v with
  | scalar x => trivial
  | addr a =>
    rw [Heap.shape, List.getElem?_eq_getElem hv.1]
    exact hf.cell (List.getElem?_eq_getElem hv.1) hv.2

theorem Fenced.append (hf : Fenced K h) {c : Shape κ (Ref κ)} (hc : c.All (Outside K h)) :
    Fenced K (h ++ [c]) where
  found a d hd := by
    have hle : h.length ≤ (h ++ [c]).length := by simp
    rw [getElem?_append_one] at hd
    split at hd
    · cases hd
      exact hc.mono fun v hv => hv.found.mono fun a ha => ha.trans_le hle
    · exact (hf.found a d hd).mono fun v hv => hv.mono fun a ha => ha.trans_le hle
  apart a d hd hK := by
    rw [getElem?_append_one] at hd
    split at hd
    · cases hd
      exact hc.mono fun v hv => hv.apart
    · exact hf.apart a d hd hK
  below a ha := by
    have hlt := hf.below a ha
    rw [List.length_append]
    omega

theorem Fenced.new_outside (hf : Fenced K h) (c : Shape κ (Ref κ)) :
    Outside K (h ++ [c]) (.addr h.length) :=
  ⟨by simp, fun hK => Nat.lt_irrefl _ (hf.below _ hK)⟩

theorem Fenced.make (hf : Fenced K h) {c : Shape κ (Ref κ)} (hc : c.All (Outside K h)) :
    Fenced K (h.make c).2 ∧ h.length ≤ (h.make c).2.length ∧ Outside K (h.make c).2 (h.make c).1 := by
  cases c with
  | scalar x => exact ⟨hf, le_rfl, trivial⟩
  | list xs => exact ⟨hf.append hc, by simp [Heap.make], hf.new_outside _⟩
  | dict fs => exact ⟨hf.append hc, by simp [Heap.make], hf.new_outside _⟩

theorem length_setItem (h : Heap κ) (d : Ref κ) (k : String) (v : Ref κ) :
    (h.setItem d k v).length = h.length := by
  unfold setItem
  split
  · rfl
  · split
    · exact List.length_set
    · rfl

/-- The cells after `d[k] = v`. -/
theorem getElem?_setItem (h : Heap κ) (a : Nat) (k : String) (v : Ref κ) {fs : List (String × Ref κ)}
    (ha : h[a]? = some (.dict fs)) (b : Nat) :
    (h.setItem (.addr a) k v)[b]? = if a = b then some (.dict (Assoc.set k v fs)) else h[b]? := by
  have hlt := (List.getElem?_eq_some_iff.1 ha).1
  simp only [setItem, ha]
  rw [List.getElem?_set]
  by_cases hab : a = b
  · rw [if_pos hab, if_pos hab, if_pos (hab ▸ hlt)]
  · rw [if_neg hab, if_neg hab]

/-- A write of a value outside `K` into a dict outside `K`. -/
theorem Fenced.setItem (hf : Fenced K h) {d v : Ref κ} (hv : Outside K h v) (k : String) :
    Fenced K (h.setItem d k v) := by
  cases d with
  | scalar x => exact hf
  | addr a =>
    cases hcell : h[a]? with
    | none => simpa only [Heap.setItem, hcell] using hf
    | some c =>
      cases c with
      | scalar x => simpa only [Heap.setItem, hcell] using hf
      | list xs => simpa only [Heap.setItem, hcell] using hf
      | dict fs =>
        have hget := getElem?_setItem h a k v hcell
        have hlen := length_setItem h (.addr a) k v
        refine ⟨fun b c hc => ?_, fun b c hc hK => ?_, fun b hb => hlen ▸ hf.below b hb⟩
        · rw [hlen]
          rw [hget] at hc
          split at hc
          · cases hc
            exact all_set (hf.found a _ hcell) k hv.found
          · exact hf.found b c hc
        · rw [hget] at hc
          split at hc
          · rename_i hab
            cases hc
            exact all_set (hf.apart a _ hcell (hab ▸ hK)) k hv.apart
          · exact hf.apart b c hc hK

end Heap
