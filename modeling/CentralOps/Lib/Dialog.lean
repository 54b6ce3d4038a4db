import Mathlib.Logic.Function.Basic
import Mathlib.Logic.Relation

set_option autoImplicit true

inductive Dialog (Q : Type) (A : Q → Type) (α : Type) where
  | done (a : α)
  | ask (q : Q) (next : A q → Dialog Q A α)

namespace Dialog

variable {Q : Type} {A : Q → Type} {α β : Type}

def bind : Dialog Q A α → (α → Dialog Q A β) → Dialog Q A β
  | done a, f => f a
  | ask q next, f => ask q (fun r => (next r).bind f)

instance : Monad (Dialog Q A) where
  pure := done
  bind := Dialog.bind

def query (q : Q) : Dialog Q A (A q) := ask q done

/-- The loop over `as` that carries `b`. -/
def fold (f : β → α → Dialog Q A β) : β → List α → Dialog Q A β
  | b, [] => pure b
  | b, a :: as => f b a >>= fun b' => fold f b' as

/-- The questions that a program may come to ask all pass a test. -/
def Asks (p : Q → Prop) : Dialog Q A α → Prop
  | done _ => True
  | ask q next => p q ∧ ∀ r, (next r).Asks p

def within {Q' : Type} {A' : Q' → Type} (f : Q → Q') (back : ∀ q, A' (f q) → A q) :
    Dialog Q A α → Dialog Q' A' α
  | done a => done a
  | ask q next => ask (f q) (fun r => (next (back q r)).within f back)

section Asks
variable {p : Q → Prop}

theorem asks_pure (a : α) : (pure a : Dialog Q A α).Asks p := trivial

theorem asks_true (t : Dialog Q A α) : t.Asks (fun _ => True) := by
  induction t with
  | done a => exact trivial
  | ask q next ih => exact ⟨trivial, ih⟩

theorem Asks.query {f : A q → Dialog Q A β} (hq : p q) (hf : ∀ r, (f r).Asks p) :
    (query q >>= f).Asks p := ⟨hq, hf⟩

theorem Asks.bind {t : Dialog Q A α} {f : α → Dialog Q A β} (ht : t.Asks p)
    (hf : ∀ a, (f a).Asks p) : (t >>= f).Asks p := by
  change (t.bind f).Asks p
  induction t with
  | done a => exact hf a
  | ask q next ih => exact ⟨ht.1, fun r => ih r (ht.2 r)⟩

theorem Asks.mono {p' : Q → Prop} {t : Dialog Q A α} (ht : t.Asks p) (h : ∀ q, p q → p' q) :
    t.Asks p' := by
  induction t with
  | done a => exact trivial
  | ask q next ih => exact ⟨h q ht.1, fun r => ih r (ht.2 r)⟩

theorem asks_within {Q' : Type} {A' : Q' → Type} {f : Q → Q'} {back : ∀ q, A' (f q) → A q}
    {p : Q' → Prop} (h : ∀ q, p (f q)) (t : Dialog Q A α) : (t.within f back).Asks p := by
  induction t with
  | done a => exact trivial
  | ask q next ih => exact ⟨h q, fun r => ih (back q r)⟩

theorem Asks.fold {f : β → α → Dialog Q A β} {as : List α} (hf : ∀ b, ∀ a ∈ as, (f b a).Asks p)
    (b : β) : (fold f b as).Asks p := by
  induction as generalizing b with
  | nil => exact asks_pure b
  | cons a as ih =>
    apply (hf b a List.mem_cons_self).bind
    exact ih (fun b a ha => hf b a (List.mem_cons_of_mem _ ha))

end Asks

/-- Whatever is answered, what the program returns passes a test. -/
def Returns (p : α → Prop) : Dialog Q A α → Prop
  | done a => p a
  | ask _ next => ∀ r, (next r).Returns p

theorem returns_true (t : Dialog Q A α) : t.Returns (fun _ => True) := by
  induction t with
  | done a => exact trivial
  | ask q next ih => exact ih

theorem Returns.bind {p : α → Prop} {p' : β → Prop} {t : Dialog Q A α} {f : α → Dialog Q A β}
    (ht : t.Returns p) (hf : ∀ a, p a → (f a).Returns p') : (t >>= f).Returns p' := by
  change (t.bind f).Returns p'
  induction t with
  | done a => exact hf a ht
  | ask q next ih => exact fun r => ih r (ht r)

theorem Returns.query {p : β → Prop} {q : Q} {f : A q → Dialog Q A β}
    (hf : ∀ r, (f r).Returns p) : (Dialog.query q >>= f).Returns p := hf

variable {S : Type}

/-- What holds of a run among others. Before each answer the others may have moved the state up in
`le`; the run keeps `I`, moves the state up itself, and returns in `post`. -/
def Sat (answers : S → (q : Q) → A q → S → Prop) (le : S → S → Prop) (I : S → Prop)
    (post : α → S → Prop) : Dialog Q A α → S → Prop
  | done a, s => post a s
  | ask q next, s =>
    ∀ t, le s t → I t → ∀ r u, answers t q r u → I u ∧ le t u ∧ Sat answers le I post (next r) u

section Rules
variable {answers : S → (q : Q) → A q → S → Prop} {le : S → S → Prop} {I : S → Prop}
  {post : α → S → Prop} {post' : β → S → Prop}

theorem Sat.mono (htrans : ∀ s t u, le s t → le t u → le s u)
    (hpost : ∀ a s t, post a s → le s t → post a t) {t : Dialog Q A α}
    (h : Sat answers le I post t s) (hle : le s s') : Sat answers le I post t s' := by
  cases t with
  | done a => exact hpost a s s' h hle
  | ask q next => exact fun t ht hI => h t (htrans s s' t hle ht) hI

theorem Sat.weaken {post₀ : α → S → Prop} {t : Dialog Q A α} (h : Sat answers le I post t s)
    (hpost : ∀ a s, post a s → post₀ a s) : Sat answers le I post₀ t s := by
  induction t generalizing s with
  | done a => exact hpost a s h
  | ask q next ih =>
    intro t ht hI r u hr
    obtain ⟨hu, hle, hnext⟩ := h t ht hI r u hr
    exact ⟨hu, hle, ih r hnext⟩

theorem Sat.bind {t : Dialog Q A α} {f : α → Dialog Q A β}
    (h : Sat answers le I (fun a s => Sat answers le I post' (f a) s) t s) :
    Sat answers le I post' (t >>= f) s := by
  change Sat answers le I post' (t.bind f) s
  induction t generalizing s with
  | done a => exact h
  | ask q next ih =>
    intro t ht hI r u hr
    obtain ⟨hu, hle, hnext⟩ := h t ht hI r u hr
    exact ⟨hu, hle, ih r hnext⟩

/-- A question, and what is done with its answer. -/
theorem Sat.query {q : Q} {f : A q → Dialog Q A β}
    (h : ∀ t, le s t → I t → ∀ r u, answers t q r u →
      I u ∧ le t u ∧ Sat answers le I post' (f r) u) :
    Sat answers le I post' (Dialog.query q >>= f) s := h

/-- A loop keeps what each of its passes keeps. -/
theorem Sat.fold {f : β → α → Dialog Q A β} {inv : β → S → Prop}
    (hf : ∀ b a s, a ∈ as → inv b s → Sat answers le I inv (f b a) s) (h : inv b s) :
    Sat answers le I inv (Dialog.fold f b as) s := by
  induction as generalizing b s with
  | nil => exact h
  | cons a as ih =>
    apply Sat.bind
    apply (hf b a s List.mem_cons_self h).weaken
    exact fun b' s' hb' => ih (fun b a s ha => hf b a s (List.mem_cons_of_mem _ ha)) hb'

end Rules

/-- A run among others keeps what the answers to its questions keep, within what the others leave
alone. -/
theorem Asks.sat {answers : S → (q : Q) → A q → S → Prop} {le : S → S → Prop} {p : Q → Prop}
    {I K : S → Prop} {t : Dialog Q A α} (ht : t.Asks p)
    (hI : ∀ s q r u, p q → I s → K s → answers s q r u → I u ∧ le s u)
    (hK : ∀ s u, K s → le s u → K u) {s : S} (hs : K s) :
    Sat answers le I (fun _ _ => True) t s := by
  induction t generalizing s with
  | done a => trivial
  | ask q next ih =>
    intro t hle ht' r u hr
    have hKt := hK s t hs hle
    obtain ⟨hu, hle'⟩ := hI t q r u ht.1 ht' hKt hr
    exact ⟨hu, hle', ih r (ht.2 r) (hK t u hKt hle')⟩

/-- A run on its own, from a state to its result and the state it leaves. -/
inductive Runs (answers : S → (q : Q) → A q → S → Prop) : Dialog Q A α → S → α → S → Prop
  | done : Runs answers (.done a) s a s
  | ask : answers s q r t → Runs answers (next r) t a u → Runs answers (.ask q next) s a u

section Alone
variable {answers : S → (q : Q) → A q → S → Prop}

theorem runs_pure_iff {x : α} : Runs answers (pure x) s a u ↔ a = x ∧ u = s := by
  change Runs answers (.done x) s a u ↔ _
  constructor
  · intro h
    cases h
    exact ⟨rfl, rfl⟩
  · rintro ⟨rfl, rfl⟩
    exact .done

theorem runs_ask_iff {next : A q → Dialog Q A α} :
    Runs answers (.ask q next) s a u ↔ ∃ r t, answers s q r t ∧ Runs answers (next r) t a u := by
  constructor
  · intro h
    cases h with
    | ask hr hnext => exact ⟨_, _, hr, hnext⟩
  · rintro ⟨r, t, hr, hnext⟩
    exact .ask hr hnext

theorem runs_query_iff {q : Q} {f : A q → Dialog Q A α} :
    Runs answers (query q >>= f) s a u ↔ ∃ r t, answers s q r t ∧ Runs answers (f r) t a u :=
  runs_ask_iff

theorem runs_bind_iff {t : Dialog Q A α} {f : α → Dialog Q A β} :
    Runs answers (t >>= f) s b v ↔
      ∃ a u, Runs answers t s a u ∧ Runs answers (f a) u b v := by
  change Runs answers (t.bind f) s b v ↔ _
  induction t generalizing s with
  | done a =>
    constructor
    · exact fun h => ⟨a, s, .done, h⟩
    · rintro ⟨a', u, h, hf⟩
      obtain ⟨rfl, rfl⟩ := runs_pure_iff.1 h
      exact hf
  | ask q next ih =>
    constructor
    · intro h
      obtain ⟨r, t, hr, hnext⟩ := runs_ask_iff.1 h
      obtain ⟨a, u, ha, hf⟩ := (ih r).1 hnext
      exact ⟨a, u, .ask hr ha, hf⟩
    · rintro ⟨a, u, h, hf⟩
      obtain ⟨r, t, hr, hnext⟩ := runs_ask_iff.1 h
      exact .ask hr ((ih r).2 ⟨a, u, hnext, hf⟩)

/-- What the answers to its questions keep, a run keeps. -/
theorem Runs.invariant {p : Q → Prop} {I : S → Prop} {t : Dialog Q A α}
    (h : Runs answers t s a u) (ht : t.Asks p)
    (hI : ∀ s q r t, p q → I s → answers s q r t → I t) (hs : I s) : I u := by
  induction h with
  | done => exact hs
  | ask hr _ ih => exact ih (ht.2 _) (hI _ _ _ _ ht.1 hs hr)

/-- The run that a fixed way of answering leads to. -/
def play (reply : S → (q : Q) → A q × S) : Dialog Q A α → S → α × S
  | .done a, s => (a, s)
  | .ask q next, s => (next (reply s q).1).play reply (reply s q).2

theorem play_pure (reply : S → (q : Q) → A q × S) (a : α) (s : S) :
    (pure a : Dialog Q A α).play reply s = (a, s) := rfl

theorem play_query (reply : S → (q : Q) → A q × S) (q : Q) (f : A q → Dialog Q A β) (s : S) :
    (query q >>= f).play reply s = (f (reply s q).1).play reply (reply s q).2 := rfl

theorem play_bind (reply : S → (q : Q) → A q × S) (t : Dialog Q A α) (f : α → Dialog Q A β)
    (s : S) : (t >>= f).play reply s = (f (t.play reply s).1).play reply (t.play reply s).2 := by
  change (t.bind f).play reply s = _
  induction t generalizing s with
  | done a => rfl
  | ask q next ih => exact ih _ _

def passes (reply : S → (q : Q) → A q × S) (p : S → Q → Bool) : Dialog Q A α → S → Bool
  | .done _, _ => true
  | .ask q next, s => p s q && (next (reply s q).1).passes reply p (reply s q).2

theorem runs_play {reply : S → (q : Q) → A q × S} {p : S → Q → Bool}
    (hreply : ∀ s q, p s q = true → answers s q (reply s q).1 (reply s q).2)
    {t : Dialog Q A α} (h : t.passes reply p s = true) :
    Runs answers t s (t.play reply s).1 (t.play reply s).2 := by
  induction t generalizing s with
  | done a => exact .done
  | ask q next ih =>
    rw [passes, Bool.and_eq_true] at h
    exact .ask (hreply s q h.1) (ih _ h.2)

theorem runs_play_self {reply : S → (q : Q) → A q × S}
    (hreply : ∀ s q, answers s q (reply s q).1 (reply s q).2) (t : Dialog Q A α) (s : S) :
    Runs answers t s (t.play reply s).1 (t.play reply s).2 := by
  induction t generalizing s with
  | done a => exact .done
  | ask q next ih => exact .ask (hreply s q) (ih _ _)

end Alone

end Dialog

/-- Several workers over one shared state: what each has been called with and is still to do. -/
structure Crew (S ι C : Type) (Q : Type) (A : Q → Type) (α : Type) where
  shared : S
  running : ι → Option (C × Dialog Q A α)

structure CrewRules (S ι C : Type) (Q : Type) (A : Q → Type) (α : Type) where
  program : C → Dialog Q A α
  starts : S → ι → C → Prop
  answers : ι → S → (q : Q) → A q → S → Prop
  moves : S → S → Prop

namespace Crew

variable {S ι C Q : Type} {A : Q → Type} {α : Type}

section Put
variable [DecidableEq ι]

def put (x : Crew S ι C Q A α) (i : ι) (t : Option (C × Dialog Q A α)) : Crew S ι C Q A α :=
  { x with running := Function.update x.running i t }

theorem put_running_self (x : Crew S ι C Q A α) (i : ι) (o : Option (C × Dialog Q A α)) :
    (x.put i o).running i = o := Function.update_self ..

theorem put_running_ne (x : Crew S ι C Q A α) (o : Option (C × Dialog Q A α)) (h : j ≠ i) :
    (x.put i o).running j = x.running j := Function.update_of_ne h ..

theorem put_put (x : Crew S ι C Q A α) (i : ι) (o o' : Option (C × Dialog Q A α)) :
    (x.put i o).put i o' = x.put i o' := by
  simp only [put, Function.update_idem]

end Put

inductive Step [DecidableEq ι] (R : CrewRules S ι C Q A α) : Crew S ι C Q A α → Crew S ι C Q A α → Prop
  | start {x} {i : ι} {c : C} : x.running i = none → R.starts x.shared i c →
      Step R x (x.put i (some (c, R.program c)))
  | answer {x} {i : ι} {c : C} {q : Q} {next : A q → Dialog Q A α} {r : A q} {u : S} :
      x.running i = some (c, .ask q next) → R.answers i x.shared q r u →
      Step R x { (x.put i (some (c, next r))) with shared := u }
  | finish {x} {i : ι} {c : C} {a : α} : x.running i = some (c, .done a) →
      Step R x (x.put i none)
  | move {x} {u : S} : R.moves x.shared u → Step R x { x with shared := u }

def Reaches [DecidableEq ι] (R : CrewRules S ι C Q A α) : Crew S ι C Q A α → Crew S ι C Q A α → Prop :=
  Relation.ReflTransGen (Step R)

variable {R : CrewRules S ι C Q A α} {le : S → S → Prop} {I : S → Prop} {post : C → α → S → Prop}

/-- The shared state keeps `I`, and of every worker holds what held of its call. -/
def Sound (R : CrewRules S ι C Q A α) (le : S → S → Prop) (I : S → Prop) (post : C → α → S → Prop)
    (x : Crew S ι C Q A α) : Prop :=
  I x.shared ∧ ∀ i c t, x.running i = some (c, t) →
    Dialog.Sat (R.answers i) le I (post c) t x.shared

theorem Sound.put [DecidableEq ι] {x : Crew S ι C Q A α} (hx : Sound R le I post x)
    (ht : ∀ c t, o = some (c, t) → Dialog.Sat (R.answers i) le I (post c) t x.shared) :
    Sound R le I post (x.put i o) := by
  apply And.intro hx.1
  intro j c t hj
  by_cases hji : j = i
  · subst hji
    rw [put_running_self] at hj
    exact ht c t hj
  · rw [put_running_ne x o hji] at hj
    exact hx.2 j c t hj

theorem Sound.shared (htrans : ∀ s t u, le s t → le t u → le s u)
    (hpost : ∀ c a s t, post c a s → le s t → post c a t) {x : Crew S ι C Q A α}
    (hx : Sound R le I post x) (hu : I u) (hle : le x.shared u) :
    Sound R le I post { x with shared := u } :=
  ⟨hu, fun i c t hi => (hx.2 i c t hi).mono htrans (hpost c) hle⟩

theorem Reaches.sound [DecidableEq ι] (htrans : ∀ s t u, le s t → le t u → le s u)
    (hpost : ∀ c a s t, post c a s → le s t → post c a t)
    (hrefl : ∀ s, le s s)
    (hstart : ∀ s i c, I s → R.starts s i c →
      Dialog.Sat (R.answers i) le I (post c) (R.program c) s)
    (hmove : ∀ s u, I s → R.moves s u → I u ∧ le s u) {x y : Crew S ι C Q A α}
    (h : Reaches R x y) (hx : Sound R le I post x) : Sound R le I post y := by
  induction h with
  | refl => exact hx
  | @tail y z _ hlast ih =>
    cases hlast with
    | start hidle hs =>
      apply ih.put
      intro c t ht
      cases ht
      exact hstart _ _ _ ih.1 hs
    | @answer i c q next r u hrun hr =>
      obtain ⟨hu, hle, hnext⟩ := ih.2 i c _ hrun y.shared (hrefl _) ih.1 r u hr
      have hy : Sound R le I post { y with shared := u } := ih.shared htrans hpost hu hle
      apply hy.put
      intro c' t ht
      cases ht
      exact hnext
    | finish hrun =>
      apply ih.put
      intro c t ht
      cases ht
    | @move u hm =>
      obtain ⟨hu, hle⟩ := hmove y.shared u ih.1 hm
      exact ih.shared htrans hpost hu hle

theorem reaches_of_runs [DecidableEq ι] {x : Crew S ι C Q A α} {t : Dialog Q A α} (hi : x.running i = some (c, t))
    (h : Dialog.Runs (R.answers i) t x.shared a u) :
    Reaches R x { (x.put i (some (c, .done a))) with shared := u } := by
  generalize hs : x.shared = s at h
  induction h generalizing x with
  | @done a s =>
    subst hs
    have hx : x.put i (some (c, .done a)) = x := by
      rw [Crew.put, ← hi, Function.update_eq_self]
    rw [hx]
    exact .refl
  | @ask s q r t next a u hr hnext ih =>
    subst hs
    apply Relation.ReflTransGen.head (Step.answer hi hr)
    have hput : ∀ o : Option (C × Dialog Q A α),
        ({ (x.put i (some (c, next r))) with shared := t } : Crew S ι C Q A α).put i o =
          { (x.put i o) with shared := t } := by
      intro o
      simp only [Crew.put, Function.update_idem]
    have h' := ih (x := { (x.put i (some (c, next r))) with shared := t })
      (by simp only [Crew.put, Function.update_self]) rfl
    rw [hput] at h'
    exact h'

/-- A worker that is called while the others rest may run to its end. -/
theorem reaches_of_call [DecidableEq ι] {x : Crew S ι C Q A α} {c : C}
    (hi : x.running i = none) (hs : R.starts x.shared i c)
    (h : Dialog.Runs (R.answers i) (R.program c) x.shared a u) :
    Reaches R x { (x.put i (some (c, .done a))) with shared := u } := by
  apply Relation.ReflTransGen.head (Step.start hi hs)
  have hrun := reaches_of_runs (x := x.put i (some (c, R.program c)))
    (put_running_self x i (some (c, R.program c))) h
  rw [put_put] at hrun
  exact hrun

/-- A worker that rests may call, run to its end while the others rest, and rest again. -/
theorem reaches_of_ended_call [DecidableEq ι] {x : Crew S ι C Q A α} {c : C}
    (hi : x.running i = none) (hs : R.starts x.shared i c)
    (h : Dialog.Runs (R.answers i) (R.program c) x.shared a u) :
    Reaches R x { x with shared := u } := by
  have hrun := reaches_of_call hi hs h
  have hend := Step.finish (R := R)
    (x := { (x.put i (some (c, .done a))) with shared := u }) (i := i) (c := c) (a := a)
    (put_running_self x i (some (c, .done a)))
  have hrest : ({ (x.put i (some (c, .done a))) with shared := u } : Crew S ι C Q A α).put i none =
      { x with shared := u } := by
    simp only [put, Function.update_idem]
    rw [← hi, Function.update_eq_self]
  rw [hrest] at hend
  exact hrun.tail hend

section Schedule
variable [DecidableEq ι]

/-- One entry of a schedule: a call begins, or a worker goes on. -/
inductive Cue (ι C : Type) where
  | call (i : ι) (c : C)
  | go (i : ι)

def Cue.worker : Cue ι C → ι
  | .call i _ => i
  | .go i => i

/-- A worker goes on where the answer that it would get passes the test. -/
def cue (R : CrewRules S ι C Q A α) (reply : ι → S → (q : Q) → A q × S) (p : S → Q → Bool)
    (x : Crew S ι C Q A α) : Cue ι C → Crew S ι C Q A α
  | .call i c =>
    match x.running i with
    | none => x.put i (some (c, R.program c))
    | some _ => x
  | .go i =>
    match x.running i with
    | none => x
    | some (_, .done _) => x.put i none
    | some (c, .ask q next) =>
      if p x.shared q then
        { (x.put i (some (c, next (reply i x.shared q).1))) with
          shared := (reply i x.shared q).2 }
      else x

theorem cue_running_other {reply : ι → S → (q : Q) → A q × S} {p : S → Q → Bool}
    (x : Crew S ι C Q A α) {m : Cue ι C} (h : j ≠ m.worker) :
    (cue R reply p x m).running j = x.running j := by
  cases m with
  | call i c =>
    rw [cue]
    cases x.running i with
    | none => exact put_running_ne x _ h
    | some run => rfl
  | go i =>
    rw [cue]
    cases x.running i with
    | none => rfl
    | some run =>
      obtain ⟨c, t⟩ := run
      cases t with
      | done a => exact put_running_ne x _ h
      | ask q next =>
        simp only []
        split
        · exact put_running_ne x _ h
        · rfl

theorem foldl_cue_running_other {reply : ι → S → (q : Q) → A q × S} {p : S → Q → Bool}
    (x : Crew S ι C Q A α) {ms : List (Cue ι C)} (h : ∀ m ∈ ms, j ≠ m.worker) :
    (ms.foldl (cue R reply p) x).running j = x.running j := by
  induction ms generalizing x with
  | nil => rfl
  | cons m ms ih =>
    have hrest := ih (cue R reply p x m) (fun m' hm' => h m' (List.mem_cons_of_mem m hm'))
    exact hrest.trans (cue_running_other x (h m List.mem_cons_self))

theorem foldl_cue_keeps {reply : ι → S → (q : Q) → A q × S} {p : S → Q → Bool} {P : S → Prop}
    {ms : List (Cue ι C)} (h : ∀ m ∈ ms, ∀ s q, P s → P (reply m.worker s q).2)
    (x : Crew S ι C Q A α) (hx : P x.shared) : P (ms.foldl (cue R reply p) x).shared := by
  induction ms generalizing x with
  | nil => exact hx
  | cons m ms ih =>
    apply ih (fun m' hm' => h m' (List.mem_cons_of_mem m hm'))
    have hm := h m List.mem_cons_self
    cases m with
    | call i c =>
      rw [cue]
      cases x.running i with
      | none => exact hx
      | some run => exact hx
    | go i =>
      rw [cue]
      cases x.running i with
      | none => exact hx
      | some run =>
        obtain ⟨c, t⟩ := run
        cases t with
        | done a => exact hx
        | ask q next =>
          simp only []
          split
          · exact hm x.shared q hx
          · exact hx

/-- What an entry of a schedule leads to is reached. -/
theorem reaches_cue {reply : ι → S → (q : Q) → A q × S} {p : S → Q → Bool} {x : Crew S ι C Q A α}
    {m : Cue ι C} (hstart : ∀ i c, m = .call i c → R.starts x.shared i c)
    (hreply : ∀ i s q, p s q = true → R.answers i s q (reply i s q).1 (reply i s q).2) :
    Reaches R x (cue R reply p x m) := by
  cases m with
  | call i c =>
    rw [cue]
    cases h : x.running i with
    | none => exact .single (.start h (hstart i c rfl))
    | some run => exact .refl
  | go i =>
    rw [cue]
    cases h : x.running i with
    | none => exact .refl
    | some run =>
      obtain ⟨c, t⟩ := run
      cases t with
      | done a => exact .single (.finish h)
      | ask q next =>
        simp only []
        split
        · next hp => exact .single (.answer h (hreply i x.shared q hp))
        · exact .refl

/-- What a schedule leads to is reached. -/
theorem reaches_foldl_cue {reply : ι → S → (q : Q) → A q × S} {p : S → Q → Bool}
    {ms : List (Cue ι C)} (hstarts : ∀ i c, .call i c ∈ ms → ∀ s, R.starts s i c)
    (hreply : ∀ i s q, p s q = true → R.answers i s q (reply i s q).1 (reply i s q).2)
    (x : Crew S ι C Q A α) : Reaches R x (ms.foldl (cue R reply p) x) := by
  induction ms generalizing x with
  | nil => exact .refl
  | cons m ms ih =>
    have hfirst : Reaches R x (cue R reply p x m) := by
      apply reaches_cue _ hreply
      rintro i c rfl
      exact hstarts i c List.mem_cons_self x.shared
    exact hfirst.trans (ih (fun i c h => hstarts i c (List.mem_cons_of_mem m h)) _)

def goes (R : CrewRules S ι C Q A α) (reply : ι → S → (q : Q) → A q × S) (p : S → Q → Bool)
    (i : ι) : Nat → Crew S ι C Q A α → Crew S ι C Q A α
  | 0, x => x
  | n + 1, x => goes R reply p i n (cue R reply p x (.go i))

theorem reaches_goes {reply : ι → S → (q : Q) → A q × S} {p : S → Q → Bool}
    (hreply : ∀ i s q, p s q = true → R.answers i s q (reply i s q).1 (reply i s q).2)
    (i : ι) (n : Nat) (x : Crew S ι C Q A α) : Reaches R x (goes R reply p i n x) := by
  induction n generalizing x with
  | zero => exact .refl
  | succ n ih =>
    have hfirst : Reaches R x (cue R reply p x (.go i)) :=
      reaches_cue (fun _ _ h => nomatch h) hreply
    exact hfirst.trans (ih _)

end Schedule

end Crew
