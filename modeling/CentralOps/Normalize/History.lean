import Mathlib.Data.List.Pairwise
import CentralOps.Normalize.MappingEngine
import CentralOps.Normalize.Simulation

namespace CentralOps
set_option autoImplicit true

open Proc

mutual
/-- The containers of a document that is loaded when the next address is `base`. -/
def place : Json → Nat → Ref Scalar × Heap Scalar
  | .null, _ => (.scalar .null, [])
  | .bool b, _ => (.scalar (.bool b), [])
  | .int n, _ => (.scalar (.int n), [])
  | .float x, _ => (.scalar (.float x), [])
  | .str t, _ => (.scalar (.str t), [])
  | .list xs, base =>
    (.addr (base + (placeList xs base).2.length),
      (placeList xs base).2 ++ [.list (placeList xs base).1])
  | .obj o, base =>
    (.addr (base + (placeFields o base).2.length),
      (placeFields o base).2 ++ [.dict (placeFields o base).1])

def placeList : List Json → Nat → List (Ref Scalar) × Heap Scalar
  | [], _ => ([], [])
  | x :: xs, base =>
    ((place x base).1 :: (placeList xs (base + (place x base).2.length)).1,
      (place x base).2 ++ (placeList xs (base + (place x base).2.length)).2)

def placeFields : Obj → Nat → List (String × Ref Scalar) × Heap Scalar
  | [], _ => ([], [])
  | (k, x) :: o, base =>
    ((k, (place x base).1) :: (placeFields o (base + (place x base).2.length)).1,
      (place x base).2 ++ (placeFields o (base + (place x base).2.length)).2)
end

mutual
theorem load_place (J : Jmespath) : (j : Json) → (h : Heap Scalar) →
    (pythonObjects J).load j h = ((place j h.length).1, h ++ (place j h.length).2)
  | .null, h => by simp [Objects.load, place, pythonObjects]
  | .bool _, h => by simp [Objects.load, place, pythonObjects]
  | .int _, h => by simp [Objects.load, place, pythonObjects]
  | .float _, h => by simp [Objects.load, place, pythonObjects]
  | .str _, h => by simp [Objects.load, place, pythonObjects]
  | .list xs, h => by
    rw [Objects.load, loadList_place J xs h]
    simp [place, pythonObjects, Heap.make]
  | .obj o, h => by
    rw [Objects.load, loadFields_place J o h]
    simp [place, pythonObjects, Heap.make]

theorem loadList_place (J : Jmespath) : (xs : List Json) → (h : Heap Scalar) →
    (pythonObjects J).loadList xs h = ((placeList xs h.length).1, h ++ (placeList xs h.length).2)
  | [], h => by simp [Objects.loadList, placeList]
  | x :: xs, h => by
    rw [Objects.loadList, load_place J x h, loadList_place J xs]
    simp [placeList]

theorem loadFields_place (J : Jmespath) : (o : Obj) → (h : Heap Scalar) →
    (pythonObjects J).loadFields o h =
      ((placeFields o h.length).1, h ++ (placeFields o h.length).2)
  | [], h => by simp [Objects.loadFields, placeFields]
  | (k, x) :: o, h => by
    rw [Objects.loadFields, load_place J x h, loadFields_place J o]
    simp [placeFields]
end

mutual
/-- A document loaded twice, at addresses that `R` pairs. -/
theorem place_rel {R : Nat → Nat → Prop} {b b' : Nat} : (j : Json) →
    (∀ i < (place j b).2.length, R (b + i) (b' + i)) →
    Ref.Paired R (place j b).1 (place j b').1 ∧
      List.Forall₂ (Shape.Rel (Ref.Paired R)) (place j b).2 (place j b').2
  | .null, _ => ⟨.scalar _, .nil⟩
  | .bool _, _ => ⟨.scalar _, .nil⟩
  | .int _, _ => ⟨.scalar _, .nil⟩
  | .float _, _ => ⟨.scalar _, .nil⟩
  | .str _, _ => ⟨.scalar _, .nil⟩
  | .list xs, hR => by
    simp only [place, List.length_append, List.length_singleton] at hR
    obtain ⟨hrefs, hcells⟩ := placeList_rel xs (fun i hi => hR i (by omega))
    refine ⟨.addr ?_, List.rel_append hcells (.cons (.list hrefs) .nil)⟩
    rw [← hcells.length_eq]
    exact hR _ (by omega)
  | .obj o, hR => by
    simp only [place, List.length_append, List.length_singleton] at hR
    obtain ⟨hrefs, hcells⟩ := placeFields_rel o (fun i hi => hR i (by omega))
    refine ⟨.addr ?_, List.rel_append hcells (.cons (.dict hrefs) .nil)⟩
    rw [← hcells.length_eq]
    exact hR _ (by omega)

theorem placeList_rel {R : Nat → Nat → Prop} {b b' : Nat} : (xs : List Json) →
    (∀ i < (placeList xs b).2.length, R (b + i) (b' + i)) →
    List.Forall₂ (Ref.Paired R) (placeList xs b).1 (placeList xs b').1 ∧
      List.Forall₂ (Shape.Rel (Ref.Paired R)) (placeList xs b).2 (placeList xs b').2
  | [], _ => ⟨.nil, .nil⟩
  | x :: xs, hR => by
    simp only [placeList, List.length_append] at hR
    obtain ⟨href, hcells⟩ := place_rel x (fun i hi => hR i (by omega))
    have hrest : ∀ i < (placeList xs (b + (place x b).2.length)).2.length,
        R (b + (place x b).2.length + i) (b' + (place x b').2.length + i) := by
      intro i hi
      rw [← hcells.length_eq, Nat.add_assoc, Nat.add_assoc]
      exact hR _ (by omega)
    obtain ⟨hrefs, hcells'⟩ := placeList_rel xs hrest
    exact ⟨.cons href hrefs, List.rel_append hcells hcells'⟩

theorem placeFields_rel {R : Nat → Nat → Prop} {b b' : Nat} : (o : Obj) →
    (∀ i < (placeFields o b).2.length, R (b + i) (b' + i)) →
    List.Forall₂ (FieldRel (Ref.Paired R)) (placeFields o b).1 (placeFields o b').1 ∧
      List.Forall₂ (Shape.Rel (Ref.Paired R)) (placeFields o b).2 (placeFields o b').2
  | [], _ => ⟨.nil, .nil⟩
  | (k, x) :: o, hR => by
    simp only [placeFields, List.length_append] at hR
    obtain ⟨href, hcells⟩ := place_rel x (fun i hi => hR i (by omega))
    have hrest : ∀ i < (placeFields o (b + (place x b).2.length)).2.length,
        R (b + (place x b).2.length + i) (b' + (place x b').2.length + i) := by
      intro i hi
      rw [← hcells.length_eq, Nat.add_assoc, Nat.add_assoc]
      exact hR _ (by omega)
    obtain ⟨hrefs, hcells'⟩ := placeFields_rel o hrest
    exact ⟨.cons ⟨rfl, href⟩ hrefs, List.rel_append hcells hcells'⟩
end

/-- What the JMESPath library promises: a search reads the objects and its own literals, makes new
objects only, and what it finds does not depend on where the objects lie. -/
structure Jmespath.Lawful (J : Jmespath) : Prop where
  closed : List.Forall₂ (Shape.Rel (Ref.Paired (Shift J.literals.length 0 0))) J.literals J.literals
  natural : ∀ {R h h' v v'} (expr : String), (∀ a < J.literals.length, R a a) →
    Heap.Linked R h h' → Ref.Paired R v v' →
    Except.Rel (Ref.Paired R) (J.search expr v h).1 (J.search expr v' h').1 ∧
      Heap.Linked R (J.search expr v h).2 (J.search expr v' h').2
  appends : ∀ expr v h, h <+: (J.search expr v h).2

theorem Jmespath.none_lawful : Jmespath.none.Lawful where
  closed := .nil
  natural _ _ hl _ := ⟨.error _, hl⟩
  appends _ _ _ := List.prefix_rfl

section Stores
variable {J : Jmespath} (hJ : J.Lawful) {R : Nat → Nat → Prop} (hone : OneToOne R)
  (hlit : ∀ a < J.literals.length, R a a)

/-- The writes into dicts that are not among the first `n` containers. -/
def WritesOwn (n : Nat) (h : Heap Scalar) (target : Ref Scalar) (path : List String) : Prop :=
  Heap.OwnRef n (h.writtenDict target path)

instance (n : Nat) (h : Heap Scalar) (target : Ref Scalar) (path : List String) :
    Decidable (WritesOwn n h target path) :=
  inferInstanceAs (Decidable (Heap.OwnRef n _))

include hJ hone hlit

theorem linkedSim : ObjectsSim (pythonObjects J) (pythonObjects J) (Heap.Linked R) (Ref.Paired R)
    (fun _ _ _ => True) where
  scalar x := .scalar x
  shape hl hv := hl.shape hv
  make hl hc := hl.make hc
  setPath hl ht hv _ := hl.setPath ht _ hv
  same := by
    intro v v' w w' hv hw
    refine decide_eq_decide.2 ?_
    cases hv with
    | scalar x =>
      cases hw with
      | scalar y => exact Iff.rfl
      | addr hcd => exact iff_of_false nofun nofun
    | addr hab =>
      cases hw with
      | scalar y => exact iff_of_false nofun nofun
      | addr hcd => simpa using hone _ _ _ _ hab hcd
  search expr hl hv := hJ.natural expr hlit hl hv

/-- As long as the writes go to new dicts, the containers of `h₀` stay as they are. -/
theorem keepingSim (h₀ : Heap Scalar) :
    ObjectsSim (pythonObjects J) (pythonObjects J) (fun h h' => Heap.Linked R h h' ∧ h₀ <+: h)
      (Ref.Paired R) (WritesOwn h₀.length) where
  scalar x := .scalar x
  shape hl hv := hl.1.shape hv
  make := by
    intro s s' c c' hl hc
    refine ⟨(hl.1.make hc).1, (hl.1.make hc).2, hl.2.trans ?_⟩
    cases hc with
    | scalar x => exact List.prefix_rfl
    | list hm => exact List.prefix_append _ _
    | dict hm => exact List.prefix_append _ _
  setPath hl ht hv hw := ⟨hl.1.setPath ht _ hv, Heap.setPath_keeps hl.2 _ _ hw⟩
  same := (linkedSim hJ hone hlit).same
  search expr hl hv :=
    ⟨(hJ.natural expr hlit hl.1 hv).1, (hJ.natural expr hlit hl.1 hv).2,
      hl.2.trans (hJ.appends expr _ _)⟩

end Stores

def Loaded.cells (docOf : String → Json) (d : Loaded) : Heap Scalar :=
  (place (d.document.content docOf) d.base).2

def Loaded.Apart (docOf : String → Json) (d e : Loaded) : Prop :=
  d.base + (d.cells docOf).length ≤ e.base ∨ e.base + (e.cells docOf).length ≤ d.base

instance (docOf : String → Json) : Std.Symm (Loaded.Apart docOf) := ⟨fun _ _ => Or.symm⟩

/-- The document of a version on its own, next to the literals. -/
def freshRules (J : Jmespath) (doc : Json) : Ref Scalar × Heap Scalar :=
  ((place doc J.literals.length).1, J.literals ++ (place doc J.literals.length).2)

/-- Compiled from the loaded rules `d`, as a fresh copy of them compiles. -/
def CompiledFrom (rt : MappingRuntime) (J : Jmespath) (docOf : String → Json) (d : Loaded)
    (key : String × Int) (compiled : CompiledRules (Ref Scalar)) : Prop :=
  d.document = .rules key.1 ∧
    ∃ fresh, compileRules rt (Heap.shape (freshRules J (docOf key.1)).2)
        (freshRules J (docOf key.1)).1 (some key.2) = some fresh ∧
      RulesRel (Ref.Paired (Shift (d.cells docOf).length d.base J.literals.length)) compiled fresh

structure MappingWorld.Intact (rt : MappingRuntime) (J : Jmespath) (docOf : String → Json)
    (w : MappingWorld) : Prop where
  literals : J.literals <+: w.heap
  above : ∀ d ∈ w.loaded, J.literals.length ≤ d.base
  object : ∀ d ∈ w.loaded, d.object = (place (d.document.content docOf) d.base).1
  holds : ∀ d ∈ w.loaded, w.heap.Holds d.base (d.cells docOf)
  apart : w.loaded.Pairwise (Loaded.Apart docOf)
  cached : ∀ p ∈ w.engine.cache, ∃ d ∈ w.loaded, CompiledFrom rt J docOf d p.1 p.2

section Run
variable {rt : MappingRuntime} {J : Jmespath} {docOf : String → Json} {w : MappingWorld}

theorem freshRules_holds (J : Jmespath) (doc : Json) :
    (freshRules J doc).2.Holds J.literals.length (place doc J.literals.length).2 :=
  Heap.holds_append _ _

theorem cells_rel (docOf : String → Json) (d : Loaded) (base : Nat) :
    Ref.Paired (Shift (d.cells docOf).length d.base base)
        (place (d.document.content docOf) d.base).1 (place (d.document.content docOf) base).1 ∧
      List.Forall₂ (Shape.Rel (Ref.Paired (Shift (d.cells docOf).length d.base base)))
        (d.cells docOf) (place (d.document.content docOf) base).2 :=
  place_rel _ fun _ hi => .at hi

theorem compile_loaded (hw : w.Intact rt J docOf) (hd : d ∈ w.loaded)
    (hrules : d.document = .rules version) (dslVersion : Option Int) :
    Option.Rel
      (RulesRel (Ref.Paired (Shift (d.cells docOf).length d.base J.literals.length)))
      (compileRules rt w.heap.shape d.object dslVersion)
      (compileRules rt (freshRules J (docOf version)).2.shape (freshRules J (docOf version)).1
        dslVersion) := by
  obtain ⟨hobject, hcells⟩ := cells_rel docOf d J.literals.length
  have hcontent : d.document.content docOf = docOf version := by rw [hrules]; rfl
  rw [← hw.object d hd, hcontent] at hobject
  rw [hcontent] at hcells
  exact compileRules_rel (fun v v' => (hw.holds d hd).shape_rel (freshRules_holds J _) hcells) rt
    hobject dslVersion

/-- A cache hit gives what was compiled then, a miss compiles the rules that are handed over. -/
theorem getCompiled_some (hw : w.Intact rt J docOf) (hgiven : call.Given w)
    (hc : w.getCompiled rt call = some found) :
    (∃ d ∈ w.loaded, CompiledFrom rt J docOf d (call.mappingVersionId, call.dslVersion) found.1) ∧
      ∀ p ∈ found.2.cache,
        p ∈ w.engine.cache ∨ p = ((call.mappingVersionId, call.dslVersion), found.1) := by
  obtain ⟨⟨base, hd⟩, -⟩ := hgiven
  unfold MappingWorld.getCompiled MappingEngine.getCompiled at hc
  dsimp only at hc
  cases hlook : w.engine.cache.lookup (call.mappingVersionId, call.dslVersion) with
  | some compiled =>
    rw [hlook] at hc
    obtain rfl := Option.some.inj hc
    refine ⟨?_, fun p hp => ?_⟩
    · obtain ⟨l₁, l₂, hcache, -⟩ := List.lookup_eq_some_iff.1 hlook
      have hmem : ((call.mappingVersionId, call.dslVersion), compiled) ∈ w.engine.cache := by
        rw [hcache]
        simp
      exact hw.cached _ hmem
    · rcases List.mem_append.1 hp with hp | hp
      · exact .inl (List.mem_filter.1 hp).1
      · exact .inr (List.mem_singleton.1 hp)
  | none =>
    rw [hlook] at hc
    obtain ⟨compiled, hcompile, rfl⟩ := Option.map_eq_some_iff.1 hc
    refine ⟨⟨_, hd, rfl, ?_⟩, fun p hp => ?_⟩
    · have hrel := compile_loaded hw hd rfl (some call.dslVersion)
      rw [hcompile] at hrel
      generalize compileRules rt (freshRules J _).2.shape _ _ = fresh at hrel ⊢
      cases hrel with
      | some hrel => exact ⟨_, rfl, hrel⟩
    · rcases List.mem_append.1 hp with hp | hp
      · refine .inl ?_
        split at hp
        · exact List.mem_of_mem_tail hp
        · exact hp
      · exact .inr (List.mem_singleton.1 hp)

theorem getCompiled_none (hw : w.Intact rt J docOf) (hgiven : call.Given w)
    (hc : w.getCompiled rt call = none) :
    compileRules rt (freshRules J (docOf call.mappingVersionId)).2.shape
      (freshRules J (docOf call.mappingVersionId)).1 (some call.dslVersion) = none := by
  obtain ⟨⟨base, hd⟩, -⟩ := hgiven
  unfold MappingWorld.getCompiled MappingEngine.getCompiled at hc
  dsimp only at hc
  cases hlook : w.engine.cache.lookup (call.mappingVersionId, call.dslVersion) with
  | some compiled => rw [hlook] at hc; cases hc
  | none =>
    rw [hlook] at hc
    have hrel := compile_loaded hw hd rfl (some call.dslVersion)
    rw [Option.map_eq_none_iff.1 hc] at hrel
    generalize compileRules rt (freshRules J _).2.shape _ _ = fresh at hrel ⊢
    cases hrel with
    | none => rfl

/-- The event on its own, next to the literals and its rules. -/
def freshEvent (J : Jmespath) (doc : Json) (raw : Obj) : Ref Scalar × Heap Scalar :=
  ((place (.obj raw) (freshRules J doc).2.length).1,
    (freshRules J doc).2 ++ (place (.obj raw) (freshRules J doc).2.length).2)

theorem mapEvent_eq (rt : MappingRuntime) (J : Jmespath) (doc : Json) (dslVersion : Option Int)
    (raw : Obj) (ingest : Option Int) :
    mapEvent rt J doc dslVersion raw ingest =
      (compileRules rt (freshRules J doc).2.shape (freshRules J doc).1 dslVersion).map
        (fun compiled => applyCompiled (pythonObjects J) rt compiled (freshEvent J doc raw).1 ingest
          (freshEvent J doc raw).2) := by
  unfold mapEvent
  dsimp only
  rw [load_place, load_place]
  rfl

/-- Which address of the process stands for which of the fresh copies: the literals, the rules,
the event, and whatever the call makes. -/
def callPairs (l nd nr p q top : Nat) (x y : Nat) : Prop :=
  Shift l 0 0 x y ∨ Shift nd p l x y ∨ Shift nr q (l + nd) x y ∨
    ∃ i, x = top + i ∧ y = l + nd + nr + i

theorem callPairs_oneToOne {l nd nr p q top : Nat} (hl : l ≤ p) (hl' : l ≤ q)
    (hp : p + nd ≤ top) (hq : q + nr ≤ top) (hapart : p + nd ≤ q ∨ q + nr ≤ p) :
    OneToOne (callPairs l nd nr p q top) := by
  rintro a b a' b' (⟨i, hi, rfl, rfl⟩ | ⟨i, hi, rfl, rfl⟩ | ⟨i, hi, rfl, rfl⟩ | ⟨i, rfl, rfl⟩)
    (⟨j, hj, rfl, rfl⟩ | ⟨j, hj, rfl, rfl⟩ | ⟨j, hj, rfl, rfl⟩ | ⟨j, rfl, rfl⟩) <;> omega

section Call
variable (hJ : J.Lawful) (hw : w.Intact rt J docOf) (hd : d ∈ w.loaded)
  (hrules : d.document = .rules version) (he : e ∈ w.loaded) (hevent : e.document = .event raw)

/-- The pairs of a call on the loaded rules `d` and the loaded event `e`. -/
def MappingWorld.pairs (w : MappingWorld) (J : Jmespath) (docOf : String → Json) (d e : Loaded) :
    Nat → Nat → Prop :=
  callPairs J.literals.length (d.cells docOf).length (e.cells docOf).length d.base e.base
    w.heap.length

include hw hd hrules he hevent

theorem pairs_oneToOne : OneToOne (w.pairs J docOf d e) := by
  refine callPairs_oneToOne (hw.above d hd) (hw.above e he) (hw.holds d hd).length_le
    (hw.holds e he).length_le ?_
  have hne : d ≠ e := by
    intro heq
    rw [heq, hevent] at hrules
    cases hrules
  exact hw.apart.forall hd he hne

omit hw hd he hevent in
theorem freshRules_length (J : Jmespath) (docOf : String → Json) :
    (freshRules J (docOf version)).2.length = J.literals.length + (d.cells docOf).length := by
  obtain ⟨-, hcells⟩ := cells_rel docOf d J.literals.length
  rw [hrules] at hcells
  rw [hcells.length_eq]
  simp only [freshRules, List.length_append, Document.content]

include hJ

/-- The process and the fresh copies hold the same for the call. -/
theorem pairs_linked :
    Heap.Linked (w.pairs J docOf d e) w.heap (freshEvent J (docOf version) raw).2 ∧
      Ref.Paired (w.pairs J docOf d e) e.object (freshEvent J (docOf version) raw).1 := by
  have hlen := freshRules_length hrules J docOf
  obtain ⟨-, hdcells⟩ := cells_rel docOf d J.literals.length
  obtain ⟨hobject, hecells⟩ := cells_rel docOf e (freshRules J (docOf version)).2.length
  rw [hrules] at hdcells
  rw [← hw.object e he, hevent] at hobject
  rw [hevent] at hecells
  have hlast : (freshEvent J (docOf version) raw).2.length =
      J.literals.length + (d.cells docOf).length + (e.cells docOf).length := by
    rw [hecells.length_eq, ← hlen]
    exact List.length_append
  have hrulesHold := (freshRules_holds J (docOf version)).mono
    (List.prefix_append _ (place (.obj raw) (freshRules J (docOf version)).2.length).2)
  rw [hlen] at hecells hobject
  refine ⟨⟨pairs_oneToOne hw hd hrules he hevent, fun x y hxy => ?_, fun i => ?_⟩, ?_⟩
  · rcases hxy with hlit | hdoc | hraw | ⟨i, rfl, rfl⟩
    · have hfresh : J.literals <+: (freshEvent J (docOf version) raw).2 :=
        (List.prefix_append _ _).trans (List.prefix_append _ _)
      have hcell :=
        (Heap.holds_prefix hw.literals).cell_rel (Heap.holds_prefix hfresh) hJ.closed hlit
      exact option_rel_mono (fun _ _ h => h.mono fun _ _ h => h.mono fun _ _ h => .inl h) hcell
    · have hcell := (hw.holds d hd).cell_rel hrulesHold hdcells hdoc
      exact option_rel_mono
        (fun _ _ h => h.mono fun _ _ h => h.mono fun _ _ h => .inr (.inl h)) hcell
    · have hholds : (freshEvent J (docOf version) raw).2.Holds
          (J.literals.length + (d.cells docOf).length)
          (place (.obj raw) (J.literals.length + (d.cells docOf).length)).2 := by
        rw [← hlen]
        exact Heap.holds_append _ _
      have hcell := (hw.holds e he).cell_rel hholds hecells hraw
      exact option_rel_mono
        (fun _ _ h => h.mono fun _ _ h => h.mono fun _ _ h => .inr (.inr (.inl h))) hcell
    · rw [List.getElem?_eq_none (by omega), List.getElem?_eq_none (by omega)]
      exact .none
  · rw [hlast]
    exact .inr (.inr (.inr ⟨i, rfl, rfl⟩))
  · change Ref.Paired _ e.object (place (.obj raw) (freshRules J (docOf version)).2.length).1
    rw [hlen]
    exact hobject.mono fun _ _ h => .inr (.inr (.inl h))

end Call

/-- No rule of the call writes into a dict that was there before the call. -/
def OwnWrites (rt : MappingRuntime) (J : Jmespath) (w : MappingWorld) : MappingAction → Prop
  | .apply call => ∀ found ∈ w.getCompiled rt call,
    ¬ StrayCall (pythonObjects J) rt (WritesOwn w.heap.length) found.1 call.raw call.ingestTimeEpoch
      w.heap
  | _ => True

instance (rt : MappingRuntime) (J : Jmespath) (w : MappingWorld) :
    (a : MappingAction) → Decidable (OwnWrites rt J w a)
  | .apply call => inferInstanceAs (Decidable (∀ found ∈ w.getCompiled rt call, ¬ StrayCall _ rt
      (WritesOwn w.heap.length) found.1 call.raw call.ingestTimeEpoch w.heap))
  | .load _ => isTrue trivial
  | .invalidate _ => isTrue trivial

/-- Two endings of a call that no reader of the results can tell apart. -/
def SameEnding (S : Objects σ ν) :
    Ending σ Exc (ApplyResult ν) → Ending σ Exc (ApplyResult ν) → Prop
  | .ok r s, .ok r' s' =>
    (∀ fuel, S.read s fuel r.output = S.read s' fuel r'.output) ∧
      r.consumedPaths = r'.consumedPaths ∧ r.defaultHits = r'.defaultHits ∧
      r.ingestFallbackTargets = r'.ingestFallbackTargets ∧
      ∀ fuel, r.reducedRaw.map (S.read s fuel) = r'.reducedRaw.map (S.read s' fuel)
  | .raised e _, .raised e' _ => e = e'
  | .crashed _, .crashed _ => True
  | _, _ => False

theorem ObjectsSim.sameEnding {S : Objects σ ν} (sim : ObjectsSim S S L V W)
    (h : Ending.Rel L (ResultRel V) x y) : SameEnding S x y := by
  cases h with
  | raised e hs => rfl
  | crashed hs => trivial
  | ok hr hs =>
    refine ⟨fun fuel => sim.read hs fuel hr.output, hr.consumedPaths, hr.defaultHits,
      hr.ingestFallbackTargets, fun fuel => ?_⟩
    exact option_eq_of_rel (option_map_rel hr.reducedRaw fun v v' hv => sim.read hs fuel hv)

theorem call_related (hJ : J.Lawful) (hw : w.Intact rt J docOf) (hgiven : call.Given w)
    (hevent : ⟨call.raw, base, .event raw⟩ ∈ w.loaded)
    (hc : w.getCompiled rt call = some found) :
    ∃ R fresh, OneToOne R ∧ (∀ a < J.literals.length, R a a) ∧
      Heap.Linked R w.heap (freshEvent J (docOf call.mappingVersionId) raw).2 ∧
      Ref.Paired R call.raw (freshEvent J (docOf call.mappingVersionId) raw).1 ∧
      compileRules rt (freshRules J (docOf call.mappingVersionId)).2.shape
        (freshRules J (docOf call.mappingVersionId)).1 (some call.dslVersion) = some fresh ∧
      RulesRel (Ref.Paired R) found.1 fresh := by
  obtain ⟨⟨d, hd, hrules, fresh, hfresh, hrel⟩, -⟩ := getCompiled_some hw hgiven hc
  obtain ⟨hlinked, hraw⟩ := pairs_linked hJ hw hd hrules hevent rfl
  have hlit (e : Loaded) (a : Nat) (ha : a < J.literals.length) : w.pairs J docOf d e a a :=
    .inl ⟨a, ha, by omega, by omega⟩
  refine ⟨_, fresh, hlinked.oneToOne, hlit _, hlinked, hraw, hfresh, ?_⟩
  exact hrel.mono fun _ _ h => h.mono fun _ _ h => .inr (.inl h)

theorem call_same (hJ : J.Lawful) (hw : w.Intact rt J docOf) (hgiven : call.Given w)
    (hevent : ⟨call.raw, base, .event raw⟩ ∈ w.loaded) :
    Option.Rel (SameEnding (pythonObjects J)) (w.apply rt J call)
      (mapEvent rt J (docOf call.mappingVersionId) (some call.dslVersion) raw
        call.ingestTimeEpoch) := by
  rw [mapEvent_eq]
  unfold MappingWorld.apply
  cases hc : w.getCompiled rt call with
  | none =>
    rw [getCompiled_none hw hgiven hc]
    exact .none
  | some found =>
    obtain ⟨R, fresh, hone, hlit, hlinked, hraw, hfresh, hrel⟩ :=
      call_related hJ hw hgiven hevent hc
    rw [hfresh]
    have sim := linkedSim hJ hone hlit
    refine .some (sim.sameEnding ?_)
    exact sim.applyCompiled rt hrel hraw call.ingestTimeEpoch hlinked (fun _ _ => trivial)
      (not_strayCall _ rt (fun _ _ _ => trivial) _ _ _ _)

theorem call_keeps (hJ : J.Lawful) (hw : w.Intact rt J docOf) (hgiven : call.Given w)
    (hown : OwnWrites rt J w (.apply call)) : w.heap <+: (w.afterApply rt J call).heap := by
  unfold MappingWorld.afterApply MappingWorld.apply
  cases hc : w.getCompiled rt call with
  | none => exact List.prefix_rfl
  | some found =>
    obtain ⟨base, raw, hevent⟩ := hgiven.2
    obtain ⟨R, fresh, hone, hlit, hlinked, hraw, hfresh, hrel⟩ :=
      call_related hJ hw hgiven hevent hc
    have sim := keepingSim hJ hone hlit w.heap
    have hcall := sim.applyCompiled rt hrel hraw call.ingestTimeEpoch ⟨hlinked, List.prefix_rfl⟩
      (fun t key => ?_) (hown found hc)
    · exact hcall.state.2
    · change w.heap.length ≤ (w.heap ++ [Shape.dict []]).length
      simp

theorem start_intact (maxCache : Nat) (hpos : 0 < maxCache) :
    (MappingWorld.start J maxCache hpos).Intact rt J docOf where
  literals := List.prefix_rfl
  above := by simp [MappingWorld.start]
  object := by simp [MappingWorld.start]
  holds := by simp [MappingWorld.start]
  apart := .nil
  cached := by simp [MappingWorld.start]

theorem load_intact (hw : w.Intact rt J docOf) (document : Document) :
    (w.load J docOf document).Intact rt J docOf := by
  unfold MappingWorld.load
  rw [load_place]
  have hgrow := List.prefix_append w.heap (place (document.content docOf) w.heap.length).2
  refine ⟨hw.literals.trans hgrow, ?_, ?_, ?_, .cons (fun d hd => ?_) hw.apart, fun p hp => ?_⟩
  · rintro d (_ | ⟨_, hd⟩)
    · exact hw.literals.length_le
    · exact hw.above d hd
  · rintro d (_ | ⟨_, hd⟩)
    · rfl
    · exact hw.object d hd
  · rintro d (_ | ⟨_, hd⟩)
    · exact Heap.holds_append _ _
    · exact (hw.holds d hd).mono hgrow
  · exact .inr (hw.holds d hd).length_le
  · obtain ⟨d, hd, hfrom⟩ := hw.cached p hp
    exact ⟨d, List.mem_cons_of_mem _ hd, hfrom⟩

theorem invalidate_intact (hw : w.Intact rt J docOf) (version : String) :
    MappingWorld.Intact rt J docOf { w with engine := w.engine.invalidate version } where
  literals := hw.literals
  above := hw.above
  object := hw.object
  holds := hw.holds
  apart := hw.apart
  cached p hp := hw.cached p (List.mem_filter.1 hp).1

theorem apply_intact (hJ : J.Lawful) (hw : w.Intact rt J docOf) (hgiven : call.Given w)
    (hown : OwnWrites rt J w (.apply call)) : (w.afterApply rt J call).Intact rt J docOf := by
  have hkeeps := call_keeps hJ hw hgiven hown
  unfold MappingWorld.afterApply MappingWorld.apply at hkeeps ⊢
  cases hc : w.getCompiled rt call with
  | none => exact hw
  | some found =>
    rw [hc] at hkeeps
    obtain ⟨hfound, hcache⟩ := getCompiled_some hw hgiven hc
    refine ⟨hw.literals.trans hkeeps, hw.above, hw.object, fun d hd => (hw.holds d hd).mono hkeeps,
      hw.apart, fun p hp => ?_⟩
    rcases hcache p hp with hold | rfl
    · exact hw.cached p hold
    · exact hfound

theorem step_intact (hJ : J.Lawful) (hw : w.Intact rt J docOf) (a : MappingAction)
    (he : (mappingSystem rt J docOf).enabled w a) (hown : OwnWrites rt J w a) :
    ((mappingSystem rt J docOf).next w a).Intact rt J docOf := by
  cases a with
  | load document => exact load_intact hw document
  | apply call => exact apply_intact hJ hw he hown
  | invalidate version => exact invalidate_intact hw version

theorem run_intact (hJ : J.Lawful)
    (hrun : (mappingSystem rt J docOf).Reaches (OwnWrites rt J) (.start J maxCache hpos) w) :
    w.Intact rt J docOf :=
  hrun.invariant (fun _ a hw he hown => step_intact hJ hw a he hown) (start_intact maxCache hpos)

end Run

/-- After any loads, calls and invalidations of one process, under any mapping versions, as long as
the rules write into dicts of their own call only, a call gives what fresh copies of its rules and
its event give, and it changes nothing that was there before. -/
theorem mapping_history_independent (rt : MappingRuntime) (J : Jmespath) (hJ : J.Lawful)
    (docOf : String → Json) (maxCache : Nat) (hpos : 0 < maxCache) (w : MappingWorld)
    (hrun : (mappingSystem rt J docOf).Reaches (OwnWrites rt J) (.start J maxCache hpos) w)
    (call : MappingCall) (hgiven : call.Given w) (base : Nat) (raw : Obj)
    (hevent : ⟨call.raw, base, .event raw⟩ ∈ w.loaded) :
    Option.Rel (SameEnding (pythonObjects J)) (w.apply rt J call)
        (mapEvent rt J (docOf call.mappingVersionId) (some call.dslVersion) raw
          call.ingestTimeEpoch) ∧
      (OwnWrites rt J w (.apply call) → w.heap <+: (w.afterApply rt J call).heap) := by
  have hw := run_intact hJ hrun
  exact ⟨call_same hJ hw hgiven hevent, call_keeps hJ hw hgiven⟩

/-- Two targets, none below the other. -/
def flatRules : Json :=
  .obj [("rules", .list [
    .obj [("target", .str "a.kind"), ("const", .obj [])],
    .obj [("target", .str "a.user"), ("source", .str "user"),
      ("when", .obj [("exists", .str "user")])]])]

/-- The second rule writes below the constant of the first. -/
def nestedRules : Json :=
  .obj [("rules", .list [
    .obj [("target", .str "a"), ("const", .obj [])],
    .obj [("target", .str "a.user"), ("source", .str "user"),
      ("when", .obj [("exists", .str "user")])]])]

/-- A process that has loaded rules, an event of a user and an event without one. -/
def twoEvents (doc : Json) : MappingWorld :=
  (((MappingWorld.start .none 1 Nat.one_pos).load .none (fun _ => doc) (.rules "v")).load .none
    (fun _ => doc) (.event [("user", .str "alice")])).load .none (fun _ => doc) (.event [])

def callOn (raw : Nat) : MappingCall := ⟨"v", .addr 5, .addr raw, 2, none⟩

theorem twoEvents_reached (doc : Json) (allowed : MappingWorld → MappingAction → Prop)
    (hload : ∀ w document, allowed w (.load document)) :
    (mappingSystem .ascii .none (fun _ => doc)).Reaches allowed (.start .none 1 Nat.one_pos)
      (twoEvents doc) :=
  .tail (.tail (.tail .refl ⟨.load (.rules "v"), trivial, hload _ _, rfl⟩)
    ⟨.load (.event [("user", .str "alice")]), trivial, hload _ _, rfl⟩)
    ⟨.load (.event []), trivial, hload _ _, rfl⟩

/-- Either document has six containers. -/
def twoEventsLoaded : List Loaded :=
  [⟨.addr 7, 7, .event []⟩, ⟨.addr 6, 6, .event [("user", .str "alice")]⟩, ⟨.addr 5, 0, .rules "v"⟩]

theorem callOn_user_given (h : w.loaded = twoEventsLoaded) : (callOn 6).Given w := by
  refine ⟨⟨0, ?_⟩, 6, [("user", .str "alice")], ?_⟩
  · rw [h]
    exact .tail _ (.tail _ (.head _))
  · rw [h]
    exact .tail _ (.head _)

theorem callOn_empty_given (h : w.loaded = twoEventsLoaded) : (callOn 7).Given w := by
  refine ⟨⟨0, ?_⟩, 7, [], ?_⟩
  · rw [h]
    exact .tail _ (.tail _ (.head _))
  · rw [h]
    exact .head _

def afterUser (doc : Json) : MappingWorld := (twoEvents doc).afterApply .ascii .none (callOn 6)

/-- The JSON of the output, down to `fuel` levels. -/
def outputAt (S : Objects σ ν) (fuel : Nat) : Ending σ Exc (ApplyResult ν) → Option Json
  | .ok r s => some (S.read s fuel r.output)
  | _ => none

theorem SameEnding.output {S : Objects σ ν} (h : Option.Rel (SameEnding S) x y) (fuel : Nat) :
    x.bind (outputAt S fuel) = y.bind (outputAt S fuel) := by
  refine option_eq_of_rel (option_bind_rel h fun a b hab => ?_)
  cases a with
  | ok r s =>
    cases b with
    | ok r' s' => exact .some (hab.1 fuel)
    | raised e s' => exact hab.elim
    | crashed s' => exact hab.elim
  | raised e s =>
    cases b with
    | ok r' s' => exact hab.elim
    | raised e' s' => exact .none
    | crashed s' => exact hab.elim
  | crashed s =>
    cases b with
    | ok r' s' => exact hab.elim
    | raised e s' => exact hab.elim
    | crashed s' => exact .none

/-- After the event of a user, the empty event is mapped as a fresh copy of it. -/
theorem mapping_history_independent_flat :
    Option.Rel (SameEnding (pythonObjects .none))
        ((afterUser flatRules).apply .ascii .none (callOn 7))
        (mapEvent .ascii .none flatRules (some 2) [] none) ∧
      (OwnWrites .ascii .none (afterUser flatRules) (.apply (callOn 7)) →
        (afterUser flatRules).heap <+:
          ((afterUser flatRules).afterApply .ascii .none (callOn 7)).heap) := by
  have hloaded : (twoEvents flatRules).loaded = twoEventsLoaded := rfl
  have hafter : (afterUser flatRules).loaded = twoEventsLoaded :=
    (MappingWorld.afterApply_loaded _ _ _ _).trans hloaded
  have hevent : ⟨.addr 7, 7, .event []⟩ ∈ (afterUser flatRules).loaded := by
    rw [hafter]
    exact .head _
  refine mapping_history_independent .ascii .none Jmespath.none_lawful (fun _ => flatRules) 1
    Nat.one_pos (afterUser flatRules) ?_ (callOn 7) (callOn_empty_given hafter) 7 [] hevent
  exact .tail (twoEvents_reached flatRules _ fun _ _ => trivial)
    ⟨.apply (callOn 6), callOn_user_given hloaded, by decide +kernel, rfl⟩

def keyCount : Shape Scalar (Ref Scalar) → Nat
  | .dict fields => fields.length
  | _ => 0

/-- What one event brought comes out with the next one, and the rules document is changed. -/
theorem constant_carries_events :
    (mappingSystem .ascii .none (fun _ => nestedRules)).Reaches (fun _ _ => True)
        (.start .none 1 Nat.one_pos) (afterUser nestedRules) ∧
      (callOn 7).Given (afterUser nestedRules) ∧
      ⟨.addr 7, 7, .event []⟩ ∈ (afterUser nestedRules).loaded ∧
      ¬ Option.Rel (SameEnding (pythonObjects .none))
        ((afterUser nestedRules).apply .ascii .none (callOn 7))
        (mapEvent .ascii .none nestedRules (some 2) [] none) ∧
      ¬ (twoEvents nestedRules).heap <+: (afterUser nestedRules).heap := by
  have hloaded : (twoEvents nestedRules).loaded = twoEventsLoaded := rfl
  have hafter : (afterUser nestedRules).loaded = twoEventsLoaded :=
    (MappingWorld.afterApply_loaded _ _ _ _).trans hloaded
  refine ⟨.tail (twoEvents_reached nestedRules _ fun _ _ => trivial)
    ⟨.apply (callOn 6), callOn_user_given hloaded, trivial, rfl⟩, callOn_empty_given hafter,
    ?_, fun h => ?_, fun h => ?_⟩
  · rw [hafter]
    exact .head _
  · exact absurd (SameEnding.output h 5) (by decide +kernel)
  · have hcell := (Heap.holds_prefix h).getElem? (i := 0) (by decide +kernel)
    have hread := congrArg (Option.map keyCount) hcell
    exact absurd hread (by decide +kernel)

end CentralOps
