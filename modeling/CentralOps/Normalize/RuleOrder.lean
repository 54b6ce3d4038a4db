import CentralOps.Normalize.IndependentTargets

namespace CentralOps
set_option autoImplicit true

open Heap (Fenced Outside Tree Nodes)

/-- Documents that differ in the order of the keys of dicts at most. -/
inductive Json.Reordered : Json → Json → Prop
  | same (x : Json) : Reordered x x
  | obj {o o' : Obj} (h : ∀ k, Option.Rel Json.Reordered (o.lookup k) (o'.lookup k)) :
    Reordered (.obj o) (.obj o')

def IsLeaf (h : Heap Scalar) (v : Ref Scalar) : Prop := ∀ fs, h.shape v = .dict fs → fs = []

section Call
variable (J : Jmespath) (rt : MappingRuntime) (raw ext : Ref Scalar) (ingest : Option Int)
  (g : Heap Scalar)

def Yields (rule : AnyRule (Ref Scalar)) : Prop :=
  ∃ o g', EvaluatesAlone J rt raw ext ingest g rule (some o) g'

/-- The output holds at each target what its rule comes to alone, and nothing elsewhere. -/
structure HoldsTargets (rules : List (AnyRule (Ref Scalar))) (output : Ref Scalar)
    (h : Heap Scalar) : Prop where
  values : ∀ rule ∈ rules, ∃ o g', EvaluatesAlone J rt raw ext ingest g rule o g' ∧
    ∀ outcome, o = some outcome → ∃ w, h.follow output rule.targetPath = some w ∧
      ∀ fuel, document fuel h w = document fuel g' outcome.value
  leaves : ∀ path w, h.follow output path = some w → IsLeaf h w →
    path = [] ∨ ∃ rule ∈ rules, rule.targetPath <+: path ∧ Yields J rt raw ext ingest g rule

/-- The dicts of the output after the call: on the way to the values of the rules, and nowhere
else. -/
structure SettledOutput (rules : List (AnyRule (Ref Scalar))) (out : Nat) (h : Heap Scalar)
    (node : List String → Option Nat) (written : List String → Option (Ref Scalar)) : Prop where
  root : node [] = some out
  tree : Tree h node written
  onWay : ∀ p, (node p).isSome = true →
    p = [] ∨ ∃ t, (written t).isSome = true ∧ p <+: t ∧ p ≠ t
  sources : ∀ t w, written t = some w →
    ∃ rule ∈ rules, rule.targetPath = t ∧ Yields J rt raw ext ingest g rule
  evaluated : ∀ rule ∈ rules, ∃ o g', EvaluatesAlone J rt raw ext ingest g rule o g' ∧
    ∀ outcome, o = some outcome → ∃ w, written rule.targetPath = some w ∧
      ∀ fuel, document fuel h w = document fuel g' outcome.value

end Call

instance (p q : List String) : Decidable (Incomparable p q) :=
  inferInstanceAs (Decidable (¬ p <+: q ∧ ¬ q <+: p))

instance : Std.Symm (fun r r' : AnyRule (Ref Scalar) => Incomparable r.targetPath r'.targetPath) :=
  ⟨fun _ _ h => h.symm⟩

theorem apart_perm {rules rules' : List (AnyRule (Ref Scalar))} (hperm : rules.Perm rules')
    (hapart : rules.Pairwise (fun r r' => Incomparable r.targetPath r'.targetPath)) :
    rules'.Pairwise (fun r r' => Incomparable r.targetPath r'.targetPath) :=
  (List.Perm.pairwise_iff Incomparable.symm hperm).1 hapart

theorem lookup_map_snd (f : α → β) (l : List (String × α)) (k : String) :
    (l.map (fun p => (p.1, f p.2))).lookup k = (l.lookup k).map f := by
  induction l with
  | nil => rfl
  | cons p l ih =>
    rw [List.map_cons, Assoc.lookup_cons_eq, Assoc.lookup_cons_eq, ih]
    split
    · rfl
    · rfl

section SettledOutput
variable {J : Jmespath} {rt : MappingRuntime} {raw ext : Ref Scalar} {ingest : Option Int}
  {g h h' s : Heap Scalar} {out : Nat} {rules rules' : List (AnyRule (Ref Scalar))}
  {node node' : List String → Option Nat} {written written' : List String → Option (Ref Scalar)}

theorem EvaluatesAlone.unique (heval : EvaluatesAlone J rt raw ext ingest g rule o g')
    (heval' : EvaluatesAlone J rt raw ext ingest g rule o' g'') : o = o' ∧ g' = g'' := by
  unfold EvaluatesAlone at heval heval'
  rw [heval] at heval'
  cases heval'
  exact ⟨rfl, rfl⟩

theorem Planted.settled (hp : Planted J rt raw ext ingest g out rules s node written)
    (hsh : s <+: h) : SettledOutput J rt raw ext ingest g rules out h node written where
  root := hp.root
  tree := hp.tree.extend hsh
  onWay := hp.onWay
  sources t w hw := (hp.values t w hw).2
  evaluated rule hrule := by
    obtain ⟨o, g', heval, hvalue⟩ := hp.evaluated rule hrule
    refine ⟨o, g', heval, fun outcome ho => ?_⟩
    obtain ⟨w, hw, hdoc⟩ := hvalue outcome ho
    refine ⟨w, hw, fun fuel => ?_⟩
    rw [← hdoc fuel]
    refine document_outside fuel hp.fenced (fun a ha _ => ?_) (hp.values _ w hw).1
    obtain ⟨new, rfl⟩ := hsh
    rw [List.getElem?_append_left ha]

section One
variable (hs : SettledOutput J rt raw ext ingest g rules out h node written)

include hs

theorem SettledOutput.written_iff (t : List String) : (written t).isSome = true ↔
    ∃ rule ∈ rules, rule.targetPath = t ∧ Yields J rt raw ext ingest g rule := by
  constructor
  · intro hw
    obtain ⟨w, hw⟩ := Option.isSome_iff_exists.1 hw
    exact hs.sources t w hw
  · rintro ⟨rule, hrule, rfl, outcome, g', heval⟩
    obtain ⟨o, g'', heval', hvalue⟩ := hs.evaluated rule hrule
    obtain ⟨w, hw, _⟩ := hvalue outcome (heval'.unique heval).1
    rw [hw]
    rfl

theorem SettledOutput.node_iff (p : List String) : (node p).isSome = true ↔
    p = [] ∨ ∃ t, (written t).isSome = true ∧ p <+: t ∧ p ≠ t := by
  constructor
  · exact hs.onWay p
  · rintro (rfl | ⟨t, ht, ⟨q, rfl⟩, hne⟩)
    · rw [hs.root]
      rfl
    · have hq : q ≠ [] := by
        rintro rfl
        exact hne (List.append_nil p).symm
      exact hs.tree.node_of_written p hq ht

variable (hpaths : ∀ rule ∈ rules, rule.targetPath ≠ [])
  (hapart : rules.Pairwise (fun r r' => Incomparable r.targetPath r'.targetPath))

include hpaths hapart

theorem SettledOutput.node_written (hw : (written t).isSome = true) : node t = none := by
  rw [← Option.not_isSome_iff_eq_none]
  intro hn
  obtain ⟨rule, hrule, rfl, _⟩ := (hs.written_iff t).1 hw
  rcases hs.onWay _ hn with hnil | ⟨t', ht', hpre, hne⟩
  · exact hpaths rule hrule hnil
  · obtain ⟨rule', hrule', rfl, _⟩ := (hs.written_iff t').1 ht'
    have hdiff : rule ≠ rule' := by
      rintro rfl
      exact hne rfl
    exact (hapart.forall hrule hrule' hdiff).1 hpre

theorem SettledOutput.holdsTargets : HoldsTargets J rt raw ext ingest g rules (.addr out) h where
  values rule hrule := by
    obtain ⟨o, g', heval, hvalue⟩ := hs.evaluated rule hrule
    refine ⟨o, g', heval, fun outcome ho => ?_⟩
    obtain ⟨w, hw, hdoc⟩ := hvalue outcome ho
    refine ⟨w, hs.tree.follow_entry rule.targetPath hs.root ?_, hdoc⟩
    have hfree := hs.node_written hpaths hapart (t := rule.targetPath) (by rw [hw]; rfl)
    rw [List.nil_append, Heap.entry_written hfree, hw]
  leaves path w hw hleaf := by
    rcases hs.tree.follow_inv path hs.root hw with ⟨a, hn, rfl⟩ | ⟨r, hr, hwr⟩
    · rw [List.nil_append] at hn
      rcases hs.onWay path (by rw [hn]; rfl) with hnil | ⟨t, ht, ⟨q, rfl⟩, hne⟩
      · exact .inl hnil
      · cases q with
        | nil => exact absurd (List.append_nil path).symm hne
        | cons k q =>
          obtain ⟨fs, hshape, hfs⟩ := hs.tree.shape hn
          have hempty := hfs k
          rw [hleaf fs hshape] at hempty
          have hsome : (Heap.entry node written (path ++ [k])).isSome = true := by
            rw [List.append_cons] at ht
            unfold Heap.entry
            cases q with
            | nil =>
              rw [List.append_nil] at ht
              rw [Option.isSome_or, ht, Bool.or_true]
            | cons k' q =>
              have hnode := hs.tree.node_of_written (path ++ [k]) (List.cons_ne_nil k' q) ht
              rw [Option.isSome_or, Option.isSome_map, hnode, Bool.true_or]
          rw [← hempty] at hsome
          cases hsome
    · rw [List.nil_append] at hwr
      obtain ⟨rule, hrule, rfl, hyields⟩ := (hs.written_iff r).1 hwr
      exact .inr ⟨rule, hrule, hr, hyields⟩

end One

section Two
variable (hs : SettledOutput J rt raw ext ingest g rules out h node written)
  (hs' : SettledOutput J rt raw ext ingest g rules' out' h' node' written')
  (hsame : ∀ rule, rule ∈ rules ↔ rule ∈ rules')

include hs hs' hsame

theorem SettledOutput.written_same (t : List String) : (written t).isSome = (written' t).isSome := by
  rw [Bool.eq_iff_iff, hs.written_iff, hs'.written_iff]
  simp only [hsame]

theorem SettledOutput.node_same (p : List String) : (node p).isSome = (node' p).isSome := by
  rw [Bool.eq_iff_iff, hs.node_iff, hs'.node_iff]
  simp only [hs.written_same hs' hsame]

theorem SettledOutput.document_written (hw : written t = some w) (hw' : written' t = some w')
    (fuel : Nat) : document fuel h w = document fuel h' w' := by
  obtain ⟨rule, hrule, rfl, outcome, g', heval⟩ := hs.sources t w hw
  obtain ⟨o₁, g₁, heval₁, hvalue₁⟩ := hs.evaluated rule hrule
  obtain ⟨o₂, g₂, heval₂, hvalue₂⟩ := hs'.evaluated rule ((hsame rule).1 hrule)
  obtain ⟨rfl, rfl⟩ := heval₁.unique heval
  obtain ⟨rfl, rfl⟩ := heval₂.unique heval
  obtain ⟨w₁, hw₁, hdoc₁⟩ := hvalue₁ outcome rfl
  obtain ⟨w₂, hw₂, hdoc₂⟩ := hvalue₂ outcome rfl
  obtain rfl := Option.some.inj (hw.symm.trans hw₁)
  obtain rfl := Option.some.inj (hw'.symm.trans hw₂)
  rw [hdoc₁, hdoc₂]

/-- Two trees over the same rules read alike, up to the order of keys. -/
theorem SettledOutput.reordered (fuel : Nat) {p : List String} {a b : Nat} (ha : node p = some a)
    (hb : node' p = some b) :
    Json.Reordered (document fuel h (.addr a)) (document fuel h' (.addr b)) := by
  induction fuel generalizing p a b with
  | zero => exact .same _
  | succ fuel ih =>
    obtain ⟨fs, hshape, hfs⟩ := hs.tree.shape ha
    obtain ⟨gs, hshape', hgs⟩ := hs'.tree.shape hb
    rw [document_succ, document_succ, hshape, hshape']
    refine .obj fun k => ?_
    rw [lookup_map_snd, lookup_map_snd, hfs, hgs]
    have hnode := hs.node_same hs' hsame (p ++ [k])
    have hwritten := hs.written_same hs' hsame (p ++ [k])
    cases hn : node (p ++ [k]) with
    | some c =>
      obtain ⟨d, hn'⟩ := Option.isSome_iff_exists.1 (hnode.symm.trans (by rw [hn]; rfl))
      rw [Heap.entry_node hn, Heap.entry_node hn']
      exact .some (ih hn hn')
    | none =>
      have hn' : node' (p ++ [k]) = none := by
        rw [← Option.not_isSome_iff_eq_none, ← hnode, hn]
        simp
      rw [Heap.entry_written hn, Heap.entry_written hn']
      cases hw : written (p ++ [k]) with
      | none =>
        have hw' : written' (p ++ [k]) = none := by
          rw [← Option.not_isSome_iff_eq_none, ← hwritten, hw]
          simp
        rw [hw']
        exact .none
      | some w =>
        obtain ⟨w', hw'⟩ := Option.isSome_iff_exists.1 (hwritten.symm.trans (by rw [hw]; rfl))
        rw [hw']
        have hdoc := hs.document_written hs' hsame hw hw' fuel
        simp only [Option.map_some]
        rw [hdoc]
        exact .some (.same _)

end Two

end SettledOutput

section Run
variable {J : Jmespath} {rt : MappingRuntime} {raw ext : Ref Scalar} {ingest : Option Int}
  {g s h : Heap Scalar} {out : Nat} {rules : List (AnyRule (Ref Scalar))}
  {node : List String → Option Nat} {written : List String → Option (Ref Scalar)}
  (hJ : J.Sound) (hc : Ready J out raw ext g)

theorem nodes_root (out : Nat) : Nodes (Function.update (fun _ => none) [] (some out)) = (· = out) := by
  funext a
  refine propext ⟨?_, ?_⟩
  · rintro ⟨p, hp⟩
    by_cases hnil : p = []
    · rw [hnil, Function.update_self] at hp
      exact (Option.some.inj hp).symm
    · rw [Function.update_of_ne hnil] at hp
      cases hp
  · rintro rfl
    exact ⟨[], Function.update_self _ _ _⟩

include hc

/-- Before the first rule the output is an empty dict. -/
theorem planted_start (hroot : g[out]? = some (.dict [])) :
    Planted J rt raw ext ingest g out [] g (Function.update (fun _ => none) [] (some out))
      (fun _ => none) where
  root := Function.update_self _ _ _
  tree := Heap.tree_root hroot
  fenced := by
    rw [nodes_root]
    exact hc.fenced
  kept _ _ _ := rfl
  le := Nat.le_refl _
  nodes p a hp := by
    have hnode : Nodes (Function.update (fun _ => none) [] (some out)) a := ⟨p, hp⟩
    rw [nodes_root] at hnode
    exact .inl hnode
  onWay p hp := by
    by_cases hnil : p = []
    · exact .inl hnil
    · rw [Function.update_of_ne hnil] at hp
      cases hp
  values _ _ hw := nomatch hw
  evaluated _ hrule := absurd hrule List.not_mem_nil

include hJ

theorem reduction_related (hp : Planted J rt raw ext ingest g out rules s node written)
    (specs : List CompiledReductionSpec) :
    Ending.Rel (Heap.Linked (alonePairs g s out)) (Option.Rel (Ref.Paired (alonePairs g s out)))
      (applyRawReduction (pythonObjects J) rt raw specs g)
      (applyRawReduction (pythonObjects J) rt raw specs s) := by
  have hlink := alonePairs_linked hc.fenced hp.le hp.kept
  have hlit (a : Nat) (ha : a < J.literals.length) : alonePairs g s out a a := by
    have hle := hc.literals
    have hout := hc.output
    exact .inl ⟨rfl, by omega, by omega⟩
  have hraw : Ref.Paired (alonePairs g s out) raw raw :=
    hc.raw.paired (fun a ha => .inl ⟨rfl, ha.1, ha.2⟩)
  exact (linkedSim hJ.toLawful hlink.oneToOne hlit).applyRawReduction rt hraw specs hlink

omit hc in
theorem reduction_appends (specs : List CompiledReductionSpec) (s : Heap Scalar) :
    s <+: (applyRawReduction (pythonObjects J) rt raw specs s).state := by
  have hrel := (keepingSim hJ.toLawful eq_oneToOne (fun _ _ => rfl) s).applyRawReduction rt
    (paired_self raw) specs ⟨linked_self s, List.prefix_rfl⟩
  exact hrel.state.2

variable {compiled : CompiledRules (Ref Scalar)} {consumed : List String}
  (hroot : g[out]? = some (.dict []))
  (hown : ∀ rule ∈ compiled.rules, AnyRuleRel (Own (· = out) g) rule rule)
  (hpaths : ∀ rule ∈ compiled.rules, rule.targetPath ≠ [])
  (hapart : compiled.rules.Pairwise (fun r r' => Incomparable r.targetPath r'.targetPath))

include hroot hown hpaths hapart

theorem applyRules_returns
    (halone : ∀ rule ∈ compiled.rules, ∃ o g', EvaluatesAlone J rt raw ext ingest g rule o g')
    (hreduce : applyRawReduction (pythonObjects J) rt raw compiled.rawReduction g = .ok o u) :
    ∃ r h, applyRules (pythonObjects J) rt compiled raw ingest (.addr out, ext, consumed) g =
      .ok r h := by
  have hall : ([] ++ compiled.rules).Pairwise
      (fun r r' : AnyRule (Ref Scalar) => Incomparable r.targetPath r'.targetPath) := hapart
  obtain ⟨p, s, node, written, hfold, _, hp⟩ := rules_planted hJ hc hown hpaths hall
    (planted_start hc hroot) (p := ⟨.addr out, consumed, [], []⟩) rfl halone
  have hrel := reduction_related hJ hc hp compiled.rawReduction
  rw [hreduce] at hrel
  cases hrun : applyRawReduction (pythonObjects J) rt raw compiled.rawReduction s with
  | raised e t =>
    rw [hrun] at hrel
    cases hrel
  | crashed t =>
    rw [hrun] at hrel
    cases hrel
  | ok reduced t =>
    refine ⟨⟨p.output, p.consumed, p.defaultHits, p.ingestFallback, reduced⟩, t, ?_⟩
    unfold applyRules
    rw [Proc.bind_ok hfold, Proc.bind_ok hrun]
    rfl

/-- A call that returns leaves the output settled. -/
theorem applyRules_settles
    (hrun : applyRules (pythonObjects J) rt compiled raw ingest (.addr out, ext, consumed) g =
      .ok r h) :
    r.output = .addr out ∧
      (∃ o u, applyRawReduction (pythonObjects J) rt raw compiled.rawReduction g = .ok o u) ∧
      ∃ node written, SettledOutput J rt raw ext ingest g compiled.rules out h node written := by
  obtain ⟨p, s, hfold, hrun⟩ := Proc.bind_eq_ok hrun
  obtain ⟨reduced, t, hreduce, hrun⟩ := Proc.bind_eq_ok hrun
  cases hrun
  have hall : ([] ++ compiled.rules).Pairwise
      (fun r r' : AnyRule (Ref Scalar) => Incomparable r.targetPath r'.targetPath) := hapart
  have halone := rules_alone hJ hc hown hpaths hall (planted_start hc hroot) rfl hfold
  obtain ⟨p', s', node, written, hfold', hout, hp⟩ := rules_planted hJ hc hown hpaths hall
    (planted_start hc hroot) (p := ⟨.addr out, consumed, [], []⟩) rfl halone
  have hsame := hfold.symm.trans hfold'
  cases hsame
  refine ⟨hout, ?_, node, written, hp.settled ?_⟩
  · have hrel := reduction_related hJ hc hp compiled.rawReduction
    rw [hreduce] at hrel
    cases hbefore : applyRawReduction (pythonObjects J) rt raw compiled.rawReduction g with
    | ok o u => exact ⟨o, u, rfl⟩
    | raised e u =>
      rw [hbefore] at hrel
      cases hrel
    | crashed u =>
      rw [hbefore] at hrel
      cases hrel
  · have happends : s <+: (applyRawReduction (pythonObjects J) rt raw compiled.rawReduction s).state :=
      reduction_appends hJ compiled.rawReduction s
    rw [hreduce] at happends
    exact happends

end Run

/-- Both calls return, with the same output up to the order of keys, or neither does. -/
def SameOutput (x y : Ending (Heap Scalar) Exc (ApplyResult (Ref Scalar))) : Prop :=
  ((∃ r h, x = .ok r h) ↔ ∃ r h, y = .ok r h) ∧
    ∀ r h r' h', x = .ok r h → y = .ok r' h' →
      ∀ fuel, Json.Reordered (document fuel h r.output) (document fuel h' r'.output)

section Supplied
variable {J : Jmespath} {rt : MappingRuntime} {raw ext output : Ref Scalar} {ingest : Option Int}
  {g h h' : Heap Scalar} {consumed : List String} {compiled : CompiledRules (Ref Scalar)}
  (hJ : J.Sound) (hs : Supplied J compiled raw h)

theorem Supplied.own (hs : Supplied J compiled raw h) (hlt : h.length < g.length) :
    ∀ rule ∈ compiled.rules, AnyRuleRel (Own (· = h.length) g) rule rule := by
  have hmono (v w : Ref Scalar) (hv : Own (fun _ => False) h v w) : Own (· = h.length) g v w := by
    refine Ref.Paired.mono (fun a b hab => ⟨hab.1, hab.2.1.trans hlt, ?_⟩) hv
    exact Nat.ne_of_lt hab.2.1
  exact fun rule hrule => (List.forall₂_same.1 hs.rules.rules rule hrule).mono hmono

theorem Supplied.permuted (hs : Supplied J compiled raw h) {order : List (AnyRule (Ref Scalar))}
    (hperm : compiled.rules.Perm order) : Supplied J { compiled with rules := order } raw h where
  found := hs.found
  literals := hs.literals
  raw := hs.raw
  rules :=
    { preprocessOps := rfl
      rules := List.forall₂_same.2 fun rule hrule =>
        List.forall₂_same.1 hs.rules.rules rule (hperm.mem_iff.2 hrule)
      rawReduction := rfl }
  paths rule hrule := hs.paths rule (hperm.mem_iff.2 hrule)

include hJ hs

variable (hapart : compiled.rules.Pairwise (fun r r' => Incomparable r.targetPath r'.targetPath))

include hapart

theorem applyCompiled_returns
    (hstart : prepared (pythonObjects J) rt compiled raw h = .ok (output, ext, consumed) g)
    (halone : ∀ rule ∈ compiled.rules, ∃ o g', EvaluatesAlone J rt raw ext ingest g rule o g')
    (hreduce : applyRawReduction (pythonObjects J) rt raw compiled.rawReduction g = .ok o u) :
    ∃ r h', applyCompiled (pythonObjects J) rt compiled raw ingest h = .ok r h' := by
  obtain ⟨hout, hc, hroot⟩ := prepared_ready hJ hs hstart
  obtain rfl : output = .addr h.length := hout
  rw [applyCompiled_eq, Proc.bind_ok hstart]
  exact applyRules_returns hJ hc hroot (hs.own hc.output) hs.paths hapart halone hreduce

theorem applyCompiled_settles
    (hrun : applyCompiled (pythonObjects J) rt compiled raw ingest h = .ok r h') :
    ∃ ext consumed g, prepared (pythonObjects J) rt compiled raw h = .ok (r.output, ext, consumed) g ∧
      r.output = .addr h.length ∧
      (∃ o u, applyRawReduction (pythonObjects J) rt raw compiled.rawReduction g = .ok o u) ∧
      ∃ node written,
        SettledOutput J rt raw ext ingest g compiled.rules h.length h' node written := by
  rw [applyCompiled_eq] at hrun
  obtain ⟨⟨output, ext, consumed⟩, g, hstart, hrun⟩ := Proc.bind_eq_ok hrun
  obtain ⟨hout, hc, hroot⟩ := prepared_ready hJ hs hstart
  obtain rfl : output = .addr h.length := hout
  obtain ⟨hr, hreduce, hsettled⟩ :=
    applyRules_settles hJ hc hroot (hs.own hc.output) hs.paths hapart hrun
  exact ⟨ext, consumed, g, hr ▸ hstart, hr, hreduce, hsettled⟩

theorem permuted_returns (hperm : compiled.rules.Perm rules)
    (hrun : applyCompiled (pythonObjects J) rt compiled raw ingest h = .ok r h') :
    ∃ r h', applyCompiled (pythonObjects J) rt { compiled with rules := rules } raw ingest h =
      .ok r h' := by
  obtain ⟨ext, consumed, g, hstart, -, ⟨o, u, hreduce⟩, node, written, hsettled⟩ :=
    applyCompiled_settles hJ hs hapart hrun
  refine applyCompiled_returns hJ (hs.permuted hperm) (apart_perm hperm hapart) hstart ?_ hreduce
  intro rule hrule
  obtain ⟨o, g', heval, _⟩ := hsettled.evaluated rule (hperm.mem_iff.2 hrule)
  exact ⟨o, g', heval⟩

/-- The order of the rules does not matter. -/
theorem permuted_sameOutput (hperm : compiled.rules.Perm rules) :
    SameOutput (applyCompiled (pythonObjects J) rt compiled raw ingest h)
      (applyCompiled (pythonObjects J) rt { compiled with rules := rules } raw ingest h) := by
  have hs' := hs.permuted hperm
  have hapart' : rules.Pairwise (fun r r' : AnyRule (Ref Scalar) =>
      Incomparable r.targetPath r'.targetPath) := apart_perm hperm hapart
  refine ⟨⟨?_, ?_⟩, ?_⟩
  · rintro ⟨r, h', hrun⟩
    exact permuted_returns hJ hs hapart hperm hrun
  · rintro ⟨r, h', hrun⟩
    exact permuted_returns hJ hs' hapart' hperm.symm hrun
  · intro r h₁ r' h₂ hrun hrun' fuel
    obtain ⟨ext, consumed, g, hstart, hout, -, node, written, hsettled⟩ :=
      applyCompiled_settles hJ hs hapart hrun
    obtain ⟨ext', consumed', g', hstart', hout', -, node', written', hsettled'⟩ :=
      applyCompiled_settles hJ hs' hapart' hrun'
    have hsame : Ending.ok (r.output, ext, consumed) g =
        (.ok (r'.output, ext', consumed') g' : Ending _ Exc _) := hstart.symm.trans hstart'
    rw [hout, hout'] at hsame ⊢
    cases hsame
    exact hsettled.reordered hsettled' (fun rule => hperm.mem_iff) fuel hsettled.root
      hsettled'.root

end Supplied

section Fresh
variable {J : Jmespath} (hJ : J.Sound)

include hJ

theorem fenced_literals : Fenced (fun _ => False) J.literals := by
  refine Heap.fenced_found fun a c hc => ?_
  have hself := List.forall₂_same.1 hJ.closed c (List.mem_of_getElem? hc)
  refine hself.all fun v v' hv => ?_
  refine hv.within fun a b hab => ?_
  obtain ⟨i, hi, rfl, _⟩ := hab
  omega

theorem fenced_freshRules (doc : Json) :
    Fenced (fun _ => False) (freshRules J doc).2 ∧
      J.literals.length ≤ (freshRules J doc).2.length ∧
      Outside (fun _ => False) (freshRules J doc).2 (freshRules J doc).1 := by
  have hload := fenced_load (J := J) doc (fenced_literals hJ)
  rwa [load_place] at hload

theorem fenced_freshEvent (doc : Json) (raw : Obj) :
    Fenced (fun _ => False) (freshEvent J doc raw).2 ∧
      (freshRules J doc).2.length ≤ (freshEvent J doc raw).2.length ∧
      Outside (fun _ => False) (freshEvent J doc raw).2 (freshEvent J doc raw).1 := by
  have hload := fenced_load (J := J) (.obj raw) (fenced_freshRules hJ doc).1
  rwa [load_place] at hload

omit hJ in
theorem compiled_own {K : Nat → Prop} {h : Heap Scalar} {doc : Ref Scalar} {dslVersion : Option Int}
    (hf : Fenced K h) (hdoc : Outside K h doc)
    (hcompiled : compileRules rt h.shape doc dslVersion = some compiled) :
    RulesRel (Own K h) compiled compiled := by
  have hself {v : Ref Scalar} (hv : Outside K h v) : Own K h v v := hv.paired fun a ha => ⟨rfl, ha⟩
  have hview (v w : Ref Scalar) (hv : Own K h v w) : Shape.Rel (Own K h) (h.shape v) (h.shape w) := by
    have hshape := hf.shape hv.outside
    obtain rfl : v = w := by
      cases hv with
      | scalar x => rfl
      | addr hab => rw [hab.1]
    exact hshape.rel fun u hu => hself hu
  have hrel := compileRules_rel hview rt (hself hdoc) dslVersion
  rw [hcompiled] at hrel
  cases hrel with
  | some hrules => exact hrules

theorem supplied_fresh {doc : Json} {raw : Obj} {dslVersion : Option Int}
    {compiled : CompiledRules (Ref Scalar)}
    (hcompiled : compileRules rt (freshRules J doc).2.shape (freshRules J doc).1 dslVersion =
      some compiled) :
    Supplied J compiled (freshEvent J doc raw).1 (freshEvent J doc raw).2 := by
  obtain ⟨hrules, hlit, hdoc⟩ := fenced_freshRules hJ doc
  obtain ⟨hevent, hle, hraw⟩ := fenced_freshEvent hJ doc raw
  exact ⟨hevent, hlit.trans hle, hraw, (compiled_own hrules hdoc hcompiled).mono (Own.mono hle),
    compileRules_paths hcompiled⟩

end Fresh

/-- Rules whose targets lie apart do not interfere. -/
theorem independent_targets (rt : MappingRuntime) (J : Jmespath) (hJ : J.Sound) (doc : Json)
    (dslVersion : Option Int) (raw : Obj) (ingest : Option Int) (compiled : CompiledRules (Ref Scalar))
    (hcompiled : compileRules rt (freshRules J doc).2.shape (freshRules J doc).1 dslVersion =
      some compiled)
    (hapart : compiled.rules.Pairwise (fun r r' => Incomparable r.targetPath r'.targetPath)) :
    (∀ r h, applyCompiled (pythonObjects J) rt compiled (freshEvent J doc raw).1 ingest
        (freshEvent J doc raw).2 = .ok r h →
      ∃ extracted consumed g,
        prepared (pythonObjects J) rt compiled (freshEvent J doc raw).1 (freshEvent J doc raw).2 =
          .ok (r.output, extracted, consumed) g ∧
        HoldsTargets J rt (freshEvent J doc raw).1 extracted ingest g compiled.rules r.output h) ∧
      ∀ rules, compiled.rules.Perm rules →
        SameOutput
          (applyCompiled (pythonObjects J) rt compiled (freshEvent J doc raw).1 ingest
            (freshEvent J doc raw).2)
          (applyCompiled (pythonObjects J) rt { compiled with rules := rules }
            (freshEvent J doc raw).1 ingest (freshEvent J doc raw).2) := by
  have hs : Supplied J compiled (freshEvent J doc raw).1 (freshEvent J doc raw).2 :=
    supplied_fresh hJ hcompiled
  constructor
  · intro r h hrun
    obtain ⟨ext, consumed, g, hstart, hout, -, node, written, hsettled⟩ :=
      applyCompiled_settles hJ hs hapart hrun
    refine ⟨ext, consumed, g, hstart, ?_⟩
    rw [hout]
    exact hsettled.holdsTargets hs.paths hapart
  · exact fun rules hperm => permuted_sameOutput hJ hs hapart hperm

def flatCompiled : CompiledRules (Ref Scalar) :=
  (compileRules .ascii (freshRules .none flatRules).2.shape (freshRules .none flatRules).1
    (some 2)).get (by decide +kernel)

/-- The call on an event of a user. -/
def flatRun (rules : List (AnyRule (Ref Scalar))) :
    Ending (Heap Scalar) Exc (ApplyResult (Ref Scalar)) :=
  applyCompiled (pythonObjects .none) .ascii { flatCompiled with rules := rules }
    (freshEvent .none flatRules [("user", .str "alice")]).1 none
    (freshEvent .none flatRules [("user", .str "alice")]).2

def outputRead (fuel : Nat) : Ending (Heap Scalar) Exc (ApplyResult (Ref Scalar)) → Option Json
  | .ok r h => some (document fuel h r.output)
  | _ => none

theorem flatRules_independent :
    (∃ r h, flatRun flatCompiled.rules = .ok r h ∧
      document 3 h r.output = .obj [("a", .obj [("kind", .obj []), ("user", .str "alice")])] ∧
      ∃ extracted consumed g,
        prepared (pythonObjects .none) .ascii flatCompiled
            (freshEvent .none flatRules [("user", .str "alice")]).1
            (freshEvent .none flatRules [("user", .str "alice")]).2 =
          .ok (r.output, extracted, consumed) g ∧
        HoldsTargets .none .ascii (freshEvent .none flatRules [("user", .str "alice")]).1 extracted
          none g flatCompiled.rules r.output h) ∧
      SameOutput (flatRun flatCompiled.rules) (flatRun flatCompiled.rules.reverse) := by
  have happly := independent_targets .ascii .none Jmespath.none_sound flatRules (some 2)
    [("user", .str "alice")] none flatCompiled (Option.some_get _).symm (by decide +kernel)
  refine ⟨?_, happly.2 flatCompiled.rules.reverse (List.reverse_perm _).symm⟩
  have hread : outputRead 3 (flatRun flatCompiled.rules) =
      some (.obj [("a", .obj [("kind", .obj []), ("user", .str "alice")])]) := by
    decide +kernel
  cases hrun : flatRun flatCompiled.rules with
  | ok r h =>
    rw [hrun] at hread
    exact ⟨r, h, rfl, Option.some.inj hread, happly.1 r h hrun⟩
  | raised e h =>
    rw [hrun] at hread
    cases hread
  | crashed h =>
    rw [hrun] at hread
    cases hread

end CentralOps
