import CentralOps.Normalize.Confinement
import CentralOps.Normalize.Documents

namespace CentralOps
set_option autoImplicit true

open Heap (Fenced Outside Tree Grown Nodes)

/-- Neither path lies on the other. -/
def Incomparable (p q : List String) : Prop := ¬ p <+: q ∧ ¬ q <+: p

theorem Incomparable.symm (h : Incomparable p q) : Incomparable q p := ⟨h.2, h.1⟩

section Reading
variable {s u : Heap Scalar} {K : Nat → Prop}

theorem document_succ (fuel : Nat) (h : Heap Scalar) (v : Ref Scalar) :
    document (fuel + 1) h v = match h.shape v with
      | .scalar x => x.toJson
      | .list xs => .list (xs.map (document fuel h))
      | .dict fs => .obj (fs.map (fun p => (p.1, document fuel h p.2))) := by
  have hshape : (pythonObjects .none).shape h v = h.shape v := rfl
  rw [document, Objects.read, hshape]
  cases h.shape v with
  | scalar x => rfl
  | list xs => rfl
  | dict fs => rfl

/-- A document outside `K` reads the same while the cells outside `K` stay. -/
theorem document_outside (fuel : Nat) (hf : Fenced K s)
    (hcells : ∀ a < s.length, ¬ K a → u[a]? = s[a]?) {v : Ref Scalar} (hv : Outside K s v) :
    document fuel u v = document fuel s v := by
  induction fuel generalizing v with
  | zero => rfl
  | succ fuel ih =>
    have hshape : u.shape v = s.shape v := by
      cases v with
      | scalar x => rfl
      | addr a => rw [Heap.shape, Heap.shape, hcells a hv.1 hv.2]
    have hall := hf.shape hv
    rw [document_succ, document_succ, hshape]
    cases hc : s.shape v with
    | scalar x => rfl
    | list xs =>
      rw [hc] at hall
      exact congrArg Json.list (List.map_congr_left fun x hx => ih (hall x hx))
    | dict fs =>
      rw [hc] at hall
      exact congrArg Json.obj (List.map_congr_left fun p hp => by rw [ih (hall p hp)])

theorem read_eq_document (J : Jmespath) (fuel : Nat) (h : Heap Scalar) (v : Ref Scalar) :
    (pythonObjects J).read h fuel v = document fuel h v := by
  induction fuel generalizing v with
  | zero => rfl
  | succ fuel ih =>
    have hshape : (pythonObjects J).shape h v = h.shape v := rfl
    rw [document_succ, Objects.read, hshape]
    cases h.shape v with
    | scalar x => rfl
    | list xs => exact congrArg Json.list (List.map_congr_left fun x _ => ih x)
    | dict fs => exact congrArg Json.obj (List.map_congr_left fun p _ => by rw [ih])

end Reading

section Call
variable (J : Jmespath) (rt : MappingRuntime) (raw ext : Ref Scalar) (ingest : Option Int)
  (g : Heap Scalar)

/-- Evaluated alone, on the event and the extracted fields, the rule comes to an outcome, or is
skipped. -/
def EvaluatesAlone (rule : AnyRule (Ref Scalar)) (o : Option (RuleOutcome (Ref Scalar)))
    (g' : Heap Scalar) : Prop :=
  evalRule (pythonObjects J) rt raw ext ingest rule g = .ok o g'

/-- The dicts of the output, while the rules in `done` have written into it. -/
structure Planted (out : Nat) (done : List (AnyRule (Ref Scalar))) (s : Heap Scalar)
    (node : List String → Option Nat) (written : List String → Option (Ref Scalar)) : Prop where
  root : node [] = some out
  tree : Tree s node written
  fenced : Fenced (Nodes node) s
  kept : ∀ a < g.length, a ≠ out → s[a]? = g[a]?
  le : g.length ≤ s.length
  nodes : ∀ p a, node p = some a → a = out ∨ g.length ≤ a
  onWay : ∀ p, (node p).isSome = true →
    p = [] ∨ ∃ t, (written t).isSome = true ∧ p <+: t ∧ p ≠ t
  values : ∀ t w, written t = some w → Outside (Nodes node) s w ∧
    ∃ rule ∈ done, rule.targetPath = t ∧
      ∃ o g', EvaluatesAlone J rt raw ext ingest g rule (some o) g'
  evaluated : ∀ rule ∈ done, ∃ o g', EvaluatesAlone J rt raw ext ingest g rule o g' ∧
    ∀ outcome, o = some outcome → ∃ w, written rule.targetPath = some w ∧
      ∀ fuel, document fuel s w = document fuel g' outcome.value

end Call

section Step
variable {J : Jmespath} {rt : MappingRuntime} {raw ext : Ref Scalar} {ingest : Option Int}
  {g s t : Heap Scalar} {out : Nat} {done : List (AnyRule (Ref Scalar))}
  {node : List String → Option Nat} {written : List String → Option (Ref Scalar)}

/-- The cells before the rules, without the output, and the cells that a rule makes. -/
def alonePairs (g s : Heap Scalar) (out : Nat) (a b : Nat) : Prop :=
  (a = b ∧ a < g.length ∧ a ≠ out) ∨ ∃ i, a = g.length + i ∧ b = s.length + i

theorem alonePairs_linked (hg : Fenced (· = out) g) (hle : g.length ≤ s.length)
    (hkept : ∀ a < g.length, a ≠ out → s[a]? = g[a]?) :
    Heap.Linked (alonePairs g s out) g s where
  oneToOne := by
    rintro a b a' b' (⟨rfl, ha, _⟩ | ⟨i, rfl, rfl⟩) (⟨rfl, ha', _⟩ | ⟨j, rfl, rfl⟩) <;> omega
  cells := by
    rintro a b (⟨rfl, ha, hout⟩ | ⟨i, rfl, rfl⟩)
    · rw [hkept a ha hout]
      cases hc : g[a]? with
      | none => exact .none
      | some c =>
        have hall := hg.cell hc hout
        exact .some (hall.rel fun v hv => hv.paired fun b hb => .inl ⟨rfl, hb.1, hb.2⟩)
    · rw [List.getElem?_eq_none (by omega), List.getElem?_eq_none (by omega)]
      exact .none
  next i := .inr ⟨i, rfl, rfl⟩

/-- The output as it is after a run that made new objects only. -/
theorem Planted.extend (hp : Planted J rt raw ext ingest g out done s node written) (hst : s <+: t)
    (hf : Fenced (Nodes node) t) : Planted J rt raw ext ingest g out done t node written where
  root := hp.root
  tree := hp.tree.extend hst
  fenced := hf
  kept a ha hout := by
    obtain ⟨new, rfl⟩ := hst
    rw [List.getElem?_append_left (ha.trans_le hp.le), hp.kept a ha hout]
  le := hp.le.trans hst.length_le
  nodes := hp.nodes
  onWay := hp.onWay
  values w v hw := by
    obtain ⟨hv, hrule⟩ := hp.values w v hw
    exact ⟨hv.mono hst.length_le, hrule⟩
  evaluated rule hrule := by
    obtain ⟨o, g', heval, hvalue⟩ := hp.evaluated rule hrule
    refine ⟨o, g', heval, fun outcome ho => ?_⟩
    obtain ⟨w, hw, hdoc⟩ := hvalue outcome ho
    refine ⟨w, hw, fun fuel => ?_⟩
    rw [← hdoc fuel]
    refine document_outside fuel hp.fenced (fun a ha _ => ?_) (hp.values _ w hw).1
    obtain ⟨new, rfl⟩ := hst
    rw [List.getElem?_append_left ha]

theorem Planted.skip (hp : Planted J rt raw ext ingest g out done s node written)
    {rule : AnyRule (Ref Scalar)} {g' : Heap Scalar}
    (heval : EvaluatesAlone J rt raw ext ingest g rule none g') :
    Planted J rt raw ext ingest g out (done ++ [rule]) s node written := by
  refine { hp with values := fun w v hw => ?_, evaluated := fun r hr => ?_ }
  · obtain ⟨hv, r, hr, hrule⟩ := hp.values w v hw
    exact ⟨hv, r, List.mem_append_left _ hr, hrule⟩
  · rcases List.mem_append.1 hr with hr | hr
    · exact hp.evaluated r hr
    · obtain rfl := List.mem_singleton.1 hr
      exact ⟨none, g', heval, fun outcome ho => nomatch ho⟩

theorem Planted.plant (hp : Planted J rt raw ext ingest g out done s node written)
    {rule : AnyRule (Ref Scalar)} {g' : Heap Scalar} {outcome : RuleOutcome (Ref Scalar)}
    {v : Ref Scalar} (hpath : rule.targetPath ≠ [])
    (hapart : ∀ r ∈ done, Incomparable r.targetPath rule.targetPath)
    (heval : EvaluatesAlone J rt raw ext ingest g rule (some outcome) g')
    (hv : Outside (Nodes node) s v)
    (hdoc : ∀ fuel, document fuel s v = document fuel g' outcome.value) :
    ∃ node' written', Planted J rt raw ext ingest g out (done ++ [rule])
      (s.setPath (.addr out) rule.targetPath v) node' written' := by
  have hfar {w : List String} (hw : (written w).isSome = true) : Incomparable w rule.targetPath := by
    obtain ⟨x, hx⟩ := Option.isSome_iff_exists.1 hw
    obtain ⟨_, r, hr, rfl, _⟩ := hp.values w x hx
    exact hapart r hr
  have hclear : ∀ r, r <+: rule.targetPath → r ≠ rule.targetPath → written ([] ++ r) = none := by
    intro r hr _
    by_contra hsome
    exact (hfar (Option.isSome_iff_ne_none.2 hsome)).1 hr
  have hfree : node ([] ++ rule.targetPath) = none := by
    by_contra hsome
    rcases hp.onWay _ (Option.isSome_iff_ne_none.2 hsome) with hnil | ⟨w, hw, hpre, _⟩
    · exact hpath hnil
    · exact (hfar hw).2 hpre
  obtain ⟨node', htree, hgrown, hnew⟩ :=
    hp.tree.setPath rule.targetPath hpath hp.root hclear hfree v
  rw [List.nil_append] at htree
  have hroot : Outside (fun _ => False) s (.addr out) := ⟨hp.tree.lt_length hp.root, id⟩
  have hfound := hp.fenced.found_only.setPath rule.targetPath hroot hv.found_only
  have hcells {a : Nat} (ha : a < s.length) (hout : ¬ Nodes node a) :
      (s.setPath (.addr out) rule.targetPath v)[a]? = s[a]? :=
    hgrown.cells a ha (fun p hpa => hout ⟨p, hpa⟩)
  have hreads {w : Ref Scalar} (hw : Outside (Nodes node) s w) (fuel : Nat) :
      document fuel (s.setPath (.addr out) rule.targetPath v) w = document fuel s w :=
    document_outside fuel hp.fenced (fun a ha hout => hcells ha hout) hw
  have hstays {w : List String} (hw : (written w).isSome = true) :
      Function.update written rule.targetPath (some v) w = written w := by
    refine Function.update_of_ne ?_ _ _
    rintro rfl
    exact (hfar hw).1 (List.prefix_refl _)
  have hput : Function.update written rule.targetPath (some v) rule.targetPath = some v :=
    Function.update_self _ _ _
  refine ⟨node', _, hgrown.keeps [] out hp.root, htree, hp.fenced.grown hgrown htree hfound, ?_,
    hp.le.trans hgrown.le, ?_, ?_, ?_, ?_⟩
  · intro a ha hout
    have hnot : ¬ Nodes node a := by
      rintro ⟨p, hpa⟩
      rcases hp.nodes p a hpa with heq | hge
      · exact hout heq
      · exact absurd ha (Nat.not_lt.2 hge)
    rw [hcells (ha.trans_le hp.le) hnot, hp.kept a ha hout]
  · intro p a hpa
    rcases hgrown.fresh p a hpa with hpa | hge
    · exact hp.nodes p a hpa
    · exact .inr (hp.le.trans hge)
  · intro p hpn
    rcases hnew p hpn with hold | ⟨r, hr, hne, rfl⟩
    · rcases hp.onWay p hold with hnil | ⟨w, hw, hpre, hne⟩
      · exact .inl hnil
      · exact .inr ⟨w, by rwa [hstays hw], hpre, hne⟩
    · exact .inr ⟨rule.targetPath, by rw [hput]; rfl, hr, hne⟩
  · intro w x hw
    by_cases heq : w = rule.targetPath
    · subst heq
      rw [hput] at hw
      obtain rfl := Option.some.inj hw
      exact ⟨hv.grown hgrown, rule, by simp, rfl, outcome, g', heval⟩
    · rw [Function.update_of_ne heq] at hw
      obtain ⟨hx, r, hr, hrule⟩ := hp.values w x hw
      exact ⟨hx.grown hgrown, r, List.mem_append_left _ hr, hrule⟩
  · intro r hr
    rcases List.mem_append.1 hr with hr | hr
    · obtain ⟨o, g₁, heval₁, hvalue⟩ := hp.evaluated r hr
      refine ⟨o, g₁, heval₁, fun outcome₁ ho => ?_⟩
      obtain ⟨w, hw, hdoc₁⟩ := hvalue outcome₁ ho
      refine ⟨w, by rw [hstays (by rw [hw]; rfl), hw], fun fuel => ?_⟩
      rw [hreads (hp.values _ w hw).1, hdoc₁]
    · obtain rfl := List.mem_singleton.1 hr
      refine ⟨some outcome, g', heval, fun outcome₁ ho => ⟨v, hput, fun fuel => ?_⟩⟩
      cases ho
      rw [hreads hv, hdoc]

end Step

section Same

theorem eq_oneToOne : OneToOne (Eq : Nat → Nat → Prop) := by
  rintro a b a' b' rfl rfl
  exact Iff.rfl

theorem paired_self (v : Ref Scalar) : Ref.Paired Eq v v := by
  cases v with
  | scalar x => exact .scalar x
  | addr a => exact .addr rfl

theorem linked_self (s : Heap Scalar) : Heap.Linked Eq s s where
  oneToOne := eq_oneToOne
  cells := by
    rintro a b rfl
    cases s[a]? with
    | none => exact .none
    | some c =>
      cases c with
      | scalar x => exact .some (.scalar x)
      | list xs => exact .some (.list (List.forall₂_same.2 fun v _ => paired_self v))
      | dict fs => exact .some (.dict (List.forall₂_same.2 fun p _ => ⟨rfl, paired_self p.2⟩))
  next _ := rfl

end Same

/-- The state before the rules: an output to which nothing refers, the event and the extracted
fields. -/
structure Ready (J : Jmespath) (out : Nat) (raw ext : Ref Scalar) (g : Heap Scalar) : Prop where
  fenced : Fenced (· = out) g
  literals : J.literals.length ≤ out
  output : out < g.length
  raw : Outside (· = out) g raw
  ext : Outside (· = out) g ext

section Loop
variable {J : Jmespath} {rt : MappingRuntime} {raw ext : Ref Scalar} {ingest : Option Int}
  {g s : Heap Scalar} {out : Nat} {done : List (AnyRule (Ref Scalar))}
  {node : List String → Option Nat} {written : List String → Option (Ref Scalar)}
  {rule : AnyRule (Ref Scalar)}
  (hJ : J.Sound) (hc : Ready J out raw ext g) (hr : AnyRuleRel (Own (· = out) g) rule rule)
  (hp : Planted J rt raw ext ingest g out done s node written)

section Values

include hp

theorem Planted.apart (ha : a < g.length) (hout : a ≠ out) : a < s.length ∧ ¬ Nodes node a := by
  refine ⟨ha.trans_le hp.le, ?_⟩
  rintro ⟨p, hpa⟩
  rcases hp.nodes p a hpa with heq | hge
  · exact hout heq
  · exact absurd ha (Nat.not_lt.2 hge)

theorem Planted.outside {v : Ref Scalar} (hv : Outside (· = out) g v) : Outside (Nodes node) s v :=
  Ref.Within.mono (fun _ ha => hp.apart ha.1 ha.2) hv

theorem Planted.own (v w : Ref Scalar) (hv : Own (· = out) g v w) : Own (Nodes node) s v w :=
  Ref.Paired.mono (fun _ _ hab => ⟨hab.1, hp.apart hab.2.1 hab.2.2⟩) hv

include hc

theorem Planted.literals (a : Nat) (ha : Nodes node a) : J.literals.length ≤ a := by
  obtain ⟨p, hpa⟩ := ha
  have hlit := hc.literals
  have hout := hc.output
  rcases hp.nodes p a hpa with heq | hge
  · omega
  · omega

end Values

include hJ hc hp hr

theorem evalRule_related :
    Ending.Rel (Heap.Linked (alonePairs g s out))
      (Option.Rel (OutcomeRel (Ref.Paired (alonePairs g s out))))
      (evalRule (pythonObjects J) rt raw ext ingest rule g)
      (evalRule (pythonObjects J) rt raw ext ingest rule s) := by
  have hlink := alonePairs_linked hc.fenced hp.le hp.kept
  have hself {v : Ref Scalar} (hv : Outside (· = out) g v) :
      Ref.Paired (alonePairs g s out) v v :=
    hv.paired (fun a ha => .inl ⟨rfl, ha.1, ha.2⟩)
  have hown (v w : Ref Scalar) (hv : Own (· = out) g v w) : Ref.Paired (alonePairs g s out) v w :=
    Ref.Paired.mono (fun _ _ hab => .inl hab) hv
  have hlit (a : Nat) (ha : a < J.literals.length) : alonePairs g s out a a := by
    have hle := hc.literals
    have hout := hc.output
    exact .inl ⟨rfl, by omega, by omega⟩
  exact (linkedSim hJ.toLawful hlink.oneToOne hlit).evalRule rt (hself hc.raw) (hself hc.ext) ingest
    (hr.mono hown) hlink

omit hc hp in
theorem evalRule_appends (hrun : evalRule (pythonObjects J) rt raw ext ingest rule s = .ok o t) :
    s <+: t := by
  have heq (v w : Ref Scalar) (hv : Own (· = out) g v w) : Ref.Paired Eq v w :=
    Ref.Paired.mono (fun _ _ hab => hab.1) hv
  have hrel := (keepingSim hJ.toLawful eq_oneToOne (fun _ _ => rfl) s).evalRule rt (paired_self raw)
    (paired_self ext) ingest (hr.mono heq) ⟨linked_self s, List.prefix_rfl⟩
  have hstate := hrel.state
  rw [hrun] at hstate
  exact hstate.2

theorem fenced_after (hrun : evalRule (pythonObjects J) rt raw ext ingest rule s = .ok o t) :
    Fenced (Nodes node) t ∧ ∀ outcome, o = some outcome → Outside (Nodes node) t outcome.value := by
  have hfence := fences_evalRule hJ (hp.literals hc) rt ingest (hr.mono hp.own) hp.fenced
    (hp.outside hc.raw) (hp.outside hc.ext)
  obtain ⟨hf, _, hvalue⟩ := hfence
  rw [hrun] at hf
  exact ⟨hf, hvalue o t hrun⟩

omit hJ hc hp hr in
theorem record_output (p : Progress (Ref Scalar)) (rule : AnyRule (Ref Scalar))
    (o : Option (RuleOutcome (Ref Scalar))) : (p.record rule o).output = p.output := by
  cases rule with
  | arrayBuilder r => rfl
  | scalar r => cases o <;> rfl

/-- A rule that comes to its end alone does so in the course of the call, and then the output holds
its value too. -/
theorem applyMappingRule_planted {g' : Heap Scalar} {p : Progress (Ref Scalar)}
    (hpath : rule.targetPath ≠ []) (hapart : ∀ r ∈ done, Incomparable r.targetPath rule.targetPath)
    (heval : EvaluatesAlone J rt raw ext ingest g rule o g') (hout : p.output = .addr out) :
    ∃ p' t node' written',
      applyMappingRule (pythonObjects J) rt raw ext ingest p rule s = .ok p' t ∧
        p'.output = .addr out ∧
        Planted J rt raw ext ingest g out (done ++ [rule]) t node' written' := by
  have hrel := evalRule_related hJ hc hr hp
  unfold EvaluatesAlone at heval
  rw [heval] at hrel
  cases hrun : evalRule (pythonObjects J) rt raw ext ingest rule s with
  | raised e t =>
    rw [hrun] at hrel
    cases hrel
  | crashed t =>
    rw [hrun] at hrel
    cases hrel
  | ok o' t =>
    rw [hrun] at hrel
    cases hrel with
    | ok hoption hlink =>
      obtain ⟨hf, hvalue⟩ := fenced_after hJ hc hr hp hrun
      have hext := hp.extend (evalRule_appends hJ hr hrun) hf
      cases hoption with
      | none =>
        refine ⟨p.record rule none, t, node, written, ?_,
          (record_output p rule none).trans hout, hext.skip heval⟩
        unfold applyMappingRule
        rw [Proc.bind_ok hrun]
        rfl
      | @some outcome outcome' houtcome =>
        have hdoc (fuel : Nat) : document fuel t outcome'.value =
            document fuel g' outcome.value := by
          have hlit (a : Nat) (ha : a < J.literals.length) : alonePairs g s out a a := by
            have hle := hc.literals
            have hlt := hc.output
            exact .inl ⟨rfl, by omega, by omega⟩
          rw [← read_eq_document J, ← read_eq_document J]
          exact ((linkedSim hJ.toLawful hlink.oneToOne hlit).read hlink fuel houtcome.value).symm
        obtain ⟨node', written', hplanted⟩ :=
          hext.plant hpath hapart heval (hvalue outcome' rfl) hdoc
        refine ⟨p.record rule (some outcome'), _, node', written', ?_,
          (record_output p rule _).trans hout, hplanted⟩
        unfold applyMappingRule
        rw [Proc.bind_ok hrun, ← hout]
        rfl

theorem evaluatesAlone_of_run {p p' : Progress (Ref Scalar)}
    (hrun : applyMappingRule (pythonObjects J) rt raw ext ingest p rule s = .ok p' t) :
    ∃ o g', EvaluatesAlone J rt raw ext ingest g rule o g' := by
  obtain ⟨o, t', heval, _⟩ := Proc.bind_eq_ok hrun
  have hrel := evalRule_related hJ hc hr hp
  rw [heval] at hrel
  cases halone : evalRule (pythonObjects J) rt raw ext ingest rule g with
  | ok o' g' => exact ⟨o', g', halone⟩
  | raised e g' =>
    rw [halone] at hrel
    cases hrel
  | crashed g' =>
    rw [halone] at hrel
    cases hrel

end Loop

section Rules
variable {J : Jmespath} {rt : MappingRuntime} {raw ext : Ref Scalar} {ingest : Option Int}
  {g s : Heap Scalar} {out : Nat} {done rules : List (AnyRule (Ref Scalar))}
  {node : List String → Option Nat} {written : List String → Option (Ref Scalar)}
  (hJ : J.Sound) (hc : Ready J out raw ext g)
  (hown : ∀ rule ∈ rules, AnyRuleRel (Own (· = out) g) rule rule)
  (hpaths : ∀ rule ∈ rules, rule.targetPath ≠ [])
  (hapart : (done ++ rules).Pairwise (fun r r' => Incomparable r.targetPath r'.targetPath))
  (hp : Planted J rt raw ext ingest g out done s node written)
  {p : Progress (Ref Scalar)} (hout : p.output = .addr out)

include hJ hc hown hpaths hapart hp hout

/-- The loop over rules that come to their ends alone. -/
theorem rules_planted
    (halone : ∀ rule ∈ rules, ∃ o g', EvaluatesAlone J rt raw ext ingest g rule o g') :
    ∃ p' t node' written',
      Proc.fold (applyMappingRule (pythonObjects J) rt raw ext ingest) p rules s = .ok p' t ∧
        p'.output = .addr out ∧
        Planted J rt raw ext ingest g out (done ++ rules) t node' written' := by
  induction rules generalizing s p done node written with
  | nil =>
    rw [List.append_nil]
    exact ⟨p, s, node, written, rfl, hout, hp⟩
  | cons rule rules ih =>
    obtain ⟨hrule, hrules⟩ := List.forall_mem_cons.1 hown
    obtain ⟨hpath, hpaths⟩ := List.forall_mem_cons.1 hpaths
    obtain ⟨⟨o, g', heval⟩, halone⟩ := List.forall_mem_cons.1 halone
    have hfirst : ∀ r ∈ done, Incomparable r.targetPath rule.targetPath := fun r hr =>
      (List.pairwise_append.1 hapart).2.2 r hr rule List.mem_cons_self
    obtain ⟨p₁, t, node₁, written₁, hrun, hout₁, hp₁⟩ :=
      applyMappingRule_planted hJ hc hrule hp hpath hfirst heval hout
    rw [List.append_cons] at hapart ⊢
    obtain ⟨p', u, node', written', hfold, hout', hp'⟩ := ih hrules hpaths hapart hp₁ hout₁ halone
    exact ⟨p', u, node', written', (Proc.bind_ok hrun _).trans hfold, hout', hp'⟩

theorem rules_alone
    (hrun : Proc.fold (applyMappingRule (pythonObjects J) rt raw ext ingest) p rules s = .ok p' t) :
    ∀ rule ∈ rules, ∃ o g', EvaluatesAlone J rt raw ext ingest g rule o g' := by
  induction rules generalizing s p done node written with
  | nil => exact fun rule hrule => absurd hrule List.not_mem_nil
  | cons rule rules ih =>
    obtain ⟨hrule, hrules⟩ := List.forall_mem_cons.1 hown
    obtain ⟨hpath, hpaths⟩ := List.forall_mem_cons.1 hpaths
    have hfirst : ∀ r ∈ done, Incomparable r.targetPath rule.targetPath := fun r hr =>
      (List.pairwise_append.1 hapart).2.2 r hr rule List.mem_cons_self
    obtain ⟨q, t₁, hstep, hrest⟩ := Proc.bind_eq_ok hrun
    obtain ⟨o, g', heval⟩ := evaluatesAlone_of_run hJ hc hrule hp hstep
    obtain ⟨p₁, t₂, node₁, written₁, hstep', hout₁, hp₁⟩ :=
      applyMappingRule_planted hJ hc hrule hp hpath hfirst heval hout
    rw [hstep] at hstep'
    cases hstep'
    rw [List.append_cons] at hapart
    exact List.forall_mem_cons.2 ⟨⟨o, g', heval⟩, ih hrules hpaths hapart hp₁ hout₁ hrest⟩

end Rules

section Paths
variable {rt : MappingRuntime} {view : ν → Shape Scalar ν}

theorem validateTarget_ne {target : String} {path : List String}
    (h : validateTarget target = some path) : path ≠ [] := by
  unfold validateTarget at h
  dsimp only at h
  split at h
  · cases h
  · rename_i hvalid
    cases h
    intro hnil
    rw [hnil] at hvalid
    simp at hvalid

theorem compileSingleRule_path {v2 : Bool} {v : ν} {rule : CompiledRule ν}
    (h : compileSingleRule rt view v2 v = some rule) : rule.targetPath ≠ [] := by
  unfold compileSingleRule at h
  obtain ⟨fields, _, h⟩ := Option.bind_eq_some_iff.1 h
  obtain ⟨target, _, h⟩ := Option.bind_eq_some_iff.1 h
  obtain ⟨path, hpath, h⟩ := Option.bind_eq_some_iff.1 h
  obtain ⟨source, _, h⟩ := Option.bind_eq_some_iff.1 h
  obtain ⟨typeCast, _, h⟩ := Option.bind_eq_some_iff.1 h
  obtain ⟨preCast, _, h⟩ := Option.bind_eq_some_iff.1 h
  obtain ⟨valueMap, _, h⟩ := Option.bind_eq_some_iff.1 h
  obtain ⟨fallbacks, _, h⟩ := Option.bind_eq_some_iff.1 h
  obtain ⟨whenPredicate, _, h⟩ := Option.bind_eq_some_iff.1 h
  obtain ⟨defaultFrom, _, h⟩ := Option.bind_eq_some_iff.1 h
  split at h
  · cases h
  · cases h
    exact validateTarget_ne hpath

theorem compileArrayBuilderRule_path {v : ν} {rule : CompiledArrayBuilderRule}
    (h : compileArrayBuilderRule rt view v = some rule) : rule.targetPath ≠ [] := by
  unfold compileArrayBuilderRule at h
  obtain ⟨fields, _, h⟩ := Option.bind_eq_some_iff.1 h
  obtain ⟨target, _, h⟩ := Option.bind_eq_some_iff.1 h
  obtain ⟨path, hpath, h⟩ := Option.bind_eq_some_iff.1 h
  obtain ⟨items, _, h⟩ := Option.bind_eq_some_iff.1 h
  have hrest (dedupBy : List String) (hbuild : (do
      let compiled ← items.mapM (compileItem rt view (flag view fields "skip_null" true))
      if !(fields.map Prod.fst).all arrayBuilderRuleFields.contains then none
      else some (⟨path, target, compiled, dedupBy⟩ : CompiledArrayBuilderRule)) = some rule) :
      rule.targetPath ≠ [] := by
    obtain ⟨compiled, _, hbuild⟩ := Option.bind_eq_some_iff.1 hbuild
    split at hbuild
    · cases hbuild
    · cases hbuild
      exact validateTarget_ne hpath
  dsimp only at h
  split at h
  · exact hrest [] h
  · obtain ⟨dedupBy, _, h⟩ := Option.bind_eq_some_iff.1 h
    exact hrest dedupBy h

theorem mapM_some_forall {f : α → Option β} {P : β → Prop} (hf : ∀ x y, f x = some y → P y)
    {xs : List α} {ys : List β} (h : xs.mapM f = some ys) : ∀ y ∈ ys, P y := by
  have hself (x x' : α) (hx : x = x') : Option.Rel (fun y _ => P y) (f x) (f x') := by
    subst hx
    cases hy : f x with
    | none => exact .none
    | some y => exact .some (hf x y hy)
  have hrel := option_mapM_rel hself (List.forall₂_refl xs)
  rw [h] at hrel
  cases hrel with
  | some hys => exact forall₂_left (fun y _ hy => hy) hys

theorem compileRules_paths {doc : ν} {dslVersion : Option Int} {compiled : CompiledRules ν}
    (h : compileRules rt view doc dslVersion = some compiled) :
    ∀ rule ∈ compiled.rules, rule.targetPath ≠ [] := by
  have hscalar {v2 : Bool} {v : ν} {rule : AnyRule ν}
      (hv : (compileSingleRule rt view v2 v).map AnyRule.scalar = some rule) :
      rule.targetPath ≠ [] := by
    obtain ⟨r, hr, rfl⟩ := Option.map_eq_some_iff.1 hv
    exact compileSingleRule_path hr
  have hv1 (v : ν) (rule : AnyRule ν) (hv : (do
      let fields ← asDict view v
      if (fields.lookup "kind").isSome then none
      else (compileSingleRule rt view false v).map AnyRule.scalar) = some rule) :
      rule.targetPath ≠ [] := by
    obtain ⟨fields, _, hv⟩ := Option.bind_eq_some_iff.1 hv
    split at hv
    · cases hv
    · exact hscalar hv
  have hv2 (v : ν) (rule : AnyRule ν) (hv : compileRuleV2 rt view v = some rule) :
      rule.targetPath ≠ [] := by
    unfold compileRuleV2 at hv
    obtain ⟨fields, _, hv⟩ := Option.bind_eq_some_iff.1 hv
    have hkind (kind : String) (hbody : (if kind = "scalar" then
          (compileSingleRule rt view true v).map AnyRule.scalar
        else if kind = "array_builder" then
          (compileArrayBuilderRule rt view v).map AnyRule.arrayBuilder
        else none) = some rule) : rule.targetPath ≠ [] := by
      split at hbody
      · exact hscalar hbody
      · split at hbody
        · obtain ⟨r, hr, rfl⟩ := Option.map_eq_some_iff.1 hbody
          exact compileArrayBuilderRule_path hr
        · cases hbody
    dsimp only at hv
    split at hv
    · exact hkind "scalar" hv
    · obtain ⟨kind, _, hv⟩ := Option.bind_eq_some_iff.1 hv
      exact hkind kind hv
  have hfirst {rules : List ν} (hc : compileV1 rt view rules = some compiled) :
      ∀ rule ∈ compiled.rules, rule.targetPath ≠ [] := by
    obtain ⟨rs, hrs, hc⟩ := Option.bind_eq_some_iff.1 hc
    cases hc
    exact mapM_some_forall hv1 hrs
  have hsecond {payload : List (String × ν)} (hc : compileV2 rt view payload = some compiled) :
      ∀ rule ∈ compiled.rules, rule.targetPath ≠ [] := by
    unfold compileV2 at hc
    obtain ⟨pre, _, hc⟩ := Option.bind_eq_some_iff.1 hc
    obtain ⟨rules, _, hc⟩ := Option.bind_eq_some_iff.1 hc
    obtain ⟨rs, hrs, hc⟩ := Option.bind_eq_some_iff.1 hc
    obtain ⟨reduction, _, hc⟩ := Option.bind_eq_some_iff.1 hc
    split at hc
    · cases hc
    · cases hc
      exact mapM_some_forall hv2 hrs
  unfold compileRules at h
  split at h
  · exact hfirst h
  · exact hfirst h
  · exact hsecond h
  · exact hsecond h
  · cases h

end Paths

/-- The call up to its rules: the dicts of the call, and the preprocess ops. -/
def prepared (S : Objects σ ν) (rt : MappingRuntime) (compiled : CompiledRules ν) (raw : ν) :
    Proc σ Exc (ν × ν × List String) := do
  let output ← S.new (.dict [])
  let extracted ← S.new (.dict [])
  let consumed ← Proc.fold (preprocessOp S rt raw extracted) [] compiled.preprocessOps
  pure (output, extracted, consumed)

def applyRules (S : Objects σ ν) (rt : MappingRuntime) (compiled : CompiledRules ν) (raw : ν)
    (ingest : Option Int) (start : ν × ν × List String) : Proc σ Exc (ApplyResult ν) := do
  let p ← Proc.fold (applyMappingRule S rt raw start.2.1 ingest) ⟨start.1, start.2.2, [], []⟩
    compiled.rules
  let reduced ← applyRawReduction S rt raw compiled.rawReduction
  pure ⟨p.output, p.consumed, p.defaultHits, p.ingestFallback, reduced⟩

theorem applyCompiled_eq (S : Objects σ ν) (rt : MappingRuntime) (compiled : CompiledRules ν)
    (raw : ν) (ingest : Option Int) (s : σ) :
    applyCompiled S rt compiled raw ingest s =
      (prepared S rt compiled raw >>= applyRules S rt compiled raw ingest) s := by
  let output := S.make (.dict []) s
  let extracted := S.make (.dict []) output.2
  have hleft : applyCompiled S rt compiled raw ingest s =
      applyPhases S rt compiled raw ingest output.1 extracted.1 extracted.2 := rfl
  rw [hleft]
  unfold applyPhases
  cases hpre : Proc.fold (preprocessOp S rt raw extracted.1) [] compiled.preprocessOps extracted.2 with
  | ok consumed t =>
    have hprepared : prepared S rt compiled raw s = .ok (output.1, extracted.1, consumed) t :=
      Proc.bind_ok (m := S.new (.dict [])) rfl _ |>.trans
        (Proc.bind_ok (m := S.new (.dict [])) rfl _ |>.trans (Proc.bind_ok hpre _))
    rw [Proc.bind_ok hpre, Proc.bind_ok hprepared]
    rfl
  | raised e t =>
    have hprepared : prepared S rt compiled raw s = .raised e t :=
      Proc.bind_ok (m := S.new (.dict [])) rfl _ |>.trans
        (Proc.bind_ok (m := S.new (.dict [])) rfl _ |>.trans (Proc.bind_raised hpre _))
    rw [Proc.bind_raised hpre, Proc.bind_raised hprepared]
  | crashed t =>
    have hprepared : prepared S rt compiled raw s = .crashed t :=
      Proc.bind_ok (m := S.new (.dict [])) rfl _ |>.trans
        (Proc.bind_ok (m := S.new (.dict [])) rfl _ |>.trans (Proc.bind_crashed hpre _))
    rw [Proc.bind_crashed hpre, Proc.bind_crashed hprepared]

structure Supplied (J : Jmespath) (compiled : CompiledRules (Ref Scalar)) (raw : Ref Scalar)
    (h : Heap Scalar) : Prop where
  found : Fenced (fun _ => False) h
  literals : J.literals.length ≤ h.length
  raw : Outside (fun _ => False) h raw
  rules : RulesRel (Own (fun _ => False) h) compiled compiled
  paths : ∀ rule ∈ compiled.rules, rule.targetPath ≠ []

section Start
variable {J : Jmespath} {rt : MappingRuntime} {raw ext : Ref Scalar} {h g : Heap Scalar}
  {compiled : CompiledRules (Ref Scalar)} (hJ : J.Sound)

theorem fenced_root (hf : Fenced (fun _ => False) h) : Fenced (· = h.length) (h ++ [.dict []]) := by
  have hempty : (Shape.dict [] : Shape Scalar (Ref Scalar)).All (Outside (fun _ => False) h) :=
    fun _ hp => absurd hp List.not_mem_nil
  refine ⟨(hf.append hempty).found, fun a c hc ha => ?_, ?_⟩
  · rw [Heap.getElem?_append_one, if_neg ha] at hc
    exact (hf.found a c hc).mono fun v hv => Ref.Within.mono (fun b hb => Nat.ne_of_lt hb) hv
  · rintro a rfl
    simp

include hJ

theorem preprocess_keeps (ops : List CompiledPreprocessOp) (consumed : List String) {e : Nat}
    {h₀ s : Heap Scalar} (hp : h₀ <+: s) (hown : h₀.length ≤ e) :
    h₀ <+: (Proc.fold (preprocessOp (pythonObjects J) rt raw (.addr e)) consumed ops s).state := by
  have hW (t : Heap Scalar) (key : String) : WritesOwn h₀.length t (.addr e) [key] := hown
  have hstep (c c' : List String) (op op' : CompiledPreprocessOp) (t t' : Heap Scalar) (hc : c = c')
      (hop : op = op') (ht : Heap.Linked Eq t t' ∧ h₀ <+: t) :
      Ending.Rel (fun t t' => Heap.Linked Eq t t' ∧ h₀ <+: t) Eq
        (preprocessOp (pythonObjects J) rt raw (.addr e) c op t)
        (preprocessOp (pythonObjects J) rt raw (.addr e) c' op' t') := by
    subst hc hop
    exact (keepingSim hJ.toLawful eq_oneToOne (fun _ _ => rfl) h₀).preprocessOp rt (paired_self raw)
      (paired_self _) hW c op ht
  have hrel := Proc.rel_fold_always hstep (List.forall₂_refl ops) (rfl : consumed = consumed)
    ⟨linked_self s, hp⟩
  exact hrel.state.2

/-- After the preprocess ops the output is still empty, and nothing refers to it. -/
theorem prepared_ready (hs : Supplied J compiled raw h)
    (hrun : prepared (pythonObjects J) rt compiled raw h = .ok start g) :
    start.1 = .addr h.length ∧ Ready J h.length raw start.2.1 g ∧
      g[h.length]? = some (.dict []) := by
  have hroot := fenced_root hs.found
  have hempty : (Shape.dict [] : Shape Scalar (Ref Scalar)).All
      (Outside (· = h.length) (h ++ [.dict []])) := fun _ hp => absurd hp List.not_mem_nil
  have hlen : (h ++ [.dict []] : Heap Scalar).length = h.length + 1 := by simp
  have hext := hroot.new_outside (.dict [])
  have hfence := hroot.append hempty
  have hraw : Outside (· = h.length) (h ++ [.dict []] ++ [.dict []]) raw := by
    refine Ref.Within.mono (fun a ha => ⟨?_, Nat.ne_of_lt ha.1⟩) hs.raw
    have hlt := ha.1
    simp only [List.length_append, List.length_singleton]
    omega
  have hpre : (h ++ [.dict []] : Heap Scalar) <+: h ++ [.dict []] ++ [.dict []] :=
    List.prefix_append _ _
  let ops := Proc.fold (preprocessOp (pythonObjects J) rt raw
    (.addr (h ++ [.dict []] : Heap Scalar).length)) [] compiled.preprocessOps
  have hfences : Fences (· = h.length) ops (h ++ [.dict []] ++ [.dict []]) (fun _ _ => True) :=
    fences_preprocess rt hJ (fun a (ha : a = h.length) => ha ▸ hs.literals) compiled.preprocessOps []
      hfence hraw
  have hkeeps : (h ++ [.dict []] : Heap Scalar) <+: (ops (h ++ [.dict []] ++ [.dict []])).state :=
    preprocess_keeps hJ compiled.preprocessOps [] hpre (Nat.le_refl _)
  obtain ⟨hf, hle, _⟩ := hfences
  obtain ⟨output, t, hnew, hrun⟩ := Proc.bind_eq_ok hrun
  cases hnew
  obtain ⟨extracted, t, hnew, hrun⟩ := Proc.bind_eq_ok hrun
  cases hnew
  obtain ⟨consumed, t, hfold, hrun⟩ := Proc.bind_eq_ok hrun
  cases hrun
  have hops : ops (h ++ [.dict []] ++ [.dict []]) = .ok consumed g := hfold
  rw [hops] at hf hle hkeeps
  obtain ⟨new, hnew⟩ : (h ++ [.dict []] : Heap Scalar) <+: g := hkeeps
  have hcell : g[h.length]? = some (.dict []) := by
    have hget : (h ++ [.dict []] : Heap Scalar)[h.length]? = some (.dict []) := by
      rw [Heap.getElem?_append_one, if_pos rfl]
    rw [← hnew]
    exact (List.getElem?_append_left (by omega)).trans hget
  refine ⟨rfl, ⟨hf, hs.literals, (List.getElem?_eq_some_iff.1 hcell).1, hraw.mono hle,
    hext.mono hle⟩, hcell⟩

end Start

end CentralOps
