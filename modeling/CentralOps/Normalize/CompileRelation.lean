import CentralOps.Lib.Renaming
import CentralOps.Normalize.Compile

namespace CentralOps
set_option autoImplicit true

inductive PredicateRel (V : ν → ν' → Prop) : Predicate ν → Predicate ν' → Prop where
  | pathExists (src : NamedSource) : PredicateRel V (.pathExists src) (.pathExists src)
  | equals (src : NamedSource) (h : V v v') : PredicateRel V (.equals src v) (.equals src v')
  | isIn (src : NamedSource) (h : List.Forall₂ V vs vs') :
    PredicateRel V (.isIn src vs) (.isIn src vs')
  | negated (h : PredicateRel V p p') : PredicateRel V (.negated p) (.negated p')

/-- Two compiled rules that differ in the objects of the document only. -/
structure RuleRel (V : ν → ν' → Prop) (r : CompiledRule ν) (r' : CompiledRule ν') : Prop where
  target : r.target = r'.target
  targetPath : r.targetPath = r'.targetPath
  source : r.source = r'.source
  const : Option.Rel V r.const r'.const
  default : Option.Rel V r.default r'.default
  valueMap : Option.Rel (List.Forall₂ (FieldRel V)) r.valueMap r'.valueMap
  preCast : r.preCast = r'.preCast
  typeCast : r.typeCast = r'.typeCast
  required : r.required = r'.required
  fallbacks : r.fallbacks = r'.fallbacks
  whenPredicate : Option.Rel (PredicateRel V) r.whenPredicate r'.whenPredicate
  defaultFromIngest : r.defaultFromIngest = r'.defaultFromIngest

inductive AnyRuleRel (V : ν → ν' → Prop) : AnyRule ν → AnyRule ν' → Prop where
  | scalar (h : RuleRel V r r') : AnyRuleRel V (.scalar r) (.scalar r')
  | arrayBuilder (r : CompiledArrayBuilderRule) : AnyRuleRel V (.arrayBuilder r) (.arrayBuilder r)

structure RulesRel (V : ν → ν' → Prop) (c : CompiledRules ν) (c' : CompiledRules ν') : Prop where
  preprocessOps : c.preprocessOps = c'.preprocessOps
  rules : List.Forall₂ (AnyRuleRel V) c.rules c'.rules
  rawReduction : c.rawReduction = c'.rawReduction

section Views
variable {ν ν' : Type} {V : ν → ν' → Prop} {view : ν → Shape Scalar ν}
  {view' : ν' → Shape Scalar ν'} (hview : ∀ v v', V v v' → Shape.Rel V (view v) (view' v'))
  (rt : MappingRuntime)

include hview

theorem asStr_rel (hv : V v v') : asStr view v = asStr view' v' := by
  have h := hview _ _ hv
  unfold asStr
  generalize view v = c at h
  generalize view' v' = c' at h
  cases h with
  | scalar x => cases x <;> rfl
  | list hm => rfl
  | dict hm => rfl

theorem asText_rel (hv : V v v') : asText view v = asText view' v' := by
  unfold asText
  rw [asStr_rel hview hv]

theorem asDict_rel (hv : V v v') :
    Option.Rel (List.Forall₂ (FieldRel V)) (asDict view v) (asDict view' v') := by
  have h := hview _ _ hv
  unfold asDict
  generalize view v = c at h
  generalize view' v' = c' at h
  cases h with
  | scalar x => exact .none
  | list hm => exact .none
  | dict hm => exact .some hm

theorem asList_rel (hv : V v v') :
    Option.Rel (List.Forall₂ V) (asList view v) (asList view' v') := by
  have h := hview _ _ hv
  unfold asList
  generalize view v = c at h
  generalize view' v' = c' at h
  cases h with
  | scalar x => exact .none
  | list hm => exact .some hm
  | dict hm => exact .none

theorem isNull_rel (hv : V v v') : isNull view v = isNull view' v' := by
  have h := hview _ _ hv
  unfold isNull
  generalize view v = c at h
  generalize view' v' = c' at h
  cases h with
  | scalar x => cases x <;> rfl
  | list hm => rfl
  | dict hm => rfl

theorem isTruthy_rel (hv : V v v') : isTruthy view v = isTruthy view' v' := by
  have h := hview _ _ hv
  unfold isTruthy
  generalize view v = c at h
  generalize view' v' = c' at h
  cases h with
  | scalar x => rfl
  | list hm => cases hm <;> rfl
  | dict hm => cases hm <;> rfl

theorem given_rel (h : List.Forall₂ (FieldRel V) fs gs) (k : String) :
    Option.Rel V (given view fs k) (given view' gs k) :=
  option_filter_rel (lookup_rel h k) fun v v' hv => by rw [isNull_rel hview hv]

theorem flag_rel (h : List.Forall₂ (FieldRel V) fs gs) (k : String) (d : Bool) :
    flag view fs k d = flag view' gs k d := by
  have htruth := option_map_rel (lookup_rel h k) fun v v' hv => isTruthy_rel hview hv
  unfold flag
  rw [option_eq_of_rel htruth]

theorem optional_rel {A : α → β → Prop} {parse : ν → Option α} {parse' : ν' → Option β}
    (h : List.Forall₂ (FieldRel V) fs gs) (k : String)
    (hparse : ∀ v v', V v v' → Option.Rel A (parse v) (parse' v')) :
    Option.Rel (Option.Rel A) (optional view fs k parse) (optional view' gs k parse') := by
  have hgiven := given_rel hview h k
  unfold optional
  generalize given view fs k = x at hgiven
  generalize given view' gs k = y at hgiven
  cases hgiven with
  | none => exact .some .none
  | some hv => exact option_map_rel (hparse _ _ hv) fun a b hab => .some hab

theorem optional_eq {parse : ν → Option α} {parse' : ν' → Option α}
    (h : List.Forall₂ (FieldRel V) fs gs) (k : String)
    (hparse : ∀ v v', V v v' → parse v = parse' v') :
    optional view fs k parse = optional view' gs k parse' := by
  have heq (v : ν) (v' : ν') (hv : V v v') : Option.Rel Eq (parse v) (parse' v') := by
    rw [hparse v v' hv]
    exact option_rel_refl (fun _ => rfl) _
  have hrel := optional_rel hview h k heq
  exact option_eq_of_rel (option_rel_mono (fun _ _ => option_eq_of_rel) hrel)

theorem compileText_rel (hv : V v v') : compileText rt view v = compileText rt view' v' := by
  unfold compileText
  rw [asText_rel hview hv]

omit hview in
theorem lookup_bind_rel {parse : ν → Option α} {parse' : ν' → Option α}
    (h : List.Forall₂ (FieldRel V) fs gs) (k : String)
    (hparse : ∀ v v', V v v' → parse v = parse' v') :
    (fs.lookup k).bind parse = (gs.lookup k).bind parse' := by
  refine option_eq_of_rel (option_bind_rel (lookup_rel h k) fun v v' hv => ?_)
  rw [hparse v v' hv]
  exact option_rel_refl (fun _ => rfl) _

theorem compilePredicate_rel (fuel : Nat) :
    ∀ {v v'}, V v v' →
      Option.Rel (PredicateRel V) (compilePredicate rt view fuel v)
        (compilePredicate rt view' fuel v') := by
  have hsource {fs gs} (h : List.Forall₂ (FieldRel V) fs gs) (k : String) :=
    lookup_bind_rel h k fun v v' hv => compileText_rel hview rt hv
  have hinner {fs gs} (h : List.Forall₂ (FieldRel V) fs gs) (k : String) :=
    option_bind_rel (lookup_rel h k) fun v v' hv => asDict_rel hview hv
  induction fuel with
  | zero => intro v v' hv; exact .none
  | succ fuel ih =>
    intro v v' hv
    refine option_bind_rel (asDict_rel hview hv) fun fs gs h => ?_
    have hkeys : predicateKeys.filter (fun k => (fs.lookup k).isSome) =
        predicateKeys.filter (fun k => (gs.lookup k).isSome) := by
      congr 1
      funext k
      exact isSome_rel (lookup_rel h k)
    rw [hkeys]
    generalize predicateKeys.filter (fun k => (gs.lookup k).isSome) = keys
    split
    · rw [hsource h]
      exact option_bind_same fun src => .some (.pathExists src)
    · refine option_bind_rel (hinner h "equals") fun is js hi => ?_
      rw [hsource hi]
      refine option_bind_same fun src => ?_
      exact option_bind_rel (lookup_rel hi "value") fun w w' hw => .some (.equals src hw)
    · refine option_bind_rel (hinner h "in") fun is js hi => ?_
      have hvalues := option_bind_rel (lookup_rel hi "values") fun v v' hv => asList_rel hview hv
      rw [hsource hi]
      refine option_bind_same fun src => ?_
      exact option_bind_rel hvalues fun ws ws' hws => .some (.isIn src hws)
    · refine option_bind_rel (option_bind_rel (lookup_rel h "not") fun v v' hv => ih hv)
        fun p p' hp => ?_
      exact .some (.negated hp)
    · exact .none

theorem ruleSource_rel (h : List.Forall₂ (FieldRel V) fs gs) :
    ruleSource rt view fs = ruleSource rt view' gs := by
  have hsrc := lookup_rel h "source"
  have hconst := lookup_rel h "const"
  unfold ruleSource
  generalize fs.lookup "source" = x at hsrc
  generalize gs.lookup "source" = y at hsrc
  generalize fs.lookup "const" = z at hconst
  generalize gs.lookup "const" = w at hconst
  cases hsrc with
  | none =>
    cases hconst with
    | none => rfl
    | some _ => rfl
  | some hv =>
    cases hconst with
    | none => dsimp only; rw [compileText_rel hview rt hv]
    | some _ => rfl

theorem fallbackSources_rel (v2 : Bool) (source : Option NamedSource) (hv : V v v') :
    fallbackSources rt view v2 source v = fallbackSources rt view' v2 source v' := by
  refine option_eq_of_rel ?_
  unfold fallbackSources
  refine option_bind_same fun p => ?_
  refine option_bind_rel (asList_rel hview hv) fun es es' hes => ?_
  have hexprs := mapM_eq (m := Option) (f := fun e => do
      let src ← (asStr view e).bind (compileSource rt)
      if src.isExtracted = p.isExtracted then some src else none)
    (g := fun e => do
      let src ← (asStr view' e).bind (compileSource rt)
      if src.isExtracted = p.isExtracted then some src else none)
    (fun e e' he => by rw [asStr_rel hview he]) hes
  rw [hexprs]
  exact option_rel_refl (fun _ => rfl) _

theorem expectedAlwaysDefaultOk_rel (v2 : Bool) (h : List.Forall₂ (FieldRel V) fs gs) :
    expectedAlwaysDefaultOk view v2 fs = expectedAlwaysDefaultOk view' v2 gs := by
  have hlook := lookup_rel h "expected_always_default"
  unfold expectedAlwaysDefaultOk
  generalize fs.lookup "expected_always_default" = x at hlook
  generalize gs.lookup "expected_always_default" = y at hlook
  cases hlook with
  | none => rfl
  | some hv =>
    have hc := hview _ _ hv
    dsimp only
    generalize view _ = c at hc
    generalize view' _ = c' at hc
    cases hc with
    | scalar x => cases x <;> rfl
    | list hm => rfl
    | dict hm => rfl

theorem compileSingleRule_rel (v2 : Bool) (hv : V v v') :
    Option.Rel (RuleRel V) (compileSingleRule rt view v2 v) (compileSingleRule rt view' v2 v') := by
  refine option_bind_rel (asDict_rel hview hv) fun fs gs h => ?_
  have hgate (v : ν) (v' : ν') (hv : V v v') : Option.Rel (PredicateRel V)
      (if v2 then compilePredicate rt view rt.stackLimit v else none)
      (if v2 then compilePredicate rt view' rt.stackLimit v' else none) := by
    cases v2 with
    | true => exact compilePredicate_rel hview rt rt.stackLimit hv
    | false => exact .none
  rw [lookup_bind_rel h "target" fun v v' hv => asStr_rel hview hv, ruleSource_rel hview rt h,
    optional_eq hview h "type_cast" fun v v' hv => asStr_rel hview hv,
    optional_eq hview h "pre_cast" fun v v' hv => by unfold preCastName; rw [asStr_rel hview hv],
    optional_eq hview h "default_from" fun v v' hv => by rw [asStr_rel hview hv],
    expectedAlwaysDefaultOk_rel hview v2 h, flag_rel hview h]
  refine option_bind_same fun target => option_bind_same fun path => ?_
  refine option_bind_same fun source => option_bind_same fun typeCast => ?_
  refine option_bind_same fun preCast => ?_
  refine option_bind_rel (optional_rel hview h "value_map" fun v v' hv => asDict_rel hview hv)
    fun valueMap valueMap' hmap => ?_
  rw [optional_eq hview h "fallback_source"
    fun v v' hv => fallbackSources_rel hview rt v2 source hv]
  refine option_bind_same fun fallbacks => ?_
  refine option_bind_rel (optional_rel hview h "when" hgate) fun w w' hwhen => ?_
  refine option_bind_same fun defaultFrom => ?_
  cases (v2 && target.startsWith "_") || !expectedAlwaysDefaultOk view' v2 gs with
  | true => exact .none
  | false =>
    exact .some ⟨rfl, rfl, rfl, lookup_rel h "const", lookup_rel h "default", hmap, rfl, rfl, rfl,
      rfl, hwhen, rfl⟩

omit hview in
theorem fields_keys (h : List.Forall₂ (FieldRel V) fs gs) : fs.map Prod.fst = gs.map Prod.fst :=
  map_eq (fun _ _ hpq => hpq.1) h

theorem compileItem_rel (ruleSkipNull : Bool) (hv : V v v') :
    compileItem rt view ruleSkipNull v = compileItem rt view' ruleSkipNull v' := by
  refine option_eq_of_rel (option_bind_rel (asDict_rel hview hv) fun fs gs h => ?_)
  rw [lookup_bind_rel h "name" fun v v' hv => asText_rel hview hv,
    lookup_bind_rel h "type" fun v v' hv => asText_rel hview hv,
    lookup_bind_rel h "source" fun v v' hv => compileText_rel hview rt hv,
    flag_rel hview h, flag_rel hview h, fields_keys h]
  refine option_bind_same fun name => option_bind_same fun type => ?_
  refine option_bind_rel (A := Eq) (option_bind_rel (lookup_rel h "type_id") fun v v' hv => ?_)
    fun typeId _ hid => ?_
  · have hc := hview _ _ hv
    generalize view v = c at hc
    generalize view' v' = c' at hc
    cases hc with
    | scalar x => cases x <;> exact option_rel_refl (fun _ => rfl) _
    | list hm => exact .none
    | dict hm => exact .none
  · rw [hid]
    exact option_rel_refl (fun _ => rfl) _

theorem compileArrayBuilderRule_rel (hv : V v v') :
    compileArrayBuilderRule rt view v = compileArrayBuilderRule rt view' v' := by
  refine option_eq_of_rel (option_bind_rel (asDict_rel hview hv) fun fs gs h => ?_)
  rw [lookup_bind_rel h "target" fun v v' hv => asStr_rel hview hv, flag_rel hview h, fields_keys h]
  refine option_bind_same fun target => option_bind_same fun path => ?_
  refine option_bind_rel (option_bind_rel (lookup_rel h "items") fun v v' hv => asList_rel hview hv)
    fun is js hij => ?_
  rw [mapM_eq (fun v v' hv => compileItem_rel hview rt _ hv) hij]
  have hlook := lookup_rel h "dedup_by"
  generalize fs.lookup "dedup_by" = x at hlook
  generalize gs.lookup "dedup_by" = y at hlook
  cases hlook with
  | none => exact option_rel_refl (fun _ => rfl) _
  | some hv =>
    refine option_bind_rel (A := Eq) (option_bind_rel (asList_rel hview hv) fun ns ms hnm => ?_)
      fun names _ hnames => ?_
    · rw [mapM_eq (fun v v' hv => asText_rel hview hv) hnm]
      exact option_rel_refl (fun _ => rfl) _
    · rw [hnames]
      exact option_rel_refl (fun _ => rfl) _

theorem compilePreprocessOp_rel (hv : V v v') :
    compilePreprocessOp rt view v = compilePreprocessOp rt view' v' := by
  refine option_eq_of_rel (option_bind_rel (asDict_rel hview hv) fun fs gs h => ?_)
  rw [lookup_bind_rel h "op" fun v v' hv => asText_rel hview hv,
    lookup_bind_rel h "source" fun v v' hv => compileText_rel hview rt hv,
    lookup_bind_rel h "target" fun v v' hv => asText_rel hview hv, flag_rel hview h]
  exact option_rel_refl (fun _ => rfl) _

theorem positiveInt_rel (hv : V v v') : positiveInt view v = positiveInt view' v' := by
  have h := hview _ _ hv
  unfold positiveInt
  generalize view v = c at h
  generalize view' v' = c' at h
  cases h with
  | scalar x => cases x <;> rfl
  | list hm => rfl
  | dict hm => rfl

theorem keepOnlyNames_rel (hv : V v v') : keepOnlyNames view v = keepOnlyNames view' v' := by
  refine option_eq_of_rel (option_bind_rel (asList_rel hview hv) fun ns ms hnm => ?_)
  rw [mapM_eq (fun v v' hv => by rw [asStr_rel hview hv]) hnm]
  exact option_rel_refl (fun _ => rfl) _

theorem compileReductionSpec_rel (hv : V v v') :
    compileReductionSpec view v = compileReductionSpec view' v' := by
  refine option_eq_of_rel (option_bind_rel (asDict_rel hview hv) fun fs gs h => ?_)
  have hpath := given_rel hview h "path"
  rw [flag_rel hview h, flag_rel hview h,
    optional_eq hview h "keep_only" fun v v' hv => keepOnlyNames_rel hview hv,
    optional_eq hview h "max_items" fun v v' hv => positiveInt_rel hview hv,
    optional_eq hview h "max_bytes" fun v v' hv => positiveInt_rel hview hv]
  generalize given view fs "path" = x at hpath
  generalize given view' gs "path" = y at hpath
  cases hpath with
  | none => exact option_rel_refl (fun _ => rfl) _
  | some hv =>
    dsimp only
    rw [asText_rel hview hv]
    exact option_rel_refl (fun _ => rfl) _

theorem compileRawReduction_rel (h : List.Forall₂ (FieldRel V) fs gs) :
    compileRawReduction view fs = compileRawReduction view' gs := by
  unfold compileRawReduction
  rw [optional_eq hview h "raw_reduction" fun v v' hv => ?_]
  refine option_eq_of_rel (option_bind_rel (asList_rel hview hv) fun is js hij => ?_)
  rw [mapM_eq (fun v v' hv => compileReductionSpec_rel hview hv) hij]
  exact option_rel_refl (fun _ => rfl) _

theorem compileV1_rel (h : List.Forall₂ V rules rules') :
    Option.Rel (RulesRel V) (compileV1 rt view rules) (compileV1 rt view' rules') := by
  refine option_bind_rel (option_mapM_rel (fun v v' hv => ?_) h) fun cs cs' hc =>
    .some ⟨rfl, hc, rfl⟩
  refine option_bind_rel (asDict_rel hview hv) fun fs gs hfields => ?_
  rw [isSome_rel (lookup_rel hfields "kind")]
  cases (gs.lookup "kind").isSome with
  | true => exact .none
  | false =>
    exact option_map_rel (compileSingleRule_rel hview rt false hv) fun r r' hr => .scalar hr

theorem compileRuleV2_rel (hv : V v v') :
    Option.Rel (AnyRuleRel V) (compileRuleV2 rt view v) (compileRuleV2 rt view' v') := by
  refine option_bind_rel (asDict_rel hview hv) fun fs gs h => ?_
  have hbody (kind : String) : Option.Rel (AnyRuleRel V)
      (if kind = "scalar" then (compileSingleRule rt view true v).map AnyRule.scalar
        else if kind = "array_builder" then
          (compileArrayBuilderRule rt view v).map AnyRule.arrayBuilder
        else none)
      (if kind = "scalar" then (compileSingleRule rt view' true v').map AnyRule.scalar
        else if kind = "array_builder" then
          (compileArrayBuilderRule rt view' v').map AnyRule.arrayBuilder
        else none) := by
    rw [compileArrayBuilderRule_rel hview rt hv]
    split
    · exact option_map_rel (compileSingleRule_rel hview rt true hv) fun r r' hr => .scalar hr
    · split
      · exact option_map_rel (option_rel_refl (C := Eq) (fun _ => rfl) _)
          fun r r' hr => hr ▸ .arrayBuilder r
      · exact .none
  have hlook := lookup_rel h "kind"
  generalize fs.lookup "kind" = x at hlook
  generalize gs.lookup "kind" = y at hlook
  cases hlook with
  | none => exact hbody "scalar"
  | some hv =>
    dsimp only
    rw [asStr_rel hview hv]
    exact option_bind_same hbody

theorem compileV2_rel (h : List.Forall₂ (FieldRel V) fs gs) :
    Option.Rel (RulesRel V) (compileV2 rt view fs) (compileV2 rt view' gs) := by
  have hops (v : ν) (v' : ν') (hv : V v v') :
      (asList view v).bind (fun items => items.mapM (compilePreprocessOp rt view)) =
        (asList view' v').bind (fun items => items.mapM (compilePreprocessOp rt view')) := by
    refine option_eq_of_rel (option_bind_rel (asList_rel hview hv) fun is js hij => ?_)
    rw [mapM_eq (fun v v' hv => compilePreprocessOp_rel hview rt hv) hij]
    exact option_rel_refl (fun _ => rfl) _
  unfold compileV2
  rw [optional_eq hview h "preprocess" hops, compileRawReduction_rel hview h]
  refine option_bind_same fun pre => ?_
  refine option_bind_rel (option_bind_rel (lookup_rel h "rules") fun v v' hv => asList_rel hview hv)
    fun rules rules' hrules => ?_
  refine option_bind_rel (option_mapM_rel (fun v v' hv => compileRuleV2_rel hview rt hv) hrules)
    fun cs cs' hc => ?_
  refine option_bind_same fun reduction => ?_
  cases hrules with
  | nil => exact .none
  | cons _ _ => exact .some ⟨rfl, hc, rfl⟩

omit hview in
theorem compileRules_of_list (hv : view v = .list rules) (dslVersion : Option Int) :
    compileRules rt view v dslVersion =
      if dslVersion = none ∨ dslVersion = some 1 then compileV1 rt view rules else none := by
  unfold compileRules
  rw [hv]
  split <;> simp_all

omit hview in
theorem compileRules_of_dict (hv : view v = .dict payload) (dslVersion : Option Int) :
    compileRules rt view v dslVersion =
      if dslVersion = none ∨ dslVersion = some 2 then compileV2 rt view payload else none := by
  unfold compileRules
  rw [hv]
  split <;> simp_all

/-- Documents that look the same compile to rules that differ in the objects only. -/
theorem compileRules_rel (hv : V v v') (dslVersion : Option Int) :
    Option.Rel (RulesRel V) (compileRules rt view v dslVersion)
      (compileRules rt view' v' dslVersion) := by
  have h := hview _ _ hv
  generalize hc : view v = c at h
  generalize hc' : view' v' = c' at h
  cases h with
  | scalar x =>
    unfold compileRules
    rw [hc, hc']
    exact .none
  | list hm =>
    rw [compileRules_of_list rt hc, compileRules_of_list rt hc']
    split
    · exact compileV1_rel hview rt hm
    · exact .none
  | dict hm =>
    rw [compileRules_of_dict rt hc, compileRules_of_dict rt hc']
    split
    · exact compileV2_rel hview rt hm
    · exact .none

end Views

section Mono
variable {V V' : ν → ν' → Prop} (hV : ∀ v v', V v v' → V' v v')

include hV

theorem PredicateRel.mono (h : PredicateRel V p p') : PredicateRel V' p p' := by
  induction h with
  | pathExists src => exact .pathExists src
  | equals src hv => exact .equals src (hV _ _ hv)
  | isIn src hvs => exact .isIn src (hvs.imp hV)
  | negated _ ih => exact .negated ih

theorem RuleRel.mono (h : RuleRel V r r') : RuleRel V' r r' where
  target := h.target
  targetPath := h.targetPath
  source := h.source
  const := option_rel_mono hV h.const
  default := option_rel_mono hV h.default
  valueMap := option_rel_mono (fun _ _ hm => hm.imp fun _ _ => FieldRel.mono hV) h.valueMap
  preCast := h.preCast
  typeCast := h.typeCast
  required := h.required
  fallbacks := h.fallbacks
  whenPredicate := option_rel_mono (fun _ _ => PredicateRel.mono hV) h.whenPredicate
  defaultFromIngest := h.defaultFromIngest

theorem AnyRuleRel.mono (h : AnyRuleRel V r r') : AnyRuleRel V' r r' := by
  cases h with
  | scalar h => exact .scalar (h.mono hV)
  | arrayBuilder r => exact .arrayBuilder r

theorem RulesRel.mono (h : RulesRel V c c') : RulesRel V' c c' where
  preprocessOps := h.preprocessOps
  rules := h.rules.imp fun _ _ => AnyRuleRel.mono hV
  rawReduction := h.rawReduction

end Mono
end CentralOps
