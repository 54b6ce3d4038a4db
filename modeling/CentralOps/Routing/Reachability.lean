import CentralOps.Lib.Fails
import CentralOps.Routing.Homomorphism
import CentralOps.Routing.Validation

namespace CentralOps
set_option autoImplicit true

/-- `_hashable(v)`: a list becomes a tuple, which a list stands for here. -/
def Json.hashable : Json → Except PyError Json
  | .obj _ => .error .typeError
  | v => .ok v

def Json.isContainer : Json → Bool
  | .list _ | .obj _ => true
  | _ => false

/-- `hash(v)` succeeds; that of a tuple hashes its items. -/
def hashes : Json → Bool
  | .list xs => xs.all (fun x => !x.isContainer)
  | .obj _ => false
  | _ => true

/-- `frozenset(vs)`. -/
def frozenset (vs : List Json) : Except PyError (List Json) :=
  if vs.all hashes then .ok vs else .error .typeError

def valueSet (vs : List Json) : Except PyError (List Json) :=
  match vs.mapM Json.hashable with
  | .ok vs => frozenset vs
  | .error e => .error e

/-- The finite set of values that a clause admits, if it has one. Only the set of an `eq` is built
outside a `try`. -/
def clauseValueSet : Json → Except PyError (Option (List Json))
  | .obj [(op, val)] =>
    if op = "eq" then (valueSet [val]).map some
    else if op = "in" then
      match val with
      | .list vs => .ok (valueSet vs).toOption
      | _ => .ok none
    else .ok none
  | .obj _ => .ok none
  | spec => .ok (valueSet [spec]).toOption

/-- `v is w or v == w`, for values that are no containers. Every NaN of `json.loads` is one
object. -/
def sameScalar (v w : Json) : Bool := decide (v = .float .nan ∧ w = .float .nan) || v.pyEq w

def sameMember : Json → Json → Bool
  | .list vs, .list ws => decide (List.Forall₂ (fun v w => sameScalar v w = true) vs ws)
  | v, w => sameScalar v w

def normalizedClauses (condition : Obj) : Obj :=
  condition.foldl (fun clauses p => Assoc.set (canonicalField p.1) p.2 clauses) []

/-- The loop of `_subsumes` over the clauses of the first condition. -/
def subsumesLoop (bNorm : Obj) : Obj → Except PyError Bool
  | [] => .ok true
  | (fieldName, aSpec) :: rest =>
    match clauseValueSet aSpec with
    | .error e => .error e
    | .ok none => .ok false
    | .ok (some aSet) =>
      match bNorm.lookup fieldName with
      | none => .ok false
      | some bSpec =>
        match clauseValueSet bSpec with
        | .error e => .error e
        | .ok none => .ok false
        | .ok (some bSet) =>
          if bSet.isEmpty then .ok false
          else if bSet.all (fun w => aSet.any (sameMember w)) then subsumesLoop bNorm rest
          else .ok false

/-- `_subsumes`. -/
def subsumes (condA condB : Obj) : Except PyError Bool :=
  subsumesLoop (normalizedClauses condB) (normalizedClauses condA)

/-- `any(_subsumes(e.condition, r.condition) for e in seen_final)`. -/
def anySubsumes (r : CompiledRoute) : List CompiledRoute → Except PyError Bool
  | [] => .ok false
  | e :: seenFinal =>
    match subsumes e.condition r.condition with
    | .error x => .error x
    | .ok true => .ok true
    | .ok false => anySubsumes r seenFinal

def CompiledRoute.isFull (r : CompiledRoute) : Bool := r.isFinal && decide (100 ≤ r.canaryPercent)

/-- The loop of `find_unreachable`. -/
def findUnreachableLoop : List CompiledRoute → List CompiledRoute → List String →
    Except PyError (List String)
  | [], _, unreachable => .ok unreachable
  | r :: rest, seenFinal, unreachable =>
    if !r.enabled then findUnreachableLoop rest seenFinal unreachable
    else
      match anySubsumes r seenFinal with
      | .error x => .error x
      | .ok true => findUnreachableLoop rest seenFinal (unreachable ++ [r.id])
      | .ok false =>
        findUnreachableLoop rest (if r.isFull then seenFinal ++ [r] else seenFinal) unreachable

def findUnreachable (orderedRoutes : List CompiledRoute) : Except PyError (List String) :=
  findUnreachableLoop orderedRoutes [] []

section Values

def Json.isScalar : Json → Bool
  | .list _ | .obj _ | .float .nan | .float (.inf _) => false
  | _ => true

theorem PyFloat.eq_trans {x y z : PyFloat} (hxy : x.eq y = true) (hyz : y.eq z = true) :
    x.eq z = true := by
  cases x <;> cases y <;> cases z <;> simp_all [PyFloat.eq]

theorem pyEq_of_number {a : Json} (h : a.number? = some x) (b : Json) :
    a.pyEq b = (b.number?.map x.eq).getD false := by
  cases a with
  | bool c =>
    cases h
    rfl
  | int n =>
    cases h
    rfl
  | float y =>
    cases h
    rfl
  | null | str | list | obj => cases h

theorem number_of_pyEq {a b : Json} (hx : a.number? = some x) (h : a.pyEq b = true) :
    ∃ y, b.number? = some y ∧ x.eq y = true := by
  rw [pyEq_of_number hx] at h
  cases hy : b.number? with
  | none =>
    rw [hy] at h
    cases h
  | some y =>
    rw [hy] at h
    exact ⟨y, rfl, h⟩

theorem scalar_cases {a b : Json} (ha : a.isContainer = false) (h : a.pyEq b = true) :
    (∃ x y, a.number? = some x ∧ b.number? = some y ∧ x.eq y = true) ∨ a = b := by
  cases hx : a.number? with
  | some x =>
    obtain ⟨y, hy, hxy⟩ := number_of_pyEq hx h
    exact .inl ⟨x, y, rfl, hy, hxy⟩
  | none =>
    apply Or.inr
    cases a with
    | null => cases b <;> simp_all [Json.pyEq]
    | str s => cases b <;> simp_all [Json.pyEq]
    | bool | int | float => cases hx
    | list | obj => cases ha

theorem pyEq_trans {a b c : Json} (ha : a.isContainer = false) (hab : a.pyEq b = true)
    (hbc : b.pyEq c = true) : a.pyEq c = true := by
  obtain ⟨x, y, hx, hy, hxy⟩ | rfl := scalar_cases ha hab
  · obtain ⟨z, hz, hyz⟩ := number_of_pyEq hy hbc
    rw [pyEq_of_number hx, hz]
    exact PyFloat.eq_trans hxy hyz
  · exact hbc

theorem pyEq_scalar {a b : Json} (ha : a.isContainer = false) (h : a.pyEq b = true) :
    b.isContainer = false := by
  obtain ⟨x, y, -, hy, -⟩ | rfl := scalar_cases ha h
  · cases b with
    | list | obj => cases hy
    | null | bool | int | float | str => rfl
  · exact ha

theorem pyEq_nan (a : Json) (ha : a.isContainer = false) : a.pyEq (.float .nan) = false := by
  by_contra h
  rw [Bool.not_eq_false] at h
  obtain ⟨x, y, -, hy, hxy⟩ | rfl := scalar_cases ha h
  · cases hy
    cases x <;> cases hxy
  · cases h

theorem pyEq_sameMember {a v w : Json} (ha : a.isContainer = false) (hav : a.pyEq v = true)
    (hvw : sameMember v w = true) : a.pyEq w = true := by
  have hv := pyEq_scalar ha hav
  have hsame : sameScalar v w = true := by
    cases v with
    | list => cases hv
    | null | bool | int | float | str | obj => exact hvw
  obtain hnan | heq := Bool.or_eq_true_iff.1 hsame
  · obtain ⟨rfl, -⟩ := of_decide_eq_true hnan
    rw [pyEq_nan a ha] at hav
    cases hav
  · exact pyEq_trans ha hav heq

theorem sameScalar_trans {u v w : Json} (hu : u.isContainer = false)
    (huv : sameScalar u v = true) (hvw : sameScalar v w = true) : sameScalar u w = true := by
  unfold sameScalar at *
  obtain hnan | heq := Bool.or_eq_true_iff.1 huv
  · obtain ⟨rfl, rfl⟩ := of_decide_eq_true hnan
    exact hvw
  · obtain hnan | heq' := Bool.or_eq_true_iff.1 hvw
    · obtain ⟨rfl, -⟩ := of_decide_eq_true hnan
      rw [pyEq_nan u hu] at heq
      cases heq
    · rw [pyEq_trans hu heq heq', Bool.or_true]

theorem forall₂_sameScalar_trans {us vs ws : List Json} (hu : ∀ u ∈ us, u.isContainer = false)
    (huv : List.Forall₂ (fun v w => sameScalar v w = true) us vs)
    (hvw : List.Forall₂ (fun v w => sameScalar v w = true) vs ws) :
    List.Forall₂ (fun v w => sameScalar v w = true) us ws := by
  induction huv generalizing ws with
  | nil => exact hvw
  | cons h _ ih =>
    cases hvw with
    | cons h' hrest =>
      refine .cons (sameScalar_trans (hu _ List.mem_cons_self) h h') (ih ?_ hrest)
      intro u hmem
      exact hu u (List.mem_cons_of_mem _ hmem)

theorem sameMember_list_iff {vs : List Json} {w : Json} :
    sameMember (.list vs) w = true ↔
      ∃ ws, w = .list ws ∧ List.Forall₂ (fun v w => sameScalar v w = true) vs ws := by
  cases w with
  | list ws =>
    rw [sameMember, decide_eq_true_iff]
    constructor
    · intro h
      exact ⟨ws, rfl, h⟩
    · rintro ⟨_, heq, h⟩
      cases heq
      exact h
  | null | bool | int | float | str | obj => simp [sameMember, sameScalar, Json.pyEq]

theorem sameMember_trans {u v w : Json} (hu : hashes u = true) (huv : sameMember u v = true)
    (hvw : sameMember v w = true) : sameMember u w = true := by
  cases u with
  | list us =>
    obtain ⟨vs, rfl, hleft⟩ := sameMember_list_iff.1 huv
    obtain ⟨ws, rfl, hright⟩ := sameMember_list_iff.1 hvw
    apply sameMember_list_iff.2
    refine ⟨ws, rfl, forall₂_sameScalar_trans ?_ hleft hright⟩
    simpa [hashes] using hu
  | obj => cases hu
  | null | bool | int | float | str =>
    cases v with
    | list => simp [sameMember, sameScalar, Json.pyEq, Json.number?] at huv
    | null | bool | int | float | str | obj => exact sameScalar_trans rfl huv hvw

end Values

section Sets

theorem hashable_ok {v w : Json} (h : Json.hashable v = .ok w) : w = v := by
  cases v <;> cases h <;> rfl

theorem mapM_hashable_ok {vs ws : List Json} (h : vs.mapM Json.hashable = .ok ws) : ws = vs := by
  induction vs generalizing ws with
  | nil =>
    cases h
    rfl
  | cons v vs ih =>
    rw [List.mapM_cons] at h
    cases hv : Json.hashable v with
    | error e =>
      rw [hv] at h
      cases h
    | ok v' =>
      cases hvs : vs.mapM Json.hashable with
      | error e =>
        rw [hv, hvs] at h
        cases h
      | ok vs' =>
        rw [hv, hvs] at h
        cases h
        rw [hashable_ok hv, ih hvs]

theorem valueSet_ok {vs ws : List Json} (h : valueSet vs = .ok ws) :
    ws = vs ∧ ∀ v ∈ ws, hashes v = true := by
  unfold valueSet at h
  split at h
  · next us hus =>
    obtain rfl := mapM_hashable_ok hus
    unfold frozenset at h
    split at h
    · next hall =>
      cases h
      exact ⟨rfl, List.all_eq_true.1 hall⟩
    · cases h
  · cases h

/-- The clauses that have a value set: an `eq`, an `in` and the shorthand of `eq`. -/
theorem clauseValueSet_cases {spec : Json} (h : clauseValueSet spec = .ok (some values)) :
    (∀ v ∈ values, hashes v = true) ∧
      (spec = .obj [("in", .list values)] ∨
        ∃ v, values = [v] ∧ (spec = .obj [("eq", v)] ∨ spec = v ∧ ∀ o, v ≠ .obj o)) := by
  have hshorthand : ∀ v, (∀ o, v ≠ .obj o) → (valueSet [v]).toOption = some values → spec = v →
      (∀ v ∈ values, hashes v = true) ∧
        (spec = .obj [("in", .list values)] ∨
          ∃ v, values = [v] ∧ (spec = .obj [("eq", v)] ∨ spec = v ∧ ∀ o, v ≠ .obj o)) := by
    intro v hv hset hspec
    obtain ⟨rfl, hall⟩ := valueSet_ok (Except.ok_of_toOption hset)
    exact ⟨hall, .inr ⟨v, rfl, .inr ⟨hspec, hv⟩⟩⟩
  cases spec with
  | obj ops =>
    match ops, h with
    | [(op, val)], h =>
      simp only [clauseValueSet] at h
      split at h
      · next hop =>
        subst hop
        cases hset : valueSet [val] with
        | error e =>
          rw [hset] at h
          cases h
        | ok vs =>
          rw [hset] at h
          cases h
          obtain ⟨rfl, hall⟩ := valueSet_ok hset
          exact ⟨hall, .inr ⟨val, rfl, .inl rfl⟩⟩
      · split at h
        · next hop =>
          subst hop
          cases val with
          | list vs =>
            obtain ⟨rfl, hall⟩ := valueSet_ok (Except.ok_of_toOption (Except.ok.inj h))
            exact ⟨hall, .inl rfl⟩
          | null | bool | int | float | str | obj => cases h
        · cases h
    | [], h => cases h
    | _ :: _ :: _, h => cases h
  | null | bool | int | float | str | list =>
    exact hshorthand _ (fun _ => Json.noConfusion) (Except.ok.inj h) rfl

theorem matchClause_iff (rt : Runtime) {spec actual : Json}
    (h : clauseValueSet spec = .ok (some values)) :
    matchClause rt spec actual = true ↔
      actual ≠ .null ∧ ∃ v ∈ values, actual.pyEq v = true := by
  have hcompare : ∀ v, compareValues rt .eq actual v = true ↔
      actual ≠ .null ∧ actual.pyEq v = true := by
    intro v
    by_cases hnull : actual = .null <;> simp [compareValues, hnull]
  obtain ⟨-, rfl | ⟨v, rfl, rfl | ⟨rfl, hv⟩⟩⟩ := clauseValueSet_cases h
  · by_cases hnull : actual = .null <;>
      simp [matchClause, compareValues, Op.ofName, Json.pyIn, hnull]
  · simpa [matchClause, Op.ofName] using hcompare v
  · have hshorthand : matchClause rt spec actual = compareValues rt .eq actual spec := by
      cases spec with
      | obj o => exact absurd rfl (hv o)
      | null | bool | int | float | str | list => rfl
    simpa [hshorthand] using hcompare spec

end Sets

section Subsumption

theorem normalizedClauses_eq (condition : Obj) :
    normalizedClauses condition =
      Assoc.collect (fun p => some (canonicalField p.1, p.2)) [] condition := rfl

theorem mem_of_normalized (h : (fieldName, spec) ∈ normalizedClauses condition) :
    ∃ p ∈ condition, canonicalField p.1 = fieldName ∧ p.2 = spec := by
  rw [normalizedClauses_eq] at h
  obtain h | ⟨p, hp, heq⟩ := Assoc.mem_collect h
  · cases h
  · cases heq
    exact ⟨p, hp, rfl, rfl⟩

def NamesTwice (condition : Obj) : Prop := ¬ (condition.map (fun p => canonicalField p.1)).Nodup

theorem foldl_normalized {init condition : Obj}
    (h : (init.map Prod.fst ++ condition.map (fun p => canonicalField p.1)).Nodup) :
    condition.foldl (fun clauses p => Assoc.set (canonicalField p.1) p.2 clauses) init =
      init ++ condition.map (fun p => (canonicalField p.1, p.2)) := by
  induction condition generalizing init with
  | nil => simp
  | cons p condition ih =>
    have hnew : canonicalField p.1 ∉ init.map Prod.fst := by
      intro hmem
      exact (List.nodup_append.1 h).2.2 _ hmem _ List.mem_cons_self rfl
    rw [List.foldl_cons, Assoc.set_of_notMem hnew, ih]
    · simp
    · simpa using h

theorem normalizedClauses_of_once (h : ¬ NamesTwice condition) :
    normalizedClauses condition = condition.map (fun p => (canonicalField p.1, p.2)) :=
  @foldl_normalized [] condition (not_not.1 h)

theorem setContained_iff {aSet bSet : List Json} :
    (bSet.all fun w => aSet.any (sameMember w)) = true ↔
      ∀ w ∈ bSet, ∃ v ∈ aSet, sameMember w v = true := by
  simp only [List.all_eq_true, List.any_eq_true]

/-- What `_subsumes` has compared where it says yes. -/
def Contains (condA condB : Obj) : Prop :=
  ∀ p ∈ normalizedClauses condA, ∃ aSet, clauseValueSet p.2 = .ok (some aSet) ∧
    ∃ spec, (normalizedClauses condB).lookup p.1 = some spec ∧
      ∃ bSet, clauseValueSet spec = .ok (some bSet) ∧ bSet ≠ [] ∧
        ∀ w ∈ bSet, ∃ v ∈ aSet, sameMember w v = true

theorem subsumesLoop_iff {bNorm clauses : Obj} :
    subsumesLoop bNorm clauses = .ok true ↔
      ∀ p ∈ clauses, ∃ aSet, clauseValueSet p.2 = .ok (some aSet) ∧
        ∃ spec, bNorm.lookup p.1 = some spec ∧
          ∃ bSet, clauseValueSet spec = .ok (some bSet) ∧ bSet ≠ [] ∧
            ∀ w ∈ bSet, ∃ v ∈ aSet, sameMember w v = true := by
  induction clauses with
  | nil => simp [subsumesLoop]
  | cons p clauses ih =>
    obtain ⟨fieldName, aSpec⟩ := p
    rw [List.forall_mem_cons, ← ih, subsumesLoop]
    cases ha : clauseValueSet aSpec with
    | error e => simp
    | ok a =>
      cases a with
      | none => simp
      | some aSet =>
        cases hb : bNorm.lookup fieldName with
        | none => simp
        | some bSpec =>
          dsimp only
          cases hbset : clauseValueSet bSpec with
          | error e => simp [hbset]
          | ok b =>
            cases b with
            | none => simp [hbset]
            | some bSet =>
              by_cases hnil : bSet = []
              · simp [hnil, hbset]
              · have hright : (∃ aSet', (.ok (some aSet) : Except PyError _) = .ok (some aSet') ∧
                    ∃ spec, some bSpec = some spec ∧ ∃ bSet', clauseValueSet spec = .ok (some bSet') ∧
                      bSet' ≠ [] ∧ ∀ w ∈ bSet', ∃ v ∈ aSet', sameMember w v = true) ↔
                    (bSet.all fun w => aSet.any (sameMember w)) = true := by
                  rw [setContained_iff]
                  simp [hbset, hnil]
                have hempty : ¬ bSet.isEmpty = true := by simpa using hnil
                rw [hright]
                dsimp only
                rw [if_neg hempty]
                by_cases hall : (bSet.all fun w => aSet.any (sameMember w)) = true
                · rw [if_pos hall, hall, eq_self_iff_true, true_and]
                · rw [if_neg hall, iff_false_intro hall, false_and]
                  simp

theorem subsumes_iff : subsumes condA condB = .ok true ↔ Contains condA condB :=
  subsumesLoop_iff

theorem lookup_normalized_mem (h : (normalizedClauses condition).lookup fieldName = some spec) :
    ∃ p ∈ condition, canonicalField p.1 = fieldName ∧ p.2 = spec :=
  mem_of_normalized (Assoc.mem_of_lookup h)

theorem Contains.trans (hab : Contains condA condB) (hbc : Contains condB condC) :
    Contains condA condC := by
  intro p hp
  obtain ⟨aSet, haset, bSpec, hbspec, bSet, hbset, -, hsub⟩ := hab p hp
  obtain ⟨bSet', hbset', cSpec, hcspec, cSet, hcset, hcne, hsub'⟩ :=
    hbc (p.1, bSpec) (Assoc.mem_of_lookup hbspec)
  obtain rfl : bSet = bSet' := by
    rw [hbset] at hbset'
    cases hbset'
    rfl
  refine ⟨aSet, haset, cSpec, hcspec, cSet, hcset, hcne, ?_⟩
  intro w hw
  obtain ⟨v, hv, hwv⟩ := hsub' w hw
  obtain ⟨u, hu, hvu⟩ := hsub v hv
  exact ⟨u, hu, sameMember_trans ((clauseValueSet_cases hcset).1 w hw) hwv hvu⟩

def ScalarLabels (labels : Obj) : Prop := ∀ p ∈ labels, p.2.isScalar = true

theorem isContainer_of_isScalar {v : Json} (h : v.isScalar = true) : v.isContainer = false := by
  cases v with
  | list | obj => cases h
  | null | bool | int | float | str => rfl

theorem getN_isContainer (h : ScalarLabels labels) (k : String) :
    (labels.getN k).isContainer = false := by
  rw [Obj.getN]
  cases hk : labels.lookup k with
  | none => rfl
  | some v => exact isContainer_of_isScalar (h _ (Assoc.mem_of_lookup hk))

theorem Contains.clauses (rt : Runtime) (h : Contains condA condB) (hlabels : ScalarLabels labels)
    (hb : matchesCondition rt condB labels = true) :
    ∀ p ∈ normalizedClauses condA, matchClause rt p.2 (labels.getN p.1) = true := by
  intro p hp
  obtain ⟨aSet, haset, bSpec, hbspec, bSet, hbset, -, hsub⟩ := h p hp
  obtain ⟨q, hq, hname, rfl⟩ := lookup_normalized_mem hbspec
  have hclause : matchClause rt q.2 (labels.getN p.1) = true := by
    rw [← hname]
    exact List.all_eq_true.1 hb q hq
  obtain ⟨hnull, w, hw, heq⟩ := (matchClause_iff rt hbset).1 hclause
  obtain ⟨v, hv, hwv⟩ := hsub w hw
  exact (matchClause_iff rt haset).2
    ⟨hnull, v, hv, pyEq_sameMember (getN_isContainer hlabels p.1) heq hwv⟩

theorem Contains.sound (rt : Runtime) (h : Contains condA condB) (honce : ¬ NamesTwice condA)
    (hlabels : ScalarLabels labels) (hb : matchesCondition rt condB labels = true) :
    matchesCondition rt condA labels = true := by
  have hclauses := h.clauses rt hlabels hb
  rw [normalizedClauses_of_once honce] at hclauses
  apply List.all_eq_true.2
  intro p hp
  exact hclauses _ (List.mem_map.2 ⟨p, hp, rfl⟩)

end Subsumption

/-- An earlier route that `find_unreachable` takes to let no event of the later one past. -/
structure Shadows (e r : CompiledRoute) : Prop where
  enabled : e.enabled = true
  full : e.isFull = true
  contains : Contains e.condition r.condition

theorem Shadows.trans {d e r : CompiledRoute} (hde : Shadows d e) (her : Shadows e r) :
    Shadows d r :=
  ⟨hde.enabled, hde.full, hde.contains.trans her.contains⟩

/-- `_subsumes` raises a `TypeError`. -/
def Trips (e r : CompiledRoute) : Prop := ∃ x, subsumes e.condition r.condition = .error x

section Loop

theorem anySubsumes_append (r : CompiledRoute) (s t : List CompiledRoute) :
    anySubsumes r (s ++ t) =
      match anySubsumes r s with
      | .ok false => anySubsumes r t
      | other => other := by
  induction s with
  | nil => rfl
  | cons e s ih =>
    rw [List.cons_append, anySubsumes, anySubsumes]
    cases subsumes e.condition r.condition with
    | error x => rfl
    | ok b =>
      cases b with
      | true => rfl
      | false => exact ih

/-- What `seen_final` has become when a prefix of the routes has been walked. -/
inductive SeenAfter : List CompiledRoute → List CompiledRoute → Prop
  | nil : SeenAfter [] []
  | keep : SeenAfter walked seen → e.enabled = true → e.isFull = true → (∀ d ∈ seen, ¬ Shadows d e) →
      SeenAfter (walked ++ [e]) (seen ++ [e])
  | skip : SeenAfter walked seen → (e.enabled = true → e.isFull = true → ∃ d ∈ seen, Shadows d e) →
      SeenAfter (walked ++ [e]) seen

theorem SeenAfter.mem (h : SeenAfter walked seen) (he : e ∈ seen) :
    e ∈ walked ∧ e.enabled = true ∧ e.isFull = true := by
  induction h with
  | nil => cases he
  | keep _ henabled hfull _ ih =>
    obtain he | he := List.mem_append.1 he
    · exact (ih he).imp_left (List.mem_append_left _)
    · cases List.mem_singleton.1 he
      exact ⟨List.mem_append_right _ he, henabled, hfull⟩
  | skip _ _ ih => exact (ih he).imp_left (List.mem_append_left _)

theorem SeenAfter.shadows_iff (h : SeenAfter walked seen) (r : CompiledRoute) :
    (∃ e ∈ seen, Shadows e r) ↔ ∃ e ∈ walked, Shadows e r := by
  constructor
  · rintro ⟨e, he, hshadows⟩
    exact ⟨e, (h.mem he).1, hshadows⟩
  · rintro ⟨e, he, hshadows⟩
    induction h with
    | nil => cases he
    | keep _ _ _ _ ih =>
      obtain he | he := List.mem_append.1 he
      · obtain ⟨d, hd, hds⟩ := ih he
        exact ⟨d, List.mem_append_left _ hd, hds⟩
      · exact ⟨e, List.mem_append_right _ he, hshadows⟩
    | skip _ hskip ih =>
      obtain he | he := List.mem_append.1 he
      · exact ih he
      · cases List.mem_singleton.1 he
        obtain ⟨d, hd, hde⟩ := hskip hshadows.enabled hshadows.full
        exact ⟨d, hd, hde.trans hshadows⟩

/-- Every comparison of `r` with an earlier route that raises is preceded by a route that shadows
one of the two. -/
def Comparable (walked : List CompiledRoute) (r : CompiledRoute) : Prop :=
  ∀ before e after, walked = before ++ e :: after → e.enabled = true → e.isFull = true →
    Trips e r → ∃ d ∈ before, Shadows d e ∨ Shadows d r

theorem comparable_append_one {walked : List CompiledRoute} {e r : CompiledRoute} :
    Comparable (walked ++ [e]) r ↔ Comparable walked r ∧ (e.enabled = true → e.isFull = true →
      Trips e r → ∃ d ∈ walked, Shadows d e ∨ Shadows d r) := by
  constructor
  · intro h
    refine ⟨?_, h walked e [] rfl⟩
    rintro before d after rfl
    exact h before d (after ++ [e]) (by simp)
  · rintro ⟨h, hlast⟩ before d after heq
    rcases List.eq_nil_or_concat' after with rfl | ⟨after, x, rfl⟩
    · obtain ⟨rfl, hd⟩ := List.append_inj' heq rfl
      cases hd
      exact hlast
    · have hsplit : walked ++ [e] = (before ++ d :: after) ++ [x] := by simpa using heq
      exact h before d after (List.append_inj' hsplit rfl).1

/-- `any` returns where its comparisons do, and says whether an earlier route shadows the next. -/
theorem SeenAfter.any_spec (h : SeenAfter walked seen) (r : CompiledRoute) :
    ((∃ b, anySubsumes r seen = .ok b) ↔ Comparable walked r) ∧
      ∀ b, anySubsumes r seen = .ok b → (b = true ↔ ∃ e ∈ walked, Shadows e r) := by
  induction h with
  | nil =>
    refine ⟨⟨?_, fun _ => ⟨false, rfl⟩⟩, ?_⟩
    · intro _ before e after heq
      simp at heq
    · intro b hb
      cases hb
      simp
  | @keep walked seen e hseen henabled hfull hnew ih =>
    obtain ⟨hreturns, hany⟩ := ih
    have hnone : ¬ ∃ d ∈ walked, Shadows d e := by
      rw [← hseen.shadows_iff]
      rintro ⟨d, hd, hde⟩
      exact hnew d hd hde
    rw [comparable_append_one, ← hreturns, anySubsumes_append]
    cases hprefix : anySubsumes r seen with
    | error x => simp
    | ok b =>
      cases b with
      | true =>
        obtain ⟨d, hd, hdr⟩ := (hany true hprefix).1 rfl
        refine ⟨⟨fun _ => ⟨⟨true, rfl⟩, fun _ _ _ => ⟨d, hd, .inr hdr⟩⟩, fun _ => ⟨true, rfl⟩⟩, ?_⟩
        intro b hb
        cases hb
        simp only [true_iff]
        exact ⟨d, List.mem_append_left _ hd, hdr⟩
      | false =>
        have hno : ¬ ∃ d ∈ walked, Shadows d r := fun hd => Bool.false_ne_true ((hany _ hprefix).2 hd)
        have hneither : ¬ ∃ d ∈ walked, Shadows d e ∨ Shadows d r := by
          rintro ⟨d, hd, hde | hdr⟩
          · exact hnone ⟨d, hd, hde⟩
          · exact hno ⟨d, hd, hdr⟩
        cases hcompare : subsumes e.condition r.condition with
        | error x =>
          have htrips : Trips e r := ⟨x, hcompare⟩
          simp [anySubsumes, hcompare, henabled, hfull, htrips, hneither]
        | ok b =>
          have htrips : ¬ Trips e r := by
            rintro ⟨x, hx⟩
            rw [hcompare] at hx
            cases hx
          have hlast : anySubsumes r [e] = .ok b := by
            cases b <;> simp [anySubsumes, hcompare]
          have hshadows : b = true ↔ Shadows e r := by
            constructor
            · rintro rfl
              exact ⟨henabled, hfull, subsumes_iff.1 hcompare⟩
            · intro hs
              rw [subsumes_iff.2 hs.contains] at hcompare
              cases hcompare
              rfl
          dsimp only
          rw [hlast]
          refine ⟨⟨fun _ => ⟨⟨false, rfl⟩, fun _ _ ht => absurd ht htrips⟩, fun _ => ⟨b, rfl⟩⟩, ?_⟩
          intro b' hb'
          cases hb'
          rw [hshadows]
          constructor
          · intro hs
            exact ⟨e, List.mem_append_right _ List.mem_cons_self, hs⟩
          · rintro ⟨d, hd, hdr⟩
            obtain hd | hd := List.mem_append.1 hd
            · exact absurd ⟨d, hd, hdr⟩ hno
            · cases List.mem_singleton.1 hd
              exact hdr
  | @skip walked seen e hseen hskip ih =>
    obtain ⟨hreturns, hany⟩ := ih
    have hshadowed : e.enabled = true → e.isFull = true → ∃ d ∈ walked, Shadows d e :=
      fun henabled hfull => (hseen.shadows_iff e).1 (hskip henabled hfull)
    constructor
    · rw [comparable_append_one, hreturns, iff_self_and]
      intro _ henabled hfull _
      obtain ⟨d, hd, hde⟩ := hshadowed henabled hfull
      exact ⟨d, hd, .inl hde⟩
    · intro b hb
      rw [hany b hb]
      constructor
      · rintro ⟨d, hd, hdr⟩
        exact ⟨d, List.mem_append_left _ hd, hdr⟩
      · rintro ⟨d, hd, hdr⟩
        obtain hd | hd := List.mem_append.1 hd
        · exact ⟨d, hd, hdr⟩
        · cases List.mem_singleton.1 hd
          obtain ⟨d', hd', hde⟩ := hshadowed hdr.enabled hdr.full
          exact ⟨d', hd', hde.trans hdr⟩

theorem forall_split_cons {P : List α → α → Prop} {x : α} {l : List α} :
    (∀ before r after, x :: l = before ++ r :: after → P before r) ↔
      P [] x ∧ ∀ before r after, l = before ++ r :: after → P (x :: before) r := by
  constructor
  · intro h
    refine ⟨h [] x l rfl, ?_⟩
    rintro before r after rfl
    exact h (x :: before) r after rfl
  · rintro ⟨hx, hl⟩ before r after heq
    cases before with
    | nil =>
      cases heq
      exact hx
    | cons y before =>
      cases heq
      exact hl before r after rfl

theorem exists_split_cons {P : List α → α → Prop} {x : α} {l : List α} :
    (∃ before r after, x :: l = before ++ r :: after ∧ P before r) ↔
      P [] x ∨ ∃ before r after, l = before ++ r :: after ∧ P (x :: before) r := by
  have h := not_congr (@forall_split_cons α (fun before r => ¬ P before r) x l)
  simpa [or_iff_not_imp_left] using h

theorem findUnreachableLoop_spec (rest : List CompiledRoute) (h : SeenAfter walked seen)
    (unreachable : List String) :
    ((∃ ids, findUnreachableLoop rest seen unreachable = .ok ids) ↔
      ∀ before r after, rest = before ++ r :: after → r.enabled = true →
        Comparable (walked ++ before) r) ∧
    ∀ ids, findUnreachableLoop rest seen unreachable = .ok ids → ∀ id, id ∈ ids ↔
      id ∈ unreachable ∨ ∃ before r after, rest = before ++ r :: after ∧
        r.enabled = true ∧ r.id = id ∧ ∃ e ∈ walked ++ before, Shadows e r := by
  induction rest generalizing walked seen unreachable with
  | nil => simp [findUnreachableLoop]
  | cons r rest ih =>
    rw [forall_split_cons (P := fun before r => r.enabled = true → Comparable (walked ++ before) r)]
    simp only [exists_split_cons (P := fun before r => r.enabled = true ∧ r.id = _ ∧
      ∃ e ∈ walked ++ before, Shadows e r)]
    simp only [List.append_nil]
    obtain ⟨hreturns, hany⟩ := h.any_spec r
    have hstep : ∀ {seen'}, SeenAfter (walked ++ [r]) seen' → ∀ unreachable',
        ((∃ ids, findUnreachableLoop rest seen' unreachable' = .ok ids) ↔
          ∀ before s after, rest = before ++ s :: after → s.enabled = true →
            Comparable (walked ++ r :: before) s) ∧
        ∀ ids, findUnreachableLoop rest seen' unreachable' = .ok ids → ∀ id, id ∈ ids ↔
          id ∈ unreachable' ∨ ∃ before s after, rest = before ++ s :: after ∧
            s.enabled = true ∧ s.id = id ∧ ∃ e ∈ walked ++ r :: before, Shadows e s := by
      intro seen' h' unreachable'
      have hih := ih h' unreachable'
      simpa only [List.append_assoc, List.singleton_append] using hih
    rw [findUnreachableLoop]
    by_cases henabled : r.enabled = true
    · simp only [henabled, Bool.not_true, Bool.false_eq_true, if_false, forall_const, true_and]
      cases hresult : anySubsumes r seen with
      | error x =>
        have hnot : ¬ Comparable walked r := by
          rw [← hreturns, hresult]
          rintro ⟨b, hb⟩
          cases hb
        simp [hnot]
      | ok b =>
        have hcomparable : Comparable walked r := hreturns.1 ⟨b, hresult⟩
        have hshadowed := hany b hresult
        cases b with
        | true =>
          have hseen : SeenAfter (walked ++ [r]) seen :=
            .skip h fun _ _ => (h.shadows_iff r).2 (hshadowed.1 rfl)
          obtain ⟨hleft, hright⟩ := hstep hseen (unreachable ++ [r.id])
          refine ⟨?_, ?_⟩
          · rw [hleft, iff_and_self]
            exact fun _ => hcomparable
          · intro ids hids id
            rw [hright ids hids id, List.mem_append, List.mem_singleton, or_assoc]
            simp only [hshadowed.1 rfl, and_true, eq_comm]
        | false =>
          have hnone : ¬ ∃ e ∈ walked, Shadows e r := fun hs => Bool.false_ne_true (hshadowed.2 hs)
          have hseen : SeenAfter (walked ++ [r]) (if r.isFull then seen ++ [r] else seen) := by
            split
            · next hfull =>
              refine .keep h henabled hfull ?_
              intro d hd hdr
              exact hnone ((h.shadows_iff r).1 ⟨d, hd, hdr⟩)
            · next hfull => exact .skip h fun _ hf => absurd hf hfull
          obtain ⟨hleft, hright⟩ := hstep hseen unreachable
          refine ⟨?_, ?_⟩
          · rw [hleft, iff_and_self]
            exact fun _ => hcomparable
          · intro ids hids id
            rw [hright ids hids id]
            simp only [hnone, and_false, false_or]
    · have hseen : SeenAfter (walked ++ [r]) seen := .skip h fun he => absurd he henabled
      rw [Bool.not_eq_true] at henabled
      simp only [henabled, Bool.not_false, if_true, Bool.false_eq_true, false_implies, false_and,
        true_and, false_or]
      exact hstep hseen unreachable

/-- `find_unreachable` returns just where every comparison that counts does. -/
theorem findUnreachable_returns_iff {routes : List CompiledRoute} :
    (∃ ids, findUnreachable routes = .ok ids) ↔
      ∀ before r after, routes = before ++ r :: after → r.enabled = true → Comparable before r :=
  (findUnreachableLoop_spec routes .nil []).1

theorem mem_findUnreachable {routes : List CompiledRoute} (h : findUnreachable routes = .ok ids) :
    rid ∈ ids ↔ ∃ before r after, routes = before ++ r :: after ∧ r.enabled = true ∧ r.id = rid ∧
      ∃ e ∈ before, Shadows e r := by
  rw [(findUnreachableLoop_spec routes .nil []).2 ids h rid]
  simp

end Loop

section Evaluation
variable {rt : Runtime} {labels : Obj}

theorem Shadows.applies {e r : CompiledRoute} (h : Shadows e r) (honce : ¬ NamesTwice e.condition)
    (hlabels : ScalarLabels labels) (hr : applies rt labels r = true) :
    applies rt labels e = true ∧ e.stops = true := by
  simp only [CentralOps.applies, Bool.and_eq_true] at hr ⊢
  have hfull := h.full
  simp only [CompiledRoute.isFull, Bool.and_eq_true, decide_eq_true_eq] at hfull
  refine ⟨⟨⟨h.enabled, h.contains.sound rt honce hlabels hr.1.2⟩, ?_⟩, ?_⟩
  · rw [canaryPass, if_pos hfull.2]
  · rw [CompiledRoute.stops, hfull.1, Bool.true_or]

end Evaluation

/-- The routes of a list in evaluation order, as the API has let them in. -/
structure StoredRoutes (rt : Runtime) where
  routes : List CompiledRoute
  valid : ∀ r ∈ routes, validateCondition rt r.condition = none
  distinct : (routes.map CompiledRoute.id).Nodup

/-- `find_unreachable` returns, and no event is routed by a route that it reports. -/
structure UnreachableSound (rt : Runtime) (routes : List CompiledRoute) : Prop where
  returns : ∃ ids, findUnreachable routes = .ok ids
  sound : ∀ ids, findUnreachable routes = .ok ids → ∀ rid ∈ ids, ∀ labels, ScalarLabels labels →
    rid ∉ (evaluateEvent rt labels routes).matchedRouteIds

/-- The routes before `r` leave it no event. -/
def OutOfReach (rt : Runtime) (before : List CompiledRoute) (r : CompiledRoute) : Prop :=
  ∀ labels, ScalarLabels labels → applies rt labels r = true →
    ∃ e ∈ before, applies rt labels e = true ∧ e.stops = true

/-- Every comparison that counts returns; and a route that is shadowed only by routes that name one
label under two names is out of reach all the same. -/
structure ReachabilityDecided (rt : Runtime) (routes : List CompiledRoute) : Prop where
  comparable : ∀ before r after, routes = before ++ r :: after → r.enabled = true →
    Comparable before r
  once : ∀ before r after, routes = before ++ r :: after → r.enabled = true →
    (∃ e ∈ before, Shadows e r) → (∀ e ∈ before, Shadows e r → NamesTwice e.condition) →
    OutOfReach rt before r

/-- `find_unreachable` is total and sound just where it trips over no unhashable value and over no
label that a route names twice. -/
theorem unreachable_sound_iff (rt : Runtime) (s : StoredRoutes rt) :
    UnreachableSound rt s.routes ↔ ReachabilityDecided rt s.routes := by
  constructor
  · intro h
    refine ⟨findUnreachable_returns_iff.1 h.returns, ?_⟩
    intro before r after hsplit henabled hshadowed _ labels hlabels happlies
    obtain ⟨ids, hids⟩ := h.returns
    have hreported : r.id ∈ ids :=
      (mem_findUnreachable hids).2 ⟨before, r, after, hsplit, henabled, rfl, hshadowed⟩
    by_contra hreached
    apply h.sound ids hids r.id hreported labels hlabels
    rw [mem_matchedRouteIds, hsplit]
    refine ⟨r, mem_appliedRoutes happlies ?_, rfl⟩
    intro e he happlies hstops
    exact hreached ⟨e, he, happlies, hstops⟩
  · intro h
    refine ⟨findUnreachable_returns_iff.2 h.comparable, ?_⟩
    intro ids hids rid hrid labels hlabels hmatched
    obtain ⟨before, r, after, hsplit, henabled, rfl, hshadowed⟩ := (mem_findUnreachable hids).1 hrid
    have hmem : r ∈ s.routes := by
      rw [hsplit]
      exact List.mem_append_right _ List.mem_cons_self
    obtain ⟨r', hr', hid⟩ := mem_matchedRouteIds.1 hmatched
    obtain ⟨hmem', happlies⟩ := of_mem_appliedRoutes hr'
    obtain rfl := List.inj_on_of_nodup_map s.distinct hmem' hmem hid
    have hstopped : ∃ e ∈ before, applies rt labels e = true ∧ e.stops = true := by
      by_cases honce : ∀ e ∈ before, Shadows e r' → NamesTwice e.condition
      · exact h.once before r' after hsplit henabled hshadowed honce labels hlabels happlies
      · push Not at honce
        obtain ⟨e, he, hshadows, honce⟩ := honce
        exact ⟨e, he, hshadows.applies honce hlabels happlies⟩
    obtain ⟨e, he, happlies', hstops⟩ := hstopped
    rw [hsplit] at hr'
    have hearlier : r' ∈ before := appliedRoutes_stop he happlies' hstops hr'
    have hdistinct := s.distinct
    rw [hsplit, List.map_append, List.nodup_append] at hdistinct
    exact hdistinct.2.2 _ (List.mem_map_of_mem hearlier) _ List.mem_cons_self rfl

section Removal
variable {rt : Runtime} {labels : Obj}

theorem evaluateLoop_filter {keep : CompiledRoute → Bool} (routes : List CompiledRoute)
    (dests ids : List String) (asg : List (String × CompiledRoute))
    (h : ∀ r ∈ appliedRoutes rt labels routes, keep r = true) :
    evaluateLoop rt labels (routes.filter keep) dests ids asg =
      evaluateLoop rt labels routes dests ids asg := by
  induction routes generalizing dests ids asg with
  | nil => rfl
  | cons r routes ih =>
    rw [appliedRoutes] at h
    by_cases happ : applies rt labels r = true
    · by_cases hstops : r.stops = true
      · have hkeep : keep r = true := by simpa [happ, hstops] using h
        rw [List.filter_cons_of_pos hkeep]
        by_cases hdrop : r.action = .drop
        · simp [evaluateLoop, happ, hdrop]
        · have hfin : r.isFinal = true := by simpa [CompiledRoute.stops, hdrop] using hstops
          simp [evaluateLoop, happ, hdrop, hfin]
      · simp only [happ, hstops, Bool.not_true, Bool.false_eq_true, if_false,
          List.forall_mem_cons] at h
        simp only [List.filter_cons_of_pos h.1, evaluateLoop, ih _ _ _ h.2]
    · have hskip := ih dests ids asg (by simpa [happ] using h)
      by_cases hkeep : keep r = true <;> simp [evaluateLoop, happ, hkeep, hskip]

theorem orderRoutes_filter (keep : CompiledRoute → Bool) {routes : List CompiledRoute}
    (hids : (routes.map CompiledRoute.id).Nodup) :
    orderRoutes (routes.filter keep) = (orderRoutes routes).filter keep := by
  have : Std.Total routeLe := ⟨routeLe_total⟩
  have : IsTrans CompiledRoute routeLe := ⟨fun _ _ _ => routeLe_trans⟩
  have hperm := ((List.perm_insertionSort routeLe routes).filter keep).symm
  rw [orderRoutes_perm hperm (hids.sublist (List.filter_sublist.map _))]
  exact ((List.pairwise_insertionSort routeLe routes).filter keep).insertionSort_eq

theorem notMem_of_applied {routes : List CompiledRoute} (h : findUnreachable routes = .ok ids)
    (hids : (routes.map CompiledRoute.id).Nodup)
    (honce : ∀ e ∈ routes, ¬ NamesTwice e.condition) (hlabels : ScalarLabels labels)
    (hr : r ∈ appliedRoutes rt labels routes) : r.id ∉ ids := by
  intro hreported
  obtain ⟨hmem, happlies⟩ := of_mem_appliedRoutes hr
  obtain ⟨before, s, after, rfl, -, hid, e, he, hshadows⟩ := (mem_findUnreachable h).1 hreported
  obtain rfl := List.inj_on_of_nodup_map hids
    (List.mem_append_right before List.mem_cons_self) hmem hid
  obtain ⟨happlies', hstops⟩ :=
    hshadows.applies (honce e (List.mem_append_left _ he)) hlabels happlies
  have hearlier := appliedRoutes_stop he happlies' hstops hr
  rw [List.map_append, List.nodup_append] at hids
  exact hids.2.2 _ (List.mem_map_of_mem hearlier) _ List.mem_cons_self rfl

/-- The routes that `find_unreachable` reports can be deleted: every batch is routed as before. -/
theorem routeBatch_without_unreachable (rt : Runtime) {args : RouteArgs} {ids : List String}
    (hids : (args.routes.map CompiledRoute.id).Nodup)
    (honce : ∀ r ∈ args.routes, ¬ NamesTwice r.condition)
    (h : findUnreachable args.ordered = .ok ids) {batch : List Obj}
    (hlabels : ∀ env ∈ batch, ScalarLabels (eventLabels env)) :
    routeBatch rt { args with routes := args.routes.filter (fun r => r.id ∉ ids) } batch =
      routeBatch rt args batch := by
  have hperm := List.perm_insertionSort routeLe args.routes
  induction batch using List.reverseRecOn with
  | nil => rfl
  | append_singleton batch env ih =>
    rw [routeBatch_append_one, routeBatch_append_one,
      ih fun e he => hlabels e (List.mem_append_left _ he)]
    apply routeEvent_congr
    rw [orderRoutes_filter _ hids]
    apply evaluateLoop_filter
    intro r hr
    rw [decide_eq_true_eq]
    apply notMem_of_applied h ((hperm.map _).nodup_iff.2 hids)
    · intro e he
      exact honce e (hperm.mem_iff.1 he)
    · exact hlabels env (List.mem_append_right _ List.mem_cons_self)
    · exact hr

end Removal

section Example

def conditionRoute (id : String) (condition : Obj) : CompiledRoute :=
  { id := id, priority := 1, condition := condition, destinationIds := ["lake"], isFinal := true }

/-- A route that names the organization under both of its names, and a later route for one that
only the second name admits. -/
def doubleNamed : List CompiledRoute :=
  [conditionRoute "both" [("organization_id", .int 1),
      ("org_id", .obj [("in", .list [.int 1, .int 2])])],
    conditionRoute "second" [("organization_id", .int 2)]]

/-- A later route that compares a label with an object. -/
def unhashable : List CompiledRoute :=
  [conditionRoute "vendor" [("vendor", .str "sophos")],
    conditionRoute "object" [("vendor", .obj [("eq", .obj [("name", .str "sophos")])])]]

/-- A stored list with a route that is reported and applied, and one on which the report fails. -/
theorem find_unreachable_broken :
    (∃ s : StoredRoutes .ascii, s.routes = doubleNamed ∧ findUnreachable s.routes = .ok ["second"] ∧
      "second" ∈ (evaluateEvent .ascii [("organization_id", .int 2)] s.routes).matchedRouteIds ∧
      ¬ UnreachableSound .ascii s.routes) ∧
    ∃ s : StoredRoutes .ascii, s.routes = unhashable ∧
      findUnreachable s.routes = .error .typeError ∧ ¬ UnreachableSound .ascii s.routes := by
  have hdouble : findUnreachable doubleNamed = .ok ["second"] := by decide +kernel
  have hmatched : "second" ∈
      (evaluateEvent .ascii [("organization_id", .int 2)] doubleNamed).matchedRouteIds := by
    decide +kernel
  have hraises : findUnreachable unhashable = .error .typeError := by decide +kernel
  constructor
  · refine ⟨⟨doubleNamed, by decide +kernel, by decide⟩, rfl, hdouble, hmatched, ?_⟩
    intro h
    have hscalar : ScalarLabels [("organization_id", .int 2)] := by
      simp [ScalarLabels, Json.isScalar]
    exact h.sound ["second"] hdouble "second" List.mem_cons_self _ hscalar hmatched
  · refine ⟨⟨unhashable, by decide +kernel, by decide⟩, rfl, hraises, ?_⟩
    intro h
    obtain ⟨ids, hids⟩ := h.returns
    rw [hraises] at hids
    cases hids

def shadowedArgs : RouteArgs where
  routes := [conditionRoute "all" [], conditionRoute "vendor" [("vendor", .str "sophos")]]

theorem routeBatch_without_vendor :
    routeBatch .ascii { shadowedArgs with
        routes := shadowedArgs.routes.filter (fun r => r.id ∉ ["vendor"]) } [[]] =
      routeBatch .ascii shadowedArgs [[]] :=
  routeBatch_without_unreachable .ascii (by decide) (by simp [shadowedArgs, conditionRoute,
    NamesTwice]) (by decide +kernel) (by simp [ScalarLabels, eventLabels, Obj.getN, Json.asObj])

end Example

end CentralOps
