import CentralOps.Normalize.Engine

namespace CentralOps
set_option autoImplicit true

inductive JmesToken where
  | ident (name : String)
  | dot
  deriving DecidableEq

def startsIdentifier (c : Char) : Bool := c.isAlpha || c == '_'

def inIdentifier (c : Char) : Bool := c.isAlphanum || c == '_'

def jmesSpace (c : Char) : Bool := c == ' ' || c == '\t' || c == '\n' || c == '\r'

/-- The token that ends when the characters in `buf` are followed by something else. -/
def flushIdent (buf : List Char) : List JmesToken :=
  if buf = [] then [] else [.ident (String.ofList buf)]

/-- The lexer, with the identifier it is reading; `none` at a character of any other token. -/
def jmesTokens (buf : List Char) : List Char → Option (List JmesToken)
  | [] => some (flushIdent buf)
  | c :: cs =>
    if buf ≠ [] ∧ inIdentifier c = true then jmesTokens (buf ++ [c]) cs
    else if startsIdentifier c = true then (jmesTokens [c] cs).map (flushIdent buf ++ ·)
    else if c = '.' then (jmesTokens [] cs).map (fun ts => flushIdent buf ++ .dot :: ts)
    else if jmesSpace c = true then (jmesTokens [] cs).map (flushIdent buf ++ ·)
    else none

inductive JmesAst where
  | field (name : String)
  | subexpression (children : List JmesAst)

/-- `_token_led_dot`: a chain grows at its end. -/
def JmesAst.led (left right : JmesAst) : JmesAst :=
  match left with
  | .subexpression children => .subexpression (children ++ [right])
  | .field name => .subexpression [.field name, right]

/-- The loop of `_expression`, up to the end of the tokens. -/
def jmesLoop (left : JmesAst) : List JmesToken → Option JmesAst
  | [] => some left
  | .dot :: .ident name :: ts => jmesLoop (left.led (.field name)) ts
  | _ => none

def jmesParse (expr : String) : Option JmesAst :=
  match jmesTokens [] expr.toList with
  | some (.ident name :: ts) => jmesLoop (.field name) ts
  | _ => none

section Visit
variable {σ ν : Type} (S : Objects σ ν) (s : σ)

mutual
/-- `TreeInterpreter.visit` on these trees. -/
def JmesAst.visit : JmesAst → ν → ν
  | .field name, v => getField S s v name
  | .subexpression children, v => visitAll children v

def visitAll : List JmesAst → ν → ν
  | [], v => v
  | child :: children, v => visitAll children (child.visit v)
end

end Visit

/-- The library, when `J` stands for it on every expression with other tokens. -/
def Jmespath.full (J : Jmespath) : Jmespath where
  literals := J.literals
  search expr v h :=
    match jmesParse expr with
    | .some ast => (.ok (ast.visit (pythonObjects J) h v), h)
    | .none => J.search expr v h

/-- `jmespath.compile(s)` succeeds, when `rt` says so for every expression with other tokens. -/
def MappingRuntime.full (rt : MappingRuntime) : MappingRuntime :=
  { rt with jmespathValid := fun expr => (jmesParse expr).isSome || rt.jmespathValid expr }

theorem jmesTokens_dot (buf cs : List Char) :
    jmesTokens buf ('.' :: cs) = (jmesTokens [] cs).map (fun ts => flushIdent buf ++ .dot :: ts) := by
  have h1 : inIdentifier '.' = false := by decide
  have h2 : startsIdentifier '.' = false := by decide
  simp [jmesTokens, h1, h2]

theorem jmesTokens_start (cs : List Char) (h : startsIdentifier c = true) :
    jmesTokens [] (c :: cs) = jmesTokens [c] cs := by
  have hid : (fun ts => flushIdent [] ++ ts) = (id : List JmesToken → List JmesToken) := by
    funext ts
    simp [flushIdent]
  simp [jmesTokens, h, hid]

theorem jmesTokens_inside (hbuf : buf ≠ []) (cs : List Char) (h : inIdentifier c = true) :
    jmesTokens buf (c :: cs) = jmesTokens (buf ++ [c]) cs := by
  simp [jmesTokens, hbuf, h]

theorem jmesTokens_end (hbuf : buf ≠ []) (htail : tail = [] ∨ tail = ['\n']) :
    jmesTokens buf tail = some [.ident (String.ofList buf)] := by
  have h1 : inIdentifier '\n' = false := by decide
  have h2 : startsIdentifier '\n' = false := by decide
  have h3 : jmesSpace '\n' = true := by decide
  obtain rfl | rfl := htail
  · simp [jmesTokens, flushIdent, hbuf]
  · simp [jmesTokens, flushIdent, hbuf, h1, h2, h3]

theorem isIdentifier_append (hbuf : buf ≠ []) :
    isIdentifier (buf ++ cs) = true ↔ isIdentifier buf = true ∧ cs.all inIdentifier = true := by
  cases buf with
  | nil => exact absurd rfl hbuf
  | cons b bs => simp [isIdentifier, inIdentifier, and_assoc]

def dottedTokens (ps : List (List Char)) : List JmesToken :=
  ps.flatMap (fun p => [.dot, .ident (String.ofList p)])

/-- The lexer reads a dotted path as its identifiers, whatever whitespace ends the expression. -/
theorem jmesTokens_path (htail : tail = [] ∨ tail = ['\n']) (hsplit : cs.splitOn '.' = p :: ps)
    (hp : isIdentifier (buf ++ p) = true) (hps : ps.all isIdentifier = true) :
    jmesTokens buf (cs ++ tail) =
      some (.ident (String.ofList (buf ++ p)) :: dottedTokens ps) := by
  induction cs generalizing buf p ps with
  | nil =>
    obtain ⟨rfl, rfl⟩ : p = [] ∧ ps = [] := by simpa [List.splitOn, eq_comm] using hsplit
    rw [List.append_nil] at hp ⊢
    have hbuf : buf ≠ [] := by
      rintro rfl
      exact absurd hp (by decide)
    exact jmesTokens_end hbuf htail
  | cons c cs ih =>
    obtain ⟨q, qs, hq⟩ : ∃ q qs, cs.splitOn '.' = q :: qs :=
      List.exists_cons_of_ne_nil (List.splitOnP_ne_nil _ _)
    simp only [List.splitOn] at hsplit hq ih
    rw [List.splitOnP_cons_eq_if_modifyHead, hq] at hsplit
    by_cases hc : c = '.'
    · subst hc
      obtain ⟨rfl, rfl⟩ : p = [] ∧ ps = q :: qs := by simpa [eq_comm] using hsplit
      rw [List.append_nil] at hp ⊢
      rw [List.all_cons, Bool.and_eq_true] at hps
      have hbuf : buf ≠ [] := by
        rintro rfl
        exact absurd hp (by decide)
      rw [List.cons_append, jmesTokens_dot,
        ih hq (show isIdentifier ([] ++ q) = true from hps.1) hps.2]
      simp [flushIdent, hbuf, dottedTokens]
    · have hb : (c == '.') = false := by simpa using hc
      rw [hb] at hsplit
      obtain ⟨rfl, rfl⟩ : c :: q = p ∧ qs = ps := List.cons.inj hsplit
      rw [List.cons_append]
      by_cases hbuf : buf = []
      · subst hbuf
        have hstart : startsIdentifier c = true := by
          rw [List.nil_append, isIdentifier, Bool.and_eq_true] at hp
          exact hp.1
        rw [jmesTokens_start _ hstart]
        exact ih hq hp hps
      · have hin : inIdentifier c = true := by
          have h := ((isIdentifier_append hbuf).1 hp).2
          rw [List.all_cons, Bool.and_eq_true] at h
          exact h.1
        have happ : buf ++ c :: q = buf ++ [c] ++ q := by simp
        rw [jmesTokens_inside hbuf _ hin, happ]
        rw [happ] at hp
        exact ih hq hp hps

section Visiting
variable {σ ν : Type} (S : Objects σ ν) (s : σ)

theorem visitAll_append (cs ds : List JmesAst) (v : ν) :
    visitAll S s (cs ++ ds) v = visitAll S s ds (visitAll S s cs v) := by
  induction cs generalizing v with
  | nil => rw [List.nil_append, visitAll]
  | cons c cs ih => rw [List.cons_append, visitAll, visitAll, ih]

theorem JmesAst.visit_led (left : JmesAst) (name : String) (v : ν) :
    (left.led (.field name)).visit S s v = getField S s (left.visit S s v) name := by
  cases left with
  | field k => simp only [JmesAst.led, JmesAst.visit, visitAll]
  | subexpression children =>
    simp only [JmesAst.led, JmesAst.visit, visitAll_append, visitAll]

end Visiting

theorem jmesLoop_dotted (left : JmesAst) (ps : List (List Char)) :
    ∃ ast, jmesLoop left (dottedTokens ps) = some ast ∧
      ∀ (σ ν : Type) (S : Objects σ ν) s v,
        ast.visit S s v = dotSearch S s (ps.map String.ofList) (left.visit S s v) := by
  induction ps generalizing left with
  | nil => exact ⟨left, rfl, fun σ ν S s v => rfl⟩
  | cons p ps ih =>
    obtain ⟨ast, hast, hvisit⟩ := ih (left.led (.field (String.ofList p)))
    refine ⟨ast, hast, fun σ ν S s v => ?_⟩
    rw [hvisit, JmesAst.visit_led]
    rfl

def dotPathBody (expr : String) : List Char :=
  if expr.toList.getLast? = some '\n' then expr.toList.dropLast else expr.toList

theorem dotPathBody_append (expr : String) :
    ∃ tail, (tail = [] ∨ tail = ['\n']) ∧ expr.toList = dotPathBody expr ++ tail := by
  unfold dotPathBody
  split
  · next h =>
    obtain ⟨cs, hcs⟩ := List.getLast?_eq_some_iff.1 h
    exact ⟨['\n'], .inr rfl, by rw [hcs, List.dropLast_concat]⟩
  · exact ⟨[], .inl rfl, (List.append_nil _).symm⟩

theorem isDotPath_iff (expr : String) :
    isDotPath expr = ((dotPathBody expr).splitOn '.').all isIdentifier := rfl

theorem jmesParse_dotPath (h : isDotPath expr = true) :
    ∃ ast, jmesParse expr = some ast ∧
      ∀ (σ ν : Type) (S : Objects σ ν) s v,
        ast.visit S s v =
          dotSearch S s (((dotPathBody expr).splitOn '.').map String.ofList) v := by
  obtain ⟨tail, htail, happ⟩ := dotPathBody_append expr
  obtain ⟨p, ps, hsplit⟩ : ∃ p ps, (dotPathBody expr).splitOn '.' = p :: ps :=
    List.exists_cons_of_ne_nil (List.splitOnP_ne_nil _ _)
  rw [isDotPath_iff, hsplit, List.all_cons, Bool.and_eq_true] at h
  have htokens := jmesTokens_path htail hsplit (show isIdentifier ([] ++ p) = true from h.1) h.2
  obtain ⟨ast, hast, hvisit⟩ := jmesLoop_dotted (.field (String.ofList p)) ps
  refine ⟨ast, ?_, fun σ ν S s v => ?_⟩
  · rw [jmesParse, happ, htokens]
    exact hast
  · rw [hvisit, hsplit]
    rfl

theorem splitOn_newline (cs : List Char) :
    ∃ ps p, cs.splitOn '.' = ps ++ [p] ∧ (cs ++ ['\n']).splitOn '.' = ps ++ [p ++ ['\n']] := by
  simp only [List.splitOn]
  induction cs with
  | nil => exact ⟨[], [], rfl, rfl⟩
  | cons c cs ih =>
    obtain ⟨ps, p, h, h'⟩ := ih
    rw [List.cons_append, List.splitOnP_cons_eq_if_modifyHead,
      List.splitOnP_cons_eq_if_modifyHead, h, h']
    by_cases hc : (c == '.') = true
    · rw [if_pos hc, if_pos hc]
      exact ⟨[] :: ps, p, rfl, rfl⟩
    · rw [if_neg hc, if_neg hc]
      cases ps with
      | nil => exact ⟨[], c :: p, rfl, rfl⟩
      | cons q qs => exact ⟨(c :: q) :: qs, p, rfl, rfl⟩

/-- A document with the value `1` at the end of a path. -/
def deepDoc (keys : List String) : Json :=
  keys.foldr (fun k d => .obj [(k, d)]) (.int 1)

section Deep
variable (J : Jmespath)

theorem load_deepDoc_cons (k : String) (ks : List String) (h : Heap Scalar) :
    (pythonObjects J).load (deepDoc (k :: ks)) h =
      (.addr ((pythonObjects J).load (deepDoc ks) h).2.length,
        ((pythonObjects J).load (deepDoc ks) h).2 ++
          [.dict [(k, ((pythonObjects J).load (deepDoc ks) h).1)]]) := rfl

theorem getField_top (h rest : Heap Scalar) (fields : List (String × Ref Scalar)) (k : String) :
    getField (pythonObjects J) (h ++ .dict fields :: rest) (.addr h.length) k =
      (fields.lookup k).getD (.scalar .null) := by
  simp [getField, pythonObjects, Heap.shape]

theorem dotSearch_deepDoc (init : List String) (k j : String) (h rest : Heap Scalar) :
    dotSearch (pythonObjects J) (((pythonObjects J).load (deepDoc (init ++ [k])) h).2 ++ rest)
        (init ++ [j]) ((pythonObjects J).load (deepDoc (init ++ [k])) h).1 =
      .scalar (if j = k then .int 1 else .null) := by
  induction init generalizing rest with
  | nil =>
    have hload : (pythonObjects J).load (deepDoc [k]) h =
        (.addr h.length, h ++ [.dict [(k, .scalar (.int 1))]]) := rfl
    rw [List.nil_append, List.nil_append, hload, dotSearch, List.foldl_cons, List.foldl_nil,
      List.append_assoc, List.singleton_append, getField_top, Assoc.lookup_cons_eq]
    by_cases hj : j = k
    · rw [if_pos hj.symm, if_pos hj, Option.getD_some]
    · rw [if_neg (Ne.symm hj), if_neg hj, List.lookup_nil, Option.getD_none]
  | cons i init ih =>
    rw [List.cons_append, load_deepDoc_cons, List.cons_append, dotSearch, List.foldl_cons,
      List.append_assoc, List.singleton_append, getField_top]
    have hlookup : ∀ r : Ref Scalar,
        ([(i, r)].lookup i).getD (.scalar .null) = r := by simp
    rw [hlookup]
    exact ih _

/-- What `compile_source` makes of an expression is the library's own resolver, or resolves every
document as the library does. -/
def ResolvesAsJmespath (rt : MappingRuntime) (expr : String) : Prop :=
  match compileSource rt.full expr with
  | some ⟨_, .dotPath keys⟩ =>
    rt.full.jmespathValid expr = true ∧
      ∀ (d : Json) (h : Heap Scalar),
        let S := pythonObjects J.full
        (Source.dotPath keys).search S (S.load d h).1 (S.load d h).2 =
          (Source.jmespath expr).search S (S.load d h).1 (S.load d h).2
  | compiled =>
    compiled = if rt.full.jmespathValid expr = true then some ⟨expr, .jmespath expr⟩ else none

def dotPathKeys (expr : String) : List String :=
  ((dotPathBody expr).splitOn '.').map String.ofList

theorem search_jmespath (h : isDotPath expr = true) (v : Ref Scalar) (s : Heap Scalar) :
    (Source.jmespath expr).search (pythonObjects J.full) v s =
      .ok (dotSearch (pythonObjects J.full) s (dotPathKeys expr) v) s := by
  obtain ⟨ast, hast, hvisit⟩ := jmesParse_dotPath h
  have hsearch : (pythonObjects J.full).search expr v s =
      (.ok (ast.visit (pythonObjects J) s v), s) := by
    simp [pythonObjects, Jmespath.full, hast]
  rw [hvisit] at hsearch
  simp only [Source.search, hsearch]
  rfl

theorem full_valid (rt : MappingRuntime) (h : isDotPath expr = true) :
    rt.full.jmespathValid expr = true := by
  obtain ⟨ast, hast, -⟩ := jmesParse_dotPath h
  simp [MappingRuntime.full, hast]

theorem resolvesAsJmespath_slow (rt : MappingRuntime)
    (h : ¬ (rt.fastpathEnabled = true ∧ isDotPath expr = true)) :
    ResolvesAsJmespath J rt expr := by
  have hfast : (rt.full.fastpathEnabled && isDotPath expr) = false := by
    rw [Bool.eq_false_iff, ne_eq, Bool.and_eq_true]
    exact h
  unfold ResolvesAsJmespath compileSource
  by_cases hv : rt.full.jmespathValid expr = true
  · simp [hv, hfast]
  · simp [hv]

theorem resolvesAsJmespath_fast (rt : MappingRuntime) (hon : rt.fastpathEnabled = true)
    (h : isDotPath expr = true) :
    ResolvesAsJmespath J rt expr ↔
      ∀ (d : Json) (s : Heap Scalar),
        let S := pythonObjects J.full
        dotSearch S (S.load d s).2 (splitDots expr) (S.load d s).1 =
          dotSearch S (S.load d s).2 (dotPathKeys expr) (S.load d s).1 := by
  have hon' : rt.full.fastpathEnabled = true := hon
  have hvalid := full_valid rt h
  have hcompile : compileSource rt.full expr = some ⟨expr, .dotPath (splitDots expr)⟩ := by
    simp [compileSource, hvalid, hon', h]
  unfold ResolvesAsJmespath
  rw [hcompile]
  simp only [search_jmespath J h, hvalid, true_and]
  refine forall_congr' fun d => forall_congr' fun s => ?_
  simp only [Source.search, Ending.ok.injEq, and_true]

/-- A dot path with a newline after it is the one source that the fast path resolves otherwise. -/
theorem resolvesAsJmespath_iff (rt : MappingRuntime) (expr : String) :
    ResolvesAsJmespath J rt expr ↔
      ¬ (rt.fastpathEnabled = true ∧ isDotPath expr = true ∧
        expr.toList.getLast? = some '\n') := by
  by_cases hfast : rt.fastpathEnabled = true ∧ isDotPath expr = true
  · rw [resolvesAsJmespath_fast J rt hfast.1 hfast.2]
    by_cases hlast : expr.toList.getLast? = some '\n'
    · refine ⟨fun h => ?_, fun h => absurd ⟨hfast.1, hfast.2, hlast⟩ h⟩
      obtain ⟨ps, p, hbody, hline⟩ := splitOn_newline (dotPathBody expr)
      have hexpr : expr.toList = dotPathBody expr ++ ['\n'] := by
        obtain ⟨cs, hcs⟩ := List.getLast?_eq_some_iff.1 hlast
        rw [dotPathBody, if_pos hlast, hcs, List.dropLast_concat]
      have hkeys : dotPathKeys expr = ps.map String.ofList ++ [String.ofList p] := by
        rw [dotPathKeys, hbody, List.map_append, List.map_singleton]
      have hsplit : splitDots expr =
          ps.map String.ofList ++ [String.ofList (p ++ ['\n'])] := by
        rw [splitDots, hexpr, hline, List.map_append, List.map_singleton]
      have hne : String.ofList (p ++ ['\n']) ≠ String.ofList p := by
        intro he
        simpa using String.ofList_injective he
      have h' := h (deepDoc (dotPathKeys expr)) []
      rw [hsplit, hkeys] at h'
      dsimp only at h'
      have hmiss := dotSearch_deepDoc J.full (ps.map String.ofList) (String.ofList p)
        (String.ofList (p ++ ['\n'])) [] []
      have hhit := dotSearch_deepDoc J.full (ps.map String.ofList) (String.ofList p)
        (String.ofList p) [] []
      rw [List.append_nil, if_neg hne] at hmiss
      rw [List.append_nil, if_pos rfl] at hhit
      rw [hmiss, hhit] at h'
      cases h'
    · refine ⟨fun _ h => hlast h.2.2, fun _ d s => ?_⟩
      have hkeys : splitDots expr = dotPathKeys expr := by
        rw [splitDots, dotPathKeys, dotPathBody, if_neg hlast]
      rw [hkeys]
  · refine ⟨fun _ h => hfast ⟨h.1, h.2.1⟩, fun _ => resolvesAsJmespath_slow J rt hfast⟩

end Deep

theorem newline_misses_field : ¬ ResolvesAsJmespath Jmespath.none .ascii "a\n" := by
  intro h
  have hdoc := (resolvesAsJmespath_fast Jmespath.none .ascii rfl (by decide)).1 h
    (.obj [("a", .int 1)]) []
  exact absurd hdoc (by decide)

end CentralOps
