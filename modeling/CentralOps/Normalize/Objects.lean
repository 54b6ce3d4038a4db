import CentralOps.Json
import CentralOps.Lib.Heap
import CentralOps.Lib.Proc

namespace CentralOps
set_option autoImplicit true

/-- The values without identity. -/
inductive Scalar where
  | null
  | bool (b : Bool)
  | int (n : Int)
  | float (x : PyFloat)
  | str (s : String)
  deriving DecidableEq

def Scalar.toJson : Scalar → Json
  | .null => .null
  | .bool b => .bool b
  | .int n => .int n
  | .float x => .float x
  | .str s => .str s

/-- `a == b`. -/
def Scalar.eq (a b : Scalar) : Bool := a.toJson.pyEq b.toJson

structure Objects (σ ν : Type) where
  scalar : Scalar → ν
  shape : σ → ν → Shape Scalar ν
  make : Shape Scalar ν → σ → ν × σ
  /-- `_set_path(target, path, value)`. -/
  setPath : ν → List String → ν → σ → σ
  /-- `a is b`. Every NaN of `json.loads` is one object. -/
  same : ν → ν → Bool
  /-- `jmespath.compile(e).search(v)`, with the text of its error. -/
  search : String → ν → σ → Except String ν × σ

/-- What the mapping engine takes from Python's library. A Lean string has no lone surrogates, so
the runtime says which strings stand for one that has. -/
structure MappingRuntime extends Runtime where
  stackLimit : Nat
  jsonMaxBytes : Nat
  /-- `jmespath.compile(s)` succeeds. -/
  jmespathValid : String → Bool
  fastpathEnabled : Bool
  /-- Milliseconds of `datetime.fromisoformat(s)`, read as UTC without an offset. -/
  fromisoformat : String → Option Int
  /-- `float(s)`. -/
  floatOf : String → Option PyFloat
  /-- `round(x * n)`. -/
  roundTimes : Rat → Nat → Int
  /-- The timestamp in ISO-8601 with seconds and `Z`. -/
  isoOfMillis : Int → String
  /-- Which exception `datetime.fromtimestamp` raises outside the years 1 to 9999. -/
  timestampError : Int → PyError
  /-- `len(s.encode("utf-8"))`, `none` when a lone surrogate cannot be encoded. -/
  utf8Size : String → Option Nat
  /-- `s.encode("utf-8")[:n].decode("utf-8", "ignore")`. -/
  utf8Clip : Nat → String → String
  /-- `json.loads(s)`, with the text of its error. -/
  loads : String → Except String Json

inductive Exc where
  | requiredField (target : String)
  | mapping (msg : String)
  | operator (msg : String)
  | operatorSize (msg : String)
  | jmespath (msg : String)
  | python (e : PyError)
  deriving DecidableEq

/-- `isinstance(e, MappingError)`. -/
def Exc.isMapping : Exc → Bool
  | .requiredField _ | .mapping _ => true
  | _ => false

/-- `isinstance(e, OperatorError)`. -/
def Exc.isOperator : Exc → Bool
  | .operator _ | .operatorSize _ => true
  | _ => false

def Exc.text (rt : MappingRuntime) : Exc → String
  | .requiredField target => "required field " ++ rt.reprStr target ++ " resolved to None"
  | .mapping msg | .operator msg | .operatorSize msg | .jmespath msg => msg
  | .python _ => ""

/-- `type(v).__name__`. -/
def typeName : Shape Scalar ν → String
  | .scalar .null => "NoneType"
  | .scalar (.bool _) => "bool"
  | .scalar (.int _) => "int"
  | .scalar (.float _) => "float"
  | .scalar (.str _) => "str"
  | .list _ => "list"
  | .dict _ => "dict"

namespace Objects

variable {σ ν : Type} (S : Objects σ ν)

def isNone (s : σ) (v : ν) : Bool :=
  match S.shape s v with
  | .scalar .null => true
  | _ => false

def look (v : ν) : Proc σ Exc (Shape Scalar ν) := fun s => .ok (S.shape s v) s

def new (c : Shape Scalar ν) : Proc σ Exc ν := fun s => .ok (S.make c s).1 (S.make c s).2

def write (target : ν) (path : List String) (v : ν) : Proc σ Exc Unit :=
  Proc.modify (S.setPath target path v)

mutual
/-- The objects that `json.loads` builds. -/
def load : Json → σ → ν × σ
  | .null, s => (S.scalar .null, s)
  | .bool b, s => (S.scalar (.bool b), s)
  | .int n, s => (S.scalar (.int n), s)
  | .float x, s => (S.scalar (.float x), s)
  | .str t, s => (S.scalar (.str t), s)
  | .list xs, s => S.make (.list (loadList xs s).1) (loadList xs s).2
  | .obj o, s => S.make (.dict (loadFields o s).1) (loadFields o s).2

def loadList : List Json → σ → List ν × σ
  | [], s => ([], s)
  | x :: xs, s =>
    ((load x s).1 :: (loadList xs (load x s).2).1, (loadList xs (load x s).2).2)

def loadFields : Obj → σ → List (String × ν) × σ
  | [], s => ([], s)
  | (k, x) :: o, s =>
    ((k, (load x s).1) :: (loadFields o (load x s).2).1, (loadFields o (load x s).2).2)
end

/-- The JSON document under a value, cut off below `fuel` levels. -/
def read (s : σ) : Nat → ν → Json
  | 0, _ => .null
  | fuel + 1, v =>
    match S.shape s v with
    | .scalar x => x.toJson
    | .list xs => .list (xs.map (read s fuel))
    | .dict fields => .obj (fields.map (fun p => (p.1, read s fuel p.2)))

end Objects

/-- An integer with more than 4300 digits has no `str`. -/
def intStrBound : Nat := 10 ^ 4300

def Scalar.repr (rt : MappingRuntime) : Scalar → Except PyError String
  | .null => .ok "None"
  | .bool b => .ok (if b then "True" else "False")
  | .int n => if n.natAbs < intStrBound then .ok (toString n) else .error .valueError
  | .float x => .ok (rt.toRuntime.repr (.float x))
  | .str s => .ok (rt.reprStr s)

namespace Objects

variable {σ ν : Type} (S : Objects σ ν) (rt : MappingRuntime)

/-- One level of `repr`. A container inside itself is abbreviated. -/
def reprStep (inner : List ν → ν → Except PyError String) (s : σ) (seen : List ν) (v : ν) :
    Except PyError String :=
  match S.shape s v with
  | .scalar x => x.repr rt
  | .list xs =>
    if seen.any (S.same v) then .ok "[...]"
    else do
      let parts ← xs.mapM (inner (v :: seen))
      .ok ("[" ++ ", ".intercalate parts ++ "]")
  | .dict fields =>
    if seen.any (S.same v) then .ok "\x7b...\x7d"
    else do
      let parts ← fields.mapM fun p => do
        let part ← inner (v :: seen) p.2
        .ok (rt.reprStr p.1 ++ ": " ++ part)
      .ok ("\x7b" ++ ", ".intercalate parts ++ "\x7d")

/-- `repr(v)`, down to the depth that the interpreter's stack allows. -/
def repr (s : σ) : Nat → List ν → ν → Except PyError String
  | 0 => S.reprStep rt (fun _ _ => .error .recursionError) s
  | fuel + 1 => S.reprStep rt (repr s fuel) s

/-- `str(v)`. -/
def str (s : σ) (v : ν) : Except PyError String :=
  match S.shape s v with
  | .scalar (.str t) => .ok t
  | _ => S.repr rt s rt.stackLimit [] v

def allEqual (eq : α → β → Except PyError Bool) : List α → List β → Except PyError Bool
  | a :: as, b :: bs =>
    match eq a b with
    | .ok true => allEqual eq as bs
    | r => r
  | _, _ => .ok true

/-- One level of `a == b`. The members of a container are also equal when identical. -/
def eqStep (inner : ν → ν → Except PyError Bool) (s : σ) (a b : ν) : Except PyError Bool :=
  match S.shape s a, S.shape s b with
  | .scalar x, .scalar y => .ok (x.eq y)
  | .list xs, .list ys =>
    if xs.length ≠ ys.length then .ok false
    else allEqual (fun x y => if S.same x y then .ok true else inner x y) xs ys
  | .dict fs, .dict gs =>
    if fs.length ≠ gs.length then .ok false
    else allEqual
      (fun (p : String × ν) (_ : String × ν) =>
        match gs.lookup p.1 with
        | none => .ok false
        | some y => if S.same p.2 y then .ok true else inner p.2 y) fs gs
  | _, _ => .ok false

/-- `a == b`, down to the depth that the interpreter's stack allows. -/
def eq (s : σ) : Nat → ν → ν → Except PyError Bool
  | 0 => S.eqStep (fun _ _ => .error .recursionError) s
  | fuel + 1 => S.eqStep (eq s fuel) s

/-- `v in literals`, on a tuple. -/
def isIn (s : σ) (fuel : Nat) (v : ν) : List ν → Except PyError Bool
  | [] => .ok false
  | w :: ws =>
    if S.same v w then .ok true
    else match S.eq s fuel v w with
      | .ok false => isIn s fuel v ws
      | r => r

end Objects

/-- The JMESPath library. A literal in an expression is one object, made when the expression is
compiled and handed out by every search. -/
structure Jmespath where
  literals : Heap Scalar
  search : String → Ref Scalar → Heap Scalar → Except String (Ref Scalar) × Heap Scalar

/-- Python's objects: containers are shared by reference and changed in place. -/
def pythonObjects (J : Jmespath) : Objects (Heap Scalar) (Ref Scalar) where
  scalar := .scalar
  shape := Heap.shape
  make c h := h.make c
  setPath := Heap.setPath
  same v w := decide (v = w)
  search := J.search

/-- A library that knows no expression beyond dot paths. -/
def Jmespath.none : Jmespath where
  literals := []
  search _ _ h := (.error "", h)

end CentralOps
