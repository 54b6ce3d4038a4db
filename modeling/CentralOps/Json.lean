import Mathlib.Data.Rat.Defs
import Mathlib.Algebra.Order.Ring.Unbundled.Rat
import CentralOps.Lib.Dict

namespace CentralOps
set_option autoImplicit true

inductive PyFloat where
  | finite (q : Rat)
  | inf (negative : Bool)
  | nan
  deriving DecidableEq

/-- The values `json.loads` can produce. A dict keeps its insertion order. -/
inductive Json where
  | null
  | bool (b : Bool)
  | int (n : Int)
  | float (x : PyFloat)
  | str (s : String)
  | list (xs : List Json)
  | obj (fields : List (String × Json))

abbrev Obj := List (String × Json)

mutual
def Json.beq : Json → Json → Bool
  | .null, .null => true
  | .bool a, .bool b => decide (a = b)
  | .int a, .int b => decide (a = b)
  | .float a, .float b => decide (a = b)
  | .str a, .str b => decide (a = b)
  | .list a, .list b => beqList a b
  | .obj a, .obj b => beqFields a b
  | _, _ => false

def beqList : List Json → List Json → Bool
  | [], [] => true
  | a :: as, b :: bs => a.beq b && beqList as bs
  | _, _ => false

def beqFields : Obj → Obj → Bool
  | [], [] => true
  | (k, a) :: as, (l, b) :: bs => decide (k = l) && a.beq b && beqFields as bs
  | _, _ => false
end

mutual
theorem Json.beq_iff : (a b : Json) → (a.beq b = true ↔ a = b)
  | .null, b => by cases b <;> simp [Json.beq]
  | .bool _, b => by cases b <;> simp [Json.beq]
  | .int _, b => by cases b <;> simp [Json.beq]
  | .float _, b => by cases b <;> simp [Json.beq]
  | .str _, b => by cases b <;> simp [Json.beq]
  | .list a, b => by cases b <;> simp [Json.beq, beqList_iff a]
  | .obj a, b => by cases b <;> simp [Json.beq, beqFields_iff a]

theorem beqList_iff : (a b : List Json) → (beqList a b = true ↔ a = b)
  | [], b => by cases b <;> simp [beqList]
  | a :: as, b => by cases b <;> simp [beqList, a.beq_iff, beqList_iff as]

theorem beqFields_iff : (a b : Obj) → (beqFields a b = true ↔ a = b)
  | [], b => by cases b <;> simp [beqFields]
  | (k, a) :: as, [] => by simp [beqFields]
  | (k, a) :: as, (l, b) :: bs => by
    simp [beqFields, a.beq_iff, beqFields_iff as, and_assoc]
end

instance : DecidableEq Json := fun a b => decidable_of_iff _ (a.beq_iff b)

/-- `bool(v)`. -/
def Json.truthy : Json → Bool
  | .null => false
  | .bool b => b
  | .int n => decide (n ≠ 0)
  | .float x => decide (x ≠ .finite 0)
  | .str s => decide (s ≠ "")
  | .list xs => !xs.isEmpty
  | .obj o => !o.isEmpty

/-- `d.get(k)`, with Python's `None` for a missing key. -/
def Obj.getN (o : Obj) (k : String) : Json := (o.lookup k).getD .null

/-- The dict in a value, and `{}` for anything else: `v or {}` on the values the code stores. -/
def Json.asObj : Json → Obj
  | .obj o => o
  | _ => []

/-- `bool` is a subclass of `int`, so all three numeric types compare by value. -/
def Json.number? : Json → Option PyFloat
  | .bool b => some (.finite (if b then 1 else 0))
  | .int n => some (.finite n)
  | .float x => some x
  | _ => none

def PyFloat.eq : PyFloat → PyFloat → Bool
  | .finite q, .finite r => decide (q = r)
  | .inf a, .inf b => decide (a = b)
  | _, _ => false

def PyFloat.lt : PyFloat → PyFloat → Bool
  | .finite q, .finite r => decide (q < r)
  | .finite _, .inf b => !b
  | .inf a, .finite _ => a
  | .inf a, .inf b => a && !b
  | _, _ => false

mutual
/-- `a == b`: numbers by value, dicts regardless of order, everything else by structure. -/
def Json.pyEq : Json → Json → Bool
  | .null, .null => true
  | .str a, .str b => decide (a = b)
  | .list a, .list b => pyEqList a b
  | .obj a, .obj b => decide (a.length = b.length) && pyEqFields a b
  | .bool a, b => (b.number?.map (PyFloat.eq (.finite (if a then 1 else 0)))).getD false
  | .int a, b => (b.number?.map (PyFloat.eq (.finite a))).getD false
  | .float a, b => (b.number?.map (PyFloat.eq a)).getD false
  | _, _ => false

def pyEqList : List Json → List Json → Bool
  | [], [] => true
  | a :: as, b :: bs => a.pyEq b && pyEqList as bs
  | _, _ => false

def pyEqFields : Obj → Obj → Bool
  | [], _ => true
  | (k, a) :: as, b =>
    (match b.lookup k with
      | some v => a.pyEq v
      | none => false) && pyEqFields as b
end

inductive Ordering4 where
  | lt | le | gt | ge
  deriving DecidableEq

def Ordering4.floats (op : Ordering4) (a b : PyFloat) : Bool :=
  match op with
  | .lt => a.lt b
  | .le => a.lt b || a.eq b
  | .gt => b.lt a
  | .ge => b.lt a || a.eq b

def Ordering4.strings (op : Ordering4) (a b : String) : Bool :=
  match op with
  | .lt => decide (a < b)
  | .le => !decide (b < a)
  | .gt => decide (b < a)
  | .ge => !decide (a < b)

def Ordering4.lengths (op : Ordering4) (a b : Nat) : Bool :=
  match op with
  | .lt => decide (a < b)
  | .le => decide (a ≤ b)
  | .gt => decide (b < a)
  | .ge => decide (b ≤ a)

mutual
/-- `a < b` and its siblings; `none` is Python's `TypeError`. -/
def Json.pyCompare (op : Ordering4) : Json → Json → Option Bool
  | .str a, .str b => some (op.strings a b)
  | .list a, .list b => pyCompareList op a b
  | .bool a, b => b.number?.map (op.floats (.finite (if a then 1 else 0)))
  | .int a, b => b.number?.map (op.floats (.finite a))
  | .float a, b => b.number?.map (op.floats a)
  | _, _ => none

/-- The first unequal pair decides; without one the lengths do. -/
def pyCompareList (op : Ordering4) : List Json → List Json → Option Bool
  | a :: as, b :: bs => if a.pyEq b then pyCompareList op as bs else a.pyCompare op b
  | [], b => some (op.lengths 0 b.length)
  | a, [] => some (op.lengths a.length 0)
end

def isSubstring (needle hay : String) : Bool :=
  hay.toList.tails.any (fun t => needle.toList.isPrefixOf t)

/-- `a in b`; `none` is Python's `TypeError` (an unhashable key, a non-container). -/
def Json.pyIn (a : Json) : Json → Option Bool
  | .list xs => some (xs.any a.pyEq)
  | .str s => match a with
    | .str t => some (isSubstring t s)
    | _ => none
  | .obj o => match a with
    | .list _ | .obj _ => none
    | .str k => some (o.lookup k).isSome
    | _ => some false
  | _ => none

/-- `c.isspace()`, the characters `str.strip` removes. -/
def pySpace (c : Char) : Bool :=
  let n := c.toNat
  (9 ≤ n && n ≤ 13) || (28 ≤ n && n ≤ 32) || n == 0x85 || n == 0xa0 || n == 0x1680 ||
    (0x2000 ≤ n && n ≤ 0x200a) || n == 0x2028 || n == 0x2029 || n == 0x202f || n == 0x205f ||
    n == 0x3000

def pyStrip (cs : List Char) : List Char :=
  ((cs.dropWhile pySpace).reverse.dropWhile pySpace).reverse

/-- The parts of Python's library whose values the model leaves open. -/
structure Runtime where
  sha1 : String → BitVec 160
  sha256 : String → BitVec 256
  /-- `repr(v)` of a value that is not a string. -/
  repr : Json → String
  /-- `repr(s)` of a string, quotes included. -/
  reprStr : String → String
  lower : String → String
  upper : String → String
  /-- `int(s)`, `none` on `ValueError`. -/
  int : String → Option Int
  /-- `len(dumps_bytes(v))`, and `0` where serialising fails. -/
  dumpsSize : Json → Nat

/-- `str(v)`. -/
def Runtime.str (rt : Runtime) : Json → String
  | .str s => s
  | v => rt.repr v

/-- The classes of Python's exceptions that the code tells apart. -/
inductive PyError where
  | typeError | valueError | keyError | attributeError | overflowError | recursionError
  deriving DecidableEq

/-- `int(v)`. -/
def Runtime.pyInt (rt : Runtime) : Json → Except PyError Int
  | .bool b => .ok (if b then 1 else 0)
  | .int n => .ok n
  | .float (.finite q) => .ok (q.num.tdiv q.den)
  | .float (.inf _) => .error .overflowError
  | .float .nan => .error .valueError
  | .str s => match rt.int s with
    | some n => .ok n
    | none => .error .valueError
  | .null | .list _ | .obj _ => .error .typeError

/-- What the library does on ASCII text, with constant hashes. -/
def Runtime.ascii : Runtime where
  sha1 _ := 0
  sha256 _ := 0
  repr _ := ""
  reprStr s := "'" ++ s ++ "'"
  lower s := String.ofList (s.toList.map Char.toLower)
  upper s := String.ofList (s.toList.map Char.toUpper)
  int _ := none
  dumpsSize _ := 0

end CentralOps
