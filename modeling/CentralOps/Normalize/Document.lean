import CentralOps.Normalize.Engine

namespace CentralOps
set_option autoImplicit true

def Json.shape : Json → Shape Scalar Json
  | .null => .scalar .null
  | .bool b => .scalar (.bool b)
  | .int n => .scalar (.int n)
  | .float x => .scalar (.float x)
  | .str s => .scalar (.str s)
  | .list xs => .list xs
  | .obj fields => .dict fields

def Json.ofShape : Shape Scalar Json → Json
  | .scalar x => x.toJson
  | .list xs => .list xs
  | .dict fields => .obj fields

def Json.isNan : Json → Bool
  | .float .nan => true
  | _ => false

/-- Documents as plain values, for code that reads them and never writes through a reference. -/
def jsonObjects (search : String → Json → Except String Json) : Objects Unit Json where
  scalar := Scalar.toJson
  shape _ := Json.shape
  make c s := (Json.ofShape c, s)
  setPath _ _ _ s := s
  same v w := v.isNan && w.isNan
  search expr v s := (search expr v, s)

/-- What a read of a document returns, and `none` when it raises. -/
def readResult (m : Proc Unit Exc α) : Option α :=
  match m () with
  | .ok a _ => some a
  | _ => none

/-- The value below a path; `null` when a node on the way is missing or not a dict. -/
def getPath : Json → List String → Json
  | cur, [] => cur
  | .obj o, part :: path =>
    match Obj.getN o part with
    | .null => .null
    | v => getPath v path
  | _, _ :: _ => .null

end CentralOps
