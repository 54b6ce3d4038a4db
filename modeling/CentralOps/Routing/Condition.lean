import CentralOps.Json

namespace CentralOps
set_option autoImplicit true

/-- Comparison operators. `contains` belongs to the in-flight rules only, and an unknown
name is an operator that never holds. -/
inductive Op where
  | eq | ne | gt | gte | lt | lte | contains | isIn | nin | hasValue | unknown
  deriving DecidableEq

def Op.ofName (name : String) : Op :=
  if name = "eq" then .eq
  else if name = "ne" then .ne
  else if name = "gt" then .gt
  else if name = "gte" then .gte
  else if name = "lt" then .lt
  else if name = "lte" then .lte
  else if name = "contains" then .contains
  else if name = "in" then .isIn
  else if name = "nin" then .nin
  else if name = "exists" then .hasValue
  else .unknown

def compareValues (rt : Runtime) (op : Op) (actual expected : Json) : Bool :=
  if op = .hasValue then decide (actual ≠ .null) == expected.truthy
  else if actual = .null then decide (op = .ne ∨ op = .nin)
  else
    -- a `TypeError` of the comparison means no match
    match op with
    | .eq => actual.pyEq expected
    | .ne => !actual.pyEq expected
    | .gt => (actual.pyCompare .gt expected).getD false
    | .gte => (actual.pyCompare .ge expected).getD false
    | .lt => (actual.pyCompare .lt expected).getD false
    | .lte => (actual.pyCompare .le expected).getD false
    | .contains => isSubstring (rt.str expected) (rt.str actual)
    | .isIn => (actual.pyIn expected).getD false
    | .nin => ((actual.pyIn expected).map (!·)).getD false
    | .hasValue | .unknown => false

def canonicalField (fieldName : String) : String :=
  if fieldName = "org_id" then "organization_id" else fieldName

def matchClause (rt : Runtime) (spec actual : Json) : Bool :=
  match spec with
  | .obj ops => ops.all (fun p => compareValues rt (.ofName p.1) actual p.2)
  | spec => compareValues rt .eq actual spec

def matchesCondition (rt : Runtime) (condition labels : Obj) : Bool :=
  condition.all (fun p => matchClause rt p.2 (labels.getN (canonicalField p.1)))

end CentralOps
