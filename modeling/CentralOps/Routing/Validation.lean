import CentralOps.Normalize.Paths

namespace CentralOps
set_option autoImplicit true

def allowedOps : List String := ["eq", "ne", "gt", "gte", "lt", "lte", "in", "nin", "exists"]

def booleanFields : List String := ["detection_matched"]

def orderingOps : List String := ["gt", "gte", "lt", "lte"]

def uniquePerEventLabels : List String := ["event_id", "collected_at"]

section Messages
variable (rt : Runtime)

/-- `repr(v)`. -/
def pyRepr : Json → String
  | .str s => rt.reprStr s
  | v => rt.repr v

/-- The names as `sorted` lists them. -/
def sortedNames (names : List String) : String :=
  rt.repr (.list ((names.insertionSort (fun a b => ¬ b < a)).map .str))

def notABoolean (fieldName detail : String) : String :=
  "routing field " ++ rt.reprStr fieldName ++ " is a boolean detection mark (" ++ detail ++
    "); it is present as True only when the event matched a detection rule and ABSENT otherwise" ++
    " — write \x7b\"eq\": true\x7d / true for matched and \x7b\"exists\": false\x7d for not-matched"

def booleanOpError (op : String) (val : Json) : Option String :=
  if orderingOps.contains op then
    some ("operator " ++ rt.reprStr op ++ " orders a two-valued domain")
  else if (op = "eq" ∨ op = "ne") ∧ val ≠ .bool true then
    some ("operator " ++ rt.reprStr op ++ " got " ++ pyRepr rt val)
  else if op = "in" ∨ op = "nin" then
    match val with
    | .list (v :: vs) =>
      if (v :: vs).all (fun v => decide (v = .bool true)) then none
      else some ("operator " ++ rt.reprStr op ++ " got " ++ rt.repr (.list (v :: vs)))
    | _ => some ("operator " ++ rt.reprStr op ++ " requires a non-empty list")
  else none

/-- `_reject_unmatchable_boolean`. -/
def rejectUnmatchableBoolean (fieldName : String) : Json → Option String
  | .obj ops =>
    (ops.findSome? (fun p => booleanOpError rt p.1 p.2)).map (notABoolean rt fieldName)
  | spec =>
    if spec = .bool true then none else some (notABoolean rt fieldName ("got " ++ pyRepr rt spec))

def routeOperatorError (fieldName op : String) (val : Json) : Option String :=
  if !allowedOps.contains op then
    some ("unknown operator " ++ rt.reprStr op ++ " for " ++ rt.reprStr fieldName ++
      "; allowed: " ++ sortedNames rt allowedOps)
  else
    match op, val with
    | "in", .list _ | "nin", .list _ | "exists", .bool _ => none
    | "in", _ | "nin", _ => some ("operator " ++ rt.reprStr op ++ " requires a list value")
    | "exists", _ => some "operator 'exists' requires a boolean value"
    | _, _ => none

def operatorsError (fieldName : String) : Json → Option String
  | .obj [] => some ("empty operator map for field " ++ rt.reprStr fieldName)
  | .obj ops => ops.findSome? (fun p => routeOperatorError rt fieldName p.1 p.2)
  | _ => none

def clauseError (fieldName : String) (spec : Json) : Option String :=
  let canonical := canonicalField fieldName
  if !routingFields.contains canonical then
    some ("unknown routing field " ++ rt.reprStr fieldName ++ "; allowed: " ++
      sortedNames rt routingFields)
  else
    (if booleanFields.contains canonical then rejectUnmatchableBoolean rt fieldName spec
      else none).or (operatorsError rt fieldName spec)

/-- `validate_condition`: the message of the `ValueError`. -/
def validateCondition (condition : Obj) : Option String :=
  condition.findSome? (fun p => clauseError rt p.1 p.2)

def suppressFieldError (fieldName : String) : Option String :=
  let canonical := canonicalField fieldName
  if uniquePerEventLabels.contains canonical then
    some ("suppress_key field " ++ rt.reprStr fieldName ++ " is unique per event — the signature" ++
      " would never repeat and suppression would never fire; use grouping labels such as " ++
      sortedNames rt routingFields)
  else if !routingFields.contains canonical then
    some ("unknown suppress_key field " ++ rt.reprStr fieldName ++ "; allowed: " ++
      sortedNames rt routingFields)
  else none

/-- `validate_suppress_key`. -/
def validateSuppressKey : Option String → Option String
  | none => none
  | some suppressKey =>
    (((suppressKey.toList.splitOn ',').map pyStrip).filter (fun k => k ≠ [])).findSome?
      (fun k => suppressFieldError rt (String.ofList k))

/-- `validate_pii_redaction`. -/
def validatePiiRedaction (spec : Json) : Option String :=
  match compilePiiRedaction rt spec with
  | .ok _ => none
  | .error message => some message

end Messages

end CentralOps
