import CentralOps.Normalize.Compile

namespace CentralOps
set_option autoImplicit true

/-- The outcome of a call that touches no object. -/
def liftExc (r : Except Exc α) : Proc σ Exc α :=
  match r with
  | .ok a => pure a
  | .error e => Proc.raise e

/-- A failing library call that nobody on the way catches. -/
def uncaught (r : Except PyError α) : Except Exc α := r.mapError .python

def operatorError (msg : String) : Except Exc α := .error (.operator msg)

/-- The two are one object, or equal: how a set or a tuple compares its members. -/
def Scalar.hashEq (a b : Scalar) : Bool := decide (a = b) || a.eq b

def epochMsThreshold : Nat := 100000000000

section Scalars
variable (rt : MappingRuntime)

/-- `_coerce_epoch_millis`. -/
def coerceEpochMillis : Scalar → Except PyError Int
  | .int n => .ok (if n.natAbs < epochMsThreshold then n * 1000 else n)
  | .float (.finite q) =>
    .ok (if |q| < epochMsThreshold then rt.roundTimes q 1000 else q.num.tdiv q.den)
  | .float (.inf _) => .error .overflowError
  | .float .nan => .error .valueError
  | _ => .error .typeError

/-- The timestamps whose year is in 1 to 9999. -/
def datetimeRange (millis : Int) : Bool :=
  decide (-62135596800000 ≤ millis ∧ millis ≤ 253402300799999)

/-- `datetime.fromtimestamp(millis / 1000.0, tz=utc)`, formatted. -/
def isoOfEpoch (x : Scalar) : Except PyError String := do
  let millis ← coerceEpochMillis rt x
  if datetimeRange millis then .ok (rt.isoOfMillis millis) else .error (rt.timestampError millis)

def isoUtc (s : String) : String :=
  if s.toList.getLast? = some 'Z' then
    String.ofList (s.toList.flatMap (fun c => if c = 'Z' then "+00:00".toList else [c]))
  else s

def parseBool (s : String) : Option Bool :=
  let normalized := rt.lower (String.ofList (pyStrip s.toList))
  if normalized ∈ ["true", "1", "yes", "y"] then some true
  else if normalized ∈ ["false", "0", "no", "n", ""] then some false
  else none

end Scalars

section ScalarCasts
variable {ν : Type} (rt : MappingRuntime)

def isoToEpoch : Shape Scalar ν → Except Exc Scalar
  | .scalar (.int n) => (uncaught (coerceEpochMillis rt (.int n))).map .int
  | .scalar (.float x) => (uncaught (coerceEpochMillis rt (.float x))).map .int
  | .scalar (.str t) =>
    match rt.fromisoformat (isoUtc t) with
    | some millis => .ok (.int millis)
    | none => operatorError ("iso_to_epoch: timestamp inválido " ++ rt.reprStr t)
  | c => operatorError ("iso_to_epoch espera string ISO-8601, recebeu " ++ typeName c)

def epochToIso : Shape Scalar ν → Except Exc Scalar
  | .scalar (.int n) => (uncaught (isoOfEpoch rt (.int n))).map .str
  | .scalar (.float x) => (uncaught (isoOfEpoch rt (.float x))).map .str
  | .scalar (.str t) =>
    match rt.floatOf t with
    | some x => (uncaught (isoOfEpoch rt (.float x))).map .str
    | none => operatorError ("epoch_to_iso: string não-numérica " ++ rt.reprStr t)
  | c => operatorError ("epoch_to_iso espera número, recebeu " ++ typeName c)

def toInt : Shape Scalar ν → Except Exc Scalar
  | .scalar (.bool _) => operatorError "to_int não aceita bool — converta explicitamente"
  | .scalar (.int n) => .ok (.int n)
  | .scalar (.float x) => (uncaught (rt.pyInt (.float x))).map .int
  | .scalar (.str t) =>
    match rt.int t with
    | some n => .ok (.int n)
    | none => operatorError ("to_int: string não-numérica " ++ rt.reprStr t)
  | c => operatorError ("to_int não suporta " ++ typeName c)

def toBool : Shape Scalar ν → Except Exc Scalar
  | .scalar (.bool b) => .ok (.bool b)
  | .scalar (.int n) => .ok (.bool (decide (n ≠ 0)))
  | .scalar (.float x) => .ok (.bool (decide (x ≠ .finite 0)))
  | .scalar (.str t) =>
    match parseBool rt t with
    | some b => .ok (.bool b)
    | none => operatorError ("to_bool: string ambígua " ++ rt.reprStr t)
  | c => operatorError ("to_bool não suporta " ++ typeName c)

def scoreToPercent : Shape Scalar ν → Except Exc Scalar
  | .scalar .null => .ok .null
  | .scalar (.bool _) => operatorError "score_to_percent não aceita bool"
  | .scalar (.int n) =>
    if 0 ≤ n ∧ n ≤ 100 then .ok (.int n)
    else do
      let text ← uncaught (Scalar.repr rt (.int n))
      operatorError ("score_to_percent: int " ++ text ++ " fora do intervalo [0, 100]")
  | .scalar (.float x) =>
    match x with
    | .finite q =>
      if 0 ≤ q ∧ q ≤ 1 then .ok (.int (rt.roundTimes q 100)) else outOfRange x
    | _ => outOfRange x
  | c => operatorError ("score_to_percent não suporta " ++ typeName c)
where
  outOfRange (x : PyFloat) : Except Exc Scalar :=
    operatorError ("score_to_percent: float " ++ rt.toRuntime.repr (.float x) ++
      " fora do intervalo [0.0, 1.0]")

/-- The casts from string to string, which let `None` pass. -/
def mapText (name : String) (f : String → String) : Shape Scalar ν → Except Exc Scalar
  | .scalar .null => .ok .null
  | .scalar (.str t) => .ok (.str (f t))
  | c => operatorError (name ++ " espera str, recebeu " ++ typeName c)

def lowercase : Shape Scalar ν → Except Exc Scalar := mapText "lowercase" rt.lower

def uppercase : Shape Scalar ν → Except Exc Scalar := mapText "uppercase" rt.upper

def trim : Shape Scalar ν → Except Exc Scalar :=
  mapText "trim" (fun t => String.ofList (pyStrip t.toList))

end ScalarCasts

section Casts
variable {σ ν : Type} (S : Objects σ ν) (rt : MappingRuntime)

def scalarCast (f : Shape Scalar ν → Except Exc Scalar) (v : ν) : Proc σ Exc ν := do
  let x ← liftExc (f (← S.look v))
  pure (S.scalar x)

def toStr (v : ν) : Proc σ Exc ν := do
  match ← S.look v with
  | .scalar .null => liftExc (operatorError "to_str não aceita None — use default antes")
  | _ => do
    let s ← Proc.get
    let text ← liftExc (uncaught (S.str rt s v))
    pure (S.scalar (.str text))

def toArray (v : ν) : Proc σ Exc ν := do
  match ← S.look v with
  | .scalar .null => S.new (.list [])
  | .list _ => pure v
  | _ => S.new (.list [v])

/-- The first of equal scalars stays; a list or a dict is not hashable and always stays. -/
def dedupItems (s : σ) : List Scalar → List ν → List ν
  | _, [] => []
  | seen, v :: vs =>
    match S.shape s v with
    | .scalar x =>
      if seen.any x.hashEq then dedupItems s seen vs else v :: dedupItems s (x :: seen) vs
    | _ => v :: dedupItems s seen vs

def dedup (v : ν) : Proc σ Exc ν := do
  match ← S.look v with
  | .scalar .null => pure (S.scalar .null)
  | .list xs => do
    let s ← Proc.get
    S.new (.list (dedupItems S s [] xs))
  | c => liftExc (operatorError ("dedup espera list, recebeu " ++ typeName c))

/-- A non-empty string under `key`, or the error that quotes what is there. -/
def mitreText (idx : Nat) (fields : List (String × ν)) (key : String) : Proc σ Exc String := do
  let v := (fields.lookup key).getD (S.scalar .null)
  let s ← Proc.get
  match asStr (S.shape s) v with
  | some t => if t = "" then refuse v s else pure t
  | none => refuse v s
where
  refuse (v : ν) (s : σ) : Proc σ Exc String := do
    let text ← liftExc (uncaught (S.repr rt s rt.stackLimit [] v))
    liftExc (operatorError ("mitre_tactic_to_ocsf: item #" ++ toString idx ++ ".tactic." ++
      key ++ " deve ser string não-vazia, recebeu " ++ text))

def mitreTactic (idx : Nat) (tactic : ν) : Proc σ Exc (Option ν) := do
  match ← S.look tactic with
  | .scalar .null => pure none
  | .dict parts => do
    let uid ← mitreText S rt idx parts "id"
    let name ← mitreText S rt idx parts "name"
    let entry ← S.new (.dict [("uid", S.scalar (.str uid)), ("name", S.scalar (.str name))])
    let tactics ← S.new (.list [entry])
    let out ← S.new (.dict [("tactics", tactics), ("version", S.scalar (.str "16.1"))])
    pure (some out)
  | c => liftExc (operatorError ("mitre_tactic_to_ocsf: item #" ++ toString idx ++
      ".tactic deve ser dict ou None, recebeu " ++ typeName c))

def mitreItem (idx : Nat) (item : ν) : Proc σ Exc (Option ν) := do
  match ← S.look item with
  | .dict fields =>
    match fields.lookup "tactic" with
    | some tactic => mitreTactic S rt idx tactic
    | none => liftExc (operatorError ("mitre_tactic_to_ocsf: item #" ++ toString idx ++
        " não possui chave 'tactic'"))
  | c => liftExc (operatorError ("mitre_tactic_to_ocsf: item #" ++ toString idx ++
      " deve ser dict, recebeu " ++ typeName c))

def mitreTacticToOcsf (v : ν) : Proc σ Exc ν := do
  match ← S.look v with
  | .scalar .null => pure (S.scalar .null)
  | .list items => do
    let outs ← Proc.each (fun p => mitreItem S rt p.2 p.1) items.zipIdx
    S.new (.list outs.reduceOption)
  | c => liftExc (operatorError ("mitre_tactic_to_ocsf espera list, recebeu " ++ typeName c))

def TypeCast.run : TypeCast → ν → Proc σ Exc ν
  | .isoToEpoch => scalarCast S (CentralOps.isoToEpoch rt)
  | .epochToIso => scalarCast S (CentralOps.epochToIso rt)
  | .toStr => CentralOps.toStr S rt
  | .toInt => scalarCast S (CentralOps.toInt rt)
  | .toBool => scalarCast S (CentralOps.toBool rt)
  | .scoreToPercent => scalarCast S (CentralOps.scoreToPercent rt)
  | .lowercase => scalarCast S (CentralOps.lowercase rt)
  | .uppercase => scalarCast S (CentralOps.uppercase rt)
  | .trim => scalarCast S CentralOps.trim
  | .toArray => CentralOps.toArray S
  | .dedup => CentralOps.dedup S
  | .mitreTacticToOcsf => CentralOps.mitreTacticToOcsf S rt

def sortedTypeCasts : String :=
  "['dedup', 'epoch_to_iso', 'iso_to_epoch', 'lowercase', 'mitre_tactic_to_ocsf', " ++
  "'score_to_percent', 'to_array', 'to_bool', 'to_int', 'to_str', 'trim', 'uppercase']"

def applyTypeCast (v : ν) (castName : String) : Proc σ Exc ν :=
  match typeCasts.lookup castName with
  | none => liftExc (operatorError ("type_cast desconhecido: " ++ rt.reprStr castName ++
      ". Suportados: " ++ sortedTypeCasts))
  | some cast => cast.run S rt v

/-- The entry that a value hits. Keys are strings, so any other value is looked up by its `str`;
a list or a dict is not hashable. -/
def valueMapHit (v : ν) (mapping : List (String × ν)) : Proc σ Exc (Option ν) := do
  match ← S.look v with
  | .scalar .null => pure none
  | .scalar (.str t) =>
    pure ((mapping.find? (fun p => rt.lower p.1 = rt.lower t)).map Prod.snd)
  | .scalar x => do
    let key ← liftExc (uncaught (x.repr rt))
    pure (mapping.lookup key)
  | _ => Proc.raise (.python .typeError)

def applyValueMap (v : ν) (mapping : List (String × ν)) : Proc σ Exc ν := do
  let hit ← valueMapHit S rt v mapping
  pure (hit.getD v)

end Casts
end CentralOps
