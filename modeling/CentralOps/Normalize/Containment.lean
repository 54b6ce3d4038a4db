import CentralOps.Lib.Fails
import CentralOps.Normalize.Engine

namespace CentralOps
set_option autoImplicit true

open Proc

/-- No `MappingError`: the collection cycle is aborted. -/
def Uncontained (e : Exc) : Prop := e.isMapping = false

/-- Neither a `MappingError` nor an `OperatorError`. -/
def Stray (e : Exc) : Prop := e.isMapping = false ∧ e.isOperator = false

def Strays (r : Except Exc α) : Prop :=
  match r with
  | .ok _ => False
  | .error e => Stray e

theorem strays_operatorError (msg : String) : ¬ Strays (operatorError msg : Except Exc α) :=
  fun h => Bool.noConfusion h.2

theorem strays_uncaught_map (r : Except PyError α) (f : α → β) :
    Strays ((uncaught r).map f) ↔ ∃ e, r = .error e := by
  cases r with
  | ok a => exact ⟨False.elim, fun ⟨_, h⟩ => nomatch h⟩
  | error e => exact ⟨fun _ => ⟨e, rfl⟩, fun _ => ⟨rfl, rfl⟩⟩

section Rules
variable {σ ν : Type} (S : Objects σ ν) {E : Exc → Prop} {s : σ}

theorem fails_look_bind (v : ν) (f : Shape Scalar ν → Proc σ Exc α) :
    Fails E (S.look v >>= f) s ↔ Fails E (f (S.shape s v)) s := Iff.rfl

theorem fails_get_bind (f : σ → Proc σ Exc α) : Fails E (Proc.get >>= f) s ↔ Fails E (f s) s :=
  Iff.rfl

theorem fails_new (c : Shape Scalar ν) : ¬ Fails E (S.new c) s := id

theorem fails_liftExc (r : Except Exc α) : Fails Stray (liftExc r : Proc σ Exc α) s ↔ Strays r := by
  cases r with
  | ok a => exact Iff.rfl
  | error e => exact Iff.rfl

theorem fails_liftExc_bind (r : Except Exc α) (f : α → Proc σ Exc β)
    (hf : ∀ a s, ¬ Fails Stray (f a) s) :
    Fails Stray (liftExc r >>= f) s ↔ Strays r := by
  rw [fails_bind, fails_liftExc]
  exact or_iff_left (not_then_of_never hf)

end Rules

section CastHazards
variable {ν : Type} (rt : MappingRuntime)

def NonFinite : Shape Scalar ν → Prop
  | .scalar (.float x) => ∀ q, x ≠ .finite q
  | _ => False

/-- The number is no timestamp of a `datetime`: not finite, or outside the years 1 to 9999. -/
def NoDatetime (x : Scalar) : Prop :=
  match coerceEpochMillis rt x with
  | .ok millis => datetimeRange millis = false
  | .error _ => True

def EpochHazard : Shape Scalar ν → Prop
  | .scalar (.int n) => NoDatetime rt (.int n)
  | .scalar (.float x) => NoDatetime rt (.float x)
  | .scalar (.str t) => ∃ x, rt.floatOf t = some x ∧ NoDatetime rt (.float x)
  | _ => False

def HugeInt : Shape Scalar ν → Prop
  | .scalar (.int n) => intStrBound ≤ n.natAbs
  | _ => False

theorem coerceEpochMillis_float_error (x : PyFloat) :
    (∃ e, coerceEpochMillis rt (.float x) = .error e) ↔ ∀ q, x ≠ .finite q := by
  cases x with
  | finite q => simp [coerceEpochMillis]
  | inf b => simp [coerceEpochMillis]
  | nan => simp [coerceEpochMillis]

theorem pyInt_float_error (x : PyFloat) :
    (∃ e, rt.pyInt (.float x) = .error e) ↔ ∀ q, x ≠ .finite q := by
  cases x with
  | finite q => simp [Runtime.pyInt]
  | inf b => simp [Runtime.pyInt]
  | nan => simp [Runtime.pyInt]

theorem isoOfEpoch_error (x : Scalar) :
    (∃ e, isoOfEpoch rt x = .error e) ↔ NoDatetime rt x := by
  unfold isoOfEpoch NoDatetime
  cases hm : coerceEpochMillis rt x with
  | error e => simp [bind, Except.bind]
  | ok millis =>
    cases hr : datetimeRange millis with
    | true => simp [bind, Except.bind, hr]
    | false => simp [bind, Except.bind, hr]

theorem repr_int_error (n : Int) :
    (∃ e, Scalar.repr rt (.int n) = .error e) ↔ intStrBound ≤ n.natAbs := by
  unfold Scalar.repr
  by_cases h : n.natAbs < intStrBound
  · simp [h]
  · simp [h, Nat.le_of_not_lt h]

theorem strays_isoToEpoch (c : Shape Scalar ν) : Strays (isoToEpoch rt c) ↔ NonFinite c := by
  cases c with
  | list xs => exact iff_of_false (strays_operatorError _) id
  | dict fields => exact iff_of_false (strays_operatorError _) id
  | scalar x =>
    cases x with
    | null => exact iff_of_false (strays_operatorError _) id
    | bool b => exact iff_of_false (strays_operatorError _) id
    | int n => exact iff_of_false id id
    | float x => exact (strays_uncaught_map _ _).trans (coerceEpochMillis_float_error rt x)
    | str t =>
      refine iff_of_false ?_ id
      cases h : rt.fromisoformat (isoUtc t) with
      | none => simp only [isoToEpoch, h]; exact strays_operatorError _
      | some millis => simp only [isoToEpoch, h]; exact id

theorem strays_epochToIso (c : Shape Scalar ν) : Strays (epochToIso rt c) ↔ EpochHazard rt c := by
  cases c with
  | list xs => exact iff_of_false (strays_operatorError _) id
  | dict fields => exact iff_of_false (strays_operatorError _) id
  | scalar x =>
    cases x with
    | null => exact iff_of_false (strays_operatorError _) id
    | bool b => exact iff_of_false (strays_operatorError _) id
    | int n => exact (strays_uncaught_map _ _).trans (isoOfEpoch_error rt _)
    | float x => exact (strays_uncaught_map _ _).trans (isoOfEpoch_error rt _)
    | str t =>
      cases h : rt.floatOf t with
      | none =>
        simp only [epochToIso, EpochHazard, h]
        exact iff_of_false (strays_operatorError _) (by simp)
      | some x =>
        simp only [epochToIso, EpochHazard, h, strays_uncaught_map, isoOfEpoch_error]
        simp

theorem strays_toInt (c : Shape Scalar ν) : Strays (toInt rt c) ↔ NonFinite c := by
  cases c with
  | list xs => exact iff_of_false (strays_operatorError _) id
  | dict fields => exact iff_of_false (strays_operatorError _) id
  | scalar x =>
    cases x with
    | null => exact iff_of_false (strays_operatorError _) id
    | bool b => exact iff_of_false (strays_operatorError _) id
    | int n => exact iff_of_false id id
    | float x => exact (strays_uncaught_map _ _).trans (pyInt_float_error rt x)
    | str t =>
      refine iff_of_false ?_ id
      cases h : rt.int t with
      | none => simp only [toInt, h]; exact strays_operatorError _
      | some n => simp only [toInt, h]; exact id

theorem strays_toBool (c : Shape Scalar ν) : ¬ Strays (toBool rt c) := by
  unfold toBool
  split
  · exact id
  · exact id
  · exact id
  · split
    · exact id
    · exact strays_operatorError _
  · exact strays_operatorError _

theorem strays_mapText (name : String) (f : String → String) (c : Shape Scalar ν) :
    ¬ Strays (mapText name f c) := by
  unfold mapText
  split
  · exact id
  · exact id
  · exact strays_operatorError _

theorem hundred_lt_pow (h : 3 ≤ k) : 100 < 10 ^ k :=
  Nat.lt_of_lt_of_le (by decide : 100 < 10 ^ 3) (Nat.pow_le_pow_right (by decide) h)

theorem hundred_lt_intStrBound : 100 < intStrBound := by
  unfold intStrBound
  exact hundred_lt_pow (by decide)

theorem strays_scoreToPercent_int (n : Int) :
    Strays (scoreToPercent rt (.scalar (.int n) : Shape Scalar ν)) ↔ intStrBound ≤ n.natAbs := by
  have hbound := hundred_lt_intStrBound
  by_cases h : 0 ≤ n ∧ n ≤ 100
  · simp only [scoreToPercent, if_pos h]
    exact iff_of_false id (by omega)
  · by_cases hn : n.natAbs < intStrBound
    · simp only [scoreToPercent, if_neg h, Scalar.repr, if_pos hn]
      exact iff_of_false (strays_operatorError _) (by omega)
    · simp only [scoreToPercent, if_neg h, Scalar.repr, if_neg hn]
      exact iff_of_true ⟨rfl, rfl⟩ (by omega)

theorem strays_scoreToPercent (c : Shape Scalar ν) :
    Strays (scoreToPercent rt c) ↔ HugeInt c := by
  cases c with
  | list xs => exact iff_of_false (strays_operatorError _) id
  | dict fields => exact iff_of_false (strays_operatorError _) id
  | scalar x =>
    cases x with
    | null => exact iff_of_false id id
    | bool b => exact iff_of_false (strays_operatorError _) id
    | int n => exact strays_scoreToPercent_int rt n
    | str t => exact iff_of_false (strays_operatorError _) id
    | float x =>
      refine iff_of_false ?_ id
      cases x with
      | inf b => exact strays_operatorError _
      | nan => exact strays_operatorError _
      | finite q =>
        by_cases h : 0 ≤ q ∧ q ≤ 1
        · simp only [scoreToPercent, if_pos h]
          exact id
        · simp only [scoreToPercent, if_neg h]
          exact strays_operatorError _

end CastHazards

section Operators
variable {σ ν : Type} (S : Objects σ ν) (rt : MappingRuntime)

/-- `repr(v)` fails: an integer with too many digits, or nesting beyond the stack. -/
def Unprintable (s : σ) (v : ν) : Prop := ∃ e, S.repr rt s rt.stackLimit [] v = .error e

def NoStr (s : σ) (v : ν) : Prop := ∃ e, S.str rt s v = .error e

def HasText (s : σ) (fields : List (String × ν)) (key : String) : Prop :=
  ∃ t, asStr (S.shape s) ((fields.lookup key).getD (S.scalar .null)) = some t ∧ t ≠ ""

def MitreTextHazard (s : σ) (fields : List (String × ν)) (key : String) : Prop :=
  ¬ HasText S s fields key ∧ Unprintable S rt s ((fields.lookup key).getD (S.scalar .null))

def MitreTacticHazard (s : σ) (tactic : ν) : Prop :=
  match S.shape s tactic with
  | .dict parts => MitreTextHazard S rt s parts "id" ∨
      HasText S s parts "id" ∧ MitreTextHazard S rt s parts "name"
  | _ => False

def MitreItemHazard (item : ν × Nat) (s : σ) : Prop :=
  match S.shape s item.1 with
  | .dict fields => ∃ tactic, fields.lookup "tactic" = some tactic ∧ MitreTacticHazard S rt s tactic
  | _ => False

def MitreHazard (v : ν) (s : σ) : Prop :=
  match S.shape s v with
  | .list items =>
    EachReaches (fun p => mitreItem S rt p.2 p.1) (MitreItemHazard S rt) items.zipIdx s
  | _ => False

/-- The values on which a cast raises something else than `OperatorError`. -/
def CastHazard (cast : TypeCast) (v : ν) (s : σ) : Prop :=
  match cast with
  | .isoToEpoch | .toInt => NonFinite (S.shape s v)
  | .epochToIso => EpochHazard rt (S.shape s v)
  | .scoreToPercent => HugeInt (S.shape s v)
  | .toStr => S.isNone s v = false ∧ NoStr S rt s v
  | .mitreTacticToOcsf => MitreHazard S rt v s
  | .toBool | .lowercase | .uppercase | .trim | .toArray | .dedup => False

/-- The values on which a `value_map` raises: containers, and integers without a `str`. -/
def ValueMapHazard (c : Shape Scalar ν) : Prop :=
  match c with
  | .list _ | .dict _ => True
  | c => HugeInt c

theorem fails_scalarCast (f : Shape Scalar ν → Except Exc Scalar) (v : ν) (s : σ) :
    Fails Stray (scalarCast S f v) s ↔ Strays (f (S.shape s v)) :=
  fails_liftExc_bind _ _ fun _ _ => fails_pure _

theorem fails_toStr (v : ν) (s : σ) :
    Fails Stray (toStr S rt v) s ↔ S.isNone s v = false ∧ NoStr S rt s v := by
  have hstr : Fails Stray (do
      let s ← Proc.get
      let text ← liftExc (uncaught (S.str rt s v))
      pure (S.scalar (.str text)) : Proc σ Exc ν) s ↔ NoStr S rt s v := by
    rw [fails_get_bind, fails_liftExc_bind _ _ fun _ _ => fails_pure _]
    cases h : S.str rt s v with
    | ok t => exact iff_of_false id (by simp [NoStr, h])
    | error e => exact iff_of_true ⟨rfl, rfl⟩ ⟨e, h⟩
  unfold toStr Objects.isNone
  rw [fails_look_bind]
  cases S.shape s v with
  | list xs => simpa using hstr
  | dict fields => simpa using hstr
  | scalar x =>
    cases x with
    | null => simpa using (fails_liftExc _).not.2 (strays_operatorError _)
    | bool b => simpa using hstr
    | int n => simpa using hstr
    | float x => simpa using hstr
    | str t => simpa using hstr

theorem fails_toArray (v : ν) (s : σ) : ¬ Fails Stray (toArray S v) s := by
  unfold toArray
  rw [fails_look_bind]
  split
  · exact fails_new S _
  · exact fails_pure _
  · exact fails_new S _

theorem fails_dedup (v : ν) (s : σ) : ¬ Fails Stray (dedup S v) s := by
  unfold dedup
  rw [fails_look_bind]
  split
  · exact fails_pure _
  · exact (fails_get_bind _).not.2 (fails_new S _)
  · exact (fails_liftExc _).not.2 (strays_operatorError _)

theorem fails_mitreText (idx : Nat) (fields : List (String × ν)) (key : String) (s : σ) :
    Fails Stray (mitreText S rt idx fields key) s ↔ MitreTextHazard S rt s fields key := by
  have hrefuse : Fails Stray (mitreText.refuse S rt idx key
      ((fields.lookup key).getD (S.scalar .null)) s) s ↔
      Unprintable S rt s ((fields.lookup key).getD (S.scalar .null)) := by
    unfold mitreText.refuse Unprintable
    rw [fails_liftExc_bind _ _ fun _ _ => (fails_liftExc _).not.2 (strays_operatorError _)]
    cases S.repr rt s rt.stackLimit [] ((fields.lookup key).getD (S.scalar .null)) with
    | ok t => exact iff_of_false id (by simp)
    | error e => exact iff_of_true ⟨rfl, rfl⟩ ⟨e, rfl⟩
  unfold mitreText MitreTextHazard HasText
  rw [fails_get_bind]
  cases asStr (S.shape s) ((fields.lookup key).getD (S.scalar .null)) with
  | none => simpa using hrefuse
  | some t =>
    by_cases ht : t = ""
    · simpa [ht] using hrefuse
    · simpa [ht] using fails_pure (E := Stray) (s := s) t

theorem then_mitreText (idx : Nat) (fields : List (String × ν)) (key : String)
    (P : σ → Prop) (s : σ) :
    Then (mitreText S rt idx fields key) (fun _ => P) s ↔ HasText S s fields key ∧ P s := by
  have hrefuse : ¬ Then (mitreText.refuse S rt idx key
      ((fields.lookup key).getD (S.scalar .null)) s) (fun _ => P) s := by
    unfold mitreText.refuse
    cases S.repr rt s rt.stackLimit [] ((fields.lookup key).getD (S.scalar .null)) with
    | ok t => exact id
    | error e => exact id
  unfold mitreText HasText
  dsimp only
  rw [then_get_bind]
  cases asStr (S.shape s) ((fields.lookup key).getD (S.scalar .null)) with
  | none => simpa using hrefuse
  | some t =>
    by_cases ht : t = ""
    · simpa [ht] using hrefuse
    · simp only [if_neg ht]
      exact ⟨fun h => ⟨⟨t, rfl, ht⟩, h⟩, fun h => h.2⟩

theorem fails_mitreTactic (idx : Nat) (tactic : ν) (s : σ) :
    Fails Stray (mitreTactic S rt idx tactic) s ↔ MitreTacticHazard S rt s tactic := by
  unfold mitreTactic MitreTacticHazard
  rw [fails_look_bind]
  cases S.shape s tactic with
  | list xs => exact iff_of_false ((fails_liftExc _).not.2 (strays_operatorError _)) id
  | scalar x =>
    refine iff_of_false ?_ id
    split
    · exact fails_pure _
    · next h => cases h
    · exact (fails_liftExc _).not.2 (strays_operatorError _)
  | dict parts =>
    rw [fails_bind, fails_mitreText]
    refine or_congr Iff.rfl ?_
    rw [← then_mitreText S rt idx parts "id" (fun s => MitreTextHazard S rt s parts "name")]
    refine then_congr fun uid s' => ?_
    rw [fails_bind, fails_mitreText]
    exact or_iff_left (not_then_of_never fun _ _ h => h)

theorem fails_mitreItem (item : ν × Nat) (s : σ) :
    Fails Stray (mitreItem S rt item.2 item.1) s ↔ MitreItemHazard S rt item s := by
  unfold mitreItem MitreItemHazard
  rw [fails_look_bind]
  cases S.shape s item.1 with
  | scalar x => exact iff_of_false ((fails_liftExc _).not.2 (strays_operatorError _)) id
  | list xs => exact iff_of_false ((fails_liftExc _).not.2 (strays_operatorError _)) id
  | dict fields =>
    cases hf : fields.lookup "tactic" with
    | none =>
      simp only [hf]
      exact iff_of_false ((fails_liftExc _).not.2 (strays_operatorError _)) (by simp)
    | some tactic =>
      simp only [hf]
      simpa using fails_mitreTactic S rt item.2 tactic s

theorem fails_mitreTacticToOcsf (v : ν) (s : σ) :
    Fails Stray (mitreTacticToOcsf S rt v) s ↔ MitreHazard S rt v s := by
  unfold mitreTacticToOcsf MitreHazard
  rw [fails_look_bind]
  cases S.shape s v with
  | dict fields => exact iff_of_false ((fails_liftExc _).not.2 (strays_operatorError _)) id
  | scalar x =>
    refine iff_of_false ?_ id
    split
    · exact fails_pure _
    · next h => cases h
    · exact (fails_liftExc _).not.2 (strays_operatorError _)
  | list items =>
    rw [fails_bind, fails_each (fails_mitreItem S rt)]
    exact or_iff_left (not_then_of_never fun _ _ => fails_new S _)

theorem fails_run (cast : TypeCast) (v : ν) (s : σ) :
    Fails Stray (cast.run S rt v) s ↔ CastHazard S rt cast v s := by
  cases cast with
  | isoToEpoch => exact (fails_scalarCast S _ v s).trans (strays_isoToEpoch rt _)
  | epochToIso => exact (fails_scalarCast S _ v s).trans (strays_epochToIso rt _)
  | toStr => exact fails_toStr S rt v s
  | toInt => exact (fails_scalarCast S _ v s).trans (strays_toInt rt _)
  | toBool => exact (fails_scalarCast S _ v s).trans (iff_of_false (strays_toBool rt _) id)
  | scoreToPercent => exact (fails_scalarCast S _ v s).trans (strays_scoreToPercent rt _)
  | lowercase => exact (fails_scalarCast S _ v s).trans (iff_of_false (strays_mapText _ _ _) id)
  | uppercase => exact (fails_scalarCast S _ v s).trans (iff_of_false (strays_mapText _ _ _) id)
  | trim => exact (fails_scalarCast S _ v s).trans (iff_of_false (strays_mapText _ _ _) id)
  | toArray => exact iff_of_false (fails_toArray S v s) id
  | dedup => exact iff_of_false (fails_dedup S v s) id
  | mitreTacticToOcsf => exact fails_mitreTacticToOcsf S rt v s

/-- A cast by name; an unknown name is an `OperatorError`. -/
def NamedCastHazard (name : String) (v : ν) (s : σ) : Prop :=
  ∃ cast, typeCasts.lookup name = some cast ∧ CastHazard S rt cast v s

theorem fails_applyTypeCast (name : String) (v : ν) (s : σ) :
    Fails Stray (applyTypeCast S rt v name) s ↔ NamedCastHazard S rt name v s := by
  unfold applyTypeCast NamedCastHazard
  cases typeCasts.lookup name with
  | none => exact iff_of_false ((fails_liftExc _).not.2 (strays_operatorError _)) (by simp)
  | some cast => simpa using fails_run S rt cast v s

theorem fails_valueMapHit (v : ν) (mapping : List (String × ν)) (s : σ) :
    Fails Stray (valueMapHit S rt v mapping) s ↔ ValueMapHazard (S.shape s v) := by
  unfold valueMapHit
  rw [fails_look_bind]
  cases S.shape s v with
  | list xs => exact iff_of_true ⟨rfl, rfl⟩ trivial
  | dict fields => exact iff_of_true ⟨rfl, rfl⟩ trivial
  | scalar x =>
    cases x with
    | null => exact iff_of_false (fails_pure _) id
    | str t => exact iff_of_false (fails_pure _) id
    | bool b => exact iff_of_false (fails_pure _) id
    | float x => exact iff_of_false (fails_pure _) id
    | int n =>
      refine (fails_liftExc_bind _ _ fun _ _ => fails_pure _).trans ?_
      refine Iff.trans ?_ (repr_int_error rt n)
      cases Scalar.repr rt (.int n) with
      | ok t => exact iff_of_false id (by simp)
      | error e => exact iff_of_true ⟨rfl, rfl⟩ ⟨e, rfl⟩

end Operators

section Stages
variable {σ ν : Type} (S : Objects σ ν) (rt : MappingRuntime)

def SearchFails (src : Source) (v : ν) (s : σ) : Prop :=
  match src with
  | .dotPath _ => False
  | .jmespath expr => ∃ msg, (S.search expr v s).1 = .error msg

theorem fails_search (hE : ∀ msg, E (.jmespath msg)) (src : Source) (v : ν) (s : σ) :
    Fails E (src.search S v) s ↔ SearchFails S src v s := by
  cases src with
  | dotPath keys => exact Iff.rfl
  | jmespath expr =>
    rcases h : S.search expr v s with ⟨r, s'⟩
    cases r with
    | ok w => simp [Fails, Source.search, SearchFails, h]
    | error msg => simpa [Fails, Source.search, SearchFails, h] using hE msg

theorem search_no_crash (src : Source) (v : ν) (s : σ) :
    ¬ Fails (fun _ => False) (src.search S v) s := by
  cases src with
  | dotPath keys => exact id
  | jmespath expr =>
    rcases h : S.search expr v s with ⟨r, s'⟩
    cases r with
    | ok w => simp [Fails, Source.search, h]
    | error msg => simp [Fails, Source.search, h]

/-- A string with a lone surrogate, which `encode("utf-8")` refuses. -/
def Unencodable : Shape Scalar ν → Prop
  | .scalar (.str t) => rt.utf8Size t = none
  | _ => False

theorem fails_jsonParse (tolerant : Bool) (v : ν) (s : σ) :
    Fails Stray (jsonParse S rt tolerant v) s ↔ Unencodable rt (S.shape s v) := by
  have hother (c : Shape Scalar ν) : ¬ Fails Stray (if tolerant then pure (S.scalar .null)
      else liftExc (operatorError ("json_parse: espera str, recebeu " ++ typeName c)) :
      Proc σ Exc ν) s := by
    cases tolerant with
    | true => exact fails_pure _
    | false => exact (fails_liftExc _).not.2 (strays_operatorError _)
  unfold jsonParse
  rw [fails_look_bind]
  cases S.shape s v with
  | list xs => exact iff_of_false (hother _) id
  | dict fields => exact iff_of_false (hother _) id
  | scalar x =>
    cases x with
    | null => exact iff_of_false (fails_pure _) id
    | bool b => exact iff_of_false (hother _) id
    | int n => exact iff_of_false (hother _) id
    | float x => exact iff_of_false (hother _) id
    | str t =>
      cases hsize : rt.utf8Size t with
      | none =>
        simp only [Unencodable, hsize]
        exact iff_of_true ⟨rfl, rfl⟩ trivial
      | some size =>
        simp only [Unencodable, hsize]
        refine iff_of_false ?_ (by simp)
        split
        · exact fun h => Bool.noConfusion h.2
        · split
          · exact id
          · split
            · exact fails_pure _
            · exact (fails_liftExc _).not.2 (strays_operatorError _)

def PreprocessHazard (raw : ν) (op : CompiledPreprocessOp) (s : σ) : Prop :=
  SearchFails S op.source.source raw s ∨
    Then (op.source.source.search S raw) (fun v s' => Unencodable rt (S.shape s' v)) s

theorem fails_preprocessBody (raw extracted : ν) (consumed : List String)
    (op : CompiledPreprocessOp) (s : σ) :
    Fails Stray (preprocessBody S rt raw extracted consumed op) s ↔
      PreprocessHazard S rt raw op s := by
  unfold preprocessBody PreprocessHazard
  rw [fails_bind, fails_search S (fun _ => ⟨rfl, rfl⟩)]
  refine or_congr Iff.rfl (then_congr fun v s' => ?_)
  rw [fails_bind, fails_jsonParse]
  exact or_iff_left (not_then_of_never fun _ _ h => h)

theorem fails_preprocessOp (raw extracted : ν) (consumed : List String)
    (op : CompiledPreprocessOp) (s : σ) :
    Fails Uncontained (preprocessOp S rt raw extracted consumed op) s ↔
      PreprocessHazard S rt raw op s := by
  rw [← fails_preprocessBody S rt raw extracted consumed op s]
  refine fails_attempt _ _ (fun _ _ => fails_pure _) fun e s' => ?_
  cases e with
  | operatorSize msg =>
    exact iff_of_false (fun h => Bool.noConfusion h) (fun h => Bool.noConfusion h.2)
  | operator msg =>
    refine iff_of_false ?_ (fun h => Bool.noConfusion h.2)
    cases op.tolerant with
    | true => exact id
    | false => exact fun h => Bool.noConfusion h
  | requiredField target =>
    exact iff_of_false (fun h => Bool.noConfusion h) (fun h => Bool.noConfusion h.1)
  | mapping msg =>
    exact iff_of_false (fun h => Bool.noConfusion h) (fun h => Bool.noConfusion h.1)
  | jmespath msg => exact iff_of_true rfl ⟨rfl, rfl⟩
  | python e => exact iff_of_true rfl ⟨rfl, rfl⟩

theorem resolveFallbacks_no_crash (root : ν) (fbs : List NamedSource) :
    ∀ v s, ¬ Fails (fun _ => False) (resolveFallbacks S root fbs v) s := by
  induction fbs with
  | nil => intro v s; exact fails_pure _
  | cons fb fbs ih =>
    intro v s
    unfold resolveFallbacks
    rw [fails_get_bind]
    split
    · rw [fails_bind]
      rintro (h | h)
      · exact search_no_crash S _ _ _ h
      · exact not_then_of_never (fun w s' => ih w s') h
    · exact fails_pure _

theorem resolveValue_no_crash (rule : CompiledRule ν) (raw extracted : ν) (s : σ) :
    ¬ Fails (fun _ => False) (resolveValue S rt rule raw extracted) s := by
  unfold resolveValue
  split
  · exact fails_pure _
  · exact id
  · rw [fails_bind]
    rintro (h | h)
    · exact search_no_crash S _ _ _ h
    · exact not_then_of_never (fun w s' => resolveFallbacks_no_crash S _ _ w s') h

theorem fails_resolveRule (rule : CompiledRule ν) (raw extracted : ν) (s : σ) :
    ¬ Fails Uncontained (resolveRule S rt rule raw extracted) s := by
  have h : Fails Uncontained (resolveRule S rt rule raw extracted) s ↔
      Fails (fun _ => False) (resolveValue S rt rule raw extracted) s :=
    fails_attempt _ _ (fun _ _ => fails_pure _)
      (fun e s' => iff_of_false (fun h => Bool.noConfusion h) id)
  exact fun hf => resolveValue_no_crash S rt rule raw extracted s (h.1 hf)

theorem fails_catchOperator {wrap : String → Exc} (hw : ∀ t, (wrap t).isMapping = true)
    (m : Proc σ Exc α) (s : σ) :
    Fails Uncontained (catchOperator rt wrap m) s ↔ Fails Stray m s := by
  refine fails_attempt _ _ (fun _ _ => fails_pure _) fun e s' => ?_
  cases he : e.isOperator with
  | true =>
    simp only [he, if_true, fails_raise, Uncontained, Stray, hw]
    simp
  | false =>
    simp only [he, Stray, and_true]
    exact Iff.rfl

def CastStageHazard (cast : Option String) (skip : Bool) (v : ν) (s : σ) : Prop :=
  ∃ name, cast = some name ∧ (name = "" || S.isNone s v || skip) = false ∧
    NamedCastHazard S rt name v s

theorem fails_castStage (rule : CompiledRule ν) (stage : String) (cast : Option String)
    (skip : Bool) (v : ν) (s : σ) :
    Fails Uncontained (castStage S rt rule stage cast skip v) s ↔
      CastStageHazard S rt cast skip v s := by
  unfold castStage CastStageHazard
  rw [fails_get_bind]
  cases cast with
  | none => exact iff_of_false (fails_pure _) (by simp)
  | some name =>
    cases hskip : (name = "" || S.isNone s v || skip : Bool) with
    | true =>
      simp only [hskip, if_true]
      refine iff_of_false (fails_pure _) ?_
      rintro ⟨_, ⟨⟩, h, _⟩
      exact Bool.noConfusion (hskip.symm.trans h)
    | false =>
      simp only [hskip]
      refine (fails_catchOperator rt (fun _ => rfl) _ s).trans ?_
      rw [fails_applyTypeCast]
      exact ⟨fun h => ⟨name, rfl, hskip, h⟩, fun ⟨_, hn, _, h⟩ => Option.some.inj hn ▸ h⟩

def ValueMapStageHazard (rule : CompiledRule ν) (usedDefault : Bool) (v : ν) (s : σ) : Prop :=
  rule.valueMap.isSome ∧ (S.isNone s v || usedDefault) = false ∧ ValueMapHazard (S.shape s v)

theorem fails_valueMapStage (rule : CompiledRule ν) (usedDefault usedIngest : Bool) (v : ν)
    (s : σ) : Fails Uncontained (valueMapStage S rt rule usedDefault usedIngest v) s ↔
      ValueMapStageHazard S rule usedDefault v s := by
  unfold valueMapStage ValueMapStageHazard
  rw [fails_get_bind]
  cases hmap : rule.valueMap with
  | none => exact iff_of_false (fails_pure _) (by simp)
  | some mapping =>
    cases hskip : (S.isNone s v || usedDefault) with
    | true =>
      simp only [if_true]
      exact iff_of_false (fails_pure _) (by simp)
    | false =>
      refine (fails_catchOperator rt (fun _ => rfl) _ s).trans ?_
      rw [fails_bind, fails_valueMapHit, or_iff_left (not_then_of_never fun _ _ => fails_pure _)]
      simp

def ChainHazard (rule : CompiledRule ν) (start : RuleStart ν) (s : σ) : Prop :=
  CastStageHazard S rt rule.preCast start.usedDefault start.value s ∨
    Then (castStage S rt rule "pre_cast" rule.preCast start.usedDefault start.value)
      (fun v s => (S.isNone s v && rule.required) = false ∧
        (ValueMapStageHazard S rule start.usedDefault v s ∨
          Then (valueMapStage S rt rule start.usedDefault start.usedIngest v)
            (CastStageHazard S rt rule.typeCast false) s)) s

theorem fails_ruleChain (rule : CompiledRule ν) (start : RuleStart ν) (s : σ) :
    Fails Uncontained (ruleChain S rt rule start) s ↔ ChainHazard S rt rule start s := by
  unfold ruleChain ChainHazard
  rw [fails_bind, fails_castStage]
  refine or_congr Iff.rfl (then_congr fun v s' => ?_)
  rw [fails_get_bind]
  cases hreq : (S.isNone s' v && rule.required) with
  | true => exact iff_of_false (fun h => Bool.noConfusion h) (by simp)
  | false =>
    simp only [true_and]
    refine (fails_bind _ _).trans (or_congr (fails_valueMapStage S rt rule _ _ v s') ?_)
    exact then_congr fun w s'' => fails_castStage S rt rule _ _ _ w s''

def RuleValueHazard (rule : CompiledRule ν) (raw extracted : ν) (ingestTimeEpoch : Option Int)
    (s : σ) : Prop :=
  Then (resolveRule S rt rule raw extracted)
    (fun found s => ChainHazard S rt rule (ruleStart S rule ingestTimeEpoch found s) s) s

theorem fails_ruleValue (rule : CompiledRule ν) (raw extracted : ν)
    (ingestTimeEpoch : Option Int) (s : σ) :
    Fails Uncontained (ruleValue S rt rule raw extracted ingestTimeEpoch) s ↔
      RuleValueHazard S rt rule raw extracted ingestTimeEpoch s := by
  unfold ruleValue RuleValueHazard
  rw [fails_bind_of_not (fails_resolveRule S rt rule raw extracted s)]
  refine then_congr fun found s' => ?_
  rw [fails_get_bind, fails_bind, fails_ruleChain]
  exact or_iff_left (not_then_of_never fun _ _ => fails_pure _)

end Stages

section Gates
variable {σ ν : Type} (S : Objects σ ν) (rt : MappingRuntime)

theorem fails_safeSearch {E : Exc → Prop} (src : NamedSource) (v : ν) (s : σ) :
    ¬ Fails E (safeSearch S src v) s := by
  have h : Fails E (safeSearch S src v) s ↔ Fails (fun _ => False) (src.source.search S v) s :=
    fails_attempt _ _ (fun _ _ => fails_pure _) (fun _ _ => iff_of_false (fails_pure _) id)
  exact fun hf => search_no_crash S src.source v s (h.1 hf)

theorem fails_liftExc_uncaught (r : Except PyError α) (s : σ) :
    Fails Uncontained (liftExc (uncaught r) : Proc σ Exc α) s ↔ ∃ e, r = .error e := by
  cases r with
  | ok a => exact iff_of_false id (by simp)
  | error e => exact iff_of_true rfl ⟨e, rfl⟩

/-- The comparison of a `when` clause exceeds the stack. -/
def PredicateHazard (data : ν) : Predicate ν → σ → Prop
  | .pathExists _, _ => False
  | .equals src literal, s =>
    Then (safeSearch S src data) (fun v s => ∃ e, S.eq s rt.stackLimit v literal = .error e) s
  | .isIn src literals, s =>
    Then (safeSearch S src data) (fun v s => ∃ e, S.isIn s rt.stackLimit v literals = .error e) s
  | .negated child, s => PredicateHazard data child s

theorem fails_evaluatePredicate (data : ν) (p : Predicate ν) (s : σ) :
    Fails Uncontained (evaluatePredicate S rt data p) s ↔ PredicateHazard S rt data p s := by
  induction p with
  | pathExists src =>
    refine (fails_bind_of_not (fails_safeSearch S src data s) _).trans ?_
    exact iff_of_false (not_then_of_never fun _ _ h => h) id
  | equals src literal =>
    refine (fails_bind_of_not (fails_safeSearch S src data s) _).trans ?_
    exact then_congr fun v s' => fails_liftExc_uncaught _ s'
  | isIn src literals =>
    refine (fails_bind_of_not (fails_safeSearch S src data s) _).trans ?_
    exact then_congr fun v s' => fails_liftExc_uncaught _ s'
  | negated child ih =>
    refine (fails_bind _ _).trans ?_
    rw [ih]
    exact or_iff_left (not_then_of_never fun _ _ => fails_pure _)

def GateHazard (rule : CompiledRule ν) (raw extracted : ν) (s : σ) : Prop :=
  ∃ p, rule.whenPredicate = some p ∧ PredicateHazard S rt (ruleRoot rule raw extracted) p s

theorem fails_ruleGate (rule : CompiledRule ν) (raw extracted : ν) (s : σ) :
    Fails Uncontained (ruleGate S rt rule raw extracted) s ↔
      GateHazard S rt rule raw extracted s := by
  unfold ruleGate GateHazard
  cases rule.whenPredicate with
  | none => exact iff_of_false (fails_pure _) (by simp)
  | some p => simpa using fails_evaluatePredicate S rt _ p s

/-- A list or a dict, which has no hash. -/
def Unhashable : Shape Scalar ν → Prop
  | .scalar _ => False
  | _ => True

theorem hashable_error (s : σ) (v : ν) :
    (∃ e, hashable S s v = .error e) ↔ Unhashable (S.shape s v) := by
  unfold hashable
  cases S.shape s v with
  | scalar x => exact iff_of_false (fun ⟨e, h⟩ => nomatch h) id
  | list xs => exact iff_of_true ⟨_, rfl⟩ trivial
  | dict fields => exact iff_of_true ⟨_, rfl⟩ trivial

theorem dedupObservables_error (s : σ) (names : List String) (l : List (Observable ν)) :
    ∀ seen, (∃ e, dedupObservables S s names seen l = .error e) ↔
      ∃ obs ∈ l, ∃ e, dedupKey S s names obs = .error e := by
  induction l with
  | nil => intro seen; exact iff_of_false (fun ⟨e, h⟩ => nomatch h) (by simp)
  | cons obs l ih =>
    intro seen
    unfold dedupObservables
    cases hk : dedupKey S s names obs with
    | error e => simp [hk, bind, Except.bind]
    | ok key =>
      simp only [List.mem_cons, exists_eq_or_imp, hk, reduceCtorEq, exists_false, false_or]
      by_cases hseen : seen.any (keyEq key)
      · simpa [bind, Except.bind, hseen] using ih seen
      · rw [← ih (key :: seen)]
        cases hrest : dedupObservables S s names (key :: seen) l with
        | ok kept => simp [bind, Except.bind, hseen, hrest]
        | error e => simp [bind, Except.bind, hseen, hrest]

def DedupHazard (names : List String) (found : List (Observable ν)) (s : σ) : Prop :=
  ∃ obs ∈ found, ∃ k ∈ names, Unhashable (S.shape s ((obs.lookup k).getD (S.scalar .null)))

theorem dedupBy_error (s : σ) (names : List String) (found : List (Observable ν)) :
    (∃ e, dedupBy S s names found = .error e) ↔ DedupHazard S names found s := by
  unfold dedupBy DedupHazard
  cases names with
  | nil => exact iff_of_false (fun ⟨e, h⟩ => nomatch h) (by simp)
  | cons k ks =>
    refine (dedupObservables_error S s (k :: ks) found []).trans ?_
    simp only [dedupKey, Except.mapM_error_iff, hashable_error]

def ItemHazard (raw extracted : ν) (item : CompiledArrayBuilderItem) (s : σ) : Prop :=
  SearchFails S item.source.source (if item.source.isExtracted then extracted else raw) s

theorem fails_itemObservables (raw extracted : ν) (item : CompiledArrayBuilderItem) (s : σ) :
    Fails Uncontained (itemObservables S raw extracted item) s ↔
      ItemHazard S raw extracted item s := by
  unfold itemObservables ItemHazard
  rw [fails_bind, fails_search S (fun _ => rfl)]
  exact or_iff_left (not_then_of_never fun _ _ h => h)

/-- An item's search raises, or a container is to be hashed. -/
def ArrayBuilderHazard (rule : CompiledArrayBuilderRule) (raw extracted : ν) (s : σ) : Prop :=
  EachReaches (itemObservables S raw extracted) (ItemHazard S raw extracted) rule.items s ∨
    Then (each (itemObservables S raw extracted) rule.items)
      (fun found s => DedupHazard S rule.dedupBy found.flatten s) s

theorem fails_applyArrayBuilder (rule : CompiledArrayBuilderRule) (raw extracted : ν) (s : σ) :
    Fails Uncontained (applyArrayBuilder S rule raw extracted) s ↔
      ArrayBuilderHazard S rule raw extracted s := by
  unfold applyArrayBuilder ArrayBuilderHazard
  rw [fails_bind, fails_each (fails_itemObservables S raw extracted)]
  refine or_congr Iff.rfl (then_congr fun found s' => ?_)
  rw [fails_get_bind, fails_bind, fails_liftExc_uncaught, dedupBy_error]
  refine or_iff_left (not_then_of_never fun kept s'' => ?_)
  rw [fails_bind_of_not (not_fails_each (fun obs s => fails_new S _) kept s'')]
  exact not_then_of_never fun _ _ => fails_new S _

end Gates

section Reduction
variable {σ ν : Type} (S : Objects σ ν) (rt : MappingRuntime)

/-- A string to be clipped cannot be encoded. -/
def LeafHazard (spec : CompiledReductionSpec) (v : ν) (s : σ) : Prop :=
  spec.drop = false ∧ spec.maxBytes.isSome ∧ Unencodable rt (S.shape s v)

theorem fails_keepOnlyLeaf (spec : CompiledReductionSpec) (fields : List (String × ν)) (s : σ) :
    ¬ Fails Uncontained (keepOnlyLeaf S spec fields) s := by
  unfold keepOnlyLeaf
  cases spec.keepOnly with
  | none => exact id
  | some names =>
    dsimp only
    split
    · exact id
    · exact id

theorem fails_maxItemsLeaf (spec : CompiledReductionSpec) (xs : List ν) (s : σ) :
    ¬ Fails Uncontained (maxItemsLeaf S spec xs) s := by
  unfold maxItemsLeaf
  cases spec.maxItems with
  | none => exact id
  | some limit =>
    dsimp only
    split
    · exact id
    · exact id

theorem fails_maxBytesLeaf (spec : CompiledReductionSpec) (t : String) (s : σ) :
    Fails Uncontained (maxBytesLeaf S rt spec t) s ↔
      spec.maxBytes.isSome ∧ rt.utf8Size t = none := by
  unfold maxBytesLeaf
  cases spec.maxBytes with
  | none => exact iff_of_false id (by simp)
  | some limit =>
    cases rt.utf8Size t with
    | none => exact iff_of_true rfl ⟨rfl, rfl⟩
    | some size =>
      refine iff_of_false ?_ (by simp)
      dsimp only
      split
      · exact id
      · exact id

theorem fails_reductionLeaf (spec : CompiledReductionSpec) (v : ν) (s : σ) :
    Fails Uncontained (reductionLeaf S rt spec v) s ↔ LeafHazard S rt spec v s := by
  unfold reductionLeaf LeafHazard
  cases spec.drop with
  | true => exact iff_of_false (fails_pure _) (by simp)
  | false =>
    simp only [Bool.false_eq_true, if_false, fails_look_bind, true_and]
    cases S.shape s v with
    | dict fields => exact iff_of_false (fails_keepOnlyLeaf S spec fields s) And.right
    | list xs => exact iff_of_false (fails_maxItemsLeaf S spec xs s) And.right
    | scalar x =>
      cases x with
      | null => exact iff_of_false (fails_pure _) And.right
      | bool b => exact iff_of_false (fails_pure _) And.right
      | int n => exact iff_of_false (fails_pure _) And.right
      | float x => exact iff_of_false (fails_pure _) And.right
      | str t => exact fails_maxBytesLeaf S rt spec t s

def TransformHazard (leaf : ν → Proc σ Exc (LeafResult ν)) (H : ν → σ → Prop) :
    Nat → List String → ν → σ → Prop
  | 0, _, _, _ => True
  | _ + 1, [], _, _ => False
  | fuel + 1, head :: rest, node, s =>
    match S.shape s node with
    | .list xs => head = listWildcard ∧
        EachReaches (transform S leaf fuel rest) (TransformHazard leaf H fuel rest) xs s
    | .dict fields =>
      match memberAt head fields, rest with
      | none, _ => False
      | some v, [] => H v s
      | some v, _ :: _ => TransformHazard leaf H fuel rest v s
    | .scalar _ => False

/-- The recursion of `_prune_nulls` exceeds the stack. -/
def PruneHazard : Nat → ν → σ → Prop
  | 0, _, _ => True
  | fuel + 1, node, s =>
    match S.shape s node with
    | .dict fields =>
      EachReaches (fun p : String × ν => pruneNulls S fuel p.2) (fun p => PruneHazard fuel p.2)
        (fields.filter (fun p => !S.isNone s p.2)) s
    | .list xs => EachReaches (pruneNulls S fuel) (PruneHazard fuel) xs s
    | .scalar _ => False

theorem fails_rewriteList (xs : List ν) (outs : List (Rewrite ν)) (s : σ) :
    ¬ Fails Uncontained (rewriteList S xs outs) s := by
  unfold rewriteList
  split
  · exact id
  · exact id

theorem fails_transformLeaf (fields : List (String × ν)) (key : String) (r : LeafResult ν)
    (s : σ) : ¬ Fails Uncontained (transformLeaf S fields key r) s := by
  cases r with
  | unchanged => exact id
  | remove mark => exact id
  | replace v mark => exact id

theorem fails_transform {leaf : ν → Proc σ Exc (LeafResult ν)} {H : ν → σ → Prop}
    (hleaf : ∀ v s, Fails Uncontained (leaf v) s ↔ H v s) (fuel : Nat) :
    ∀ path node s, Fails Uncontained (transform S leaf fuel path node) s ↔
      TransformHazard S leaf H fuel path node s := by
  induction fuel with
  | zero => intro path node s; exact iff_of_true rfl trivial
  | succ fuel ih =>
    intro path node s
    cases path with
    | nil => exact iff_of_false (fails_pure _) id
    | cons head rest =>
      unfold transform TransformHazard
      rw [fails_look_bind]
      cases S.shape s node with
      | scalar x => exact iff_of_false (fails_pure _) id
      | list xs =>
        by_cases hw : head = listWildcard
        · simp only [hw, if_true, true_and]
          rw [fails_bind, fails_each (fun v s => ih rest v s)]
          exact or_iff_left (not_then_of_never fun outs s' => fails_rewriteList S xs outs s')
        · simp only [hw, if_false, false_and]
          exact iff_of_false (fails_pure _) id
      | dict fields =>
        cases hv : memberAt head fields with
        | none =>
          simp only [hv]
          exact iff_of_false (fails_pure _) id
        | some v =>
          cases rest with
          | nil =>
            simp only [hv]
            rw [fails_bind, hleaf]
            exact or_iff_left (not_then_of_never fun r s' => fails_transformLeaf S fields head r s')
          | cons next rest =>
            simp only [hv]
            rw [fails_bind, ih]
            refine or_iff_left (not_then_of_never fun out s' => ?_)
            obtain ⟨child, marks⟩ := out
            cases child with
            | none => exact id
            | some w => exact id

theorem fails_pruneNulls (fuel : Nat) :
    ∀ node s, Fails Uncontained (pruneNulls S fuel node) s ↔ PruneHazard S fuel node s := by
  induction fuel with
  | zero => intro node s; exact iff_of_true rfl trivial
  | succ fuel ih =>
    intro node s
    unfold pruneNulls PruneHazard
    rw [fails_look_bind]
    cases S.shape s node with
    | scalar x => exact iff_of_false (fails_pure _) id
    | list xs =>
      rw [fails_bind, fails_each ih]
      refine or_iff_left (not_then_of_never fun outs s' => ?_)
      split
      · exact id
      · exact id
    | dict fields =>
      rw [fails_get_bind, fails_bind, fails_each (fun (p : String × ν) s => ih p.2 s)]
      refine or_iff_left (not_then_of_never fun outs s' => ?_)
      split
      · exact id
      · exact id

def ReduceHazard (raw : ν) (acc : Rewrite ν) (spec : CompiledReductionSpec) (s : σ) : Prop :=
  if spec.isGlobal then PruneHazard S rt.stackLimit (acc.1.getD raw) s
  else TransformHazard S (reductionLeaf S rt spec) (LeafHazard S rt spec) rt.stackLimit
    spec.pathParts (acc.1.getD raw) s

theorem fails_reduceStep (raw : ν) (acc : Rewrite ν) (spec : CompiledReductionSpec) (s : σ) :
    Fails Uncontained (reduceStep S rt raw acc spec) s ↔ ReduceHazard S rt raw acc spec s := by
  unfold reduceStep ReduceHazard
  cases spec.isGlobal with
  | true =>
    simp only [if_true]
    rw [fails_bind, fails_pruneNulls]
    refine or_iff_left (not_then_of_never fun out s' => ?_)
    cases out with
    | none => exact id
    | some w => exact id
  | false =>
    simp only [Bool.false_eq_true, if_false]
    rw [fails_bind, fails_transform S (fails_reductionLeaf S rt spec)]
    refine or_iff_left (not_then_of_never fun out s' => ?_)
    obtain ⟨child, marks⟩ := out
    cases child with
    | none => exact id
    | some w => exact id

theorem fails_applyRawReduction (raw : ν) (specs : List CompiledReductionSpec) (s : σ) :
    Fails Uncontained (applyRawReduction S rt raw specs) s ↔
      FoldReaches (reduceStep S rt raw) (ReduceHazard S rt raw) (none, []) specs s := by
  unfold applyRawReduction
  rw [fails_bind, fails_fold (fails_reduceStep S rt raw)]
  refine or_iff_left (not_then_of_never fun out s' => ?_)
  obtain ⟨child, dropped⟩ := out
  cases child with
  | none => exact id
  | some obj =>
    simp only [fails_look_bind]
    cases S.shape s' obj with
    | scalar x => exact id
    | list xs => exact id
    | dict fields => exact id

end Reduction

section Call
variable {σ ν : Type} (S : Objects σ ν) (rt : MappingRuntime)

/-- What makes a rule raise something else than `MappingError`. -/
def RuleHazard (raw extracted : ν) (ingestTimeEpoch : Option Int) :
    AnyRule ν → σ → Prop
  | .arrayBuilder rule, s => ArrayBuilderHazard S rule raw extracted s
  | .scalar rule, s => GateHazard S rt rule raw extracted s ∨
      Then (ruleGate S rt rule raw extracted)
        (fun gate s => gate = true ∧ RuleValueHazard S rt rule raw extracted ingestTimeEpoch s) s

theorem fails_evalRule (raw extracted : ν) (ingestTimeEpoch : Option Int) (rule : AnyRule ν)
    (s : σ) : Fails Uncontained (evalRule S rt raw extracted ingestTimeEpoch rule) s ↔
      RuleHazard S rt raw extracted ingestTimeEpoch rule s := by
  cases rule with
  | arrayBuilder rule =>
    refine (fails_bind _ _).trans ?_
    rw [fails_applyArrayBuilder]
    exact or_iff_left (not_then_of_never fun _ _ => fails_pure _)
  | scalar rule =>
    refine (fails_bind _ _).trans ?_
    rw [fails_ruleGate]
    refine or_congr Iff.rfl (then_congr fun gate s' => ?_)
    cases gate with
    | false => exact iff_of_false (fails_pure _) (by simp)
    | true =>
      simp only [if_true, true_and]
      rw [fails_bind, fails_ruleValue]
      exact or_iff_left (not_then_of_never fun _ _ => fails_pure _)

theorem fails_applyMappingRule (raw extracted : ν) (ingestTimeEpoch : Option Int)
    (p : Progress ν) (rule : AnyRule ν) (s : σ) :
    Fails Uncontained (applyMappingRule S rt raw extracted ingestTimeEpoch p rule) s ↔
      RuleHazard S rt raw extracted ingestTimeEpoch rule s := by
  unfold applyMappingRule
  rw [fails_bind, fails_evalRule]
  refine or_iff_left (not_then_of_never fun outcome s' => ?_)
  cases outcome with
  | none => exact id
  | some o => exact id

def PhasesHazard (compiled : CompiledRules ν) (raw : ν) (ingestTimeEpoch : Option Int)
    (output extracted : ν) (s : σ) : Prop :=
  FoldReaches (preprocessOp S rt raw extracted) (fun _ => PreprocessHazard S rt raw) []
      compiled.preprocessOps s ∨
    Then (fold (preprocessOp S rt raw extracted) [] compiled.preprocessOps)
      (fun consumed s =>
        FoldReaches (applyMappingRule S rt raw extracted ingestTimeEpoch)
            (fun _ => RuleHazard S rt raw extracted ingestTimeEpoch)
            ⟨output, consumed, [], []⟩ compiled.rules s ∨
          Then (fold (applyMappingRule S rt raw extracted ingestTimeEpoch)
              ⟨output, consumed, [], []⟩ compiled.rules)
            (fun _ s => FoldReaches (reduceStep S rt raw) (ReduceHazard S rt raw) (none, [])
              compiled.rawReduction s) s) s

theorem fails_applyPhases (compiled : CompiledRules ν) (raw : ν)
    (ingestTimeEpoch : Option Int) (output extracted : ν) (s : σ) :
    Fails Uncontained (applyPhases S rt compiled raw ingestTimeEpoch output extracted) s ↔
      PhasesHazard S rt compiled raw ingestTimeEpoch output extracted s := by
  have hpre := fails_fold (fails_preprocessOp S rt raw extracted) compiled.preprocessOps
  have hrules := fails_fold (fails_applyMappingRule S rt raw extracted ingestTimeEpoch)
    compiled.rules
  refine (fails_bind _ _).trans (or_congr (hpre _ _) (then_congr fun consumed s' => ?_))
  refine (fails_bind _ _).trans (or_congr (hrules _ _) (then_congr fun p s'' => ?_))
  rw [fails_bind, fails_applyRawReduction]
  exact or_iff_left (not_then_of_never fun _ _ => fails_pure _)

def CallHazard (compiled : CompiledRules ν) (raw : ν) (ingestTimeEpoch : Option Int) (s : σ) :
    Prop :=
  let output := S.make (.dict []) s
  let extracted := S.make (.dict []) output.2
  PhasesHazard S rt compiled raw ingestTimeEpoch output.1 extracted.1 extracted.2

theorem fails_applyCompiled (compiled : CompiledRules ν) (raw : ν)
    (ingestTimeEpoch : Option Int) (s : σ) :
    Fails Uncontained (applyCompiled S rt compiled raw ingestTimeEpoch) s ↔
      CallHazard S rt compiled raw ingestTimeEpoch s :=
  fails_applyPhases S rt compiled raw ingestTimeEpoch _ _ _

end Call

/-- The call returns, or raises `MappingError` or one of its subclasses. -/
def contained : Ending σ Exc α → Bool
  | .ok _ _ => true
  | .raised e _ => e.isMapping
  | .crashed _ => false

theorem contained_iff (m : Proc σ Exc α) (s : σ) :
    contained (m s) = true ↔ ¬ Fails Uncontained m s := by
  unfold Fails
  cases m s with
  | ok a s' => exact iff_of_true rfl id
  | raised e s' => simp [contained, Uncontained]
  | crashed s' => exact iff_of_false (fun h => Bool.noConfusion h) (fun h => h trivial)

/-- On accepted rules, some step of the call meets a value that it cannot handle. -/
def EventHazard (rt : MappingRuntime) (J : Jmespath) (doc : Json) (dslVersion : Option Int)
    (raw : Obj) (ingestTimeEpoch : Option Int) : Prop :=
  let S := pythonObjects J
  let d := S.load doc J.literals
  let r := S.load (.obj raw) d.2
  ∃ compiled, compileRules rt (S.shape d.2) d.1 dslVersion = some compiled ∧
    CallHazard S rt compiled r.1 ingestTimeEpoch r.2

/-- A mapping call raises nothing but mapping errors exactly on the events without a hazard. -/
theorem mapping_errors_contained_iff (rt : MappingRuntime) (J : Jmespath) (doc : Json)
    (dslVersion : Option Int) (raw : Obj) (ingestTimeEpoch : Option Int) :
    (∀ ending, mapEvent rt J doc dslVersion raw ingestTimeEpoch = some ending →
      contained ending = true) ↔ ¬ EventHazard rt J doc dslVersion raw ingestTimeEpoch := by
  unfold mapEvent EventHazard
  dsimp only
  cases compileRules rt ((pythonObjects J).shape ((pythonObjects J).load doc J.literals).2)
      ((pythonObjects J).load doc J.literals).1 dslVersion with
  | none => simp
  | some compiled =>
    simp only [Option.map_some, Option.some.injEq, forall_eq', exists_eq_left']
    exact (contained_iff _ _).trans (fails_applyCompiled _ rt compiled _ ingestTimeEpoch _).not

def severityRules : Json :=
  .list [.obj [("target", .str "normalized.severity_id"), ("source", .str "severity"),
    ("value_map", .obj [("high", .int 4)])]]

theorem dict_under_value_map_escapes :
    (mapEvent .ascii .none severityRules none [("severity", .obj [])] none).map contained =
      some false := by
  decide +kernel

end CentralOps
