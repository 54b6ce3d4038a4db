import CentralOps.Lib.System
import CentralOps.Normalize.Engine

namespace CentralOps
set_option autoImplicit true

/-- The rules compiled so far by `(mapping_version_id, dsl_version)`, least recently used first. -/
structure MappingEngine where
  maxCache : Nat
  maxCache_pos : 0 < maxCache
  cache : List ((String × Int) × CompiledRules (Ref Scalar))

/-- `get_compiled`; `none` where `compile_rules` raises. -/
def MappingEngine.getCompiled (engine : MappingEngine) (rt : MappingRuntime) (h : Heap Scalar)
    (mappingVersionId : String) (rules : Ref Scalar) (dslVersion : Int) :
    Option (CompiledRules (Ref Scalar) × MappingEngine) :=
  let key := (mappingVersionId, dslVersion)
  match engine.cache.lookup key with
  | some compiled =>
    some (compiled, { engine with cache := Assoc.erase key engine.cache ++ [(key, compiled)] })
  | none => (compileRules rt h.shape rules (some dslVersion)).map fun compiled =>
    let kept := if engine.maxCache ≤ engine.cache.length then engine.cache.tail else engine.cache
    (compiled, { engine with cache := kept ++ [(key, compiled)] })

def MappingEngine.invalidate (engine : MappingEngine) (mappingVersionId : String) :
    MappingEngine :=
  { engine with cache := engine.cache.filter (fun p => p.1.1 ≠ mappingVersionId) }

inductive Document where
  | rules (mappingVersionId : String)
  | event (raw : Obj)

structure Loaded where
  object : Ref Scalar
  /-- Where its containers start. -/
  base : Nat
  document : Document

/-- The arguments of `MappingEngine.apply`. -/
structure MappingCall where
  mappingVersionId : String
  rules : Ref Scalar
  raw : Ref Scalar
  dslVersion : Int
  ingestTimeEpoch : Option Int

inductive MappingAction where
  | load (document : Document)
  | apply (call : MappingCall)
  | invalidate (mappingVersionId : String)

/-- A worker process: its objects, its engine, and which objects came from outside. -/
structure MappingWorld where
  heap : Heap Scalar
  engine : MappingEngine
  loaded : List Loaded

section World
variable (rt : MappingRuntime) (J : Jmespath)

def Document.content (docOf : String → Json) : Document → Json
  | .rules mappingVersionId => docOf mappingVersionId
  | .event raw => .obj raw

def MappingWorld.load (docOf : String → Json) (w : MappingWorld) (document : Document) :
    MappingWorld :=
  let made := (pythonObjects J).load (document.content docOf) w.heap
  { w with heap := made.2, loaded := ⟨made.1, w.heap.length, document⟩ :: w.loaded }

def MappingWorld.getCompiled (w : MappingWorld) (call : MappingCall) :
    Option (CompiledRules (Ref Scalar) × MappingEngine) :=
  w.engine.getCompiled rt w.heap call.mappingVersionId call.rules call.dslVersion

/-- `MappingEngine.apply`. -/
def MappingWorld.apply (w : MappingWorld) (call : MappingCall) :
    Option (Ending (Heap Scalar) Exc (ApplyResult (Ref Scalar))) :=
  (w.getCompiled rt call).map fun compiled =>
    applyCompiled (pythonObjects J) rt compiled.1 call.raw call.ingestTimeEpoch w.heap

def MappingWorld.afterApply (w : MappingWorld) (call : MappingCall) : MappingWorld :=
  match w.getCompiled rt call, w.apply rt J call with
  | some compiled, some ending => { w with heap := ending.state, engine := compiled.2 }
  | _, _ => w

@[simp] theorem MappingWorld.afterApply_loaded (w : MappingWorld) (call : MappingCall) :
    (w.afterApply rt J call).loaded = w.loaded := by
  unfold MappingWorld.afterApply
  split <;> rfl

/-- The callers hand over objects that were loaded, the rules under their own version. -/
def MappingCall.Given (w : MappingWorld) (call : MappingCall) : Prop :=
  (∃ base, ⟨call.rules, base, .rules call.mappingVersionId⟩ ∈ w.loaded) ∧
    ∃ base raw, ⟨call.raw, base, .event raw⟩ ∈ w.loaded

def mappingSystem (docOf : String → Json) : System MappingWorld MappingAction where
  enabled w
    | .apply call => call.Given w
    | _ => True
  next w
    | .load document => w.load J docOf document
    | .apply call => w.afterApply rt J call
    | .invalidate mappingVersionId => { w with engine := w.engine.invalidate mappingVersionId }

/-- A process that has loaded and compiled nothing. -/
def MappingWorld.start (maxCache : Nat) (hpos : 0 < maxCache) : MappingWorld :=
  ⟨J.literals, ⟨maxCache, hpos, []⟩, []⟩

end World
end CentralOps
