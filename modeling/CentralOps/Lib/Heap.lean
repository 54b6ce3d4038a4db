import Mathlib.Data.List.Forall2
import CentralOps.Lib.Dict

set_option autoImplicit true

/-- What a look at a value shows: a scalar, or a container of further values. -/
inductive Shape (κ ν : Type) where
  | scalar (x : κ)
  | list (xs : List ν)
  | dict (fields : List (String × ν))

/-- A value is held directly, or by the address of its container. -/
inductive Ref (κ : Type) where
  | scalar (x : κ)
  | addr (a : Nat)
  deriving DecidableEq

/-- Containers by address. A new one takes the next address, and none is ever freed. -/
abbrev Heap (κ : Type) := List (Shape κ (Ref κ))

namespace Heap

variable {κ : Type}

def shape (h : Heap κ) : Ref κ → Shape κ (Ref κ)
  | .scalar x => .scalar x
  | .addr a => (h[a]?).getD (.list [])

def make (h : Heap κ) : Shape κ (Ref κ) → Ref κ × Heap κ
  | .scalar x => (.scalar x, h)
  | c => (.addr h.length, h ++ [c])

/-- `d[k] = v`. -/
def setItem (h : Heap κ) (d : Ref κ) (k : String) (v : Ref κ) : Heap κ :=
  match d with
  | .scalar _ => h
  | .addr a =>
    match h[a]? with
    | some (.dict fields) => h.set a (.dict (Assoc.set k v fields))
    | _ => h

/-- `del d[k]`. -/
def delItem (h : Heap κ) (d : Ref κ) (k : String) : Heap κ :=
  match d with
  | .scalar _ => h
  | .addr a =>
    match h[a]? with
    | some (.dict fields) => h.set a (.dict (Assoc.erase k fields))
    | _ => h

def isDict (h : Heap κ) (v : Ref κ) : Bool :=
  match h.shape v with
  | .dict _ => true
  | _ => false

/-- The dict under `d[k]`, if there is one. -/
def childDict (h : Heap κ) (d : Ref κ) (k : String) : Option (Ref κ) :=
  match h.shape d with
  | .dict fields => (fields.lookup k).filter h.isDict
  | _ => none

/-- Write `v` below `cursor`, with a new dict wherever the path meets none. -/
def setPath (cursor : Ref κ) (path : List String) (v : Ref κ) (h : Heap κ) : Heap κ :=
  match path with
  | [] => h
  | [k] => h.setItem cursor k v
  | k :: ks =>
    match h.childDict cursor k with
    | some next => setPath next ks v h
    | none => setPath (.addr h.length) ks v (setItem (h ++ [.dict []]) cursor k (.addr h.length))

/-- The dict that is already there and that `setPath` writes into. -/
def writtenDict (h : Heap κ) (cursor : Ref κ) : List String → Ref κ
  | [] => cursor
  | [_] => cursor
  | k :: ks =>
    match h.childDict cursor k with
    | some next => writtenDict h next ks
    | none => cursor

end Heap
