import ObjectBroker.Value.Type

/-!
Instances of value types and the heap that holds them. An instance has one field value for each
field of its type; handles to it are numbers of its node, so sharing and cycles are possible.
-/
namespace ObjectBroker

structure Instance where
  type : ValueType
  fields : List FieldValue
  deriving Repr

structure Heap where
  nodes : Array Instance := #[]
  deriving Repr

namespace Heap

def size (h : Heap) : Nat := h.nodes.size

def get? (h : Heap) (n : NodeId) : Option Instance := h.nodes[n]?

def alloc (h : Heap) (i : Instance) : NodeId × Heap :=
  (h.size, { nodes := h.nodes.push i })

def write (h : Heap) (n : NodeId) (i : Instance) : Heap :=
  { nodes := h.nodes.setIfInBounds n i }

theorem get?_alloc_self (h : Heap) (i : Instance) : (h.alloc i).2.get? (h.alloc i).1 = some i := by
  simp [alloc, get?, size]

theorem get?_alloc_of_lt (h : Heap) (i : Instance) {n : NodeId} (hn : n < h.size) :
    (h.alloc i).2.get? n = h.get? n := by
  simp only [alloc, get?, size] at *
  rw [Array.getElem?_push_lt hn, Array.getElem?_eq_getElem hn]

theorem get?_write_ne (h : Heap) (i : Instance) {n m : NodeId} (hm : n ≠ m) :
    (h.write n i).get? m = h.get? m := by
  simp [write, get?, hm]

def typeOf? (h : Heap) (n : NodeId) : Option ValueType :=
  (h.get? n).map (·.type)

def typeId (h : Heap) (n : NodeId) : String :=
  ((h.typeOf? n).map (·.id)).getD ""

def isA (h : Heap) (n : NodeId) (id : String) : Bool :=
  ((h.typeOf? n).map (·.isA id)).getD false

def fits (h : Heap) : FieldKind → FieldValue → Bool
  | .scalar kind, .scalar s => s.kind == kind
  | .string, .string _ => true
  | .value _, .value none => true
  | .value declared, .value (some n) => h.isA n declared
  | .sequence element, .sequence items => items.all (h.fits element)
  | _, _ => false

end Heap

namespace Instance

def new (type : ValueType) : Instance :=
  { type, fields := type.fields.map fun f => .zero f.kind }

def typeId (i : Instance) : String := i.type.id

def indexOf (i : Instance) (name : String) : Except MarshalError Nat :=
  match i.type.fieldIndex? name with
  | some n => .ok n
  | none => .error (.unknownField i.typeId name)

def at? (i : Instance) (index : Nat) : Option (Field × FieldValue) :=
  match i.type.fields[index]?, i.fields[index]? with
  | some f, some v => some (f, v)
  | _, _ => none

def get (i : Instance) (name : String) : Except MarshalError FieldValue :=
  match (i.type.fieldIndex? name).bind (i.fields[·]?) with
  | some v => .ok v
  | none => .error (.unknownField i.typeId name)

def getOwned (i : Instance) (owner name : String) : Except MarshalError FieldValue :=
  match (i.type.ownedIndex? owner name).bind (i.fields[·]?) with
  | some v => .ok v
  | none => .error (.unknownField i.typeId s!"{owner}::{name}")

def misfit (h : Heap) (f : Field) (v : FieldValue) : MarshalError :=
  match f.kind, v with
  | .value declared, .value (some n) => .notAssignable declared (h.typeId n)
  | kind, _ => .typeMismatch f.name kind.text

def setAt (h : Heap) (i : Instance) (index : Nat) (v : FieldValue) :
    Except MarshalError Instance :=
  match i.type.fields[index]? with
  | none => .error (.unknownField i.typeId s!"#{index}")
  | some f =>
    if h.fits f.kind v then .ok { i with fields := i.fields.set index v }
    else .error (misfit h f v)

def set (h : Heap) (i : Instance) (name : String) (v : FieldValue) :
    Except MarshalError Instance := do
  setAt h i (← i.indexOf name) v

def setAll (h : Heap) (i : Instance) (values : List (String × FieldValue)) :
    Except MarshalError Instance :=
  values.foldlM (fun i (name, v) => i.set h name v) i

def typed {α : Type} (i : Instance) (name expected : String) (f : FieldValue → Option α) :
    Except MarshalError α := do
  match f (← i.get name) with
  | some a => return a
  | none => throw (.typeMismatch name expected)

def getBool (i : Instance) (name : String) : Except MarshalError Bool :=
  i.typed name "Boolean" fun
    | .scalar (.boolean b) => some b
    | _ => none

def getLong (i : Instance) (name : String) : Except MarshalError Int32 :=
  i.typed name "Long" fun
    | .scalar (.int32 n) => some n
    | _ => none

def getDouble (i : Instance) (name : String) : Except MarshalError UInt64 :=
  i.typed name "Double" fun
    | .scalar (.float64 p) => some p
    | _ => none

def getString (i : Instance) (name : String) : Except MarshalError String :=
  i.typed name "String" fun
    | .string s => some s
    | _ => none

def getValue (i : Instance) (name : String) : Except MarshalError (Option NodeId) :=
  i.typed name "value" fun
    | .value n => some n
    | _ => none

def getSequence (i : Instance) (name : String) : Except MarshalError (List FieldValue) :=
  i.typed name "sequence" fun
    | .sequence items => some items
    | _ => none

end Instance

namespace Heap

def new (h : Heap) (type : ValueType) (values : List (String × FieldValue)) :
    Except MarshalError (NodeId × Heap) := do
  return h.alloc (← (Instance.new type).setAll h values)

/-- A chain of instances, each holding the next in a field and, if asked to, its own place in
another. -/
def chain (h : Heap) (type : ValueType) (field : String) (place : Option String) :
    (length : Nat) → (next : Option NodeId) → Except MarshalError (Option NodeId × Heap)
  | 0, next => .ok (next, h)
  | n + 1, next => do
    let places := place.toList.map fun p => (p, FieldValue.scalar (.int32 (Int32.ofNat n)))
    let (node, h) ← h.new type ((field, .value next) :: places)
    h.chain type field place n (some node)

/-- Sets a field of the instance at a node; the heap stays as it is when that fails. -/
def set (h : Heap) (n : NodeId) (name : String) (v : FieldValue) : Except MarshalError Heap :=
  match h.get? n with
  | none => .ok h
  | some i => do return h.write n (← i.set h name v)

end Heap

end ObjectBroker
