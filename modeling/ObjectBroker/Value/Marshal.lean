import ObjectBroker.Reference
import ObjectBroker.Value.Heap

/-!
Writing value graphs. An instance or a type id that was written before is sent as an
indirection: the distance from the offset to where it stands. Values are written down to a
limit of nested levels.
-/
namespace ObjectBroker

namespace ValueTag

def null : UInt32 := 0

def indirection : UInt32 := 0xffffffff

def single : UInt32 := 0x7fffff02

end ValueTag

def defaultDepth : Nat := 512

structure Marshaller where
  output : Output
  instances : List (NodeId × Nat) := []
  typeIds : List (String × Nat) := []
  limit : Nat := defaultDepth
  deriving Repr

abbrev Marshalling := ExceptT MarshalError (StateM Marshaller)

namespace Marshaller

def new (order : ByteOrder) (limit : Nat := defaultDepth) : Marshaller :=
  { output := { order }, limit }

def octets (m : Marshaller) : Octets := m.output.octets

def put (m : Marshaller) (f : Output → Output) : Marshaller :=
  { m with output := f m.output }

def putIndirection (m : Marshaller) (target : Nat) : Marshaller :=
  let o := m.output.putUInt32 ValueTag.indirection
  { m with output := o.putUInt32 (UInt32.ofInt (target - o.position)) }

def putTypeId (m : Marshaller) (id : String) : Marshaller :=
  match m.typeIds.lookup id with
  | some target => m.putIndirection target
  | none =>
    let o := m.output.align 4
    { m with output := o.putString id, typeIds := (id, o.position) :: m.typeIds }

def putHead (m : Marshaller) (n : NodeId) (id : String) : Marshaller :=
  let o := m.output.align 4
  let m := { m with
    output := o.putUInt32 ValueTag.single
    instances := (n, o.position) :: m.instances }
  m.putTypeId id

def putObject (m : Marshaller) (object : Option Reference) : Marshaller :=
  m.put fun o => Reference.putOption o object

def run {α : Type} (m : Marshaller) (w : Marshalling α) : Except MarshalError α × Marshaller :=
  StateT.run (ExceptT.run w) m

def text (m : Marshaller) : String :=
  s!"Marshaller \x7b len: {m.output.length}, values: {m.instances.length} \x7d"

end Marshaller

namespace Marshalling

mutual

def field (writeValue : Option NodeId → Marshalling Unit) : FieldValue → Marshalling Unit
  | .scalar s => modify fun m => m.put (·.putScalar s)
  | .string text => modify fun m => m.put (·.putString text)
  | .value n => writeValue n
  | .sequence items => do
    modify fun m => m.put (·.putWord 4 items.length)
    fields writeValue items

def fields (writeValue : Option NodeId → Marshalling Unit) : List FieldValue → Marshalling Unit
  | [] => pure ()
  | v :: vs => do
    field writeValue v
    fields writeValue vs

end

/-- Writes a value that is null or was written before; tells whether it did. -/
def known (n : Option NodeId) : Marshalling Bool := do
  match n with
  | none =>
    modify fun m => m.put (·.putUInt32 ValueTag.null)
    pure true
  | some n =>
    let m ← get
    match m.instances.lookup n with
    | some target =>
      set (m.putIndirection target)
      pure true
    | none => pure false

def fresh (h : Heap) (n : NodeId) : Marshalling (List FieldValue) := do
  modify fun m => m.putHead n (h.typeId n)
  return (h.get? n).elim [] (·.fields)

def valueAt (h : Heap) : (levels : Nat) → Option NodeId → Marshalling Unit
  | 0, n => do
    if !(← known n) then
      throw (.tooDeep (← get).limit)
  | levels + 1, n => do
    if !(← known n) then
      match n with
      | none => pure ()
      | some n => fields (valueAt h levels) (← fresh h n)

def value (h : Heap) (n : Option NodeId) : Marshalling Unit := do
  valueAt h (← get).limit n

end Marshalling

end ObjectBroker
