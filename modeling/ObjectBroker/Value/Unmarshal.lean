import ObjectBroker.Value.Marshal
import ObjectBroker.Value.Registry

/-!
Reading value graphs into a heap. Instances are made by the factories of a registry and are known
by the position of their tag as soon as they are made, so that their own fields may refer to them.
-/
namespace ObjectBroker

structure Unmarshaller where
  input : Input
  registry : Registry
  /-- References to this endpoint are local. -/
  home : Option Endpoint := none
  limit : Nat := defaultDepth
  instances : List (Nat × NodeId) := []
  typeIds : List (Nat × String) := []
  heap : Heap := {}
  deriving Repr

abbrev Unmarshalling := ExceptT MarshalError (StateM Unmarshaller)

namespace Unmarshaller

def new (order : ByteOrder) (body : Octets) (registry : Registry) (limit : Nat := defaultDepth)
    (home : Option Endpoint := none) : Unmarshaller :=
  { input := { order, rest := body }, registry, limit, home }

def run {α : Type} (u : Unmarshaller) (r : Unmarshalling α) :
    Except MarshalError α × Unmarshaller :=
  StateT.run (ExceptT.run r) u

def text (u : Unmarshaller) : String :=
  s!"Unmarshaller \x7b position: {u.input.position}, remaining: {u.input.remaining} \x7d"

end Unmarshaller

namespace Unmarshalling

def ofReading {α : Type} (r : Reading MarshalError α) : Unmarshalling α := do
  let u ← get
  let (result, input) := Reading.run r u.input
  set { u with input }
  match result with
  | .ok a => pure a
  | .error e => throw e

def stream {α : Type} (r : Reading StreamError α) : Unmarshalling α :=
  ofReading (ExceptT.adapt MarshalError.stream r)

def position : Unmarshalling Nat := do
  return (← get).input.position

def indirection : Unmarshalling Nat := do
  stream (Reading.align 4)
  let origin ← position
  let offset := (← stream Reading.uint32).toInt32.toInt
  let target := origin + offset
  if target < 0 then
    throw (.dangling target)
  pure target.toNat

def typeId : Unmarshalling String := do
  if (← stream (Reading.peekWord 4)) = ValueTag.indirection.toNat then
    let _ ← stream (Reading.word 4)
    let target ← indirection
    match (← get).typeIds.lookup target with
    | some id => pure id
    | none => throw (.dangling target)
  else
    let start ← position
    let id ← stream Reading.string
    modify fun u => { u with typeIds := (start, id) :: u.typeIds }
    pure id

def isValueTag (tag : UInt32) : Bool :=
  0x7fffff00 ≤ tag && tag &&& 0x08 = 0 && tag &&& 0x06 = 0x02

/-- Whether a code location stands before the type id; it is read and not used. -/
def hasLocation (tag : UInt32) : Bool :=
  tag &&& 0x01 ≠ 0

def create (id : String) : Unmarshalling NodeId := do
  let u ← get
  match u.registry.create id with
  | .error e => throw e
  | .ok i =>
    let (n, heap) := u.heap.alloc i
    set { u with heap }
    pure n

def assignable (declared : String) (n : Option NodeId) : Unmarshalling (Option NodeId) := do
  match n with
  | none => pure none
  | some n =>
    let h := (← get).heap
    if h.isA n declared then
      pure (some n)
    else
      throw (.notAssignable declared (h.typeId n))

def sequenceLength : Unmarshalling Nat := do
  let count ← stream (Reading.word 4)
  if (← get).input.remaining < count then
    throw (.sequenceTooLong (UInt32.ofNat count))
  pure count

def many {α : Type} (r : Unmarshalling α) : Nat → Unmarshalling (List α)
  | 0 => pure []
  | n + 1 => do
    let a ← r
    let rest ← many r n
    pure (a :: rest)

def field (readValue : Unmarshalling (Option NodeId)) : FieldKind → Unmarshalling FieldValue
  | .scalar kind => do return .scalar (← stream (Reading.scalar kind))
  | .string => do return .string (← stream Reading.string)
  | .value declared => do return .value (← assignable declared (← readValue))
  | .sequence element => do
    return .sequence (← many (field readValue element) (← sequenceLength))

def store (n : NodeId) (index : Nat) (v : FieldValue) : Unmarshalling Unit := do
  let u ← get
  match u.heap.get? n with
  | none => pure ()
  | some i =>
    match i.setAt u.heap index v with
    | .error e => throw e
    | .ok i => set { u with heap := u.heap.write n i }

def fill (readValue : Unmarshalling (Option NodeId)) (n : NodeId) :
    (index : Nat) → List Field → Unmarshalling Unit
  | _, [] => pure ()
  | index, f :: fs => do
    store n index (← field readValue f.kind)
    fill readValue n (index + 1) fs

def head (tag : UInt32) : Unmarshalling String := do
  if hasLocation tag then
    let _ ← typeId
  typeId

inductive Start where
  | null
  | shared (node : NodeId)
  | fresh (position : Nat) (tag : UInt32)

def start : Unmarshalling Start := do
  stream (Reading.align 4)
  let origin ← position
  let tag ← stream Reading.uint32
  if tag = ValueTag.null then
    pure .null
  else if tag = ValueTag.indirection then
    let target ← indirection
    match (← get).instances.lookup target with
    | some n => pure (.shared n)
    | none => throw (.dangling target)
  else if isValueTag tag then
    pure (.fresh origin tag)
  else
    throw (.badTag tag)

def fresh (origin : Nat) (tag : UInt32) : Unmarshalling (NodeId × List Field) := do
  let n ← create (← head tag)
  modify fun u => { u with instances := (origin, n) :: u.instances }
  return (n, ((← get).heap.typeOf? n).elim [] (·.fields))

def valueAt : (levels : Nat) → Unmarshalling (Option NodeId)
  | 0 => do
    match ← start with
    | .null => pure none
    | .shared n => pure (some n)
    | .fresh _ _ => throw (.tooDeep (← get).limit)
  | levels + 1 => do
    match ← start with
    | .null => pure none
    | .shared n => pure (some n)
    | .fresh origin tag =>
      let (n, fields) ← fresh origin tag
      fill (valueAt levels) n 0 fields
      pure (some n)

def value : Unmarshalling (Option NodeId) := do
  valueAt (← get).limit

def valueAs (declared : String) : Unmarshalling (Option NodeId) := do
  assignable declared (← value)

def object : Unmarshalling (Option Reference) := do
  let home := (← get).home
  let r ← ofReading Reference.read
  return r.map fun r => if home = some r.endpoint then { r with isLocal := true } else r

end Unmarshalling

end ObjectBroker
