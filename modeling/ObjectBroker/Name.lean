import ObjectBroker.Reference

/-!
Compound names. As text, components are parted by `/` and a component's id and kind by `.`; a
backslash takes the next character for itself.
-/
namespace ObjectBroker

structure NameComponent where
  id : String
  kind : String
  deriving DecidableEq, Repr

abbrev Name := List NameComponent

namespace NameComponent

def isEmpty (c : NameComponent) : Bool :=
  c.id.isEmpty && c.kind.isEmpty

def before (a b : NameComponent) : Bool :=
  a.id < b.id || (a.id == b.id && a.kind < b.kind)

def escape (text : String) : List Char :=
  text.toList.flatMap fun c => if c = '.' ∨ c = '/' ∨ c = '\\' then ['\\', c] else [c]

def chars (c : NameComponent) : List Char :=
  if c.kind.isEmpty then escape c.id else escape c.id ++ '.' :: escape c.kind

def put (o : Output) (c : NameComponent) : Output :=
  (o.putString c.id).putString c.kind

def read : Reading MarshalError NameComponent := do
  let id ← Reading.string
  let kind ← Reading.string
  pure { id, kind }

end NameComponent

namespace Name

def text (n : Name) : String :=
  String.ofList (['/'].intercalate (n.map NameComponent.chars))

def before : Name → Name → Bool
  | [], [] => false
  | [], _ :: _ => true
  | _ :: _, [] => false
  | a :: n, b :: m => a.before b || (a == b && before n m)

inductive Fault where
  | empty
  | trailingEscape
  | secondDot
  | emptyComponent
  deriving DecidableEq, Repr

def Fault.reason : Fault → String
  | .empty => "empty name"
  | .trailingEscape => "trailing escape"
  | .secondDot => "more than one '.' in a component"
  | .emptyComponent => "empty name component"

structure Draft where
  id : List Char := []
  kind : Option (List Char) := none
  deriving DecidableEq, Repr

namespace Draft

def push (p : Draft) (c : Char) : Draft :=
  match p.kind with
  | none => { p with id := p.id ++ [c] }
  | some kind => { p with kind := some (kind ++ [c]) }

def finish (p : Draft) : Except Fault NameComponent :=
  let c : NameComponent := { id := String.ofList p.id, kind := String.ofList (p.kind.getD []) }
  if c.isEmpty then .error .emptyComponent else .ok c

end Draft

def parseFrom (p : Draft) : List Char → Except Fault Name
  | [] => do return [← p.finish]
  | ['\\'] => .error .trailingEscape
  | '\\' :: c :: rest => parseFrom (p.push c) rest
  | '.' :: rest =>
    match p.kind with
    | none => parseFrom { p with kind := some [] } rest
    | some _ => .error .secondDot
  | '/' :: rest => do
    let c ← p.finish
    let n ← parseFrom {} rest
    return c :: n
  | c :: rest => parseFrom (p.push c) rest

def parseChars : List Char → Except Fault Name
  | [] => .error .empty
  | text => parseFrom {} text

def parse (text : String) : Except BrokerError Name :=
  (parseChars text.toList).mapError fun fault =>
    .badLocator s!"{fault.reason}: {Quoted.string text}"

def put (o : Output) (n : Name) : Output :=
  n.foldl NameComponent.put (o.putWord 4 n.length)

def componentSize : Nat := 10

def read : Reading MarshalError Name := do
  let count ← Reading.word 4
  let left := (← get).remaining
  if left / componentSize < count then
    throw (.stream (.underflow (count * componentSize) left))
  Reading.many NameComponent.read count

end Name

end ObjectBroker
