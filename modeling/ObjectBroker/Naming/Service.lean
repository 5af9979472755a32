import ObjectBroker.Servant

/-!
A naming context as a servant.
-/
namespace ObjectBroker.NamingContext

variable {σ : Type}

def requireObject : Unmarshalling Reference := do
  match ← Unmarshalling.object with
  | some r => pure r
  | none => throw (.badReference "nil object")

def readName : Unmarshalling Name :=
  Unmarshalling.ofReading Name.read

def put (o : Output) (binding : Name × Reference) : Output :=
  Reference.put (Name.put o binding.1) binding.2

def putList (o : Output) (bindings : List (Name × Reference)) : Output :=
  bindings.foldl put (o.putWord 4 bindings.length)

def current (c : CallContext) : Serving σ NamingContext := do
  match ← Serving.self c with
  | some (.naming context) => pure context
  | _ => pure {}

def alter (c : CallContext) (f : NamingContext → Except BrokerError NamingContext) :
    Serving σ Unit := do
  let context ← Serving.ofExcept (f (← current c))
  Serving.setSelf c (.naming context)

def invoke (c : CallContext) (operation : String) : Serving σ Unit :=
  match operation with
  | "bind" => do
    let name ← Serving.read readName
    let object ← Serving.read requireObject
    alter c (·.bind name object)
  | "rebind" => do
    let name ← Serving.read readName
    let object ← Serving.read requireObject
    alter c (·.rebind name object)
  | "resolve" => do
    let name ← Serving.read readName
    let object ← Serving.ofExcept ((← current c).resolve name)
    Serving.writeObject (some object)
  | "unbind" => do
    let name ← Serving.read readName
    alter c (·.unbind name)
  | "list" => do
    let context ← current c
    Serving.write fun o => putList o context.list
  | _ => Serving.unknown operation

end ObjectBroker.NamingContext
