import ObjectBroker.Invocation
import ObjectBroker.Naming.Service

/-!
Calls to a naming context, which may be on another broker.
-/
namespace ObjectBroker.NamingClient

variable {σ : Type}

def reportMissing (name : Name) : BrokerError → BrokerError
  | .user x => if x.id = NamingContext.notFoundId then .notFound name.text else .user x
  | e => e

def call (b : BrokerId) (target : Reference) (operation : String) (args : Marshaller) :
    Call σ Unmarshaller :=
  Invocation.invokeResults b target operation args

def callNamed (b : BrokerId) (target : Reference) (operation : String) (name : Name)
    (object : Option Reference) : Call σ Unmarshaller := do
  let m := (← Call.lift (Activity.broker b)).marshaller.put (Name.put · name)
  let m := object.elim m fun r => m.putObject (some r)
  ExceptT.adapt (reportMissing name) (call b target operation m)

def bind (b : BrokerId) (target : Reference) (name : Name) (object : Reference) : Call σ Unit := do
  let _ ← callNamed b target "bind" name (some object)

def rebind (b : BrokerId) (target : Reference) (name : Name) (object : Reference) :
    Call σ Unit := do
  let _ ← callNamed b target "rebind" name (some object)

def unbind (b : BrokerId) (target : Reference) (name : Name) : Call σ Unit := do
  let _ ← callNamed b target "unbind" name none

def resolve (b : BrokerId) (target : Reference) (name : Name) : Call σ Reference := do
  let results ← callNamed b target "resolve" name none
  Call.reading results NamingContext.requireObject

def readBinding : Unmarshalling (Name × Reference) := do
  let name ← NamingContext.readName
  let object ← NamingContext.requireObject
  pure (name, object)

def readBindings : Unmarshalling (List (Name × Reference)) := do
  Unmarshalling.many readBinding (← Unmarshalling.stream (Reading.word 4))

def list (b : BrokerId) (target : Reference) : Call σ (List (Name × Reference)) := do
  let m := (← Call.lift (Activity.broker b)).marshaller
  let results ← call b target "list" m
  Call.reading results readBindings

end ObjectBroker.NamingClient
