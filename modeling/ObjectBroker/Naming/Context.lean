import ObjectBroker.Name

/-!
A naming context: a table from names to references, kept in the order of names.
-/
namespace ObjectBroker

structure NamingContext where
  bindings : List (Name × Reference) := []
  deriving DecidableEq, Repr

namespace NamingContext

def typeId : String := "IDL:omg.org/CosNaming/NamingContext:1.0"

def notFoundId : String := "IDL:omg.org/CosNaming/NamingContext/NotFound:1.0"

def alreadyBoundId : String := "IDL:omg.org/CosNaming/NamingContext/AlreadyBound:1.0"

def invalidNameId : String := "IDL:omg.org/CosNaming/NamingContext/InvalidName:1.0"

def refusal (id : String) (name : Name) : BrokerError :=
  .user { id, message := name.text }

def insert (name : Name) (object : Reference) :
    List (Name × Reference) → List (Name × Reference)
  | [] => [(name, object)]
  | (n, r) :: rest =>
    if name = n then (name, object) :: rest
    else if name.before n then (name, object) :: (n, r) :: rest
    else (n, r) :: insert name object rest

def get? (c : NamingContext) (name : Name) : Option Reference :=
  c.bindings.lookup name

def rebind (c : NamingContext) (name : Name) (object : Reference) :
    Except BrokerError NamingContext :=
  if name.isEmpty then .error (refusal invalidNameId name)
  else .ok { bindings := insert name object c.bindings }

def bind (c : NamingContext) (name : Name) (object : Reference) :
    Except BrokerError NamingContext :=
  if name.isEmpty then .error (refusal invalidNameId name)
  else if (c.get? name).isSome then .error (refusal alreadyBoundId name)
  else c.rebind name object

def resolve (c : NamingContext) (name : Name) : Except BrokerError Reference :=
  match c.get? name with
  | some object => .ok object
  | none => .error (refusal notFoundId name)

def unbind (c : NamingContext) (name : Name) : Except BrokerError NamingContext :=
  match c.get? name with
  | some _ => .ok { bindings := c.bindings.filter (·.1 != name) }
  | none => .error (refusal notFoundId name)

def list (c : NamingContext) : List (Name × Reference) :=
  c.bindings

end NamingContext

end ObjectBroker
