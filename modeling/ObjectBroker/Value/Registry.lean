import ObjectBroker.Value.Heap

/-!
Value factories by type id. A factory makes copies of one instance, which is blank unless told
otherwise.
-/
namespace ObjectBroker

structure Registry where
  factories : List (String × Instance) := []
  deriving Repr

inductive RegistrationPolicy where
  | reject
  | override
  deriving DecidableEq, Repr

namespace Registry

def size (r : Registry) : Nat := r.factories.length

def lookup? (r : Registry) (id : String) : Option Instance :=
  r.factories.lookup id

def contains (r : Registry) (id : String) : Bool :=
  (r.lookup? id).isSome

def remove (r : Registry) (id : String) : Registry :=
  { factories := r.factories.filter (·.1 != id) }

def registerWith (r : Registry) (id : String) (factory : Instance)
    (policy : RegistrationPolicy) : Except MarshalError (Option Instance × Registry) :=
  if policy = .reject ∧ r.contains id then .error (.duplicateRegistration id)
  else .ok (r.lookup? id, { factories := (id, factory) :: (r.remove id).factories })

def register (r : Registry) (type : ValueType) : Except MarshalError Registry :=
  (·.2) <$> r.registerWith type.id (.new type) .reject

def registerAll (r : Registry) : List ValueType → Except MarshalError Unit × Registry
  | [] => (.ok (), r)
  | type :: types =>
    match r.register type with
    | .error e => (.error e, r)
    | .ok r => r.registerAll types

def create (r : Registry) (id : String) : Except MarshalError Instance :=
  match r.lookup? id with
  | none => .error (.unknownType id)
  | some i => if i.typeId = id then .ok i else .error (.factoryMismatch id i.typeId)

def ids (r : Registry) : List String :=
  (r.factories.map (·.1)).mergeSort fun a b => !(b < a)

def text (r : Registry) : String :=
  "ValueFactoryRegistry \x7b types: [" ++ ", ".intercalate (r.ids.map Quoted.string) ++ "] \x7d"

end Registry

end ObjectBroker
