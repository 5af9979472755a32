import ObjectBroker.Error
import ObjectBroker.Value.Kind

/-!
Value types. A type takes over the fields of its bases, most basic first, and adds its own; a
base that is met twice counts once.
-/
namespace ObjectBroker

structure Field where
  name : String
  kind : FieldKind
  /-- The type that declares the field. -/
  owner : String
  deriving DecidableEq, Repr

structure ValueType where
  id : String
  ancestors : List String
  fields : List Field
  deriving DecidableEq, Repr

namespace ValueType

def isA (t : ValueType) (id : String) : Bool :=
  t.id == id || t.ancestors.contains id

def fieldIndex? (t : ValueType) (name : String) : Option Nat :=
  t.fields.findIdx? fun f => f.name == name

def ownedIndex? (t : ValueType) (owner name : String) : Option Nat :=
  t.fields.findIdx? fun f => f.owner == owner && f.name == name

def addNew {α : Type} [BEq α] (known : List α) (a : α) : List α :=
  if known.contains a then known else known ++ [a]

def declares (fields : List Field) (owner name : String) : Bool :=
  fields.any fun f => f.owner == owner && f.name == name

def addField (known : List Field) (f : Field) : List Field :=
  if declares known f.owner f.name then known else known ++ [f]

def inherit (t : ValueType) (base : ValueType) : Except MarshalError ValueType :=
  if base.isA t.id then .error (.badType s!"{t.id} cannot inherit from itself")
  else .ok { t with
    ancestors := (base.ancestors ++ [base.id]).foldl addNew t.ancestors
    fields := base.fields.foldl addField t.fields }

def declare (t : ValueType) (own : String × FieldKind) : Except MarshalError ValueType :=
  if declares t.fields t.id own.1 then
    .error (.badType s!"{t.id} declares field {own.1} twice")
  else .ok { t with fields := t.fields ++ [{ name := own.1, kind := own.2, owner := t.id }] }

def build (id : String) (bases : List ValueType) (own : List (String × FieldKind)) :
    Except MarshalError ValueType :=
  if id.isEmpty then .error (.badType "empty type id")
  else do
    let t ← bases.foldlM inherit { id, ancestors := [], fields := [] }
    own.foldlM declare t

end ValueType

end ObjectBroker
