import ObjectBroker.Scalar

/-!
What a field of a value can hold, and what it holds. A nested value is given by the node of its
instance.
-/
namespace ObjectBroker

inductive FieldKind where
  | scalar (kind : ScalarKind)
  | string
  | value (typeId : String)
  | sequence (element : FieldKind)
  deriving DecidableEq, Repr, Inhabited

def FieldKind.text : FieldKind → String
  | .scalar kind => kind.name
  | .string => "String"
  | .value typeId => s!"value {typeId}"
  | .sequence element => s!"sequence<{element.text}>"

abbrev NodeId := Nat

inductive FieldValue where
  | scalar (value : Scalar)
  | string (text : String)
  | value (node : Option NodeId)
  | sequence (items : List FieldValue)
  deriving Repr, Inhabited

namespace FieldValue

def zero : FieldKind → FieldValue
  | .scalar kind => .scalar kind.zero
  | .string => .string ""
  | .value _ => .value none
  | .sequence _ => .sequence []

mutual

def nodes : FieldValue → List NodeId
  | .value (some n) => [n]
  | .sequence items => nodesAll items
  | _ => []

def nodesAll : List FieldValue → List NodeId
  | [] => []
  | item :: items => item.nodes ++ nodesAll items

end

mutual

def renumber (f : NodeId → NodeId) : FieldValue → FieldValue
  | .value (some n) => .value (some (f n))
  | .sequence items => .sequence (renumberAll f items)
  | v => v

def renumberAll (f : NodeId → NodeId) : List FieldValue → List FieldValue
  | [] => []
  | item :: items => item.renumber f :: renumberAll f items

end

end FieldValue

end ObjectBroker
