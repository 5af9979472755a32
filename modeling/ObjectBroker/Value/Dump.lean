import ObjectBroker.Value.Heap

/-!
A value graph written out: its instances in the order in which they are met, node 0 being the
value itself, with nested values given by their place in that list.
-/
namespace ObjectBroker.Heap

structure Entry where
  typeId : String
  fields : List (String × FieldValue)
  deriving Repr

def extend (h : Heap) (order : List NodeId) (index : Nat) : List NodeId :=
  match (order[index]?).bind h.get? with
  | none => order
  | some i => (FieldValue.nodesAll i.fields).foldl ValueType.addNew order

/-- The nodes that can be reached; there are no more of them than nodes in the heap. -/
def reachable (h : Heap) (root : NodeId) : List NodeId :=
  (List.range h.size).foldl h.extend [root]

def entry (h : Heap) (order : List NodeId) (n : NodeId) : Entry :=
  match h.get? n with
  | none => { typeId := "", fields := [] }
  | some i =>
    { typeId := i.typeId
      fields := (i.type.fields.map (·.name)).zip (FieldValue.renumberAll order.idxOf i.fields) }

def dump (h : Heap) (root : NodeId) : List Entry :=
  let order := h.reachable root
  order.map (h.entry order)

end ObjectBroker.Heap
