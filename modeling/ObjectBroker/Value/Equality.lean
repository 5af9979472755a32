import ObjectBroker.Value.Heap

/-!
Structural equality of value graphs. Pairs of nodes wait in a queue; a pair that was taken up
before, or of one node with itself, needs no second look, so cycles end.
-/
namespace ObjectBroker

namespace FieldValue

mutual

/-- The pairs of nodes on whose equality the equality of two field values rests; nothing when
they differ by themselves. -/
def pairs? : FieldValue → FieldValue → Option (List (NodeId × NodeId))
  | .scalar a, .scalar b => if a.same b then some [] else none
  | .string a, .string b => if a == b then some [] else none
  | .value none, .value none => some []
  | .value (some a), .value (some b) => some [(a, b)]
  | .sequence as, .sequence bs => pairsAll? as bs
  | _, _ => none

def pairsAll? : List FieldValue → List FieldValue → Option (List (NodeId × NodeId))
  | [], [] => some []
  | a :: as, b :: bs => do
    let here ← a.pairs? b
    let there ← pairsAll? as bs
    return here ++ there
  | _, _ => none

end

end FieldValue

def Instance.pairs? (a b : Instance) : Option (List (NodeId × NodeId)) :=
  if a.typeId == b.typeId then FieldValue.pairsAll? a.fields b.fields else none

namespace Heap

def allPairs (h : Heap) : List (NodeId × NodeId) :=
  (List.range h.size).flatMap fun a => (List.range h.size).map fun b => (a, b)

def step? (h : Heap) (a b : NodeId) : Option (List (NodeId × NodeId)) := do
  let x ← h.get? a
  let y ← h.get? b
  x.pairs? y

theorem mem_allPairs_of_step {h : Heap} {a b : NodeId} {more : List (NodeId × NodeId)}
    (hs : h.step? a b = some more) : (a, b) ∈ h.allPairs := by
  simp only [step?, get?, Option.bind_eq_bind, Option.bind_eq_some_iff] at hs
  obtain ⟨x, ha, y, hb, -⟩ := hs
  obtain ⟨la, -⟩ := Array.getElem?_eq_some_iff.mp ha
  obtain ⟨lb, -⟩ := Array.getElem?_eq_some_iff.mp hb
  simp only [allPairs, List.mem_flatMap, List.mem_map, List.mem_range]
  exact ⟨a, la, b, lb, rfl⟩

def unvisited (h : Heap) (visited : List (NodeId × NodeId)) : List (NodeId × NodeId) :=
  h.allPairs.filter fun p => !visited.contains p

theorem unvisited_cons_lt (h : Heap) (visited : List (NodeId × NodeId)) {p : NodeId × NodeId}
    (hp : p ∈ h.allPairs) (hv : ¬visited.contains p) :
    (h.unvisited (p :: visited)).length < (h.unvisited visited).length := by
  have hsub : h.unvisited (p :: visited) = (h.unvisited visited).filter (· != p) := by
    simp only [unvisited, List.filter_filter]
    congr 1
    funext q
    by_cases hq : q = p <;> simp [hq]
  rw [hsub, List.length_filter_lt_length_iff_exists]
  refine ⟨p, ?_, by simp⟩
  simp only [unvisited, List.mem_filter, hp, true_and, Bool.not_eq_true'] at *
  simpa using hv

def sameAll (h : Heap) (visited pending : List (NodeId × NodeId)) : Bool :=
  match pending with
  | [] => true
  | (a, b) :: rest =>
    if a = b ∨ visited.contains (a, b) then h.sameAll visited rest
    else match _h : h.step? a b with
      | none => false
      | some more => h.sameAll ((a, b) :: visited) (more ++ rest)
termination_by ((h.unvisited visited).length, pending.length)
decreasing_by
  · exact Prod.Lex.right _ (by simp)
  · have hn : ¬(a = b ∨ visited.contains (a, b)) := ‹_›
    exact Prod.Lex.left _ _ (h.unvisited_cons_lt visited (mem_allPairs_of_step ‹_›)
      (fun hv => hn (.inr hv)))

def same (h : Heap) (a b : NodeId) : Bool :=
  h.sameAll [] [(a, b)]

def sameInstances (h : Heap) (a b : Instance) : Bool :=
  match a.pairs? b with
  | none => false
  | some pending => h.sameAll [] pending

def sameFields (h : Heap) (a b : FieldValue) : Bool :=
  match a.pairs? b with
  | none => false
  | some pending => h.sameAll [] pending

end Heap

end ObjectBroker
