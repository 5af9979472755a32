/-!
Octets, the content of every stream, message and object key.
-/
namespace ObjectBroker

abbrev Octets := List UInt8

namespace Octets

/-- Whether there are at least `n` octets; no more than `n` of them are looked at. -/
def atLeast : (n : Nat) → Octets → Bool
  | 0, _ => true
  | _ + 1, [] => false
  | n + 1, _ :: octets => atLeast n octets

@[simp] theorem atLeast_iff (n : Nat) (octets : Octets) :
    atLeast n octets = true ↔ n ≤ octets.length := by
  induction octets generalizing n with
  | nil => cases n <;> simp [atLeast]
  | cons b octets ih => cases n <;> simp [atLeast, ih]

/-- The first `n` octets and the rest; nothing when there are fewer than `n`. -/
def split? (n : Nat) (octets : Octets) : Option (Octets × Octets) :=
  if atLeast n octets then some (octets.take n, octets.drop n) else none

theorem append_of_split? {n : Nat} {octets front back : Octets}
    (h : split? n octets = some (front, back)) : front ++ back = octets := by
  unfold split? at h
  split at h
  · cases h
    exact List.take_append_drop n octets
  · cases h

theorem length_of_split? {n : Nat} {octets front back : Octets}
    (h : split? n octets = some (front, back)) : front.length = n := by
  unfold split? at h
  split at h
  · cases h
    exact List.length_take_of_le ((atLeast_iff n octets).mp ‹_›)
  · cases h

theorem split?_append (front back : Octets) :
    split? front.length (front ++ back) = some (front, back) := by
  simp [split?]

theorem split?_eq_none_iff {n : Nat} {octets : Octets} :
    split? n octets = none ↔ octets.length < n := by
  simp [split?]

def total : List Octets → Nat
  | [] => 0
  | chunk :: chunks => chunk.length + total chunks

theorem total_eq (chunks : List Octets) : total chunks = chunks.flatten.length := by
  induction chunks with
  | nil => rfl
  | cons chunk chunks ih => rw [total, ih, List.flatten_cons, List.length_append]

def pattern (n : Nat) : Octets :=
  (List.range n).map fun i => UInt8.ofNat (i % 251)

end Octets

end ObjectBroker
