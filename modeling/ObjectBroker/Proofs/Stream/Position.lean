import ObjectBroker.Proofs.Stream.Retrace

/-! Positions in streams. When the same is written to two streams, they stay as far apart as they
were, in steps of the widest alignment. -/

namespace ObjectBroker

def aligned (position alignment : Nat) : Nat :=
  position + padding position alignment

lemma le_aligned (p n : Nat) : p ≤ aligned p n :=
  Nat.le_add_right _ _

lemma aligned_le_aligned {p q a b n : Nat} (hn : n ∣ 8) (h : p + 8 * a ≤ q + 8 * b) :
    aligned p n + 8 * a ≤ aligned q n + 8 * b := by
  have hdivisors : ∀ n ≤ 8, n ∣ 8 → n = 1 ∨ n = 2 ∨ n = 4 ∨ n = 8 := by decide
  rw [aligned, aligned, padding, padding]
  rcases hdivisors n (Nat.le_of_dvd (by decide) hn) hn with rfl | rfl | rfl | rfl
  · exact h
  all_goals split_ifs <;> omega

lemma ScalarKind.width_dvd (kind : ScalarKind) : kind.width ∣ 8 := by
  cases kind <;> decide

namespace Output

lemma position_align (o : Output) (n : Nat) : (o.align n).position = aligned o.position n := by
  rw [align, position_append, List.length_replicate, aligned]

lemma position_putWord (o : Output) (width n : Nat) :
    (o.putWord width n).position = aligned o.position width + width := by
  rw [putWord, position_append, position_align, ByteOrder.length_word]

lemma position_putString (o : Output) (text : String) :
    (o.putString text).position = aligned o.position 4 + ((Utf8.encode text).length + 5) := by
  rw [putString, position_append, position_putWord, List.length_append, List.length_singleton]
  omega

section

variable {o p : Output} {a b : Nat} (h : o.position + 8 * a ≤ p.position + 8 * b)
include h

lemma position_putWord_le {width : Nat} (hw : width ∣ 8) (n k : Nat) :
    (o.putWord width n).position + 8 * a ≤ (p.putWord width k).position + 8 * b := by
  have ha := aligned_le_aligned hw h
  rw [position_putWord, position_putWord]
  omega

lemma position_putString_le (text : String) :
    (o.putString text).position + 8 * a ≤ (p.putString text).position + 8 * b := by
  have ha := aligned_le_aligned (by decide : 4 ∣ 8) h
  rw [position_putString, position_putString]
  omega

end

end Output

end ObjectBroker
