import Mathlib.Tactic.Lemma
import ObjectBroker.Text.Blank
import ObjectBroker.Text.Numeral
import ObjectBroker.Text.Split

/-!
Text that is put together from parts: where it is cut again, what stays at its two ends, and the
number that its digits stand for.
-/

namespace ObjectBroker

namespace Split

variable {c : Char} {front rest text : List Char}

lemma once?_append (h : c ∉ front) (rest : List Char) :
    once? c (front ++ c :: rest) = some (front, rest) := by
  induction front with
  | nil => rw [List.nil_append, once?, if_pos rfl]
  | cons d front ih =>
    have hd : d ≠ c := fun hd => h (hd ▸ List.mem_cons_self)
    have hfront : c ∉ front := fun hc => h (List.mem_cons_of_mem d hc)
    rw [List.cons_append, once?, if_neg hd, ih hfront]
    rfl

lemma once?_of_not_mem (h : c ∉ text) : once? c text = none := by
  induction text with
  | nil => rfl
  | cons d text ih =>
    have hd : d ≠ c := fun hd => h (hd ▸ List.mem_cons_self)
    have htext : c ∉ text := fun hc => h (List.mem_cons_of_mem d hc)
    rw [once?, if_neg hd, ih htext]
    rfl

lemma once?_eq_some (h : once? c text = some (front, rest)) :
    text = front ++ c :: rest ∧ c ∉ front := by
  by_cases hc : c ∈ text
  · obtain ⟨before, after, rfl, hbefore⟩ := List.eq_append_cons_of_mem hc
    rw [once?_append hbefore] at h
    obtain ⟨rfl, rfl⟩ := Prod.mk.inj (Option.some.inj h)
    exact ⟨rfl, hbefore⟩
  · rw [once?_of_not_mem hc] at h
    cases h

lemma parts_of_not_mem (h : c ∉ text) : parts c text = [text] := by
  induction text with
  | nil => rfl
  | cons d text ih =>
    have hd : d ≠ c := fun hd => h (hd ▸ List.mem_cons_self)
    have htext : c ∉ text := fun hc => h (List.mem_cons_of_mem d hc)
    rw [parts, if_neg hd, ih htext]

lemma after?_append (front rest : List Char) : after? front (front ++ rest) = some rest := by
  induction front with
  | nil => rw [List.nil_append, after?]
  | cons d front ih => rw [List.cons_append, after?, if_pos rfl, ih]

end Split

namespace Blank

lemma trim_append {c : Char} {front tail : List Char} (hc : isBlank c = false) (htail : tail ≠ [])
    (hend : ∀ d ∈ tail, isBlank d = false) (text : List Char) :
    trim (c :: front ++ (text ++ tail)) = c :: front ++ (text ++ tail) := by
  obtain ⟨tail, d, rfl⟩ := List.eq_nil_or_concat tail |>.resolve_left htail
  have hd : isBlank d = false := hend d (by simp)
  have hreverse : (c :: front ++ (text ++ tail.concat d)).reverse =
      d :: (tail.reverse ++ (text.reverse ++ (front.reverse ++ [c]))) := by simp
  rw [trim, List.cons_append, List.dropWhile_cons_of_neg (by simp [hc]), ← List.cons_append, hreverse,
    List.dropWhile_cons_of_neg (by simp [hd]), ← hreverse, List.reverse_reverse]

end Blank

namespace Numeral

lemma isDigit_of_mem_toDigits {n : Nat} {c : Char} (h : c ∈ Nat.toDigits 10 n) :
    isDigit c = true :=
  Nat.isDigit_of_mem_toDigits (by decide) (by decide) h

lemma not_mem_toDigits {c : Char} (h : isDigit c = false) (n : Nat) : c ∉ Nat.toDigits 10 n := by
  intro hc
  rw [isDigit_of_mem_toDigits hc] at h
  cases h

lemma unsigned_of_not_mem {text : List Char} (h : '+' ∉ text) : unsigned text = text := by
  rw [unsigned]
  rintro rest rfl
  exact h List.mem_cons_self

lemma parse?_toDigits {n limit : Nat} (h : n < limit) :
    parse? limit (Nat.toDigits 10 n) = some n := by
  have hdigits : (Nat.toDigits 10 n).all isDigit = true :=
    List.all_eq_true.mpr fun c hc => isDigit_of_mem_toDigits hc
  have hvalue : value (Nat.toDigits 10 n) = n := by
    rw [value, ← Nat.ofDigitChars_eq_foldl, Nat.ofDigitChars_ten_toDigits]
  have hsome : (Nat.toDigits 10 n).isEmpty = false :=
    List.isEmpty_eq_false_iff.mpr Nat.toDigits_ne_nil
  rw [parse?, unsigned_of_not_mem (not_mem_toDigits (by decide) n)]
  rw [hsome, hdigits, hvalue, if_pos h]
  rfl

end Numeral

end ObjectBroker
