import ObjectBroker.Proofs.Text.Hex
import ObjectBroker.Text.Blank
import ObjectBroker.Text.Percent

/-! Octets come back from their percent escapes, which hold no blanks. -/

namespace ObjectBroker.Percent

def Safe (c : Char) : Prop :=
  String.utf8EncodeChar c = [UInt8.ofNat c.toNat] ∧ Blank.isBlank c = false

instance (c : Char) : Decidable (Safe c) := inferInstanceAs (Decidable (_ ∧ _))

lemma safe_of_isPlain_lt : ∀ n < 256, isPlain (UInt8.ofNat n) = true →
    Safe (Char.ofNat n) ∧ (Char.ofNat n).toNat = n ∧ n ≠ 0x25 := by
  decide +kernel

lemma safe_digitChar : ∀ n < 16, Safe (Nat.digitChar n).toUpper := by
  decide +kernel

lemma upper_eq (b : UInt8) :
    Hex.upper b = [(Nat.digitChar (b.toNat / 16)).toUpper, (Nat.digitChar (b.toNat % 16)).toUpper] :=
  rfl

lemma safe_of_mem_octet {b : UInt8} {c : Char} (h : c ∈ octet b) : Safe c := by
  have hb := b.toNat_lt
  rw [octet] at h
  split at h
  case isTrue hplain =>
    rw [List.mem_singleton.mp h]
    exact (safe_of_isPlain_lt b.toNat hb (by rwa [UInt8.ofNat_toNat])).1
  case isFalse =>
    rw [upper_eq] at h
    rcases List.mem_cons.mp h with rfl | h
    · decide +kernel
    rcases List.mem_cons.mp h with rfl | h
    · exact safe_digitChar _ (by omega)
    · rw [List.mem_singleton.mp h]
      exact safe_digitChar _ (by omega)

lemma octet_ne_nil (b : UInt8) : octet b ≠ [] := by
  rw [octet]
  split <;> simp

lemma unescape_cons {b : UInt8} (h : b ≠ 0x25) (rest : Octets) :
    unescape (b :: rest) = (unescape rest).map (b :: ·) := by
  rw [unescape]
  · rw [if_neg h]
  · rintro high low rest' rfl
    exact absurd rfl h

lemma unescape_octet (b : UInt8) (rest : Octets) :
    unescape ((octet b).flatMap String.utf8EncodeChar ++ rest) = (unescape rest).map (b :: ·) := by
  have hb := b.toNat_lt
  rw [octet]
  split
  case isTrue hplain =>
    obtain ⟨⟨hc, -⟩, hn, hsign⟩ := safe_of_isPlain_lt b.toNat hb (by rwa [UInt8.ofNat_toNat])
    rw [hn, UInt8.ofNat_toNat] at hc
    rw [List.flatMap_singleton, hc, List.singleton_append]
    exact unescape_cons (fun h => hsign (congrArg UInt8.toNat h)) rest
  case isFalse =>
    have hsign : String.utf8EncodeChar '%' = [0x25] := by decide +kernel
    obtain ⟨-, hhigh, hhigh'⟩ := Hex.spells_digitChar (b.toNat / 16) (by omega)
    obtain ⟨-, hlow, hlow'⟩ := Hex.spells_digitChar (b.toNat % 16) (by omega)
    simp only [upper_eq, List.flatMap_cons, List.flatMap_nil, hsign, hhigh, hlow, List.append_nil,
      List.cons_append, List.nil_append, unescape, hhigh', hlow', Hex.octet_halves]

theorem decode?_encode (octets : Octets) : decode? (encode octets).toList = some octets := by
  rw [decode?, Utf8.encode, String.toList_ofList, encode, String.toList_ofList]
  induction octets with
  | nil => rfl
  | cons b octets ih =>
    rw [List.flatMap_cons, List.flatMap_append, unescape_octet, ih]
    rfl

lemma safe_of_mem_encode {octets : Octets} {c : Char} (h : c ∈ (encode octets).toList) : Safe c := by
  rw [encode, String.toList_ofList] at h
  obtain ⟨b, -, hc⟩ := List.mem_flatMap.mp h
  exact safe_of_mem_octet hc

lemma encode_toList_ne_nil {octets : Octets} (h : octets ≠ []) : (encode octets).toList ≠ [] := by
  rw [encode, String.toList_ofList]
  intro hnil
  obtain ⟨b, hb⟩ := List.exists_mem_of_ne_nil octets h
  exact octet_ne_nil b (List.flatMap_eq_nil_iff.mp hnil b hb)

end ObjectBroker.Percent
