import Mathlib
import ObjectBroker.Text.Hex
import ObjectBroker.Text.Utf8

/-! Hexadecimal text is read back whatever the case of its letters. -/

namespace ObjectBroker.Hex

def Spells (c : Char) (n : Nat) : Prop :=
  String.utf8EncodeChar c = [UInt8.ofNat c.toNat] ∧
    value? (UInt8.ofNat c.toNat) = some (UInt8.ofNat n)

instance (c : Char) (n : Nat) : Decidable (Spells c n) := inferInstanceAs (Decidable (_ ∧ _))

lemma spells_digitChar :
    ∀ n < 16, Spells (Nat.digitChar n) n ∧ Spells (Nat.digitChar n).toUpper n := by
  decide +kernel

lemma toLower_digitChar : ∀ n < 16, (Nat.digitChar n).toLower = Nat.digitChar n := by
  decide +kernel

lemma eq_toLower_or_eq_toUpper (c : Char) : c = c.toLower ∨ c = c.toLower.toUpper := by
  by_cases h : c.isUpper
  · right
    rw [Char.toUpper_toLower_eq_toUpper,
      Char.toUpper_eq_of_not_isLower (Char.not_isLower_of_isUpper h)]
  · left
    exact (Char.toLower_eq_of_not_isUpper h).symm

lemma spells_of_toLower {c : Char} {n : Nat} (hn : n < 16) (h : c.toLower = Nat.digitChar n) :
    Spells c n := by
  rcases eq_toLower_or_eq_toUpper c with hc | hc
  · rw [hc, h]
    exact (spells_digitChar n hn).1
  · rw [hc, h]
    exact (spells_digitChar n hn).2

lemma octet_halves (b : UInt8) :
    UInt8.ofNat (b.toNat / 16) * 16 + UInt8.ofNat (b.toNat % 16) = b := by
  have hb := b.toNat_lt
  apply UInt8.toNat.inj
  simp
  omega

lemma map_toLower_octet (b : UInt8) : (octet b).map Char.toLower = octet b := by
  have hb := b.toNat_lt
  have hhigh := toLower_digitChar (b.toNat / 16) (by omega)
  have hlow := toLower_digitChar (b.toNat % 16) (by omega)
  simp [octet, hhigh, hlow]

lemma map_toLower_encode (octets : Octets) :
    (encode octets).toList.map Char.toLower = (encode octets).toList := by
  simp [encode, List.map_flatMap, map_toLower_octet]

lemma pairs_of_toLower {octets : Octets} {text : List Char}
    (h : text.map Char.toLower = octets.flatMap octet) :
    (text.flatMap String.utf8EncodeChar).length = 2 * octets.length ∧
      ∀ index, pairs index (text.flatMap String.utf8EncodeChar) = .ok octets := by
  induction octets generalizing text with
  | nil =>
    have ht : text = [] := by simpa using h
    subst ht
    exact ⟨rfl, fun _ => rfl⟩
  | cons b octets ih =>
    have hb := b.toNat_lt
    obtain ⟨c, rest, rfl, hc, hrest⟩ := List.map_eq_cons_iff.mp h
    obtain ⟨d, text, rfl, hd, htext⟩ := List.map_eq_cons_iff.mp hrest
    obtain ⟨hc₁, hc₂⟩ := spells_of_toLower (n := b.toNat / 16) (by omega) hc
    obtain ⟨hd₁, hd₂⟩ := spells_of_toLower (n := b.toNat % 16) (by omega) hd
    obtain ⟨hlength, hpairs⟩ := ih htext
    refine ⟨?_, fun index => ?_⟩
    · simp [hc₁, hd₁, hlength]
      omega
    · simp only [List.flatMap_cons, hc₁, hd₁, List.singleton_append, pairs, hc₂, hd₂, hpairs,
        octet_halves]
      rfl

lemma decode_of_toLower {octets : Octets} {text : List Char}
    (h : text.map Char.toLower = (encode octets).toList) :
    decode (Utf8.encode (String.ofList text)) = .ok octets := by
  rw [encode, String.toList_ofList] at h
  obtain ⟨hlength, hpairs⟩ := pairs_of_toLower h
  rw [decode, Utf8.encode, String.toList_ofList, hlength, if_neg (by omega)]
  exact hpairs 0

lemma length_of_pairs {text octets : Octets} {index : Nat} (h : pairs index text = .ok octets) :
    text.length = 2 * octets.length := by
  fun_induction pairs index text generalizing octets with
  | case1 =>
    cases h
    rfl
  | case2 | case3 | case4 => cases h
  | case5 index high low rest a b ha hb ih =>
    cases hrest : pairs (index + 2) rest with
    | error fault =>
      rw [hrest] at h
      cases h
    | ok octets' =>
      rw [hrest] at h
      cases h
      have hlength := ih hrest
      simp only [List.length_cons]
      omega

lemma length_of_decode {text octets : Octets} (h : decode text = .ok octets) :
    text.length = 2 * octets.length := by
  rw [decode] at h
  split at h
  · cases h
  · exact length_of_pairs h

end ObjectBroker.Hex
