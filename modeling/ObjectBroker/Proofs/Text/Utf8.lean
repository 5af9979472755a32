import Mathlib.Tactic.Lemma
import Mathlib.Tactic.SplitIfs
import ObjectBroker.Text.Utf8

/-! Strict reading of UTF-8 gives back every text that was written, and accepts nothing else. -/

namespace ObjectBroker.Utf8

lemma tails?_toNat (b : UInt8) :
    tails? b = if b.toNat ≤ 0x7f then some 0
      else if 0xc2 ≤ b.toNat ∧ b.toNat ≤ 0xdf then some 1
      else if 0xe0 ≤ b.toNat ∧ b.toNat ≤ 0xef then some 2
      else if 0xf0 ≤ b.toNat ∧ b.toNat ≤ 0xf4 then some 3
      else none := by
  simp only [tails?, UInt8.le_iff_toNat_le]
  rfl

lemma isTail_toNat (b : UInt8) : isTail b = true ↔ 0x80 ≤ b.toNat ∧ b.toNat ≤ 0xbf := by
  simp only [isTail, Bool.and_eq_true, decide_eq_true_eq, UInt8.le_iff_toNat_le]
  rfl

lemma follows_toNat (a b : UInt8) :
    follows a b = true ↔
      if a.toNat = 0xe0 then 0xa0 ≤ b.toNat ∧ b.toNat ≤ 0xbf
      else if a.toNat = 0xed then 0x80 ≤ b.toNat ∧ b.toNat ≤ 0x9f
      else if a.toNat = 0xf0 then 0x90 ≤ b.toNat ∧ b.toNat ≤ 0xbf
      else if a.toNat = 0xf4 then 0x80 ≤ b.toNat ∧ b.toNat ≤ 0x8f
      else 0x80 ≤ b.toNat ∧ b.toNat ≤ 0xbf := by
  have hlead (n : UInt8) : a = n ↔ a.toNat = n.toNat := UInt8.toNat_inj.symm
  simp only [follows, hlead]
  split_ifs <;> simp_all [UInt8.le_iff_toNat_le, isTail_toNat]

lemma pieces_one (a : UInt8) (rest : Octets) (ha : tails? a = some 0) :
    pieces (a :: rest) = .char (Char.ofNat a.toNat) 1 :: pieces rest := by
  rw [pieces, ha]
  rfl

lemma pieces_two (a b : UInt8) (rest : Octets) (ha : tails? a = some 1)
    (hb : follows a b = true) : pieces (a :: b :: rest) = .char (two a b) 2 :: pieces rest := by
  rw [pieces, ha]
  simp [hb]

lemma pieces_three (a b c : UInt8) (rest : Octets) (ha : tails? a = some 2)
    (hb : follows a b = true) (hc : isTail c = true) :
    pieces (a :: b :: c :: rest) = .char (three a b c) 3 :: pieces rest := by
  rw [pieces, ha]
  simp [hb, hc]

lemma pieces_four (a b c d : UInt8) (rest : Octets) (ha : tails? a = some 3)
    (hb : follows a b = true) (hc : isTail c = true) (hd : isTail d = true) :
    pieces (a :: b :: c :: d :: rest) = .char (four a b c d) 4 :: pieces rest := by
  rw [pieces, ha]
  simp [hb, hc, hd]

lemma char_cases (c : Char) : c.toNat < 0xd800 ∨ 0xdfff < c.toNat ∧ c.toNat < 0x110000 := c.valid

lemma char_ofNat_eq {c : Char} {n : Nat} (h : n = c.toNat) : Char.ofNat n = c := by
  rw [h, Char.ofNat_toNat]

lemma pieces_encodeChar (c : Char) (rest : Octets) :
    pieces (String.utf8EncodeChar c ++ rest) =
      .char c (String.utf8EncodeChar c).length :: pieces rest := by
  have hc := char_cases c
  have hv : c.val.toNat = c.toNat := rfl
  have hlow (n k : Nat) (h : n + k < 256) : (UInt8.ofNat (n + k)).toNat = n + k :=
    UInt8.toNat_ofNat_of_lt h
  simp only [String.utf8EncodeChar, hv]
  split_ifs with h₁ h₂ h₃
  · have ha : (UInt8.ofNat c.toNat).toNat = c.toNat :=
      UInt8.toNat_ofNat_of_lt (show _ < 256 by omega)
    rw [List.singleton_append, pieces_one _ _ (by rw [tails?_toNat, ha, if_pos h₁]), ha,
      Char.ofNat_toNat]
    rfl
  · have ha := hlow (c.toNat / 64 % 32) 0xc0 (by omega)
    have hb := hlow (c.toNat % 64) 0x80 (by omega)
    rw [List.cons_append, List.singleton_append,
      pieces_two _ _ _ (by rw [tails?_toNat, ha, if_neg (by omega), if_pos (by omega)])
        (by rw [follows_toNat, ha, hb]; split_ifs <;> omega),
      two, bits, ha, hb, char_ofNat_eq (c := c) (by omega)]
    rfl
  · have ha := hlow (c.toNat / 4096 % 16) 0xe0 (by omega)
    have hb := hlow (c.toNat / 64 % 64) 0x80 (by omega)
    have hd := hlow (c.toNat % 64) 0x80 (by omega)
    rw [List.cons_append, List.cons_append, List.singleton_append,
      pieces_three _ _ _ _
        (by rw [tails?_toNat, ha, if_neg (by omega), if_neg (by omega), if_pos (by omega)])
        (by rw [follows_toNat, ha, hb]; split_ifs <;> omega)
        (by rw [isTail_toNat, hd]; omega),
      three, bits, bits, ha, hb, hd, char_ofNat_eq (c := c) (by omega)]
    rfl
  · have ha := hlow (c.toNat / 262144 % 8) 0xf0 (by omega)
    have hb := hlow (c.toNat / 4096 % 64) 0x80 (by omega)
    have hd := hlow (c.toNat / 64 % 64) 0x80 (by omega)
    have he := hlow (c.toNat % 64) 0x80 (by omega)
    rw [List.cons_append, List.cons_append, List.cons_append, List.singleton_append,
      pieces_four _ _ _ _ _
        (by rw [tails?_toNat, ha, if_neg (by omega), if_neg (by omega), if_neg (by omega),
          if_pos (by omega)])
        (by rw [follows_toNat, ha, hb]; split_ifs <;> omega)
        (by rw [isTail_toNat, hd]; omega) (by rw [isTail_toNat, he]; omega),
      four, bits, bits, bits, ha, hb, hd, he, char_ofNat_eq (c := c) (by omega)]
    rfl

lemma collect_pieces (index : Nat) (cs : List Char) :
    collect index (pieces (cs.flatMap String.utf8EncodeChar)) = .ok cs := by
  induction cs generalizing index with
  | nil => rfl
  | cons c cs ih =>
    rw [List.flatMap_cons, pieces_encodeChar, collect, ih]
    rfl

theorem decode_encode (text : String) : decode (encode text) = .ok text := by
  rw [decode, encode, collect_pieces]
  exact congrArg Except.ok (String.ofList_toList)

lemma val_charOfNat {n : Nat} (h : n < 0xd800 ∨ 0xdfff < n ∧ n < 0x110000) :
    (Char.ofNat n).val.toNat = n := by
  have hv : n.isValidChar := h
  rw [Char.ofNat, dif_pos hv]
  rfl

lemma octet_ofNat_eq {n : Nat} {b : UInt8} (h : n = b.toNat) : UInt8.ofNat n = b := by
  rw [h, UInt8.ofNat_toNat]

lemma tails?_eq_some {a : UInt8} {n : Nat} (h : tails? a = some n) :
    n = 0 ∧ a.toNat ≤ 0x7f ∨ n = 1 ∧ 0xc2 ≤ a.toNat ∧ a.toNat ≤ 0xdf ∨
      n = 2 ∧ 0xe0 ≤ a.toNat ∧ a.toNat ≤ 0xef ∨ n = 3 ∧ 0xf0 ≤ a.toNat ∧ a.toNat ≤ 0xf4 := by
  rw [tails?_toNat] at h
  split_ifs at h <;> cases h <;> omega

lemma encodeChar_one {a : UInt8} (ha : tails? a = some 0) :
    String.utf8EncodeChar (Char.ofNat a.toNat) = [a] := by
  have hl := tails?_eq_some ha
  have hv : (Char.ofNat a.toNat).val.toNat = a.toNat := val_charOfNat (by omega)
  simp only [String.utf8EncodeChar]
  rw [hv, if_pos (by omega), UInt8.ofNat_toNat]

lemma encodeChar_two {a b : UInt8} (ha : tails? a = some 1) (hb : follows a b = true) :
    String.utf8EncodeChar (two a b) = [a, b] := by
  have hl := tails?_eq_some ha
  have hr : 0x80 ≤ b.toNat ∧ b.toNat ≤ 0xbf := by
    rw [follows_toNat] at hb
    split_ifs at hb <;> omega
  have hv : (two a b).val.toNat = a.toNat % 32 * 64 + b.toNat % 64 := by
    rw [two, bits, val_charOfNat (by omega)]
  simp only [String.utf8EncodeChar]
  rw [hv, if_neg (by omega), if_pos (by omega), octet_ofNat_eq (b := a) (by omega),
    octet_ofNat_eq (b := b) (by omega)]

lemma encodeChar_three {a b c : UInt8} (ha : tails? a = some 2) (hb : follows a b = true)
    (hc : isTail c = true) : String.utf8EncodeChar (three a b c) = [a, b, c] := by
  have hl := tails?_eq_some ha
  have hr : 0x80 ≤ b.toNat ∧ b.toNat ≤ 0xbf ∧ (a.toNat = 0xe0 → 0xa0 ≤ b.toNat) ∧
      (a.toNat = 0xed → b.toNat ≤ 0x9f) := by
    rw [follows_toNat] at hb
    split_ifs at hb <;> omega
  rw [isTail_toNat] at hc
  have hv : (three a b c).val.toNat = (a.toNat % 16 * 64 + b.toNat % 64) * 64 + c.toNat % 64 := by
    rw [three, bits, bits, val_charOfNat (by omega)]
  simp only [String.utf8EncodeChar]
  rw [hv, if_neg (by omega), if_neg (by omega), if_pos (by omega), octet_ofNat_eq (b := a) (by omega),
    octet_ofNat_eq (b := b) (by omega), octet_ofNat_eq (b := c) (by omega)]

lemma encodeChar_four {a b c d : UInt8} (ha : tails? a = some 3) (hb : follows a b = true)
    (hc : isTail c = true) (hd : isTail d = true) :
    String.utf8EncodeChar (four a b c d) = [a, b, c, d] := by
  have hl := tails?_eq_some ha
  have hr : 0x80 ≤ b.toNat ∧ b.toNat ≤ 0xbf ∧ (a.toNat = 0xf0 → 0x90 ≤ b.toNat) ∧
      (a.toNat = 0xf4 → b.toNat ≤ 0x8f) := by
    rw [follows_toNat] at hb
    split_ifs at hb <;> omega
  rw [isTail_toNat] at hc hd
  have hv : (four a b c d).val.toNat =
      ((a.toNat % 8 * 64 + b.toNat % 64) * 64 + c.toNat % 64) * 64 + d.toNat % 64 := by
    rw [four, bits, bits, bits, val_charOfNat (by omega)]
  simp only [String.utf8EncodeChar]
  rw [hv, if_neg (by omega), if_neg (by omega), if_neg (by omega), octet_ofNat_eq (b := a) (by omega),
    octet_ofNat_eq (b := b) (by omega), octet_ofNat_eq (b := c) (by omega),
    octet_ofNat_eq (b := d) (by omega)]

lemma collect_char {index : Nat} {c : Char} {n : Nat} {ps : List Piece} {cs : List Char}
    (h : collect index (.char c n :: ps) = .ok cs) :
    ∃ cs', collect (index + n) ps = .ok cs' ∧ cs = c :: cs' := by
  rw [collect] at h
  cases hc : collect (index + n) ps with
  | error f =>
    rw [hc] at h
    cases h
  | ok cs' =>
    rw [hc] at h
    cases h
    exact ⟨cs', rfl, rfl⟩

lemma flatMap_of_collect {octets : Octets} {index : Nat} {cs : List Char}
    (h : collect index (pieces octets) = .ok cs) : cs.flatMap String.utf8EncodeChar = octets := by
  fun_induction pieces octets generalizing index cs with
  | case1 =>
    cases h
    rfl
  | case2 | case4 | case5 | case7 | case8 | case10 | case11 => cases h
  | case3 a rest ha ih =>
    obtain ⟨cs', hc, rfl⟩ := collect_char h
    rw [List.flatMap_cons, ih hc, encodeChar_one ha]
    rfl
  | case6 a b rest hb _ ha ih =>
    obtain ⟨cs', hc, rfl⟩ := collect_char h
    rw [List.flatMap_cons, ih hc, encodeChar_two ha (by simpa using hb)]
    rfl
  | case9 a b hb c rest hc _ ha _ ih =>
    obtain ⟨cs', hcs, rfl⟩ := collect_char h
    rw [List.flatMap_cons, ih hcs, encodeChar_three ha (by simpa using hb) (by simpa using hc)]
    rfl
  | case12 a n hz ha b hb h₁ c hc h₂ d rest hd ih =>
    obtain ⟨cs', hcs, rfl⟩ := collect_char h
    have hn : n = 3 := by
      have hl := tails?_eq_some ha
      have h₀ : n ≠ 0 := hz
      omega
    subst hn
    rw [List.flatMap_cons, ih hcs,
      encodeChar_four ha (by simpa using hb) (by simpa using hc) (by simpa using hd)]
    rfl

theorem encode_of_decode {octets : Octets} {text : String} (h : decode octets = .ok text) :
    encode text = octets := by
  rw [decode] at h
  cases hc : collect 0 (pieces octets) with
  | error f =>
    rw [hc] at h
    cases h
  | ok cs =>
    rw [hc] at h
    cases h
    rw [encode, String.toList_ofList]
    exact flatMap_of_collect hc

end ObjectBroker.Utf8
