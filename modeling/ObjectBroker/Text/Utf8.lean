import ObjectBroker.Octets

/-!
UTF-8. Octets are cut into pieces, each a character or a maximal run that no character can
hold. Strict reading refuses the first such run; lossy reading puts U+FFFD for each.
-/
namespace ObjectBroker.Utf8

def encode (text : String) : Octets :=
  text.toList.flatMap String.utf8EncodeChar

inductive Piece where
  | char (c : Char) (width : Nat)
  | bad (width : Nat)
  | cut (width : Nat)
  deriving DecidableEq, Repr

def Piece.width : Piece → Nat
  | .char _ n => n
  | .bad n => n
  | .cut n => n

def Piece.isChar : Piece → Bool
  | .char _ _ => true
  | _ => false

def isTail (b : UInt8) : Bool :=
  0x80 ≤ b && b ≤ 0xbf

/-- How many octets follow a leading octet; nothing when none may lead with it. -/
def tails? (b : UInt8) : Option Nat :=
  if b ≤ 0x7f then some 0
  else if 0xc2 ≤ b ∧ b ≤ 0xdf then some 1
  else if 0xe0 ≤ b ∧ b ≤ 0xef then some 2
  else if 0xf0 ≤ b ∧ b ≤ 0xf4 then some 3
  else none

def follows (lead b : UInt8) : Bool :=
  if lead = 0xe0 then 0xa0 ≤ b && b ≤ 0xbf
  else if lead = 0xed then 0x80 ≤ b && b ≤ 0x9f
  else if lead = 0xf0 then 0x90 ≤ b && b ≤ 0xbf
  else if lead = 0xf4 then 0x80 ≤ b && b ≤ 0x8f
  else isTail b

def bits (b : UInt8) : Nat := b.toNat % 64

def two (a b : UInt8) : Char :=
  Char.ofNat (a.toNat % 32 * 64 + bits b)

def three (a b c : UInt8) : Char :=
  Char.ofNat ((a.toNat % 16 * 64 + bits b) * 64 + bits c)

def four (a b c d : UInt8) : Char :=
  Char.ofNat (((a.toNat % 8 * 64 + bits b) * 64 + bits c) * 64 + bits d)

def pieces : Octets → List Piece
  | [] => []
  | a :: rest =>
    match tails? a with
    | none => .bad 1 :: pieces rest
    | some 0 => .char (Char.ofNat a.toNat) 1 :: pieces rest
    | some n =>
      match rest with
      | [] => [.cut 1]
      | b :: rest₁ =>
        if !follows a b then .bad 1 :: pieces (b :: rest₁)
        else if n = 1 then .char (two a b) 2 :: pieces rest₁
        else match rest₁ with
          | [] => [.cut 2]
          | c :: rest₂ =>
            if !isTail c then .bad 2 :: pieces (c :: rest₂)
            else if n = 2 then .char (three a b c) 3 :: pieces rest₂
            else match rest₂ with
              | [] => [.cut 3]
              | d :: rest₃ =>
                if !isTail d then .bad 3 :: pieces (d :: rest₃)
                else .char (four a b c d) 4 :: pieces rest₃

/-- Where reading stopped, and how many octets are bad there: nothing when the text ends
inside a character. -/
structure Fault where
  index : Nat
  run : Option Nat
  deriving DecidableEq, Repr

def Fault.message (f : Fault) : String :=
  match f.run with
  | none => s!"incomplete utf-8 byte sequence from index {f.index}"
  | some n => s!"invalid utf-8 sequence of {n} bytes from index {f.index}"

def collect (index : Nat) : List Piece → Except Fault (List Char)
  | [] => .ok []
  | .char c n :: rest => (collect (index + n) rest).map (c :: ·)
  | .bad n :: _ => .error ⟨index, some n⟩
  | .cut _ :: _ => .error ⟨index, none⟩

def decode (octets : Octets) : Except Fault String :=
  (collect 0 (pieces octets)).map String.ofList

def Piece.shown : Piece → Char
  | .char c _ => c
  | _ => '�'

def lossy (octets : Octets) : String :=
  String.ofList ((pieces octets).map Piece.shown)

end ObjectBroker.Utf8
