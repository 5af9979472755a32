import ObjectBroker.Octets
import ObjectBroker.Text.Quoted

/-!
Hexadecimal text: two digits an octet, and numbers with a `0x` mark.
-/
namespace ObjectBroker.Hex

def octet (b : UInt8) : List Char :=
  [Nat.digitChar (b.toNat / 16), Nat.digitChar (b.toNat % 16)]

def encode (octets : Octets) : String :=
  String.ofList (octets.flatMap octet)

def upper (b : UInt8) : List Char :=
  (octet b).map Char.toUpper

def value? (b : UInt8) : Option UInt8 :=
  if 0x30 ≤ b ∧ b ≤ 0x39 then some (b - 0x30)
  else if 0x61 ≤ b ∧ b ≤ 0x66 then some (b - 0x57)
  else if 0x41 ≤ b ∧ b ≤ 0x46 then some (b - 0x37)
  else none

inductive Fault where
  | odd
  | badDigit (octet : UInt8) (index : Nat)
  deriving DecidableEq, Repr

def Fault.message : Fault → String
  | .odd => "Odd number of digits"
  | .badDigit b i => s!"Invalid character {Quoted.char (Char.ofNat b.toNat)} at position {i}"

def pairs (index : Nat) : Octets → Except Fault Octets
  | [] => .ok []
  | [_] => .error .odd
  | high :: low :: rest =>
    match value? high, value? low with
    | none, _ => .error (.badDigit high index)
    | some _, none => .error (.badDigit low (index + 1))
    | some h, some l => (pairs (index + 2) rest).map ((h * 16 + l) :: ·)

def decode (text : Octets) : Except Fault Octets :=
  if text.length % 2 = 1 then .error .odd else pairs 0 text

def digits (n : Nat) : String :=
  String.ofList (Nat.toDigits 16 n)

def padded (width n : Nat) : String :=
  String.ofList (List.replicate (width - (Nat.toDigits 16 n).length) '0' ++ Nat.toDigits 16 n)

def marked (width n : Nat) : String :=
  "0x" ++ padded width n

end ObjectBroker.Hex
