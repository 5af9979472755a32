import ObjectBroker.Text.Hex
import ObjectBroker.Text.Utf8

/-!
Percent escapes: an octet that may not stand for itself is written as a percent sign and two
hexadecimal digits.
-/
namespace ObjectBroker.Percent

def marks : List Char := ";/:?@&=+$,-_.!~*'()".toList

def isPlain (b : UInt8) : Bool :=
  let c := Char.ofNat b.toNat
  c.isAlphanum || marks.contains c

def octet (b : UInt8) : List Char :=
  if isPlain b then [Char.ofNat b.toNat] else '%' :: Hex.upper b

def encode (octets : Octets) : String :=
  String.ofList (octets.flatMap octet)

def unescape : Octets → Option Octets
  | [] => some []
  | 0x25 :: high :: low :: rest =>
    match Hex.value? high, Hex.value? low with
    | some h, some l => (unescape rest).map ((h * 16 + l) :: ·)
    | _, _ => none
  | b :: rest => if b = 0x25 then none else (unescape rest).map (b :: ·)

/-- The octets that text stands for; nothing when an escape is bad. -/
def decode? (text : List Char) : Option Octets :=
  unescape (Utf8.encode (String.ofList text))

end ObjectBroker.Percent
