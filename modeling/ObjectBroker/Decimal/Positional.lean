import ObjectBroker.Decimal.Shortest

/-!
Doubles as text: the shortest digits, never with an exponent and with a point only before places
that are needed.
-/
namespace ObjectBroker.Decimal

def zeros (n : Nat) : List Char := List.replicate n '0'

def trimZeros (places : List Char) : List Char :=
  (places.reverse.dropWhile (· == '0')).reverse

def Scaled.chars (d : Scaled) : List Char :=
  let ds := Nat.toDigits 10 d.digits
  if 0 ≤ d.exponent then ds ++ zeros d.exponent.toNat
  else
    let places := (-d.exponent).toNat
    let ds := zeros (places + 1 - ds.length) ++ ds
    match trimZeros (ds.drop (ds.length - places)) with
    | [] => ds.take (ds.length - places)
    | fraction => ds.take (ds.length - places) ++ '.' :: fraction

def magnitudeText (pattern : UInt64) : String :=
  if biased pattern = 2047 then "inf"
  else if biased pattern = 0 ∧ fraction pattern = 0 then "0"
  else String.ofList (interval pattern).shortest.chars

def text (pattern : UInt64) : String :=
  if biased pattern = 2047 ∧ fraction pattern ≠ 0 then "NaN"
  else if isNegative pattern then "-" ++ magnitudeText pattern
  else magnitudeText pattern

end ObjectBroker.Decimal
