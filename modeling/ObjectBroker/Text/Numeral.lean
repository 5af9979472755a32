/-!
Unsigned decimal numerals: digits, one plus sign allowed in front, below a limit.
-/
namespace ObjectBroker.Numeral

def isDigit (c : Char) : Bool :=
  '0' ≤ c && c ≤ '9'

def value (text : List Char) : Nat :=
  text.foldl (fun n c => 10 * n + (c.toNat - '0'.toNat)) 0

def unsigned (text : List Char) : List Char :=
  match text with
  | '+' :: rest => rest
  | _ => text

def parse? (limit : Nat) (text : List Char) : Option Nat :=
  let ds := unsigned text
  if ds.isEmpty || !ds.all isDigit then none
  else if value ds < limit then some (value ds) else none

end ObjectBroker.Numeral
