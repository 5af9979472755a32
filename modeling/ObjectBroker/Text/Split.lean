/-!
Cutting text at a character.
-/
namespace ObjectBroker.Split

/-- The text before and after the first `c`; nothing when there is none. -/
def once? (c : Char) : List Char → Option (List Char × List Char)
  | [] => none
  | d :: rest =>
    if d = c then some ([], rest)
    else (once? c rest).map fun (before, after) => (d :: before, after)

def parts (c : Char) : List Char → List (List Char)
  | [] => [[]]
  | d :: rest =>
    if d = c then [] :: parts c rest
    else match parts c rest with
      | [] => [[d]]
      | first :: others => (d :: first) :: others

/-- The rest of `text` after `front`; nothing when it does not start so. -/
def after? : (front text : List Char) → Option (List Char)
  | [], text => some text
  | _ :: _, [] => none
  | a :: front, b :: text => if a = b then after? front text else none

end ObjectBroker.Split
