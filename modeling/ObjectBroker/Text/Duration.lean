/-!
Spans of time as text: milliseconds, and from one second on seconds with as many places as are
needed.
-/
namespace ObjectBroker.Duration

def places (ms : Nat) : List Char :=
  let digits := (Nat.toDigits 10 (1000 + ms % 1000)).drop 1
  (digits.reverse.dropWhile (· == '0')).reverse

def text (ms : Nat) : String :=
  if ms = 0 then "0ns"
  else if ms < 1000 then s!"{ms}ms"
  else match places ms with
    | [] => s!"{ms / 1000}s"
    | ds => s!"{ms / 1000}." ++ String.ofList ds ++ "s"

end ObjectBroker.Duration
