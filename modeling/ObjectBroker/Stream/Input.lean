import ObjectBroker.Stream.Error
import ObjectBroker.Stream.Output

/-!
Aligned input. A reading moves along the octets that are left; when it fails, what it had
already passed stays passed.
-/
namespace ObjectBroker

structure Input where
  order : ByteOrder
  position : Nat := 0
  rest : Octets
  deriving DecidableEq, Repr

abbrev Reading (ε : Type) := ExceptT ε (StateM Input)

instance {ε α : Type} [Inhabited ε] : Inhabited (Reading ε α) := ⟨throw default⟩

namespace Input

def remaining (i : Input) : Nat := i.rest.length

def isEmpty (i : Input) : Bool := i.rest.isEmpty

/-- Opens an encapsulation: its first octet tells the order of the rest. -/
def encapsulation : Octets → Except StreamError Input
  | [] => .error (.underflow 1 0)
  | flag :: rest =>
    match ByteOrder.ofFlag? flag with
    | none => .error (.badByteOrder flag)
    | some order => .ok { order, position := 1, rest }

end Input

namespace Reading

def run {ε α : Type} (r : Reading ε α) (i : Input) : Except ε α × Input :=
  StateT.run (ExceptT.run r) i

def ofExcept {ε α : Type} : Except ε α → Reading ε α
  | .ok a => pure a
  | .error e => throw e

def peek (n : Nat) : Reading StreamError Octets := do
  let i ← get
  match Octets.split? n i.rest with
  | some (front, _) => pure front
  | none => throw (.underflow n i.remaining)

def raw (n : Nat) : Reading StreamError Octets := do
  let front ← peek n
  modify fun i => { i with position := i.position + n, rest := i.rest.drop n }
  pure front

def align (alignment : Nat) : Reading StreamError Unit := do
  let i ← get
  let _ ← raw (padding i.position alignment)

def word (width : Nat) : Reading StreamError Nat := do
  align width
  let octets ← raw width
  pure ((← get).order.ofWord octets)

def peekWord (width : Nat) : Reading StreamError Nat := do
  align width
  let octets ← peek width
  pure ((← get).order.ofWord octets)

def scalar (kind : ScalarKind) : Reading StreamError Scalar := do
  let bits ← word kind.width
  match kind.ofBits? bits with
  | some s => pure s
  | none => throw (.badBoolean (UInt8.ofNat bits))

def octet : Reading StreamError UInt8 := do
  return UInt8.ofNat (← word 1)

def bool : Reading StreamError Bool := do
  let b ← octet
  if b = 0 then pure false
  else if b = 1 then pure true
  else throw (.badBoolean b)

def uint16 : Reading StreamError UInt16 := do
  return UInt16.ofNat (← word 2)

def uint32 : Reading StreamError UInt32 := do
  return UInt32.ofNat (← word 4)

def octets : Reading StreamError Octets := do
  raw (← word 4)

/-- Text is passed only as a whole: when it is bad, just its length has been read. -/
def string : Reading StreamError String := do
  let n ← word 4
  if n = 0 then
    throw (.badString "zero length")
  let octets ← peek n
  if octets.getLast? ≠ some 0 then
    throw (.badString "missing NUL terminator")
  match Utf8.decode octets.dropLast with
  | .error fault => throw (.badUtf8 fault)
  | .ok text =>
    let _ ← raw n
    pure text

def rest : Reading StreamError Octets := do
  raw (← get).remaining

def many {ε α : Type} (r : Reading ε α) : Nat → Reading ε (List α)
  | 0 => pure []
  | n + 1 => do
    let a ← r
    let rest ← many r n
    pure (a :: rest)

end Reading

end ObjectBroker
