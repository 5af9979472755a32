import ObjectBroker.Fragment.Split

/-!
Putting fragments together again. Fragments of several messages may come interleaved; they are
told apart by request id.
-/
namespace ObjectBroker

structure Assembly where
  header : Header
  buffer : Array UInt8 := #[]
  pieces : Nat := 0
  deriving DecidableEq, Repr

namespace Assembly

def body (a : Assembly) : Octets := a.buffer.toList

def append (limit : Nat) (a : Assembly) (data : Octets) : Except WireError Assembly :=
  let size := Header.size + a.buffer.size + data.length
  if limit < size then .error (.tooLarge size limit)
  else .ok { a with buffer := a.buffer ++ data, pieces := a.pieces + 1 }

def start (limit : Nat) (header : Header) (first : Octets) : Except WireError Assembly :=
  append limit { header } first

def finish (a : Assembly) : Header × Octets :=
  ((a.header.withMore false).withBody a.body, a.body)

end Assembly

structure Reassembler where
  limit : Nat
  pending : List (UInt32 × Assembly) := []
  deriving DecidableEq, Repr

namespace Reassembler

def inProgress (r : Reassembler) : Nat := r.pending.length

def get? (r : Reassembler) (id : UInt32) : Option Assembly :=
  r.pending.lookup id

def erase (r : Reassembler) (id : UInt32) : Reassembler :=
  { r with pending := r.pending.filter (·.1 != id) }

def insert (r : Reassembler) (id : UInt32) (a : Assembly) : Reassembler :=
  { r with pending := (id, a) :: (r.erase id).pending }

def pushFragment (r : Reassembler) (header : Header) (body : Octets) :
    Except WireError (Option (Header × Octets) × Reassembler) := do
  let id ← Fragment.leadingId header body
  match r.get? id with
  | none => throw (.unexpectedFragment id)
  | some a =>
    if a.header.order ≠ header.order then
      throw .byteOrderChanged
    let a ← a.append r.limit (body.drop 4)
    if header.more then
      return (none, r.insert id a)
    return (some a.finish, r.erase id)

def pushFirst (r : Reassembler) (header : Header) (body : Octets) :
    Except WireError (Option (Header × Octets) × Reassembler) := do
  if !header.kind.isFragmentable then
    throw (.notFragmentable header.kind)
  let id ← Fragment.leadingId header body
  if (r.get? id).isSome then
    throw (.invalid s!"request {id} is already being reassembled")
  let a ← Assembly.start r.limit header body
  return (none, r.insert id a)

/-- Takes one frame and gives the message it completes, if any. A frame that was not cut passes
through, and one that is refused changes nothing. -/
def push (r : Reassembler) (header : Header) (body : Octets) :
    Except WireError (Option (Header × Octets) × Reassembler) :=
  if header.kind = .fragment then r.pushFragment header body
  else if header.more then r.pushFirst header body
  else .ok (some (header, body), r)

end Reassembler

end ObjectBroker
