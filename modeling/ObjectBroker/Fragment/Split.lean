import ObjectBroker.Message.Codec

/-!
Cutting a frame into fragments. The first frame keeps the kind of the message; the others are
fragments that repeat its request id. All but the last tell that more follow.
-/
namespace ObjectBroker.Fragment

def overhead : Nat := Header.size + 4

def chunkSize (limit : Nat) : Nat :=
  if overhead < limit then (limit - overhead) / 8 * 8 else 0

def leadingId (h : Header) (body : Octets) : Except WireError UInt32 :=
  match Octets.split? 4 body with
  | none => .error (.invalid s!"fragmented {h.kind.name} body shorter than a request id")
  | some (front, _) => .ok (UInt32.ofNat (h.order.ofWord front))

def chunks (size : Nat) (body : Octets) : List Octets :=
  if size = 0 ∨ body = [] then []
  else body.take size :: chunks size (body.drop size)
termination_by body.length
decreasing_by
  rename_i h
  have : body ≠ [] := fun hb => h (.inr hb)
  have := List.length_pos_iff.mpr this
  simp only [List.length_drop]
  omega

def continuations (order : ByteOrder) (id : UInt32) : List Octets → List Octets
  | [] => []
  | [last] => [(Message.fragment id false last).encode order]
  | chunk :: rest => (Message.fragment id true chunk).encode order :: continuations order id rest

def frames (h : Header) (id : UInt32) : List Octets → List Octets
  | [] => []
  | first :: rest =>
    let head := (h.withMore !rest.isEmpty).withBody first
    (head.encode ++ first) :: continuations h.order id rest

/-- Splits a frame into frames no longer than `limit`; one that fits stays as it is. -/
def split (limit : Nat) (frame : Octets) : Except WireError (List Octets) :=
  if frame.length ≤ limit then .ok [frame]
  else do
    let h ← Header.decode frame
    if !h.kind.isFragmentable then
      throw (.notFragmentable h.kind)
    if chunkSize limit < 8 then
      throw (.invalid s!"fragment size {limit} too small")
    let body := frame.drop Header.size
    let id ← leadingId h body
    return frames h id (chunks (chunkSize limit) body)

end ObjectBroker.Fragment
