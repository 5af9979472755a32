import ObjectBroker.Fragment.Reassembly

/-!
Reading messages from a stream that arrives in chunks.
-/
namespace ObjectBroker

/-- What has arrived and is not read yet, and whether the stream has ended after it. -/
structure Inlet where
  chunks : List Octets
  ended : Bool
  deriving DecidableEq, Repr

structure Reader where
  limit : Nat
  buffer : Octets := []
  peerOrder : Option ByteOrder := none
  reassembler : Reassembler
  deriving DecidableEq, Repr

/-- The outcome of an attempt to read: `waiting` when more octets have to arrive first. -/
inductive Read (α : Type) where
  | done (a : α)
  | failed (e : WireError)
  | waiting

namespace Reader

def defaultLimit : Nat := 16 * 1024 * 1024

def new (limit : Nat) : Reader :=
  { limit, reassembler := { limit } }

def fill (need : Nat) (buffer : Octets) : List Octets → Octets × List Octets
  | [] => (buffer, [])
  | chunk :: chunks =>
    if need ≤ buffer.length then (buffer, chunk :: chunks)
    else fill need (buffer ++ chunk) chunks

def incomplete (text : String) : WireError :=
  .io .unexpectedEof text

def readFrame (r : Reader) (source : Inlet) : Read (Header × Octets) × Reader × Inlet :=
  let (buffer, chunks) := fill Header.size r.buffer source.chunks
  let r := { r with buffer }
  let source := { source with chunks }
  if buffer.length < Header.size then
    if !source.ended then (.waiting, r, source)
    else if buffer.isEmpty then (.failed .closed, r, source)
    else (.failed (incomplete "incomplete GIOP header"), r, source)
  else match Header.decode buffer with
    | .error e => (.failed e, r, source)
    | .ok h =>
      if r.limit < h.frameLength then (.failed (.tooLarge h.frameLength r.limit), r, source)
      else
        let (buffer, chunks) := fill h.frameLength buffer source.chunks
        let r := { r with buffer }
        let source := { source with chunks }
        match Octets.split? h.frameLength buffer with
        | some (frame, rest) =>
          (.done (h, frame.drop Header.size), { r with buffer := rest }, source)
        | none =>
          if source.ended then
            (.failed (incomplete s!"incomplete GIOP message: expected {h.frameLength} bytes, got {buffer.length}"),
              r, source)
          else (.waiting, r, source)

def checkOrder (r : Reader) (order : ByteOrder) : Except WireError Reader :=
  match r.peerOrder with
  | none => .ok { r with peerOrder := some order }
  | some known => if known = order then .ok r else .error .byteOrderChanged

/-- Takes a frame that was read: its message when that is now whole. -/
def accept (r : Reader) (h : Header) (body : Octets) :
    Except WireError (Option (Message × ByteOrder)) × Reader :=
  match r.checkOrder h.order with
  | .error e => (.error e, r)
  | .ok r =>
    match r.reassembler.push h body with
    | .error e => (.error e, r)
    | .ok (none, reassembler) => (.ok none, { r with reassembler })
    | .ok (some (h, body), reassembler) =>
      ((Message.decodeBody h body).map fun m => some (m, h.order), { r with reassembler })

def available (r : Reader) (source : Inlet) : Nat :=
  r.buffer.length + Octets.total source.chunks

/-- Reads frames until a message is whole. Every frame has a header, so `fuel` frames are enough
for as many octets. -/
def readFrames (r : Reader) (source : Inlet) : Nat → Read (Message × ByteOrder) × Reader × Inlet
  | 0 => (.waiting, r, source)
  | fuel + 1 =>
    match r.readFrame source with
    | (.waiting, r, source) => (.waiting, r, source)
    | (.failed e, r, source) => (.failed e, r, source)
    | (.done (h, body), r, source) =>
      match r.accept h body with
      | (.error e, r) => (.failed e, r, source)
      | (.ok (some m), r) => (.done m, r, source)
      | (.ok none, r) => r.readFrames source fuel

def readMessage (r : Reader) (source : Inlet) : Read (Message × ByteOrder) × Reader × Inlet :=
  r.readFrames source (r.available source + 1)

end Reader

end ObjectBroker
