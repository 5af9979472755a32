import ObjectBroker.ByteOrder
import ObjectBroker.Message.Error

/-!
The header of a message: twelve octets with the kind, the byte order and the size of the body.
-/
namespace ObjectBroker

structure Header where
  flags : UInt8
  kind : MessageKind
  bodySize : UInt32
  deriving DecidableEq, Repr

namespace Header

def size : Nat := 12

def magic : Octets := [0x47, 0x49, 0x4f, 0x50]

def version : UInt8 × UInt8 := (1, 2)

def make (kind : MessageKind) (order : ByteOrder) (bodySize : Nat) : Header :=
  { flags := order.flag, kind, bodySize := UInt32.ofNat bodySize }

def order (h : Header) : ByteOrder :=
  if h.flags &&& 1 = 0 then .bigEndian else .littleEndian

def more (h : Header) : Bool :=
  h.flags &&& 2 ≠ 0

def withMore (h : Header) (more : Bool) : Header :=
  { h with flags := if more then h.flags ||| 2 else h.flags &&& 0xfd }

def withBody (h : Header) (body : Octets) : Header :=
  { h with bodySize := UInt32.ofNat body.length }

def frameLength (h : Header) : Nat :=
  size + h.bodySize.toNat

def encode (h : Header) : Octets :=
  magic ++ [version.1, version.2, h.flags, h.kind.code] ++ h.order.word 4 h.bodySize.toNat

def decodeFields (h : Octets) (major minor flags code : UInt8) (size : Octets) :
    Except WireError Header :=
  if h ≠ magic then .error (.badMagic h)
  else if (major, minor) ≠ version then .error (.versionMismatch major minor)
  else match MessageKind.ofCode? code with
    | none => .error (.badMessageKind code)
    | some kind =>
      let header : Header := { flags, kind, bodySize := 0 }
      .ok { header with bodySize := UInt32.ofNat (header.order.ofWord size) }

def decode : Octets → Except WireError Header
  | a :: b :: c :: d :: major :: minor :: flags :: code :: e :: f :: g :: h :: _ =>
    decodeFields [a, b, c, d] major minor flags code [e, f, g, h]
  | octets => .error (.invalid s!"header needs {size} bytes, have {octets.length}")

end Header

end ObjectBroker
