/-!
Scalars: booleans, octets, whole numbers of three widths and floating-point numbers. A
floating-point number is its IEEE bit pattern, so the sign of zero and the payload of a NaN are
kept.
-/
namespace ObjectBroker

inductive ScalarKind where
  | boolean
  | octet
  | int16
  | uint16
  | int32
  | uint32
  | int64
  | uint64
  | float32
  | float64
  deriving DecidableEq, Repr

inductive Scalar where
  | boolean (value : Bool)
  | octet (value : UInt8)
  | int16 (value : Int16)
  | uint16 (value : UInt16)
  | int32 (value : Int32)
  | uint32 (value : UInt32)
  | int64 (value : Int64)
  | uint64 (value : UInt64)
  | float32 (pattern : UInt32)
  | float64 (pattern : UInt64)
  deriving DecidableEq, Repr

namespace ScalarKind

def width : ScalarKind → Nat
  | .boolean | .octet => 1
  | .int16 | .uint16 => 2
  | .int32 | .uint32 | .float32 => 4
  | .int64 | .uint64 | .float64 => 8

def name : ScalarKind → String
  | .boolean => "Boolean"
  | .octet => "Octet"
  | .int16 => "Short"
  | .uint16 => "UShort"
  | .int32 => "Long"
  | .uint32 => "ULong"
  | .int64 => "LongLong"
  | .uint64 => "ULongLong"
  | .float32 => "Float"
  | .float64 => "Double"

/-- The scalar with the given bits; nothing for a boolean other than 0 and 1. -/
def ofBits? (kind : ScalarKind) (bits : Nat) : Option Scalar :=
  match kind with
  | .boolean =>
    if bits = 0 then some (.boolean false)
    else if bits = 1 then some (.boolean true)
    else none
  | .octet => some (.octet (UInt8.ofNat bits))
  | .int16 => some (.int16 (UInt16.ofNat bits).toInt16)
  | .uint16 => some (.uint16 (UInt16.ofNat bits))
  | .int32 => some (.int32 (UInt32.ofNat bits).toInt32)
  | .uint32 => some (.uint32 (UInt32.ofNat bits))
  | .int64 => some (.int64 (UInt64.ofNat bits).toInt64)
  | .uint64 => some (.uint64 (UInt64.ofNat bits))
  | .float32 => some (.float32 (UInt32.ofNat bits))
  | .float64 => some (.float64 (UInt64.ofNat bits))

def zero : ScalarKind → Scalar
  | .boolean => .boolean false
  | .octet => .octet 0
  | .int16 => .int16 0
  | .uint16 => .uint16 0
  | .int32 => .int32 0
  | .uint32 => .uint32 0
  | .int64 => .int64 0
  | .uint64 => .uint64 0
  | .float32 => .float32 0
  | .float64 => .float64 0

end ScalarKind

/-- IEEE equality of bit patterns, where `sign` is the place of the sign bit and `infinity` the
pattern of infinity: a NaN differs from everything, and the two zeros are equal. -/
def ieeeEqual (sign infinity a b : Nat) : Bool :=
  if infinity < a % sign || infinity < b % sign then false
  else a == b || (a % sign == 0 && b % sign == 0)

namespace Scalar

def kind : Scalar → ScalarKind
  | .boolean _ => .boolean
  | .octet _ => .octet
  | .int16 _ => .int16
  | .uint16 _ => .uint16
  | .int32 _ => .int32
  | .uint32 _ => .uint32
  | .int64 _ => .int64
  | .uint64 _ => .uint64
  | .float32 _ => .float32
  | .float64 _ => .float64

def bits : Scalar → Nat
  | .boolean b => b.toNat
  | .octet v => v.toNat
  | .int16 v => v.toUInt16.toNat
  | .uint16 v => v.toNat
  | .int32 v => v.toUInt32.toNat
  | .uint32 v => v.toNat
  | .int64 v => v.toUInt64.toNat
  | .uint64 v => v.toNat
  | .float32 p => p.toNat
  | .float64 p => p.toNat

theorem ofBits?_bits (s : Scalar) : s.kind.ofBits? s.bits = some s := by
  cases s with
  | boolean b => cases b <;> rfl
  | _ => simp [kind, bits, ScalarKind.ofBits?]

/-- Equal as numbers: floating-point numbers by IEEE equality, all others bit for bit. -/
def same : Scalar → Scalar → Bool
  | .float32 a, .float32 b => ieeeEqual 0x80000000 0x7f800000 a.toNat b.toNat
  | .float64 a, .float64 b => ieeeEqual 0x8000000000000000 0x7ff0000000000000 a.toNat b.toNat
  | a, b => a == b

end Scalar

end ObjectBroker
