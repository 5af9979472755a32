import ObjectBroker.Octets

/-!
Byte order. A word of `width` octets is written through its base-256 digits, least significant
first, and the order arranges them.
-/
namespace ObjectBroker

inductive ByteOrder where
  | bigEndian
  | littleEndian
  deriving DecidableEq, Repr, Inhabited

namespace ByteOrder

def flag : ByteOrder → UInt8
  | .bigEndian => 0
  | .littleEndian => 1

def ofFlag? (flag : UInt8) : Option ByteOrder :=
  if flag = 0 then some .bigEndian
  else if flag = 1 then some .littleEndian
  else none

theorem ofFlag?_flag (order : ByteOrder) : ofFlag? order.flag = some order := by
  cases order <;> rfl

def isLittle : ByteOrder → Bool
  | .bigEndian => false
  | .littleEndian => true

def name : ByteOrder → String
  | .bigEndian => "BigEndian"
  | .littleEndian => "LittleEndian"

def digits : (width n : Nat) → Octets
  | 0, _ => []
  | width + 1, n => UInt8.ofNat n :: digits width (n / 256)

def value : Octets → Nat
  | [] => 0
  | b :: rest => b.toNat + 256 * value rest

def arrange (order : ByteOrder) (octets : Octets) : Octets :=
  match order with
  | .bigEndian => octets.reverse
  | .littleEndian => octets

def word (order : ByteOrder) (width n : Nat) : Octets :=
  order.arrange (digits width n)

def ofWord (order : ByteOrder) (octets : Octets) : Nat :=
  value (order.arrange octets)

@[simp] theorem length_digits (width n : Nat) : (digits width n).length = width := by
  induction width generalizing n with
  | zero => rfl
  | succ width ih => simp [digits, ih]

@[simp] theorem length_arrange (order : ByteOrder) (octets : Octets) :
    (order.arrange octets).length = octets.length := by
  cases order <;> simp [arrange]

@[simp] theorem arrange_arrange (order : ByteOrder) (octets : Octets) :
    order.arrange (order.arrange octets) = octets := by
  cases order <;> simp [arrange]

@[simp] theorem length_word (order : ByteOrder) (width n : Nat) :
    (order.word width n).length = width := by
  simp [word]

end ByteOrder

end ObjectBroker
