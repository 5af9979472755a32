import ObjectBroker.ByteOrder
import ObjectBroker.Scalar
import ObjectBroker.Text.Utf8

/-!
Aligned output. A scalar starts at a multiple of its width, counted from the origin of the
stream, after zero octets that fill the gap.
-/
namespace ObjectBroker

def padding (position alignment : Nat) : Nat :=
  if alignment ≤ 1 then 0
  else if position % alignment = 0 then 0
  else alignment - position % alignment

theorem padding_lt (position alignment : Nat) (h : 1 < alignment) :
    padding position alignment < alignment := by
  unfold padding
  split
  · omega
  · split <;> omega

theorem dvd_add_padding (position alignment : Nat) :
    alignment ∣ position + padding position alignment ∨ alignment = 0 := by
  unfold padding
  split
  · have : alignment = 0 ∨ alignment = 1 := by omega
    rcases this with rfl | rfl <;> simp
  · split
    · exact .inl (Nat.dvd_of_mod_eq_zero ‹_›)
    · refine .inl ⟨position / alignment + 1, ?_⟩
      have hd := Nat.div_add_mod position alignment
      have hm := Nat.mod_lt position (y := alignment) (by omega)
      rw [Nat.mul_add]
      omega

structure Output where
  order : ByteOrder
  origin : Nat := 0
  buffer : Array UInt8 := #[]
  deriving DecidableEq, Repr

namespace Output

def octets (o : Output) : Octets := o.buffer.toList

def length (o : Output) : Nat := o.buffer.size

def position (o : Output) : Nat := o.origin + o.length

def append (o : Output) (octets : Octets) : Output :=
  { o with buffer := o.buffer ++ octets }

def align (o : Output) (alignment : Nat) : Output :=
  o.append (List.replicate (padding o.position alignment) 0)

def putWord (o : Output) (width n : Nat) : Output :=
  (o.align width).append (o.order.word width n)

def putScalar (o : Output) (s : Scalar) : Output :=
  o.putWord s.kind.width s.bits

def putOctet (o : Output) (b : UInt8) : Output :=
  o.append [b]

def putBool (o : Output) (b : Bool) : Output :=
  o.append [if b then 1 else 0]

def putUInt16 (o : Output) (n : UInt16) : Output :=
  o.putWord 2 n.toNat

def putUInt32 (o : Output) (n : UInt32) : Output :=
  o.putWord 4 n.toNat

def putOctets (o : Output) (octets : Octets) : Output :=
  (o.putWord 4 octets.length).append octets

def putString (o : Output) (text : String) : Output :=
  let octets := Utf8.encode text
  (o.putWord 4 (octets.length + 1)).append (octets ++ [0])

/-- The start of an encapsulation: a stream of its own whose first octet tells its order. -/
def encapsulation (order : ByteOrder) : Output :=
  { order, buffer := #[order.flag] }

def patch (o : Output) (offset : Nat) (n : UInt32) : Output :=
  if offset + 4 ≤ o.length then
    { o with buffer :=
        (o.octets.take offset ++ o.order.word 4 n.toNat ++ o.octets.drop (offset + 4)).toArray }
  else o

@[simp] theorem append_order (o : Output) (octets : Octets) : (o.append octets).order = o.order :=
  rfl

@[simp] theorem append_octets (o : Output) (octets : Octets) :
    (o.append octets).octets = o.octets ++ octets := by
  simp [Output.octets, append]

@[simp] theorem length_octets (o : Output) : o.octets.length = o.length := by
  simp [octets, length]

@[simp] theorem length_append (o : Output) (octets : Octets) :
    (o.append octets).length = o.length + octets.length := by
  rw [← length_octets, append_octets, List.length_append, length_octets]

@[simp] theorem position_append (o : Output) (octets : Octets) :
    (o.append octets).position = o.position + octets.length := by
  have h : (o.append octets).origin = o.origin := rfl
  simp only [position, h, length_append]
  omega

end Output

end ObjectBroker
