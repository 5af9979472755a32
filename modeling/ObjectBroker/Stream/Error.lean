import ObjectBroker.Text.Hex
import ObjectBroker.Text.Utf8

/-!
Why reading a stream fails.
-/
namespace ObjectBroker

inductive StreamError where
  | underflow (needed present : Nat)
  | badString (reason : String)
  | badBoolean (octet : UInt8)
  | badByteOrder (flag : UInt8)
  | badUtf8 (fault : Utf8.Fault)
  deriving DecidableEq, Repr

def StreamError.message : StreamError → String
  | .underflow needed present => s!"buffer underflow: needed {needed} bytes, have {present}"
  | .badString reason => s!"invalid string: {reason}"
  | .badBoolean octet => s!"invalid boolean octet: {Hex.marked 2 octet.toNat}"
  | .badByteOrder flag => s!"invalid byte order flag: {Hex.marked 2 flag.toNat}"
  | .badUtf8 fault => s!"UTF-8 error: {fault.message}"

end ObjectBroker
