import ObjectBroker.Fragment.Split

/-!
Writing messages to a stream.
-/
namespace ObjectBroker.Writer

def defaultLimit : Nat := 65536

def frames (limit : Nat) (message : Message) (order : ByteOrder) :
    Except WireError (List Octets) :=
  Fragment.split limit (message.encode order)

def octets (limit : Nat) (message : Message) (order : ByteOrder) : Except WireError Octets :=
  List.flatten <$> frames limit message order

end ObjectBroker.Writer
