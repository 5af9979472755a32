import ObjectBroker.Endpoint
import ObjectBroker.Message.Codec

/-!
The offer of bidirectional use: a service context that lists where its sender can be reached.
-/
namespace ObjectBroker

namespace Bidirectional

def contextId : UInt32 := 5

def putPoint (o : Output) (point : Endpoint) : Output :=
  (o.putString point.host).putUInt16 point.port

def offer (points : List Endpoint) (order : ByteOrder) : ServiceContext :=
  let start := (Output.encapsulation order).putWord 4 points.length
  { id := contextId, data := (points.foldl putPoint start).octets }

def getPoint : Reading StreamError Endpoint := do
  let host ← Reading.string
  let port ← Reading.uint16
  pure { host, port }

def getPoints : Reading StreamError (List Endpoint) := do
  Reading.many getPoint (← Reading.word 4)

def points (context : ServiceContext) : Except WireError (List Endpoint) :=
  match Input.encapsulation context.data with
  | .error e => .error (.stream e)
  | .ok input => ((Reading.run getPoints input).1).mapError .stream

def find (contexts : List ServiceContext) : Except WireError (Option (List Endpoint)) :=
  match contexts.find? (·.id == contextId) with
  | none => .ok none
  | some context => some <$> points context

end Bidirectional

end ObjectBroker
