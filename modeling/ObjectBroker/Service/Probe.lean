import ObjectBroker.Service.Tokens
import ObjectBroker.Value.Equality

/-!
The probe: a servant that gives back what it gets, fails as it is told, waits, and calls other
objects.
-/
namespace ObjectBroker.Service

def sameValue (h : Heap) : Option NodeId → Option NodeId → Bool × Bool
  | none, none => (false, true)
  | some a, some b => (a == b, h.same a b)
  | _, _ => (false, false)

def ownReference (c : CallContext) : Serving Service Reference := do
  let w ← Serving.ofActivity Activity.world
  match (w.broker c.broker).adapters.get? c.adapter with
  | none => throw (.unknownObject c.id)
  | some a =>
    match (a.servant? c.id).bind (w.objects[·]?) with
    | some (.custom s) =>
      pure { typeId := s.typeId, endpoint := (w.broker c.broker).endpoint, key := a.key c.id,
             isLocal := true }
    | _ => throw (.unknownObject (a.keyText c.id))

def callOther (c : CallContext) : Serving Service Unit := do
  match ← Serving.read Unmarshalling.object with
  | none => throw (.adapter "nil target")
  | some target =>
    let operation ← Serving.stream Reading.string
    let message ← Serving.stream Reading.string
    let b ← Serving.ofActivity (Activity.broker c.broker)
    let results ← Serving.ofCall (Invocation.invokeResults c.broker target operation
      (b.marshaller.put (·.putString message)))
    let rest ← Serving.ofCall (Call.reading results (Unmarshalling.stream Reading.rest))
    Serving.write (·.append rest)

def bounce (c : CallContext) : Serving Service Unit := do
  let depth ← Serving.stream Reading.uint32
  match ← Serving.read Unmarshalling.object with
  | none => Serving.write (·.putUInt32 0)
  | some peer =>
    if depth = 0 then
      Serving.write (·.putUInt32 0)
    else
      let own ← ownReference c
      let b ← Serving.ofActivity (Activity.broker c.broker)
      let args := (b.marshaller.put (·.putUInt32 (depth - 1))).putObject (some own)
      let results ← Serving.ofCall (Invocation.invokeResults c.broker peer "bounce" args)
      let hops ← Serving.ofCall (Call.reading results (Unmarshalling.stream Reading.uint32))
      Serving.write (·.putUInt32 (hops + 1))

def invokeProbe (c : CallContext) (failure : String → BrokerError) (operation : String) :
    Serving Service Unit :=
  match operation with
  | "raw" => do
    let rest ← Serving.stream Reading.rest
    Serving.write (·.append rest)
  | "mixed" => do
    let a ← Serving.stream (Reading.scalar .octet)
    let b ← Serving.stream (Reading.scalar .int16)
    let x ← Serving.stream (Reading.scalar .float64)
    let text ← Serving.stream Reading.string
    Serving.write fun o => (((o.putString text).putScalar x).putScalar b).putScalar a
  | "value" => do
    let n ← Serving.read Unmarshalling.value
    Serving.writeValue n
  | "pair" => do
    let a ← Serving.read Unmarshalling.value
    let b ← Serving.read Unmarshalling.value
    let w ← Serving.ofActivity Activity.world
    let (identical, equal) := sameValue w.heap a b
    Serving.write fun o => (o.putBool identical).putBool equal
  | "point" => do
    let n ← Serving.read (Unmarshalling.valueAs pointTypeId)
    let w ← Serving.ofActivity Activity.world
    Serving.write (·.putString ((n.map w.heap.typeId).getD ""))
  | "object" => do
    let r ← Serving.read Unmarshalling.object
    Serving.write (·.putBool ((r.map (·.isLocal)).getD false))
    Serving.writeObject r
  | "fail" => do
    let text ← Serving.stream Reading.string
    Serving.write (·.putUInt32 0xdeadbeef)
    throw (failure text)
  | "whoami" =>
    Serving.write fun o =>
      (((o.putString c.adapter).putString c.id).putBool c.connection.isSome).putWord 8
        (c.connection.getD 0)
  | "sleep" => do
    let ms ← Serving.stream Reading.uint32
    Serving.ofActivity (Activity.sleep ms.toNat)
    Serving.write (·.putUInt32 ms)
  | "generate" => do
    let n ← Serving.stream Reading.uint32
    Serving.write (·.putOctets (Octets.pattern n.toNat))
  | "call" => callOther c
  | "bounce" => bounce c
  | _ => Serving.unknown operation

end ObjectBroker.Service

namespace ObjectBroker

def Service.invoke (c : CallContext) (operation : String) : Serving Service Unit := do
  match ← Serving.self c with
  | some (.custom (.tokens _ _)) => Service.invokeTokens c operation
  | some (.custom (.recorder _)) => Service.invokeRecorder c operation
  | some (.custom (.probe _ failure)) => Service.invokeProbe c failure operation
  | _ => Serving.unknown operation

instance : Servant Service where
  typeId := Service.typeId
  typeIds := Service.typeIds
  brokers := Service.brokers
  invoke := Service.invoke

end ObjectBroker
