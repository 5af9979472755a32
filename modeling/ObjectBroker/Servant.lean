import ObjectBroker.Activity

/-!
Servants: what stands behind an activation id. A servant reads the arguments of an operation and
writes its results, and may call other objects while it does.
-/
namespace ObjectBroker

structure CallContext where
  broker : BrokerId
  /-- The connection that the request came on; none when caller and servant share a broker. -/
  connection : Option Nat
  adapter : String
  id : String
  object : ObjectId
  deriving DecidableEq, Repr

/-- The arguments that are still to be read and the results written so far. -/
structure Exchange where
  args : Unmarshaller
  reply : Marshaller

abbrev Serving (σ : Type) := ExceptT BrokerError (StateT Exchange (Activity σ))

class Servant (σ : Type) where
  /-- The most derived interface. -/
  typeId : σ → String
  /-- Further interfaces. -/
  typeIds : σ → List String
  /-- The brokers that a servant keeps a hold on. -/
  brokers : σ → List BrokerId
  invoke : CallContext → (operation : String) → Serving σ Unit

namespace Serving

variable {σ α : Type}

def ofActivity (a : Activity σ α) : Serving σ α :=
  ExceptT.lift (StateT.lift a)

def ofCall (c : Call σ α) : Serving σ α :=
  ExceptT.mk (StateT.lift c.run)

def ofExcept : Except BrokerError α → Serving σ α
  | .ok a => pure a
  | .error e => throw e

def read (r : Unmarshalling α) : Serving σ α := do
  let x : Exchange ← get
  let (result, args) ← ofActivity (Activity.reading x.args r)
  set { x with args }
  match result with
  | .ok a => pure a
  | .error e => throw (.marshal e)

def stream (r : Reading StreamError α) : Serving σ α :=
  read (Unmarshalling.stream r)

def write (f : Output → Output) : Serving σ Unit :=
  modify fun x => { x with reply := x.reply.put f }

def writeObject (r : Option Reference) : Serving σ Unit :=
  modify fun x => { x with reply := x.reply.putObject r }

def writeValue (n : Option NodeId) : Serving σ Unit := do
  let w ← ofActivity Activity.world
  let x : Exchange ← get
  let (result, reply) := x.reply.run (Marshalling.value w.heap n)
  set { x with reply }
  match result with
  | .ok _ => pure ()
  | .error e => throw (.marshal e)

def unknown (operation : String) : Serving σ α :=
  throw (.unknownOperation operation)

def self (c : CallContext) : Serving σ (Option (Object σ)) := do
  let w ← ofActivity Activity.world
  return w.objects[c.object]?

def setSelf (c : CallContext) (o : Object σ) : Serving σ Unit :=
  ofActivity (Activity.update (·.setObject c.object o))

end Serving

end ObjectBroker
