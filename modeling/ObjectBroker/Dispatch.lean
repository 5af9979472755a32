import ObjectBroker.Naming.Service

/-!
Taking a request to its servant. Two operations are answered for every object: whether it has an
interface, and whether it is gone.
-/
namespace ObjectBroker

namespace Object

variable {σ : Type} [Servant σ]

def typeId : Object σ → String
  | .naming _ => NamingContext.typeId
  | .custom s => Servant.typeId s

def typeIds : Object σ → List String
  | .naming _ => []
  | .custom s => Servant.typeIds s

def isA (o : Object σ) (id : String) : Bool :=
  id == o.typeId || id == Reference.objectTypeId || o.typeIds.contains id

end Object

namespace Dispatch

variable {σ : Type} [Servant σ]

def notPermitted : BrokerError :=
  .system (BrokerError.raised .noPermission SystemException.bidirectionalRequired)

def invoke (c : CallContext) (operation : String) : Serving σ Unit := do
  match ← Serving.self c with
  | some (.naming _) => NamingContext.invoke c operation
  | _ => Servant.invoke c operation

def answerIsA (c : CallContext) : Serving σ Unit := do
  let id ← Serving.stream Reading.string
  match ← Serving.self c with
  | some o => Serving.write (·.putBool (o.isA id))
  | none => Serving.write (·.putBool false)

def context (call : Inbound) (target : Target) : CallContext :=
  { broker := call.broker, connection := call.connection, adapter := target.adapter.name,
    id := target.id, object := target.servant }

def toServant (call : Inbound) (target : Target) : Serving σ Unit :=
  if !target.adapter.accepts call.origin then throw notPermitted
  else if call.operation = "_is_a" then answerIsA (context call target)
  else invoke (context call target) call.operation

def countDispatch (b : Broker) : Broker :=
  { b with stats := { b.stats with dispatched := b.stats.dispatched + 1 } }

def countFailure (b : Broker) : Broker :=
  { b with stats := { b.stats with failures := b.stats.failures + 1 } }

/-- Status and body of the reply: a failed operation leaves nothing of what it had written. -/
def encode (b : Broker) (result : Except BrokerError Unit) (reply : Marshaller) :
    ReplyStatus × Octets :=
  match result with
  | .ok _ => (.noException, reply.octets)
  | .error (.user x) => (.userException, (b.marshaller.put (UserException.put · x)).octets)
  | .error e =>
    (.systemException, (b.marshaller.put (SystemException.put · e.toSystemException)).octets)

def isFailure : Except BrokerError Unit → Bool
  | .ok _ => false
  | .error (.user _) => false
  | .error _ => true

def run (call : Inbound) : Activity σ (Except BrokerError Unit × Marshaller) := do
  let b ← Activity.broker call.broker
  let exchange : Exchange :=
    { args := b.unmarshaller call.order call.body, reply := b.marshaller }
  match b.adapters.route call.key with
  | .error e => pure (.error e, exchange.reply)
  | .ok target =>
    Activity.update (·.hold (.object target.servant))
    let (result, exchange) ← (toServant call target).run.run exchange
    Activity.update (·.unhold (.object target.servant))
    pure (result, exchange.reply)

def serve (call : Inbound) : Activity σ (ReplyStatus × Octets) := do
  Activity.updateBroker call.broker countDispatch
  let b ← Activity.broker call.broker
  if call.operation = "_non_existent" then
    let reply := b.marshaller.put (·.putBool !(b.adapters.holds call.key))
    pure (.noException, reply.octets)
  else
    let (result, reply) ← run call
    if isFailure result then
      Activity.updateBroker call.broker countFailure
    pure (encode b result reply)

end Dispatch

end ObjectBroker
