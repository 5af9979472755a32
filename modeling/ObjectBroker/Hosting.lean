import ObjectBroker.Dispatch

/-!
What the owner of brokers does with them: activating objects, starting a naming context, joining
two brokers by a stream.
-/
namespace ObjectBroker.World

variable {σ : Type}

/-- Gives a new stream to a broker; the other end is the pipe that the broker reads and the one
that it writes. -/
def openStream (w : World σ) (b : BrokerId) (role : Role) (peer : Endpoint) :
    Except BrokerError (Port × Nat × Nat × World σ) := do
  let (inbound, w) := w.addPipe
  let (outbound, w) := w.addPipe
  let (p, w) ← w.attach b role peer inbound outbound
  return (p, inbound, outbound, w)

def link (w : World σ) (opener : BrokerId) (endpoint : Endpoint) (reached : BrokerId)
    (peer : Endpoint) : Except BrokerError (Port × Port) × World σ :=
  let (there, w) := w.addPipe
  let (back, w) := w.addPipe
  match w.attach reached .acceptor peer there back with
  | .error e => (.error e, w)
  | .ok (q, w) =>
    match w.attach opener .initiator endpoint back there with
    | .error e => (.error e, (w.closePipe there).closePipe back)
    | .ok (p, w) => (.ok (p, q), w)

variable [Servant σ]

def referenceOf (w : World σ) (b : BrokerId) (a : Adapter) (id : String) :
    Except BrokerError Reference :=
  match (a.servant? id).bind (w.objects[·]?) with
  | none => .error (.unknownObject (a.keyText id))
  | some o =>
    .ok { typeId := o.typeId, endpoint := (w.broker b).endpoint, key := a.key id, isLocal := true }

def activate (w : World σ) (b : BrokerId) (a : Adapter) (id : Option String) (n : ObjectId) :
    Except BrokerError (String × Reference × World σ) := do
  let (id, a) ← match id with
    | none => a.activate n
    | some id => (a.activateWithId id n).map (id, ·)
  let w := w.updateBroker b (·.putAdapter a)
  return (id, ← w.referenceOf b a id, w)

def rootAdapter (w : World σ) (b : BrokerId) : Adapter :=
  ((w.broker b).adapters.get? Adapter.rootName).getD { name := Adapter.rootName }

def namingContext? (w : World σ) (b : BrokerId) : Option (ObjectId × NamingContext) :=
  (w.broker b).naming.bind fun n =>
    match w.objects[n]? with
    | some (.naming c) => some (n, c)
    | _ => none

def namingId : String := "NameService"

def startNaming (w : World σ) (b : BrokerId) : Except BrokerError (Reference × World σ) := do
  if (w.broker b).naming.isSome then
    throw (.adapter "naming service already started")
  let (n, w) := w.addObject (.naming {})
  let (_, r, w) ← w.activate b (w.rootAdapter b) (some namingId) n
  return (r, w.updateBroker b fun broker => { broker with naming := some n })

def bindObject (w : World σ) (b : BrokerId) (name : String) (n : ObjectId) :
    Except BrokerError (Reference × World σ) := do
  match w.namingContext? b with
  | none => throw (.adapter "naming service not started")
  | some (root, context) =>
    let name ← Name.parse name
    let (_, r, w) ← w.activate b (w.rootAdapter b) none n
    return (r, w.setObject root (.naming (← context.rebind name r)))

end ObjectBroker.World
