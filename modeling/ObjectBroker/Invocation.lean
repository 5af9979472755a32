import ObjectBroker.Activity
import ObjectBroker.Text.Duration

/-!
Calling objects. A call goes to the broker itself for a local reference, and otherwise on the
connection that reaches the endpoint of the reference.
-/
namespace ObjectBroker

inductive Outcome where
  | returned (results : Unmarshaller)
  | raised (exception : UserException)

namespace Outcome

def toResult : Outcome → Except BrokerError Unmarshaller
  | .returned results => .ok results
  | .raised exception => .error (.user exception)

end Outcome

namespace World

variable {σ : Type}

def register (w : World σ) (p : Port) : Option (UInt32 × WaiterId × World σ) := do
  let c ← w.connection? p
  let (request, waiter, registered) := c.register
  let w := w.updateConnection p fun _ => registered
  let displaced := (c.pending.lookup request).toList
  return (request, waiter, w.notifyWaiters p displaced)

def sendOpen (w : World σ) (p : Port) (m : Message) : Except BrokerError Unit × World σ :=
  match (w.connection? p).map Connection.checkOpen with
  | some (.error e) => (.error e, w)
  | _ => w.send p m

def withdraw (w : World σ) (p : Port) (request : UInt32) : World σ :=
  (w.updateConnection p (·.forget request)).untrack p

/-- Registers a caller and writes its message; a message that is not written leaves nothing
behind. -/
def sendTracked (w : World σ) (p : Port) (message : UInt32 → Message) :
    Except BrokerError (UInt32 × WaiterId) × World σ :=
  match (w.track p).register p with
  | none => (.error (.wire .closed), w)
  | some (request, waiter, w) =>
    match w.sendOpen p (message request) with
    | (.ok _, w) => (.ok (request, waiter), w)
    | (.error e, w) => (.error e, w.withdraw p request)

/-- Takes back a message that was cut off. The number may be another caller's by then, who is told
that its request was dropped. -/
def retract (w : World σ) (p : Port) (request : UInt32) (waiter : WaiterId) : World σ :=
  match w.connection? p with
  | none => w
  | some c =>
    match c.pending.lookup request with
    | none => w.untrack p
    | some other =>
      if other = waiter then w.withdraw p request
      else (w.complete p request (.error (c.dropped request))).untrack p

def sendOneway (w : World σ) (p : Port) (r : Request) : Except BrokerError Unit × World σ :=
  match w.connection? p with
  | none => (.error (.wire .closed), w)
  | some c =>
    match c.checkOpen with
    | .error e => (.error e, w)
    | .ok _ =>
      let (id, numbered) := c.takeRequestId
      let w := (w.updateConnection p fun _ => numbered).track p
      match w.send p (.request { r with id, responseExpected := false }) with
      | (.ok _, w) => (.ok (), w)
      | (.error e, w) => (.error e, w.untrack p)

def abandon (w : World σ) (p : Port) (request : UInt32) : World σ :=
  let w := w.updateConnection p (·.forget request)
  (w.send p (.cancelRequest request)).2

def takeResponse (w : World σ) (p : Port) (waiter : WaiterId) : Response × World σ :=
  match (w.connection? p).bind (·.response? waiter) with
  | none => (.error (.wire .closed), w)
  | some r => (r, (w.updateConnection p (·.takeResponse waiter)).untrack p)

end World

namespace Invocation

variable {σ : Type}

def ensureRunning (b : BrokerId) : Call σ Broker := do
  let broker ← Call.lift (Activity.broker b)
  Call.ofExcept broker.ensureRunning
  pure broker

def unreachableReason : String :=
  "peer does not listen and has no bidirectional connection to us"

/-- The connection that is routed to an endpoint. Brokers are given their streams and dial none. -/
def connect (b : BrokerId) (e : Endpoint) : Call σ Connection := do
  let broker ← Call.lift (Activity.broker b)
  match broker.route? e with
  | some c => pure c
  | none => throw (.unreachable e unreachableReason)

/-- Waits until a message is written. One that is cut off fails and is taken back. -/
def written (p : Port) (undo : World σ → World σ) : Call σ Unit := do
  if ← Call.lift (Activity.written p) then pure ()
  else
    Call.lift (Activity.update undo)
    throw (.wire World.brokenPipe)

def timedOut (request : UInt32) (ms : Nat) : BrokerError :=
  .cancelled s!"request {request} timed out after {Duration.text ms}"

def awaitResponse (p : Port) (request : UInt32) (waiter : WaiterId) (timeout : Option Nat) :
    Call σ (Message × ByteOrder) := do
  let w ← Call.lift Activity.world
  let came ← Call.lift (Activity.waitFor (.response p waiter) (timeout.map (w.now + ·)))
  if came then
    Call.change (·.takeResponse p waiter)
  else
    Call.lift (Activity.update (·.abandon p request))
    let _ ← Call.lift (Activity.written p)
    Call.lift (Activity.update (·.untrack p))
    throw (timedOut request (timeout.getD 0))

def countSent (b : Broker) : Broker :=
  { b with stats := { b.stats with sent := b.stats.sent + 1 } }

def countReply (b : Broker) : Broker :=
  { b with stats := { b.stats with replies := b.stats.replies + 1 } }

/-- The request for a call; its arguments have to be in the byte order of the connection. -/
def request (b : Broker) (c : Connection) (target : Reference) (operation : String)
    (args : Marshaller) : Except BrokerError Request :=
  if args.output.order ≠ c.order then
    .error (.marshal (.orderMismatch c.order args.output.order))
  else .ok (b.request c target.key operation args.octets)

def sent (p : Port) (offered : Bool) : Activity σ Unit := do
  if offered then
    Activity.update (·.updateConnection p fun c => { c with isBidirectional := true })
  Activity.updateBroker p.broker countSent

def decode (b : BrokerId) (target : Reference) (operation : String) (status : ReplyStatus)
    (body : Octets) (order : ByteOrder) : Call σ Outcome := do
  let results := (← Call.lift (Activity.broker b)).unmarshaller order body
  match status with
  | .noException => pure (.returned results)
  | .userException =>
    .raised <$> Call.reading results (Unmarshalling.stream UserException.read)
  | .systemException =>
    let x ← Call.reading results (Unmarshalling.stream SystemException.read)
    throw (.ofSystemException x target.keyText operation)
  | .locationForward => throw (.wire (.invalid "LOCATION_FORWARD replies are not supported"))

def inbound (b : BrokerId) (target : Reference) (operation : String) (args : Marshaller) :
    Inbound :=
  { broker := b, key := target.key, operation, body := args.octets,
    order := args.output.order, origin := .collocated }

/-- A call inside the broker; its results come in the byte order of the broker. -/
def collocated (b : BrokerId) (target : Reference) (operation : String) (args : Marshaller) :
    Call σ Outcome := do
  let (status, body) ← Call.lift (Activity.dispatch (inbound b target operation args))
  let broker ← Call.lift (Activity.broker b)
  decode b target operation status body broker.config.order

def remote (b : BrokerId) (target : Reference) (operation : String) (args : Marshaller) :
    Call σ Outcome := do
  let broker ← Call.lift (Activity.broker b)
  let c ← connect b target.endpoint
  let port : Port := { broker := b, connection := c.id }
  let r ← Call.ofExcept (request broker c target operation args)
  let (id, waiter) ← Call.change (·.sendTracked port fun id => .request { r with id })
  written port (·.retract port id waiter)
  Call.lift (sent port (broker.offers c))
  let (message, order) ← awaitResponse port id waiter broker.config.requestTimeout
  Call.lift (Activity.updateBroker b countReply)
  match message with
  | .reply reply => decode b target operation reply.status reply.body order
  | other => throw (.wire (.invalid s!"expected a reply, got {other.kind.name}"))

def invoke (b : BrokerId) (target : Reference) (operation : String) (args : Marshaller) :
    Call σ Outcome := do
  let _ ← ensureRunning b
  if target.isLocal then
    collocated b target operation args
  else
    remote b target operation args

/-- Calls an operation and gives its results; an exception of the operation is a failure. -/
def invokeResults (b : BrokerId) (target : Reference) (operation : String) (args : Marshaller) :
    Call σ Unmarshaller := do
  Call.ofExcept (← invoke b target operation args).toResult

def invokeOneway (b : BrokerId) (target : Reference) (operation : String) (args : Marshaller) :
    Call σ Unit := do
  let broker ← ensureRunning b
  if target.isLocal then
    Call.lift (Activity.update fun w =>
      (w.hold (.broker b)).emit (.started (.oneway (inbound b target operation args))))
  else
    let c ← connect b target.endpoint
    let port : Port := { broker := b, connection := c.id }
    let r ← Call.ofExcept (request broker c target operation args)
    Call.change (·.sendOneway port r)
    written port (·.untrack port)
    Call.lift (Activity.update (·.untrack port))
    Call.lift (sent port (broker.offers c))

def locate (b : BrokerId) (target : Reference) : Call σ Bool := do
  let broker ← ensureRunning b
  if target.isLocal then
    return broker.adapters.holds target.key
  let c ← connect b target.endpoint
  let port : Port := { broker := b, connection := c.id }
  let (id, waiter) ← Call.change (·.sendTracked port fun id => .locateRequest id target.key)
  written port (·.retract port id waiter)
  match ← awaitResponse port id waiter broker.config.requestTimeout with
  | (.locateReply _ .objectHere, _) => return true
  | (.locateReply _ .unknownObject, _) => return false
  | (.locateReply _ .objectForward, _) =>
    throw (.wire (.invalid "OBJECT_FORWARD is not supported"))
  | (other, _) => throw (.wire (.invalid s!"expected a locate reply, got {other.kind.name}"))

end Invocation

end ObjectBroker
