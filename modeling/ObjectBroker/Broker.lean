import ObjectBroker.Adapter
import ObjectBroker.Connection
import ObjectBroker.Message.Bidirectional
import ObjectBroker.Transport.Writer
import ObjectBroker.Value.Unmarshal

/-!
A broker: its adapters, its value factories, its connections and the routes by which endpoints
are reached. Connections stay known after they have left the table, since callers may still hold
them.
-/
namespace ObjectBroker

structure Config where
  name : String
  order : ByteOrder
  fragmentSize : Nat := Writer.defaultLimit
  receiveLimit : Nat := Reader.defaultLimit
  valueDepth : Nat := defaultDepth
  requestTimeout : Option Nat := none
  drainTimeout : Nat := 5000
  acceptBidirectional : Bool := true
  deriving DecidableEq, Repr, Inhabited

/-- Nothing is counted of what a broker opens and accepts itself: its streams are given to it. -/
structure Stats where
  sent : Nat := 0
  replies : Nat := 0
  dispatched : Nat := 0
  failures : Nat := 0
  bidirectional : Nat := 0
  deriving DecidableEq, Repr, Inhabited

def Stats.counts (s : Stats) : List (String × Nat) :=
  [("opened", 0), ("accepted", 0), ("rejected", 0), ("sent", s.sent), ("replies", s.replies),
   ("dispatched", s.dispatched), ("failures", s.failures), ("bidirectional", s.bidirectional)]

structure Broker where
  id : String
  config : Config
  endpoint : Endpoint
  registry : Registry := {}
  adapters : Directory := {}
  /-- Every connection there ever was, the newest first. -/
  connections : List Connection := []
  table : List Nat := []
  routes : List (Endpoint × Nat) := []
  lastConnection : Nat := 0
  naming : Option ObjectId := none
  isRunning : Bool := true
  /-- Whether nobody holds the broker any more. -/
  isGone : Bool := false
  stats : Stats := {}

namespace Broker

def new (id : String) (config : Config) : Broker :=
  { id, config, endpoint := { host := s!"orb-{id}", port := 0 } }

instance : Inhabited Broker := ⟨{ new "" default with isRunning := false, isGone := true }⟩

def isAlive (b : Broker) : Bool := !b.isGone

def keeps (b : Broker) (n : ObjectId) : Bool :=
  b.naming == some n || b.adapters.adapters.any fun a => a.servants.any (·.2 == n)

def ensureRunning (b : Broker) : Except BrokerError Unit :=
  if b.isRunning then .ok () else .error (.cancelled s!"ORB {b.config.name} is shut down")

def marshaller (b : Broker) : Marshaller :=
  .new b.config.order b.config.valueDepth

def unmarshaller (b : Broker) (order : ByteOrder) (body : Octets) : Unmarshaller :=
  .new order body b.registry b.config.valueDepth (some b.endpoint)

def createAdapter (b : Broker) (name : String) (isBidirectional : Bool) :
    Except BrokerError Broker := do
  b.ensureRunning
  return { b with adapters := ← b.adapters.create name isBidirectional }

def putAdapter (b : Broker) (a : Adapter) : Broker :=
  { b with adapters := b.adapters.put a }

def connection? (b : Broker) (id : Nat) : Option Connection :=
  b.connections.find? (·.id == id)

def update (b : Broker) (id : Nat) (f : Connection → Connection) : Broker :=
  { b with connections := b.connections.map fun c => if c.id = id then f c else c }

def listed (b : Broker) : List Connection :=
  b.connections.reverse.filter fun c => b.table.contains c.id

def insertRoute (b : Broker) (e : Endpoint) (id : Nat) : Broker :=
  { b with routes := (e, id) :: b.routes.filter (·.1 != e) }

def route? (b : Broker) (e : Endpoint) : Option Connection := do
  let id ← b.routes.lookup e
  if b.table.contains id then
    (b.connection? id).filter (·.isEstablished)
  else
    none

/-- Takes a stream as a new connection. One that the broker opened becomes the route to its
endpoint. -/
def adopt (b : Broker) (role : Role) (peer : Endpoint) (inbound outbound : Nat) : Nat × Broker :=
  let id := b.lastConnection + 1
  let c : Connection :=
    { id, role, peer, order := b.config.order, fragmentSize := b.config.fragmentSize
      reader := .new b.config.receiveLimit, inbound, outbound, state := .established
      nextRequest := Connection.firstRequest role }
  let b := { b with
    connections := c :: b.connections, table := id :: b.table, lastConnection := id }
  (id, if role = .initiator then b.insertRoute peer id else b)

def remove (b : Broker) (id : Nat) : Broker :=
  if b.table.contains id then
    { b with table := b.table.filter (· != id), routes := b.routes.filter (·.2 != id) }
  else b

def countRegistration (b : Broker) : Broker :=
  { b with stats := { b.stats with bidirectional := b.stats.bidirectional + 1 } }

def registerPoint (id : Nat) (b : Broker) (e : Endpoint) : Broker :=
  if b.routes.lookup e = some id then b else (b.insertRoute e id).countRegistration

def registerPoints (b : Broker) (id : Nat) (points : List Endpoint) : Broker :=
  if !b.config.acceptBidirectional || points.isEmpty then b
  else (points.foldl (registerPoint id) b).update id fun c => { c with isBidirectional := true }

/-- Takes up the offer that a request on an accepted connection may carry; a bad one is
ignored. -/
def takeOffer (b : Broker) (c : Connection) (contexts : List ServiceContext) : Broker :=
  if c.role = .acceptor then
    match Bidirectional.find contexts with
    | .ok (some points) => b.registerPoints c.id points
    | _ => b
  else b

def offers (b : Broker) (c : Connection) : Bool :=
  c.role == .initiator && !c.isBidirectional && b.adapters.anyBidirectional

def request (b : Broker) (c : Connection) (key : Octets) (operation : String) (body : Octets) :
    Request :=
  let contexts := if b.offers c then [Bidirectional.offer [b.endpoint] c.order] else []
  { id := 0, key, operation, contexts, body }

def unused (b : Broker) : List Connection :=
  b.listed.filter fun c =>
    c.role == .initiator && c.isIdle && !c.isBidirectional && c.isEstablished

def localize (b : Broker) (r : Reference) : Reference :=
  if r.endpoint = b.endpoint then { r with isLocal := true } else r

def text (b : Broker) : String :=
  s!"Orb \x7b name: {Quoted.string b.config.name}, id: {b.id}, endpoint: {Connection.endpointText b.endpoint}, running: {b.isRunning} \x7d"

end Broker

end ObjectBroker
