import ObjectBroker.Hosting
import ObjectBroker.Network

/-!
A session with a network: its owner makes brokers, objects, connections and streams, calls through
the brokers and lets time pass. What has a name is held by the session until the name is given to
something else.
-/
namespace ObjectBroker

/-- The far end of a stream that was given to a broker: the pipe that it writes, the one that it
reads, and whether it has seen the end of that one. -/
structure RawStream where
  outbound : Nat
  inbound : Nat
  sawEnd : Bool := false
  deriving DecidableEq, Repr

inductive Progress (ρ : Type) where
  | unknown
  | pending
  | ended (result : ρ)

structure Session (σ ρ : Type) where
  network : Network σ (Except BrokerError ρ) := {}
  brokers : List (String × BrokerId) := []
  objects : List (String × ObjectId) := []
  connections : List (String × Port) := []
  streams : List (String × RawStream) := []
  calls : List (String × Nat) := []

namespace Session

variable {σ ρ : Type} [Servant σ]

def without {α : Type} (name : String) (l : List (String × α)) : List (String × α) :=
  l.filter (·.1 != name)

def renamed {α : Type} (name : String) (a : α) (l : List (String × α)) : List (String × α) :=
  (name, a) :: without name l

def world (s : Session σ ρ) : World σ := s.network.world

def change (s : Session σ ρ) (f : World σ → World σ) : Session σ ρ :=
  { s with network := s.network.change f }

def exchange (s : Session σ ρ) (new old : Option Holding) : Session σ ρ :=
  s.change fun w => old.elim (new.elim w w.hold) (new.elim w w.hold).unhold

def broker (s : Session σ ρ) (name : String) : BrokerId :=
  (s.brokers.lookup name).getD s.world.brokers.size

def brokerId (n : Nat) : String :=
  "00000000-0000-4000-8000-".pushn '0' (12 - (toString n).length) ++ toString n

def addBroker (s : Session σ ρ) (config : Config) : Broker × Session σ ρ :=
  let b := Broker.new (brokerId (s.world.brokers.size + 1)) config
  let (id, w) := s.world.addBroker b
  let s := { s with network := { s.network with world := w } }.exchange none
    ((s.brokers.lookup config.name).map .broker)
  (b, { s with brokers := renamed config.name id s.brokers })

def dropBroker (s : Session σ ρ) (name : String) : Session σ ρ :=
  { s.exchange none ((s.brokers.lookup name).map .broker) with brokers := without name s.brokers }

def addObject (s : Session σ ρ) (name : String) (o : Object σ) : ObjectId × Session σ ρ :=
  let (n, w) := s.world.addObject o
  let s := { s with network := { s.network with world := w } }.exchange (some (.object n))
    ((s.objects.lookup name).map .object)
  (n, { s with objects := renamed name n s.objects })

def object? (s : Session σ ρ) (name : String) : Option (Object σ) :=
  (s.objects.lookup name).bind (s.world.objects[·]?)

def nameConnection (s : Session σ ρ) (name : String) (p : Port) : Session σ ρ :=
  { s.exchange (some (.connection p)) ((s.connections.lookup name).map .connection) with
    connections := renamed name p s.connections }

def hangUp (s : Session σ ρ) (name : String) : Session σ ρ :=
  match s.streams.lookup name with
  | none => s
  | some r =>
    { s.change fun w => (w.closePipe r.outbound).closePipe r.inbound with
      streams := without name s.streams }

/-- Gives a stream to a broker; its far end and the connection get the name. -/
def openStream (s : Session σ ρ) (name : String) (b : BrokerId) (role : Role) (peer : Endpoint) :
    Except BrokerError (Option Connection × Session σ ρ) := do
  let (p, outbound, inbound, w) ← s.world.openStream b role peer
  let s := ((s.change fun _ => w).hangUp name).nameConnection name p
  return (w.connection? p, { s with streams := renamed name { outbound, inbound } s.streams })

/-- Joins two brokers; the connection of the one that opens the stream may get a name. -/
def link (s : Session σ ρ) (name : Option String) (opener : BrokerId) (endpoint : Endpoint)
    (reached : BrokerId) : Except BrokerError (Port × Port) × Session σ ρ :=
  let (r, w) := s.world.link opener endpoint reached { host := "peer", port := 1 }
  let named (s : Session σ ρ) : Session σ ρ :=
    match name, r with
    | some name, .ok (p, _) => s.nameConnection name p
    | _, _ => s
  (r, (named { s with network := { s.network with world := w } }).change id)

def send (s : Session σ ρ) (name : String) (data : Octets) : Session σ ρ :=
  match s.streams.lookup name with
  | none => s
  | some r => s.change fun w => (w.writePipe r.outbound [data]).2

def arrival (s : Session σ ρ) (name : String) : Octets × Bool × Session σ ρ :=
  match s.streams.lookup name with
  | none => ([], false, s)
  | some r =>
    let (data, w) := s.world.drainPipe r.inbound
    let ended := (w.pipe r.inbound).isClosed && !r.sawEnd
    let s := { s with streams := renamed name { r with sawEnd := r.sawEnd || ended } s.streams }
    (data, ended, s.change fun _ => w)

def arrivals (s : Session σ ρ) : List (String × Octets × Bool) × Session σ ρ :=
  s.streams.foldl (fun (found, s) (name, _) =>
    let (data, ended, s) := s.arrival name
    (if data.isEmpty && !ended then found else found ++ [(name, data, ended)], s)) ([], s)

def startCall (s : Session σ ρ) (name : String) (h : Holding) (c : Call σ ρ) : Session σ ρ :=
  let (id, network) := s.network.startCall h c
  { s with network, calls := renamed name id s.calls }

def takeCall (s : Session σ ρ) (name : String) :
    Progress (Except BrokerError ρ) × Session σ ρ :=
  match s.calls.lookup name with
  | none => (.unknown, s)
  | some id =>
    match s.network.takeResult id with
    | (none, _) => (.pending, s)
    | (some r, network) => (.ended r, { s with network, calls := without name s.calls })

def stepLimit : Nat := 1000000000

def elapse (s : Session σ ρ) (ms : Nat) : Session σ ρ :=
  { s with network := s.network.advance ms stepLimit }

end Session

end ObjectBroker
