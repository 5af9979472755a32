import ObjectBroker.Broker
import ObjectBroker.Naming.Context

/-!
Brokers joined by byte streams. The world holds all brokers, the servants behind their
activation ids, the streams and the values that are shared inside a process. Its steps leave
events, in the order in which they occur, for those who wait for them.
-/
namespace ObjectBroker

abbrev BrokerId := Nat

structure Port where
  broker : BrokerId
  connection : Nat
  deriving DecidableEq, Repr

structure Inbound where
  broker : BrokerId
  key : Octets
  operation : String
  body : Octets
  order : ByteOrder
  origin : Origin
  connection : Option Nat := none
  deriving DecidableEq, Repr

inductive Holding where
  | broker (id : BrokerId)
  | object (id : ObjectId)
  | connection (port : Port)
  deriving DecidableEq, Repr

inductive Job where
  | serve (port : Port) (request : Request) (order : ByteOrder)
  | answerLocate (port : Port) (request : UInt32) (status : LocateStatus)
  | oneway (call : Inbound)
  | finish (port : Port) (exit : Connection.Exit)
  deriving DecidableEq, Repr

inductive Event where
  | readable (port : Port)
  | responded (port : Port) (waiter : WaiterId)
  | idle (port : Port)
  | started (job : Job)
  | closed (pipe : Nat)
  deriving DecidableEq, Repr

/-- A pipe holds what was written and not read yet. Whoever has written more than there is room for
waits. -/
structure Pipe where
  chunks : List Octets := []
  isClosed : Bool := false
  reader : Option Port := none
  room : Nat := 0x1000000
  deriving DecidableEq, Repr, Inhabited

namespace Pipe

def load (p : Pipe) : Nat :=
  Octets.total p.chunks

def isFull (p : Pipe) : Bool :=
  !p.isClosed && p.room < p.load

end Pipe

inductive Object (σ : Type) where
  | naming (context : NamingContext)
  | custom (state : σ)

structure World (σ : Type) where
  brokers : Array Broker := #[]
  objects : Array (Object σ) := #[]
  pipes : Array Pipe := #[]
  heap : Heap := {}
  holdings : List Holding := []
  now : Nat := 0
  events : List Event := []

namespace World

variable {σ : Type}

def broker (w : World σ) (b : BrokerId) : Broker :=
  w.brokers[b]?.getD default

def updateBroker (w : World σ) (b : BrokerId) (f : Broker → Broker) : World σ :=
  { w with brokers := w.brokers.modify b f }

def hold (w : World σ) (h : Holding) : World σ :=
  { w with holdings := h :: w.holdings }

def unhold (w : World σ) (h : Holding) : World σ :=
  { w with holdings := w.holdings.erase h }

def addBroker (w : World σ) (b : Broker) : BrokerId × World σ :=
  (w.brokers.size, { w with brokers := w.brokers.push b }.hold (.broker w.brokers.size))

def addObject (w : World σ) (o : Object σ) : ObjectId × World σ :=
  (w.objects.size, { w with objects := w.objects.push o })

def setObject (w : World σ) (n : ObjectId) (o : Object σ) : World σ :=
  { w with objects := w.objects.setIfInBounds n o }

def emit (w : World σ) (e : Event) : World σ :=
  { w with events := w.events ++ [e] }

def connection? (w : World σ) (p : Port) : Option Connection :=
  (w.broker p.broker).connection? p.connection

def updateConnection (w : World σ) (p : Port) (f : Connection → Connection) : World σ :=
  w.updateBroker p.broker (·.update p.connection f)

def pipe (w : World σ) (n : Nat) : Pipe :=
  w.pipes[n]?.getD default

def addPipe (w : World σ) : Nat × World σ :=
  (w.pipes.size, { w with pipes := w.pipes.push {} })

def setPipe (w : World σ) (n : Nat) (p : Pipe) : World σ :=
  { w with pipes := w.pipes.setIfInBounds n p }

def notifyReader (w : World σ) (n : Nat) : World σ :=
  match (w.pipe n).reader with
  | none => w
  | some port => w.emit (.readable port)

def brokenPipe : WireError := .io .brokenPipe "broken pipe"

def writePipe (w : World σ) (n : Nat) (chunks : List Octets) : Except WireError Unit × World σ :=
  let p := w.pipe n
  if p.isClosed then (.error brokenPipe, w)
  else (.ok (), (w.setPipe n { p with chunks := p.chunks ++ chunks }).notifyReader n)

/-- Nothing can be written any more; what was written can still be read. -/
def closePipe (w : World σ) (n : Nat) : World σ :=
  ((w.setPipe n { w.pipe n with isClosed := true }).notifyReader n).emit (.closed n)

def drainPipe (w : World σ) (n : Nat) : Octets × World σ :=
  let p := w.pipe n
  (p.chunks.flatten, w.setPipe n { p with chunks := [] })

def send (w : World σ) (p : Port) (m : Message) : Except BrokerError Unit × World σ :=
  match w.connection? p with
  | none => (.error (.wire .closed), w)
  | some c =>
    match Writer.frames c.fragmentSize m c.order with
    | .error e => (.error (.wire e), w)
    | .ok frames =>
      let (result, w) := w.writePipe c.outbound frames
      (result.mapError .wire, w)

def shutWriter (w : World σ) (p : Port) : World σ :=
  match w.connection? p with
  | none => w
  | some c => w.closePipe c.outbound

def track (w : World σ) (p : Port) : World σ :=
  w.updateConnection p Connection.track

/-- One piece of work less; the last one makes the connection idle. -/
def untrack (w : World σ) (p : Port) : World σ :=
  match w.connection? p with
  | none => w
  | some c =>
    let w := w.updateConnection p Connection.untrack
    if c.outstanding = 1 then w.emit (.idle p) else w

def complete (w : World σ) (p : Port) (request : UInt32) (r : Response) : World σ :=
  match (w.connection? p).bind (·.pending.lookup request) with
  | none => w
  | some waiter => (w.updateConnection p (·.complete request r)).emit (.responded p waiter)

def notifyWaiters (w : World σ) (p : Port) (waiters : List WaiterId) : World σ :=
  { w with events := w.events ++ waiters.map (.responded p) }

def failPending (w : World σ) (p : Port) (e : BrokerError) : World σ :=
  match w.connection? p with
  | none => w
  | some c => (w.updateConnection p (·.failPending e)).notifyWaiters p (c.pending.map (·.2))

def report (w : World σ) (p : Port) (exit : Connection.Exit) : World σ :=
  if exit.isViolation then (w.send p .messageError).2 else w

/-- Tells those who wait why the connection has come to its end, and the peer if it is to blame. -/
def tell (w : World σ) (p : Port) (exit : Connection.Exit) : World σ :=
  match w.connection? p with
  | none => w
  | some c => (w.report p exit).failPending p (c.exitError exit)

def discard (w : World σ) (p : Port) : World σ :=
  if (w.broker p.broker).isAlive then w.updateBroker p.broker (·.remove p.connection) else w

def shut (w : World σ) (p : Port) : World σ :=
  ((w.updateConnection p Connection.depart).shutWriter p).discard p

/-- The end of a connection when its reader comes to one. While another message is being written,
the peer cannot be told and the stream not be shut. -/
def finish (w : World σ) (p : Port) (exit : Connection.Exit) : World σ :=
  match w.connection? p with
  | none => w
  | some c =>
    let left := w.updateConnection p Connection.leave
    if (w.pipe c.outbound).isFull then
      (if exit.isViolation then left else left.tell p exit).emit (.started (.finish p exit))
    else (left.tell p exit).shut p

/-- The rest of an end, unless the reader was told to stop meanwhile. -/
def finishLate (w : World σ) (p : Port) (exit : Connection.Exit) : World σ :=
  match w.connection? p with
  | none => w
  | some c =>
    if c.readerState = .finishing then (if exit.isViolation then w.tell p exit else w).shut p
    else w

/-- Closes a connection, with a message to the peer if that can be written. -/
def part (w : World σ) (p : Port) (isFree : Bool) : World σ :=
  let w := if isFree then
      match w.send p .closeConnection with
      | (.ok _, w) => w.shutWriter p
      | (.error _, w) => w
    else w
  (w.updateConnection p fun c => (c.setState .closed).stopReading).emit (.readable p)

/-- Tells those who wait; the connection is closed at once if its stream can be written. -/
def goodbye (w : World σ) (p : Port) : World σ :=
  match w.connection? p with
  | none => w
  | some c =>
    let failed := w.failPending p c.shutDownError
    if (w.pipe c.outbound).isFull then failed else failed.part p true

def acceptRequest (w : World σ) (p : Port) (c : Connection) (r : Request) (order : ByteOrder) :
    World σ :=
  let w := w.updateBroker p.broker fun b => b.takeOffer c r.contexts
  ((w.track p).hold (.broker p.broker)).emit (.started (.serve p r order))

def locate (w : World σ) (b : BrokerId) (key : Octets) : LocateStatus :=
  let broker := w.broker b
  if broker.isAlive && broker.adapters.holds key then .objectHere else .unknownObject

def handle (w : World σ) (p : Port) (c : Connection) (order : ByteOrder) :
    Message → World σ × Option Connection.Exit
  | .reply r => (w.complete p r.id (.ok (.reply r, order)), none)
  | .locateReply id status => (w.complete p id (.ok (.locateReply id status, order)), none)
  | .request r =>
    if (w.broker p.broker).isAlive then (w.acceptRequest p c r order, none)
    else (w, some .brokerGone)
  | .locateRequest id key =>
    ((w.hold (.connection p)).emit (.started (.answerLocate p id (w.locate p.broker key))), none)
  | .cancelRequest _ => (w, none)
  | .closeConnection => (w, some .peerClosed)
  | .messageError => (w, some .peerError)
  | .fragment id _ _ => (w, some (.violation (.unexpectedFragment id)))

def inlet (w : World σ) (c : Connection) : Inlet :=
  let p := w.pipe c.inbound
  { chunks := p.chunks, ended := p.isClosed }

def readNext (w : World σ) (p : Port) (c : Connection) : Read (Message × ByteOrder) × World σ :=
  let (result, reader, source) := c.reader.readMessage (w.inlet c)
  let w := w.setPipe c.inbound { w.pipe c.inbound with chunks := source.chunks }
  (result, w.updateConnection p fun c => { c with reader })

def receiveUpTo (w : World σ) (p : Port) : (messages : Nat) → World σ
  | 0 => w
  | n + 1 =>
    match w.connection? p with
    | none => w
    | some c =>
      if !c.isReading then w
      else match w.readNext p c with
        | (.waiting, w) => w
        | (.failed e, w) => w.finish p (.ofError e)
        | (.done (m, order), w) =>
          match w.handle p c order m with
          | (w, none) => w.receiveUpTo p n
          | (w, some exit) => w.finish p exit

/-- Takes all the messages that have come whole. None is shorter than a header, so there are no
more of them than octets. A reader that was told to stop goes instead. -/
def receive (w : World σ) (p : Port) : World σ :=
  match w.connection? p with
  | none => w
  | some c =>
    match c.readerState with
    | .reading => w.receiveUpTo p (c.reader.available (w.inlet c) + 1)
    | .stopping => w.updateConnection p Connection.depart
    | .finishing | .gone => w

/-- Whether those who write on a pipe have to wait: its reader, if it is a broker, does not take
enough of it. -/
def isStuck (w : World σ) (n : Nat) : Bool :=
  (w.pipe n).isFull && match (w.pipe n).reader with
    | none => false
    | some p => ((w.receive p).pipe n).isFull

/-- Whether a pipe was closed before all could be written. -/
def isCut (w : World σ) (n : Nat) : Bool :=
  (w.pipe n).isClosed && (w.pipe n).room < (w.pipe n).load

def attach (w : World σ) (b : BrokerId) (role : Role) (peer : Endpoint) (inbound outbound : Nat) :
    Except BrokerError (Port × World σ) := do
  (w.broker b).ensureRunning
  let (id, broker) := (w.broker b).adopt role peer inbound outbound
  let port : Port := { broker := b, connection := id }
  let w := w.updateBroker b fun _ => broker
  let w := w.setPipe inbound { w.pipe inbound with reader := some port }
  return (port, w.emit (.readable port))

end World

end ObjectBroker
