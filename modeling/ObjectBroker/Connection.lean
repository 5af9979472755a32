import ObjectBroker.Error
import ObjectBroker.Transport.Reader

/-!
One connection, usable in both directions: its state, the requests that wait for replies and the
count of work in progress. Every step is a function on this record.
-/
namespace ObjectBroker

inductive Role where
  | initiator
  | acceptor
  deriving DecidableEq, Repr, Inhabited

def Role.name : Role → String
  | .initiator => "Initiator"
  | .acceptor => "Acceptor"

inductive ConnectionState where
  | connecting
  | established
  | closing
  | closed
  deriving DecidableEq, Repr, Inhabited

namespace ConnectionState

def rank : ConnectionState → Nat
  | .connecting => 0
  | .established => 1
  | .closing => 2
  | .closed => 3

def name : ConnectionState → String
  | .connecting => "Connecting"
  | .established => "Established"
  | .closing => "Closing"
  | .closed => "Closed"

end ConnectionState

abbrev Response := Except BrokerError (Message × ByteOrder)

abbrev WaiterId := Nat

inductive ReaderState where
  | reading
  /-- It takes nothing more but has still to shut the stream. -/
  | finishing
  | stopping
  | gone
  deriving DecidableEq, Repr

structure Connection where
  id : Nat
  role : Role
  peer : Endpoint
  order : ByteOrder
  fragmentSize : Nat
  reader : Reader
  inbound : Nat
  outbound : Nat
  state : ConnectionState := .connecting
  nextRequest : UInt32 := 0
  nextWaiter : WaiterId := 0
  pending : List (UInt32 × WaiterId) := []
  responses : List (WaiterId × Response) := []
  isBidirectional : Bool := false
  outstanding : Nat := 0
  readerState : ReaderState := .reading
  /-- Whether the stream under the connection has been given up. -/
  isReleased : Bool := false

namespace Connection

def firstRequest : Role → UInt32
  | .initiator => 0
  | .acceptor => 1

def setState (c : Connection) (state : ConnectionState) : Connection :=
  if c.state.rank < state.rank then { c with state } else c

def checkOpen (c : Connection) : Except BrokerError Unit :=
  match c.state with
  | .connecting | .established => .ok ()
  | .closing => .error (.cancelled s!"connection {c.id} is closing")
  | .closed => .error (.transient s!"connection to {c.peer.text} is closed")

def isEstablished (c : Connection) : Bool :=
  c.state == .established

def track (c : Connection) : Connection :=
  { c with outstanding := c.outstanding + 1 }

def untrack (c : Connection) : Connection :=
  { c with outstanding := c.outstanding - 1 }

def isReading (c : Connection) : Bool :=
  c.readerState == .reading

def stopReading (c : Connection) : Connection :=
  if c.readerState = .gone then c else { c with readerState := .stopping }

def isIdle (c : Connection) : Bool :=
  c.outstanding == 0

def takeRequestId (c : Connection) : UInt32 × Connection :=
  (c.nextRequest, { c with nextRequest := c.nextRequest + 2 })

def respond (c : Connection) (waiter : WaiterId) (r : Response) : Connection :=
  { c with responses := (waiter, r) :: c.responses }

def forget (c : Connection) (request : UInt32) : Connection :=
  { c with pending := c.pending.filter (·.1 != request) }

def dropped (c : Connection) (request : UInt32) : BrokerError :=
  .transient s!"connection to {c.peer.text} dropped request {request}"

def register (c : Connection) : UInt32 × WaiterId × Connection :=
  let (request, c) := c.takeRequestId
  let waiter := c.nextWaiter
  let c := match c.pending.lookup request with
    | none => c
    | some old => (c.respond old (.error (c.dropped request))).forget request
  (request, waiter,
    { c with nextWaiter := waiter + 1, pending := (request, waiter) :: c.pending })

/-- Hands a reply to its waiter; a reply that nobody waits for changes nothing. -/
def complete (c : Connection) (request : UInt32) (r : Response) : Connection :=
  match c.pending.lookup request with
  | none => c
  | some waiter => (c.forget request).respond waiter r

def failPending (c : Connection) (e : BrokerError) : Connection :=
  { c with
    pending := []
    responses := c.pending.map (fun (_, waiter) => (waiter, .error e)) ++ c.responses }

def response? (c : Connection) (waiter : WaiterId) : Option Response :=
  c.responses.lookup waiter

def takeResponse (c : Connection) (waiter : WaiterId) : Connection :=
  { c with responses := c.responses.filter (·.1 != waiter) }

/-- The start of an orderly close; nothing when the connection is being closed already. -/
def beginClose? (c : Connection) : Option Connection :=
  match c.state with
  | .closing | .closed => none
  | _ => some { c with state := .closing }

inductive Exit where
  | ended
  | peerClosed
  | peerError
  | violation (cause : WireError)
  | broken (cause : WireError)
  | brokerGone
  deriving DecidableEq, Repr

def Exit.ofError (e : WireError) : Exit :=
  if e = .closed then .ended else if e.isViolation then .violation e else .broken e

def Exit.isViolation : Exit → Bool
  | .violation _ => true
  | _ => false

def exitError (c : Connection) : Exit → BrokerError
  | .ended => .transient s!"connection to {c.peer.text} closed"
  | .peerClosed => .transient s!"{c.peer.text} closed the connection"
  | .peerError => .wire (.invalid "peer reported a message error")
  | .violation cause => .wire (.invalid cause.message)
  | .broken cause => .transient cause.message
  | .brokerGone => .cancelled "ORB destroyed"

def quit (c : Connection) (s : ReaderState) : Connection :=
  { c.setState .closed with readerState := s }

def leave (c : Connection) : Connection :=
  c.quit .finishing

def depart (c : Connection) : Connection :=
  c.quit .gone

def shutDownError (c : Connection) : BrokerError :=
  .cancelled s!"connection {c.id} shut down"

def endpointText (e : Endpoint) : String :=
  s!"Endpoint \x7b host: {Quoted.string e.host}, port: {e.port} \x7d"

def text (c : Connection) : String :=
  s!"Connection \x7b id: {c.id}, role: {c.role.name}, peer: {endpointText c.peer}, state: {c.state.name}, bidirectional: {c.isBidirectional}, outstanding: {c.outstanding} \x7d"

end Connection

end ObjectBroker
