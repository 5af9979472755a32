import ObjectBroker.Servant

/-!
What goes when nobody holds it. A broker is held from outside, by its running calls and by servants
that call through it; a servant is held from outside, by the calls to it and by the broker that it
is active in; a connection by its reader, its work in progress, those who close it and the table of
its broker. Brokers and servants that hold each other stay.
-/
namespace ObjectBroker

def Object.brokers {σ : Type} [Servant σ] : Object σ → List BrokerId
  | .naming _ => []
  | .custom s => Servant.brokers s

namespace World

variable {σ : Type}

def isObjectHeld (w : World σ) (n : ObjectId) : Bool :=
  w.holdings.contains (.object n) || w.brokers.any fun b => b.isAlive && b.keeps n

def isConnectionHeld (w : World σ) (b : BrokerId) (c : Connection) : Bool :=
  c.readerState != .gone || !c.isIdle ||
    w.holdings.contains (.connection { broker := b, connection := c.id }) ||
    ((w.broker b).isAlive && (w.broker b).table.contains c.id)

def unheldConnections (w : World σ) (b : BrokerId) : List Connection :=
  (w.broker b).connections.reverse.filter fun c => !c.isReleased && !w.isConnectionHeld b c

/-- Gives up the stream of a connection: the peer can neither read nor write any more. -/
def releaseStream (b : BrokerId) (w : World σ) (c : Connection) : World σ :=
  let w := w.updateConnection { broker := b, connection := c.id } ({ · with isReleased := true })
  (w.closePipe c.outbound).closePipe c.inbound

def releaseStreams (w : World σ) (b : BrokerId) : World σ :=
  (w.unheldConnections b).foldl (releaseStream b) w

variable [Servant σ]

def isBrokerHeld (w : World σ) (b : BrokerId) : Bool :=
  w.holdings.contains (.broker b) || (List.range w.objects.size).any fun n =>
    w.isObjectHeld n && w.objects[n]?.any (·.brokers.contains b)

def unheldBrokers (w : World σ) : List BrokerId :=
  (List.range w.brokers.size).filter fun b => (w.broker b).isAlive && !w.isBrokerHeld b

def retire (w : World σ) (b : BrokerId) : World σ :=
  w.updateBroker b fun broker => { broker with isGone := true }

def retireUnheld (w : World σ) : (rounds : Nat) → World σ
  | 0 => w
  | rounds + 1 =>
    match w.unheldBrokers with
    | [] => w
    | ids => (ids.foldl retire w).retireUnheld rounds

def collect (w : World σ) : World σ :=
  (List.range w.brokers.size).foldl releaseStreams (w.retireUnheld w.brokers.size)

end World

end ObjectBroker
