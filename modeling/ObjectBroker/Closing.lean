import ObjectBroker.Activity

/-!
Closing connections and shutting brokers down. Connections are drained side by side: each says
goodbye as soon as it is idle, and all do when the time is over. Those that cannot write are closed
without a message when they could not for as long again.
-/
namespace ObjectBroker.Closing

variable {σ : Type}

def isIdle (w : World σ) (p : Port) : Bool :=
  ((w.connection? p).map (·.isIdle)).getD true

def begin (w : World σ) (p : Port) : Bool × World σ :=
  match (w.connection? p).bind Connection.beginClose? with
  | none => (false, w)
  | some c => (true, w.updateConnection p fun _ => c)

/-- One connection of several: it is closed at once unless it has to be drained first. -/
def start (drain : Bool) : List Port × World σ → Port → List Port × World σ
  | (waiting, w), p =>
    match begin w p with
    | (false, w) => (waiting, w)
    | (true, w) =>
      if drain && !isIdle w p then (waiting ++ [p], w) else (waiting, w.goodbye p)

def release (ports : List Port) (w : World σ) : List Port × World σ :=
  (ports.filter fun p => !isIdle w p, (ports.filter (isIdle w)).foldl World.goodbye w)

/-- Waits for connections to become idle. At least one does at every turn, so there are no more
turns than connections. -/
def drain (deadline : Nat) : (turns : Nat) → List Port → Activity σ Unit
  | _, [] => pure ()
  | 0, ports => Activity.update fun w => ports.foldl World.goodbye w
  | turns + 1, ports => do
    if ← Activity.waitFor (.anyIdle ports) (some deadline) then
      drain deadline turns (← Activity.change (release ports))
    else
      Activity.update fun w => ports.foldl World.goodbye w

def isOpen (w : World σ) (p : Port) : Bool :=
  ((w.connection? p).bind Connection.beginClose?).isSome

def isClosing (w : World σ) (p : Port) : Bool :=
  (w.connection? p).any (·.state == .closing)

def partAll (deadline : Nat) : List Port → Activity σ Unit
  | [] => pure ()
  | p :: ports => do
    match (← Activity.world).connection? p with
    | none => pure ()
    | some c =>
      let isFree ← Activity.waitFor (.outlet c.outbound) (some deadline)
      Activity.update (·.part p isFree)
    partAll deadline ports

/-- Closes those that have said goodbye and could not be closed. -/
def linger (timeout : Nat) (ports : List Port) : Activity σ Unit := do
  let w ← Activity.world
  partAll (w.now + timeout) (ports.filter (isClosing w))

def holdAll (ports : List Port) (w : World σ) : World σ :=
  ports.foldl (fun w p => w.hold (.connection p)) w

def unholdAll (ports : List Port) (w : World σ) : World σ :=
  ports.foldl (fun w p => w.unhold (.connection p)) w

/-- Closes connections, giving their work up to `timeout` to end when asked to. They are held
until the last one is closed. -/
def closeAll (ports : List Port) (drained : Bool) (timeout : Nat) : Activity σ Unit := do
  let w ← Activity.world
  let waiting ← Activity.change fun w => ports.foldl (start drained) ([], holdAll ports w)
  drain (w.now + timeout) waiting.length waiting
  linger timeout (ports.filter (isOpen w))
  Activity.update (unholdAll ports)

def close (p : Port) (drained : Bool) (timeout : Nat) : Activity σ (Option ConnectionState) := do
  closeAll [p] drained timeout
  return ((← Activity.world).connection? p).map (·.state)

def portsOf (b : BrokerId) (connections : List Connection) : List Port :=
  connections.map fun c => { broker := b, connection := c.id }

def closeIdle (b : BrokerId) : Activity σ Nat := do
  let broker ← Activity.broker b
  let unused := broker.unused
  Activity.updateBroker b fun broker => unused.foldl (fun b c => b.remove c.id) broker
  closeAll (portsOf b unused) false broker.config.drainTimeout
  pure unused.length

def stop (b : Broker) : Broker :=
  { b with isRunning := false, table := [], routes := [] }

/-- Stops a broker: it forgets its connections at once and stops its adapters when these are
closed. Tells whether it still runs. -/
def shutdown (b : BrokerId) (drained : Bool) : Activity σ Bool := do
  let broker ← Activity.broker b
  if broker.isRunning then
    Activity.updateBroker b stop
    closeAll (portsOf b broker.listed) drained broker.config.drainTimeout
    Activity.updateBroker b fun broker => { broker with adapters := broker.adapters.shutdown }
  return (← Activity.broker b).isRunning

end ObjectBroker.Closing
