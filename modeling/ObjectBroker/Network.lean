import ObjectBroker.Closing
import ObjectBroker.Dispatch
import ObjectBroker.Invocation
import ObjectBroker.Lifetime

/-!
Running activities. Those that can go on stand in a queue and run one after the other, each up
to its next wait. Waiting ones join the queue again when what they wait for comes or when their
time is over. The clock moves only when nothing can go on.
-/
namespace ObjectBroker

namespace Wait

variable {σ : Type}

def isMet (w : World σ) : Wait → Bool
  | .response p waiter => ((w.connection? p).bind (·.response? waiter)).isSome
  | .anyIdle ports => ports.any (Closing.isIdle w)
  | .outlet n => !w.isStuck n
  | .forever => false

def concerns : Event → Wait → Bool
  | .responded p waiter, .response q other => p == q && waiter == other
  | .idle p, .anyIdle ports => ports.contains p
  | .closed n, .outlet m => n == m
  | _, _ => false

end Wait

namespace Activity

variable {σ α : Type}

inductive Stop (σ : Type) (α : Type) where
  | done (a : α)
  | waiting (wait : Wait) (deadline : Option Nat) (next : Bool → Activity σ α)
  | calling (call : Inbound) (next : ReplyStatus × Octets → Activity σ α)

def isOver (w : World σ) (deadline : Option Nat) : Bool :=
  deadline.any fun time => time ≤ w.now

def run (w : World σ) : Activity σ α → Stop σ α × World σ
  | .pure a => (.done a, w)
  | .read next => (next w).run w
  | .write w next => next.run w
  | .await wait deadline next =>
    if wait.isMet w then (next true).run w
    else if isOver w deadline then (next false).run w
    else (.waiting wait deadline next, w)
  | .perform call next => (.calling call next, w)

end Activity

namespace Job

variable {σ : Type} [Servant σ]

def origin (c : Connection) : Origin :=
  match c.role with
  | .acceptor => .accepted
  | .initiator => .initiated

def inbound (p : Port) (c : Connection) (r : Request) (order : ByteOrder) : Inbound :=
  { broker := p.broker, key := r.key, operation := r.operation, body := r.body, order,
    origin := origin c, connection := some p.connection }

def serveRequest (p : Port) (r : Request) (order : ByteOrder) : Activity σ Unit := do
  match (← Activity.world).connection? p with
  | none => pure ()
  | some c =>
    let (status, body) ← Dispatch.serve (inbound p c r order)
    if r.responseExpected then
      Activity.update fun w => (w.send p (.reply { id := r.id, status, body })).2
      let _ ← Activity.written p
    Activity.update fun w => (w.untrack p).unhold (.broker p.broker)

def activity : Job → Activity σ Unit
  | .serve p r order => serveRequest p r order
  | .answerLocate p id status => do
    Activity.update fun w => (w.send p (.locateReply id status)).2
    let _ ← Activity.written p
    Activity.update (·.unhold (.connection p))
  | .oneway call => do
    let _ ← Dispatch.serve call
    Activity.update (·.unhold (.broker call.broker))
  | .finish p exit => do
    let _ ← Activity.written p
    Activity.update (·.finishLate p exit)

end Job

inductive Ready (σ ρ : Type) where
  | reader (port : Port)
  | task (id : Nat) (activity : Activity σ (Option ρ))

structure Parked (σ ρ : Type) where
  id : Nat
  wait : Wait
  deadline : Option Nat
  next : Bool → Activity σ (Option ρ)

/-- A world and the activities in it. Those that were started from outside leave a result. -/
structure Network (σ ρ : Type) where
  world : World σ := {}
  queue : List (Ready σ ρ) := []
  parked : List (Parked σ ρ) := []
  results : List (Nat × ρ) := []
  nextTask : Nat := 0

namespace Network

variable {σ ρ : Type}

def enqueue (n : Network σ ρ) (r : Ready σ ρ) : Network σ ρ :=
  { n with queue := n.queue ++ [r] }

def isQueued (n : Network σ ρ) (p : Port) : Bool :=
  n.queue.any fun
    | .reader q => p == q
    | .task _ _ => false

def start (n : Network σ ρ) (a : Activity σ (Option ρ)) : Nat × Network σ ρ :=
  (n.nextTask, { n.enqueue (.task n.nextTask a) with nextTask := n.nextTask + 1 })

def resume (p : Parked σ ρ) : Ready σ ρ :=
  .task p.id (.await p.wait p.deadline p.next)

def wake (n : Network σ ρ) (due : Parked σ ρ → Bool) : Network σ ρ :=
  { n with
    queue := n.queue ++ (n.parked.filter due).map resume
    parked := n.parked.filter fun p => !due p }

variable [Servant σ]

def absorb (n : Network σ ρ) : Event → Network σ ρ
  | .readable p => if n.isQueued p then n else n.enqueue (.reader p)
  | .started job => (n.start (do job.activity; return none)).2
  | e => n.wake fun p => p.wait.concerns e

def absorbAll (n : Network σ ρ) : Network σ ρ :=
  let world := n.world.collect
  world.events.foldl absorb { n with world := { world with events := [] } }

def change (n : Network σ ρ) (f : World σ → World σ) : Network σ ρ :=
  { n with world := f n.world }.absorbAll

def settleTask (n : Network σ ρ) (id : Nat) : Activity.Stop σ (Option ρ) → Network σ ρ
  | .done none => n
  | .done (some r) => { n with results := n.results ++ [(id, r)] }
  | .waiting wait deadline next => { n with parked := n.parked ++ [{ id, wait, deadline, next }] }
  | .calling call next => { n with queue := .task id ((Dispatch.serve call).bind next) :: n.queue }

def step (n : Network σ ρ) : Network σ ρ :=
  match n.queue with
  | [] => n
  | .reader p :: rest => { n with queue := rest }.change (·.receive p)
  | .task id a :: rest =>
    let (stop, world) := a.run n.world
    ({ n with queue := rest, world }.settleTask id stop).absorbAll

def settle (n : Network σ ρ) : (fuel : Nat) → Network σ ρ
  | 0 => n
  | fuel + 1 => if n.queue.isEmpty then n else n.step.settle fuel

def nextDeadline? (n : Network σ ρ) (time : Nat) : Option Nat :=
  (n.parked.filterMap (·.deadline)).filter (· < time) |>.min?

def setTime (n : Network σ ρ) (time : Nat) : Network σ ρ :=
  { n with world := { n.world with now := time } }.wake fun p => p.deadline.any (· ≤ time)

/-- Runs until nothing can go on before `time`. Those whose time is over just then do not go on
yet. -/
def advanceTo (n : Network σ ρ) (time : Nat) : (fuel : Nat) → Network σ ρ
  | 0 => n.setTime time
  | fuel + 1 =>
    let n := n.settle (fuel + 1)
    match n.nextDeadline? time with
    | none => n.setTime time
    | some t => (n.setTime t).advanceTo time fuel

def advance (n : Network σ ρ) (ms fuel : Nat) : Network σ ρ :=
  n.advanceTo (n.world.now + ms) fuel

def startCall (n : Network σ (Except BrokerError ρ)) (h : Holding) (c : Call σ ρ) :
    Nat × Network σ (Except BrokerError ρ) :=
  (n.change (·.hold h)).start do
    let r ← c.run
    Activity.update (·.unhold h)
    return some r

def takeResult (n : Network σ ρ) (id : Nat) : Option ρ × Network σ ρ :=
  (n.results.lookup id, { n with results := n.results.filter (·.1 != id) })

end Network

end ObjectBroker
