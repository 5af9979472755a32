import ObjectBroker.World

/-!
Activities: programs that look at the world, change it, and may have to wait. Between two waits
nothing else happens. A call to an object of the same broker is left to whoever runs the
activity, since the servant behind it may call again.
-/
namespace ObjectBroker

inductive Wait where
  | response (port : Port) (waiter : WaiterId)
  | anyIdle (ports : List Port)
  | outlet (pipe : Nat)
  | forever
  deriving DecidableEq, Repr

inductive Activity (σ : Type) (α : Type) where
  | pure (a : α)
  | read (next : World σ → Activity σ α)
  | write (w : World σ) (next : Activity σ α)
  | await (wait : Wait) (deadline : Option Nat) (next : Bool → Activity σ α)
  | perform (call : Inbound) (next : ReplyStatus × Octets → Activity σ α)

namespace Activity

variable {σ α β : Type}

def bind : Activity σ α → (α → Activity σ β) → Activity σ β
  | .pure a, f => f a
  | .read next, f => .read fun w => (next w).bind f
  | .write w next, f => .write w (next.bind f)
  | .await wait deadline next, f => .await wait deadline fun met => (next met).bind f
  | .perform call next, f => .perform call fun r => (next r).bind f

instance : Monad (Activity σ) where
  pure := .pure
  bind := bind

def world : Activity σ (World σ) :=
  .read .pure

def change (f : World σ → α × World σ) : Activity σ α :=
  .read fun w => let (a, w) := f w; .write w (.pure a)

def update (f : World σ → World σ) : Activity σ Unit :=
  change fun w => ((), f w)

def broker (b : BrokerId) : Activity σ Broker :=
  .read fun w => .pure (w.broker b)

def updateBroker (b : BrokerId) (f : Broker → Broker) : Activity σ Unit :=
  update (·.updateBroker b f)

/-- Waits, until a point in time if one is given; tells whether what was waited for came. -/
def waitFor (wait : Wait) (deadline : Option Nat) : Activity σ Bool :=
  .await wait deadline .pure

def sleep (ms : Nat) : Activity σ Unit := do
  let w ← world
  let _ ← waitFor .forever (some (w.now + ms))

/-- Waits until all is written that was to be written on a connection; tells whether it is. -/
def written (p : Port) : Activity σ Bool := do
  match (← world).connection? p with
  | none => return true
  | some c =>
    let _ ← waitFor (.outlet c.outbound) none
    return !(← world).isCut c.outbound

def dispatch (call : Inbound) : Activity σ (ReplyStatus × Octets) :=
  .perform call .pure

def reading (u : Unmarshaller) (r : Unmarshalling α) :
    Activity σ (Except MarshalError α × Unmarshaller) :=
  change fun w =>
    let (result, u) := { u with heap := w.heap }.run r
    ((result, { u with heap := {} }), { w with heap := u.heap })

end Activity

abbrev Call (σ : Type) := ExceptT BrokerError (Activity σ)

namespace Call

variable {σ α : Type}

def lift (a : Activity σ α) : Call σ α :=
  ExceptT.lift a

def ofExcept : Except BrokerError α → Call σ α
  | .ok a => pure a
  | .error e => throw e

def change (f : World σ → Except BrokerError α × World σ) : Call σ α :=
  ExceptT.mk (Activity.change f)

def reading (u : Unmarshaller) (r : Unmarshalling α) : Call σ α := do
  match (← lift (Activity.reading u r)).1 with
  | .ok a => pure a
  | .error e => throw (.marshal e)

end Call

end ObjectBroker
