import Mathlib.Tactic.Lemma
import ObjectBroker.Network

/-!
What an activity may do to the world. While it waits, and while another object works for it, the
world may become any other; what counts are the changes that the activity makes itself.
-/

namespace ObjectBroker

variable {σ α β : Type} {R : World σ → World σ → Prop}

namespace Activity

def RespectsFrom (R : World σ → World σ → Prop) : Activity σ α → World σ → Prop
  | .pure _, _ => True
  | .read next, w => (next w).RespectsFrom R w
  | .write w' next, w => R w w' ∧ next.RespectsFrom R w'
  | .await _ _ next, _ => ∀ met w, (next met).RespectsFrom R w
  | .perform _ next, _ => ∀ r w, (next r).RespectsFrom R w

def Respects (R : World σ → World σ → Prop) (a : Activity σ α) : Prop :=
  ∀ w, a.RespectsFrom R w

lemma RespectsFrom.bind {a : Activity σ α} {f : α → Activity σ β} {w : World σ}
    (ha : a.RespectsFrom R w) (hf : ∀ x, (f x).Respects R) : (a.bind f).RespectsFrom R w := by
  induction a generalizing w with
  | pure x => exact hf x w
  | read next ih => exact ih w ha
  | write w' next ih => exact ⟨ha.1, ih ha.2⟩
  | await wait deadline next ih => exact fun met w' => ih met (ha met w')
  | perform call next ih => exact fun r w' => ih r (ha r w')

namespace Respects

lemma bind {a : Activity σ α} {f : α → Activity σ β} (ha : a.Respects R)
    (hf : ∀ x, (f x).Respects R) : (a >>= f).Respects R :=
  fun w => (ha w).bind hf

lemma pure (x : α) : (Pure.pure x : Activity σ α).Respects R :=
  fun _ => trivial

lemma world : (Activity.world : Activity σ (World σ)).Respects R :=
  fun _ => trivial

lemma change {f : World σ → α × World σ} (h : ∀ w, R w (f w).2) : (Activity.change f).Respects R :=
  fun w => ⟨h w, trivial⟩

lemma update {f : World σ → World σ} (h : ∀ w, R w (f w)) : (Activity.update f).Respects R :=
  change h

lemma waitFor (wait : Wait) (deadline : Option Nat) :
    (Activity.waitFor wait deadline : Activity σ Bool).Respects R :=
  fun _ _ _ => trivial

/-- Whoever waits for a stream changes nothing. -/
lemma written (p : Port) : (Activity.written p : Activity σ Bool).Respects R := by
  refine world.bind fun w => ?_
  split
  · exact .pure _
  · exact (waitFor _ _).bind fun _ => world.bind fun _ => .pure _

end Respects

end Activity

namespace Activity

def finds (w : World σ) : Activity σ α → Option α
  | .pure a => some a
  | .read next => (next w).finds w
  | _ => none

def firstChange (w : World σ) : Activity σ α → Option (World σ)
  | .read next => (next w).firstChange w
  | .write w' _ => some w'
  | _ => none

variable {a : Activity σ α} {f : α → Activity σ β} {w : World σ} {x : α}

/-- What an activity finds is found before anything that may follow; `g` does not see the looks. -/
lemma bind_of_finds {γ : Type} (h : a.finds w = some x) (g : Activity σ β → γ)
    (hg : ∀ next, g (.read next) = g (next w)) : g (a.bind f) = g (f x) := by
  induction a with
  | pure y =>
    obtain rfl : y = x := Option.some.inj h
    rfl
  | read next ih => exact (hg _).trans (ih w h)
  | write w' next ih => cases h
  | await wait deadline next ih => cases h
  | perform call next ih => cases h

lemma finds_bind (h : a.finds w = some x) : (a.bind f).finds w = (f x).finds w :=
  bind_of_finds h (finds w) fun _ => rfl

lemma firstChange_bind (h : a.finds w = some x) :
    (a.bind f).firstChange w = (f x).firstChange w :=
  bind_of_finds h (firstChange w) fun _ => rfl

lemma bind_bind {γ : Type} (a : Activity σ α) (f : α → Activity σ β) (g : β → Activity σ γ) :
    a >>= f >>= g = a >>= fun x => f x >>= g := by
  induction a with
  | pure y => rfl
  | read next ih => exact congrArg Activity.read (funext ih)
  | write w' next ih => exact congrArg (Activity.write w') ih
  | await wait deadline next ih => exact congrArg (Activity.await wait deadline) (funext ih)
  | perform call next ih => exact congrArg (Activity.perform call) (funext ih)

lemma bind_pure (a : Activity σ α) : a >>= Pure.pure = a := by
  induction a with
  | pure y => rfl
  | read next ih => exact congrArg Activity.read (funext ih)
  | write w' next ih => exact congrArg (Activity.write w') ih
  | await wait deadline next ih => exact congrArg (Activity.await wait deadline) (funext ih)
  | perform call next ih => exact congrArg (Activity.perform call) (funext ih)

section Run

variable (w : World σ) (b : BrokerId)

lemma run_pure (x : β) (k : β → Activity σ α) :
    ((Pure.pure x : Activity σ β) >>= k).run w = (k x).run w := rfl

lemma run_world (k : World σ → Activity σ α) : (world >>= k).run w = (k w).run w := rfl

lemma run_broker (k : Broker → Activity σ α) :
    (broker b >>= k).run w = (k (w.broker b)).run w := rfl

lemma run_update (f : World σ → World σ) (k : Unit → Activity σ α) :
    (update f >>= k).run w = (k ()).run (f w) := rfl

lemma run_updateBroker (f : Broker → Broker) (k : Unit → Activity σ α) :
    (updateBroker b f >>= k).run w = (k ()).run (w.updateBroker b f) := rfl

end Run

end Activity

namespace Call

variable {c : Call σ α} {f : α → Call σ β} {w : World σ} {a : α}

lemma finds_bind (h : Activity.finds w c.run = some (.ok a)) :
    Activity.finds w (c >>= f).run = Activity.finds w (f a).run :=
  Activity.finds_bind h

lemma firstChange_bind (h : Activity.finds w c.run = some (.ok a)) :
    Activity.firstChange w (c >>= f).run = Activity.firstChange w (f a).run :=
  Activity.firstChange_bind h

def Respects (R : World σ → World σ → Prop) (c : Call σ α) : Prop :=
  Activity.Respects R c.run

namespace Respects

lemma bind {c : Call σ α} {f : α → Call σ β} (hc : c.Respects R) (hf : ∀ a, (f a).Respects R) :
    Respects R (c >>= f) := by
  refine Activity.Respects.bind hc fun result => ?_
  cases result with
  | ok a => exact hf a
  | error e => exact .pure _

lemma throw (e : BrokerError) : Respects R (MonadExcept.throw e : Call σ α) :=
  fun _ => trivial

lemma lift {a : Activity σ α} (ha : a.Respects R) : (Call.lift a).Respects R :=
  Activity.Respects.bind ha fun _ => .pure _

end Respects

end Call

namespace Serving

def Respects (R : World σ → World σ → Prop) (s : Serving σ α) : Prop :=
  ∀ x, Activity.Respects R (s.run.run x)

namespace Respects

lemma throw (e : BrokerError) : Respects R (MonadExcept.throw e : Serving σ α) :=
  fun _ _ => trivial

lemma pure (a : α) : Respects R (Pure.pure a : Serving σ α) :=
  fun _ _ => trivial

lemma modify (f : Exchange → Exchange) : Respects R (modify f : Serving σ PUnit) :=
  fun _ _ => trivial

lemma bind {s : Serving σ α} {f : α → Serving σ β} (hs : s.Respects R)
    (hf : ∀ a, (f a).Respects R) : Respects R (s >>= f) := by
  refine fun x => Activity.Respects.bind (hs x) ?_
  rintro ⟨result, y⟩
  cases result with
  | ok a => exact hf a y
  | error e => exact .pure _

lemma ofActivity {a : Activity σ α} (ha : a.Respects R) : (Serving.ofActivity a).Respects R :=
  fun x => (ha.bind fun a => .pure (a, x)).bind fun _ => .pure _

lemma self (c : CallContext) : (Serving.self c : Serving σ (Option (Object σ))).Respects R :=
  (ofActivity .world).bind fun _ => .pure _

lemma read (hR : ∀ (w : World σ) (heap : Heap), R w { w with heap }) (r : Unmarshalling α) :
    (Serving.read r : Serving σ α).Respects R := by
  have hget : Respects R (MonadState.get : Serving σ Exchange) := fun _ _ => trivial
  have hset : ∀ x : Exchange, Respects R (MonadStateOf.set x : Serving σ PUnit) :=
    fun _ _ _ => trivial
  refine hget.bind fun x => (ofActivity (.change fun w => hR w _)).bind fun result => ?_
  refine (hset _).bind fun _ => ?_
  cases result.1 with
  | ok a => exact .pure a
  | error e => exact .throw _

end Respects

end Serving

end ObjectBroker
