import Mathlib.Tactic.Lemma
import ObjectBroker.Network

/-!
Activities, calls and servants that come to their end without a wait: the value that they give and
the world that they leave.
-/

namespace ObjectBroker

variable {σ α β : Type} {w w' w'' : World σ}

namespace Activity

def Stop.andThen (k : α → Activity σ β) : Stop σ α → World σ → Stop σ β × World σ
  | .done x, w => (k x).run w
  | .waiting wait deadline next, w => (.waiting wait deadline fun met => next met >>= k, w)
  | .calling call next, w => (.calling call fun answer => next answer >>= k, w)

lemma bind_run (a : Activity σ α) (k : α → Activity σ β) (w : World σ) :
    (a >>= k).run w = (a.run w).1.andThen k (a.run w).2 := by
  induction a generalizing w with
  | pure x => rfl
  | read next ih => exact ih w w
  | write v next ih => exact ih v
  | await wait deadline next ih =>
    have hbind : (Activity.await wait deadline next >>= k).run w =
        if wait.isMet w then (next true >>= k).run w
        else if isOver w deadline then (next false >>= k).run w
        else (.waiting wait deadline fun met => next met >>= k, w) := rfl
    rw [hbind, run]
    split
    · exact ih true w
    · split
      · exact ih false w
      · rfl
  | perform call next ih => rfl

def Evaluates (a : Activity σ α) (w : World σ) (x : α) (w' : World σ) : Prop :=
  a.run w = (.done x, w')

lemma Evaluates.bind_run {a : Activity σ α} {x : α} (h : a.Evaluates w x w')
    (k : α → Activity σ β) : (a >>= k).run w = (k x).run w' := by
  rw [Activity.bind_run, h]
  rfl

lemma bind_run_waiting {a : Activity σ α} {wait : Wait} {deadline : Option Nat}
    {next : Bool → Activity σ α} (h : a.run w = (.waiting wait deadline next, w'))
    (k : α → Activity σ β) :
    (a >>= k).run w = (.waiting wait deadline fun met => next met >>= k, w') := by
  rw [bind_run, h]
  rfl

lemma bind_run_calling {a : Activity σ α} {call : Inbound}
    {next : ReplyStatus × Octets → Activity σ α} (h : a.run w = (.calling call next, w'))
    (k : α → Activity σ β) :
    (a >>= k).run w = (.calling call fun answer => next answer >>= k, w') := by
  rw [bind_run, h]
  rfl

namespace Evaluates

lemma pure (x : α) (w : World σ) : (Pure.pure x : Activity σ α).Evaluates w x w := rfl

lemma bind {a : Activity σ α} {k : α → Activity σ β} {x : α} {y : β} (h : a.Evaluates w x w')
    (hk : (k x).Evaluates w' y w'') : (a >>= k).Evaluates w y w'' :=
  (h.bind_run k).trans hk

lemma change (f : World σ → α × World σ) (w : World σ) :
    (Activity.change f).Evaluates w (f w).1 (f w).2 := rfl

lemma update (f : World σ → World σ) (w : World σ) :
    (Activity.update f).Evaluates w () (f w) := rfl

lemma world (w : World σ) : (Activity.world : Activity σ (World σ)).Evaluates w w w := rfl

lemma broker (b : BrokerId) (w : World σ) :
    (Activity.broker b : Activity σ Broker).Evaluates w (w.broker b) w := rfl

/-- Nobody waits for a stream that is not stuck. -/
lemma written {p : Port} {c : Connection} (hc : w.connection? p = some c)
    (h : w.isStuck c.outbound = false) :
    (Activity.written p : Activity σ Bool).Evaluates w (!w.isCut c.outbound) w := by
  have hmet : (Wait.outlet c.outbound).isMet w = true := by
    rw [Wait.isMet, h]
    rfl
  have hwait : (Activity.waitFor (.outlet c.outbound) none : Activity σ Bool).Evaluates w true w :=
    if_pos hmet
  refine (world w).bind ?_
  rw [hc]
  exact hwait.bind ((world w).bind (.pure _ w))

end Evaluates

end Activity

namespace Call

def Evaluates (c : Call σ α) (w : World σ) (r : Except BrokerError α) (w' : World σ) : Prop :=
  Activity.Evaluates c.run w r w'

namespace Evaluates

variable {c : Call σ α} {f : α → Call σ β}

lemma pure (a : α) (w : World σ) : Evaluates (Pure.pure a : Call σ α) w (.ok a) w := rfl

lemma throw (e : BrokerError) (w : World σ) :
    Evaluates (MonadExcept.throw e : Call σ α) w (.error e) w := rfl

lemma bind {a : α} {r : Except BrokerError β} (h : c.Evaluates w (.ok a) w')
    (hf : (f a).Evaluates w' r w'') : Evaluates (c >>= f) w r w'' :=
  Activity.Evaluates.bind h hf

lemma bind_error {e : BrokerError} (h : c.Evaluates w (.error e) w') :
    Evaluates (c >>= f) w (.error e) w' :=
  Activity.Evaluates.bind h rfl

lemma bind_run {a : α} (h : c.Evaluates w (.ok a) w') (f : α → Call σ β) :
    (c >>= f).run.run w = (f a).run.run w' :=
  Activity.Evaluates.bind_run h _

lemma map {r : Except BrokerError α} (h : c.Evaluates w r w') (f : α → β) :
    Evaluates (f <$> c) w (f <$> r) w' := by
  refine Activity.Evaluates.bind h ?_
  cases r <;> rfl

lemma lift {a : Activity σ α} {x : α} (h : a.Evaluates w x w') :
    (Call.lift a).Evaluates w (.ok x) w' :=
  Activity.Evaluates.bind h rfl

lemma ofExcept (r : Except BrokerError α) (w : World σ) :
    (Call.ofExcept r : Call σ α).Evaluates w r w := by
  cases r <;> rfl

lemma change (f : World σ → Except BrokerError α × World σ) (w : World σ) :
    (Call.change f).Evaluates w (f w).1 (f w).2 := rfl

end Evaluates

end Call

namespace Serving

def Evaluates (s : Serving σ α) (x : Exchange) (w : World σ) (r : Except BrokerError α)
    (y : Exchange) (w' : World σ) : Prop :=
  Activity.Evaluates (s.run.run x) w (r, y) w'

namespace Evaluates

variable {s : Serving σ α} {f : α → Serving σ β} {x y z : Exchange}

lemma pure (a : α) (x : Exchange) (w : World σ) :
    Evaluates (Pure.pure a : Serving σ α) x w (.ok a) x w := rfl

lemma throw (e : BrokerError) (x : Exchange) (w : World σ) :
    Evaluates (MonadExcept.throw e : Serving σ α) x w (.error e) x w := rfl

lemma bind {a : α} {r : Except BrokerError β} (h : s.Evaluates x w (.ok a) y w')
    (hf : (f a).Evaluates y w' r z w'') : Evaluates (s >>= f) x w r z w'' :=
  Activity.Evaluates.bind h hf

lemma bind_error {e : BrokerError} (h : s.Evaluates x w (.error e) y w') :
    Evaluates (s >>= f) x w (.error e) y w' :=
  Activity.Evaluates.bind h rfl

lemma ofExcept (r : Except BrokerError α) (x : Exchange) (w : World σ) :
    (Serving.ofExcept r : Serving σ α).Evaluates x w r x w := by
  cases r <;> rfl

lemma modify (f : Exchange → Exchange) (x : Exchange) (w : World σ) :
    Evaluates (modify f : Serving σ PUnit) x w (.ok ()) (f x) w := rfl

lemma get (x : Exchange) (w : World σ) :
    Evaluates (MonadState.get : Serving σ Exchange) x w (.ok x) x w := rfl

lemma self (c : CallContext) (x : Exchange) (w : World σ) :
    (Serving.self c).Evaluates x w (.ok w.objects[c.object]?) x w := rfl

lemma setSelf (c : CallContext) (o : Object σ) (x : Exchange) (w : World σ) :
    (Serving.setSelf c o).Evaluates x w (.ok ()) x (w.setObject c.object o) := rfl

end Evaluates

end Serving

end ObjectBroker
