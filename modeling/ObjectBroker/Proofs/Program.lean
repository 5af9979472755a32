import ObjectBroker.Proofs.Activity
import ObjectBroker.Proofs.World.Steady

/-!
Programs: activities put together from given ones, from looks at the world and from changes to what
is not about connections. Serving a request is one, as far as its servant is.
-/

namespace ObjectBroker

variable {σ α β : Type} {B : (α : Type) → Activity σ α → Prop}

namespace Activity

/-- An activity that is put together from those in `B`. -/
inductive MadeOf (B : (α : Type) → Activity σ α → Prop) : {α : Type} → Activity σ α → Prop
  | base {α : Type} {a : Activity σ α} (h : B α a) : MadeOf B a
  | pure {α : Type} (x : α) : MadeOf B (Pure.pure x)
  | bind {α β : Type} {a : Activity σ α} {f : α → Activity σ β} (ha : MadeOf B a)
      (hf : ∀ x, MadeOf B (f x)) : MadeOf B (a >>= f)
  | look {α : Type} (f : World σ → α) : MadeOf B (.read fun w => .pure (f w))
  | change {α : Type} (f : World σ → α × World σ) (h : ∀ w : World σ, w.Calm (f w).2) :
      MadeOf B (.change f)
  | outlet (n : Nat) : MadeOf B (waitFor (.outlet n) none)

namespace MadeOf

lemma respects {R : World σ → World σ → Prop} (hR : ∀ w w' : World σ, w.Calm w' → R w w')
    (hB : ∀ α a, B α a → a.Respects R) {a : Activity σ α} (h : a.MadeOf B) : a.Respects R := by
  induction h with
  | base h => exact hB _ _ h
  | pure x => exact .pure x
  | bind _ _ iha ihf => exact iha.bind ihf
  | look f => exact fun _ => trivial
  | change f h => exact .change fun w => hR _ _ (h w)
  | outlet n => exact .waitFor _ _

lemma update {f : World σ → World σ} (h : ∀ w : World σ, w.Calm (f w)) :
    (Activity.update f).MadeOf B :=
  .change _ h

lemma world : (Activity.world : Activity σ (World σ)).MadeOf B :=
  .look fun w => w

lemma broker (b : BrokerId) : (Activity.broker b : Activity σ Broker).MadeOf B :=
  .look fun w => w.broker b

lemma reading (u : Unmarshaller) (r : Unmarshalling α) :
    (Activity.reading u r : Activity σ _).MadeOf B :=
  .change _ fun _ => .of_brokers rfl

lemma written (p : Port) : (Activity.written p : Activity σ Bool).MadeOf B := by
  refine world.bind fun w => ?_
  split
  · exact .pure _
  · exact (outlet _).bind fun _ => world.bind fun _ => .pure _

end MadeOf

end Activity

def Call.MadeOf (B : (α : Type) → Activity σ α → Prop) (c : Call σ α) : Prop :=
  Activity.MadeOf B c.run

namespace Call.MadeOf

lemma bind {c : Call σ α} {f : α → Call σ β} (hc : c.MadeOf B) (hf : ∀ x, (f x).MadeOf B) :
    Call.MadeOf B (c >>= f) := by
  refine Activity.MadeOf.bind hc fun result => ?_
  cases result with
  | ok x => exact hf x
  | error e => exact .pure _

lemma pure (x : α) : Call.MadeOf B (Pure.pure x : Call σ α) :=
  Activity.MadeOf.pure _

lemma throw (e : BrokerError) : Call.MadeOf B (MonadExcept.throw e : Call σ α) :=
  Activity.MadeOf.pure _

lemma lift {a : Activity σ α} (ha : a.MadeOf B) : (Call.lift a).MadeOf B :=
  Activity.MadeOf.bind ha fun _ => .pure _

lemma map {c : Call σ α} (hc : c.MadeOf B) (f : α → β) : Call.MadeOf B (f <$> c) := by
  refine Activity.MadeOf.bind hc fun result => ?_
  cases result <;> exact .pure _

lemma reading (u : Unmarshaller) (r : Unmarshalling α) : (Call.reading u r : Call σ α).MadeOf B := by
  refine (lift (.reading u r)).bind fun result => ?_
  split
  · exact .pure _
  · exact .throw _

end Call.MadeOf

open Call.MadeOf in
lemma Invocation.madeOf_decode (b : BrokerId) (target : Reference) (operation : String)
    (status : ReplyStatus) (body : Octets) (order : ByteOrder) :
    (decode b target operation status body order : Call σ Outcome).MadeOf B := by
  refine (lift (.broker b)).bind fun broker => ?_
  cases status with
  | noException => exact .pure _
  | userException => exact (reading _ _).map _
  | systemException => exact (reading _ _).bind fun x => .throw _
  | locationForward => exact .throw _

def Serving.MadeOf (B : (α : Type) → Activity σ α → Prop) (s : Serving σ α) : Prop :=
  ∀ x, Activity.MadeOf B (s.run.run x)

namespace Serving.MadeOf

lemma bind {s : Serving σ α} {f : α → Serving σ β} (hs : s.MadeOf B) (hf : ∀ x, (f x).MadeOf B) :
    Serving.MadeOf B (s >>= f) := by
  refine fun x => Activity.MadeOf.bind (hs x) ?_
  rintro ⟨result, y⟩
  cases result with
  | ok a => exact hf a y
  | error e => exact .pure _

lemma pure (x : α) : Serving.MadeOf B (Pure.pure x : Serving σ α) :=
  fun _ => .pure _

lemma throw (e : BrokerError) : Serving.MadeOf B (MonadExcept.throw e : Serving σ α) :=
  fun _ => .pure _

lemma modify (f : Exchange → Exchange) : Serving.MadeOf B (modify f : Serving σ PUnit) :=
  fun _ => .pure _

lemma ofActivity {a : Activity σ α} (ha : a.MadeOf B) : (Serving.ofActivity a).MadeOf B :=
  fun x => (ha.bind fun a => .pure (a, x)).bind fun _ => .pure _

lemma ofExcept (r : Except BrokerError α) : (Serving.ofExcept r : Serving σ α).MadeOf B := by
  cases r with
  | ok a => exact .pure a
  | error e => exact .throw e

lemma self (c : CallContext) : (Serving.self c : Serving σ (Option (Object σ))).MadeOf B :=
  (ofActivity .world).bind fun _ => .pure _

lemma setSelf (c : CallContext) (o : Object σ) : (Serving.setSelf c o).MadeOf B :=
  ofActivity (.update fun _ => .of_brokers rfl)

lemma read (r : Unmarshalling α) : (Serving.read r : Serving σ α).MadeOf B := by
  have hget : Serving.MadeOf B (MonadState.get : Serving σ Exchange) := fun _ => .pure _
  have hset : ∀ x : Exchange, Serving.MadeOf B (MonadStateOf.set x : Serving σ PUnit) :=
    fun _ _ => .pure _
  refine hget.bind fun x => (ofActivity (.reading x.args r)).bind fun result => ?_
  refine (hset _).bind fun _ => ?_
  cases result.1 with
  | ok a => exact .pure a
  | error e => exact .throw _

end Serving.MadeOf

open Serving.MadeOf in
lemma NamingContext.madeOf_invoke (c : CallContext) (operation : String) :
    (NamingContext.invoke c operation : Serving σ Unit).MadeOf B := by
  have hcurrent : (NamingContext.current c : Serving σ NamingContext).MadeOf B := by
    refine (self c).bind fun o => ?_
    split
    · exact .pure _
    · exact .pure _
  have halter : ∀ f, (NamingContext.alter c f : Serving σ Unit).MadeOf B := fun f =>
    hcurrent.bind fun context => (ofExcept _).bind fun _ => setSelf c _
  unfold NamingContext.invoke
  split
  · exact (read _).bind fun _ => (read _).bind fun _ => halter _
  · exact (read _).bind fun _ => (read _).bind fun _ => halter _
  · exact (read _).bind fun _ => hcurrent.bind fun _ => (ofExcept _).bind fun _ => modify _
  · exact (read _).bind fun _ => halter _
  · exact hcurrent.bind fun _ => modify _
  · exact .throw _

section Dispatch

variable [Servant σ]
  (hs : ∀ c operation, (Servant.invoke c operation : Serving σ Unit).MadeOf B)
include hs

namespace Dispatch

open Serving.MadeOf in
lemma madeOf_toServant (call : Inbound) (target : Target) :
    (toServant call target : Serving σ Unit).MadeOf B := by
  rw [toServant]
  split
  · exact .throw _
  · split
    · refine (read _).bind fun _ => (self _).bind fun o => ?_
      split
      · exact modify _
      · exact modify _
    · refine (self _).bind fun o => ?_
      split
      · exact NamingContext.madeOf_invoke _ _
      · exact hs _ _

open Activity.MadeOf in
lemma madeOf_serve (call : Inbound) : (serve call : Activity σ _).MadeOf B := by
  have hhold : ∀ h, (Activity.update fun w : World σ => w.hold h).MadeOf B :=
    fun h => update fun w => .of_brokers rfl
  have hunhold : ∀ h, (Activity.update fun w : World σ => w.unhold h).MadeOf B :=
    fun h => update fun w => .of_brokers rfl
  have hdispatch : (Activity.updateBroker call.broker countDispatch : Activity σ Unit).MadeOf B :=
    update fun w => .count w _ fun s => { s with dispatched := s.dispatched + 1 }
  have hfailure : (Activity.updateBroker call.broker countFailure : Activity σ Unit).MadeOf B :=
    update fun w => .count w _ fun s => { s with failures := s.failures + 1 }
  have hrun : (run call : Activity σ _).MadeOf B := by
    refine (broker _).bind fun b => ?_
    dsimp only
    split
    · exact .pure _
    · refine (hhold _).bind fun _ => (madeOf_toServant hs call _ _).bind fun _ => ?_
      exact (hunhold _).bind fun _ => .pure _
  refine hdispatch.bind fun _ => (broker _).bind fun b => ?_
  split
  · exact .pure _
  · refine hrun.bind fun result => ?_
    dsimp only
    split
    · exact hfailure.bind fun _ => .pure _
    · exact .pure _

end Dispatch

open Activity.MadeOf in
lemma Job.madeOf_activity {job : Job}
    (hend : ∀ p exit, job = .finish p exit →
      (Activity.update fun w : World σ => w.finishLate p exit).MadeOf B) :
    (job.activity : Activity σ Unit).MadeOf B := by
  have hsend : ∀ p m, (Activity.update fun w : World σ => (w.send p m).2).MadeOf B :=
    fun p m => update fun w => .of_brokers (World.brokers_send w p m)
  cases job with
  | serve p r order =>
    refine world.bind fun w => ?_
    split
    · exact .pure _
    · refine (Dispatch.madeOf_serve hs _).bind fun result => ?_
      have hdone : (Activity.update fun w : World σ =>
          (w.untrack p).unhold (.broker p.broker)).MadeOf B :=
        update fun w => .trans (.untrack w p) (.of_brokers rfl)
      dsimp only
      split
      · exact (hsend p _).bind fun _ => (written p).bind fun _ => hdone
      · exact hdone
  | answerLocate p id status =>
    exact (hsend p _).bind fun _ => (written p).bind fun _ => update fun w => .of_brokers rfl
  | oneway call =>
    refine (Dispatch.madeOf_serve hs call).bind fun _ => ?_
    exact update fun w => .of_brokers rfl
  | finish p exit => exact (written p).bind fun _ => hend p exit rfl

end Dispatch

end ObjectBroker
