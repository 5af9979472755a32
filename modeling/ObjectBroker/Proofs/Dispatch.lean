import ObjectBroker.Proofs.Activity
import ObjectBroker.Proofs.World.Steady

/-!
Serving a request: what is done before its object works on it, and with what the object gives. The
adapter of the object decides whether a request on a connection that the broker opened gets there.
-/

namespace ObjectBroker

variable {σ α : Type} {w : World σ} {call : Inbound} {target : Target}

namespace Dispatch

def engage (w : World σ) (call : Inbound) (target : Target) : World σ :=
  (w.updateBroker call.broker countDispatch).hold (.object target.servant)

def exchange (w : World σ) (call : Inbound) : Exchange where
  args := (w.broker call.broker).unmarshaller call.order call.body
  reply := (w.broker call.broker).marshaller

def conclude (w : World σ) (call : Inbound) (target : Target) :
    Except BrokerError Unit × Exchange → Activity σ (ReplyStatus × Octets)
  | (result, x) => do
    Activity.update (·.unhold (.object target.servant))
    if isFailure result then
      Activity.updateBroker call.broker countFailure
    pure (encode (w.broker call.broker) result x.reply)

lemma adapters_countDispatch (w : World σ) (b : BrokerId) :
    ((w.updateBroker b countDispatch).broker b).adapters = (w.broker b).adapters := by
  rw [World.broker_updateBroker]
  split <;> rfl

def refusal (b : Broker) : Octets :=
  (b.marshaller.put (SystemException.put ·
    { kind := .noPermission, minor := SystemException.bidirectionalRequired, completed := .no })).octets

lemma encode_notPermitted (w : World σ) (b : BrokerId) (x : Marshaller) :
    encode ((w.updateBroker b countDispatch).broker b) (.error notPermitted) x =
      (.systemException, refusal (w.broker b)) := by
  rw [World.broker_updateBroker]
  split <;> rfl

lemma unhold_engage (w : World σ) (call : Inbound) (target : Target) :
    (engage w call target).unhold (.object target.servant) =
      w.updateBroker call.broker countDispatch := by
  rw [engage, World.hold, World.unhold, List.erase_cons_head]

open Activity in
lemma run_conclude_notPermitted (x : Exchange) (k : ReplyStatus × Octets → Activity σ α) :
    (conclude (engage w call target) call target (.error notPermitted, x) >>= k).run
        (engage w call target) =
      (k (.systemException, refusal (w.broker call.broker))).run
        ((w.updateBroker call.broker countDispatch).updateBroker call.broker countFailure) := by
  have hencode : encode ((engage w call target).broker call.broker) (.error notPermitted) x.reply =
      (.systemException, refusal (w.broker call.broker)) := encode_notPermitted w call.broker x.reply
  rw [conclude, bind_bind, run_update, unhold_engage, hencode]
  rfl

variable [Servant σ]

open Activity in
lemma run_serve (ht : (w.broker call.broker).adapters.route call.key = .ok target)
    (hop : call.operation ≠ "_non_existent") (k : ReplyStatus × Octets → Activity σ α) :
    (serve call >>= k).run w =
      ((toServant call target).run.run (exchange (engage w call target) call) >>= fun outcome =>
        conclude (engage w call target) call target outcome >>= k).run (engage w call target) := by
  rw [← adapters_countDispatch] at ht
  rw [serve, bind_bind, run_updateBroker, bind_bind, run_broker, if_neg hop, bind_bind, Dispatch.run,
    bind_bind, run_broker]
  dsimp only
  rw [ht]
  dsimp only
  rw [bind_bind, run_update, bind_bind]
  refine congrArg (Activity.run _) (congrArg (bind _) (funext fun outcome => ?_))
  obtain ⟨result, x⟩ := outcome
  dsimp only [conclude]
  rw [bind_bind, bind_bind]
  rfl

lemma toServant_of_initiated (ho : call.origin = .initiated) (hop : call.operation ≠ "_is_a") :
    (toServant call target : Serving σ Unit) =
      if target.adapter.isBidirectional then invoke (context call target) call.operation
      else throw notPermitted := by
  rw [toServant, ho, if_neg hop, Adapter.accepts]
  cases target.adapter.isBidirectional <;> rfl

end Dispatch

namespace Job

variable {p : Port} {c : Connection} {r : Request} {order : ByteOrder}

def reply (p : Port) (r : Request) : ReplyStatus × Octets → Activity σ Unit
  | (status, body) => do
    if r.responseExpected then
      Activity.update fun w => (w.send p (.reply { id := r.id, status, body })).2
      let _ ← Activity.written p
    Activity.update fun w => (w.untrack p).unhold (.broker p.broker)

variable [Servant σ]

lemma run_serveRequest (hc : w.connection? p = some c) :
    (serveRequest p r order : Activity σ Unit).run w =
      (Dispatch.serve (inbound p c r order) >>= reply p r).run w := by
  rw [serveRequest, Activity.run_world, hc]
  rfl

def refused (w : World σ) (b : BrokerId) : World σ :=
  (w.updateBroker b Dispatch.countDispatch).updateBroker b Dispatch.countFailure

omit [Servant σ] in
lemma origin_inbound (hrole : c.role = .initiator) :
    (inbound p c r order).origin = .initiated := by
  rw [inbound, origin, hrole]

lemma run_admitted (hc : w.connection? p = some c) (hrole : c.role = .initiator)
    (ht : (w.broker p.broker).adapters.route r.key = .ok target)
    (hexists : r.operation ≠ "_non_existent") (hisA : r.operation ≠ "_is_a")
    (hb : target.adapter.isBidirectional = true) {call : Inbound}
    (hcall : call = inbound p c r order) :
    (serveRequest p r order : Activity σ Unit).run w =
      ((Dispatch.invoke (Dispatch.context call target) r.operation).run.run
          (Dispatch.exchange (Dispatch.engage w call target) call) >>= fun outcome =>
        Dispatch.conclude (Dispatch.engage w call target) call target outcome >>= reply p r).run
          (Dispatch.engage w call target) := by
  subst hcall
  let call := inbound p c r order
  have ht' : (w.broker call.broker).adapters.route call.key = .ok target := ht
  have hexists' : call.operation ≠ "_non_existent" := hexists
  have hisA' : call.operation ≠ "_is_a" := hisA
  have hinvoke : (Dispatch.toServant call target : Serving σ Unit) =
      Dispatch.invoke (Dispatch.context call target) r.operation := by
    rw [Dispatch.toServant_of_initiated (origin_inbound hrole) hisA', hb]
    rfl
  rw [run_serveRequest hc, Dispatch.run_serve ht' hexists', hinvoke]

lemma run_refused (hc : w.connection? p = some c) (hrole : c.role = .initiator)
    (ht : (w.broker p.broker).adapters.route r.key = .ok target)
    (hexists : r.operation ≠ "_non_existent") (hisA : r.operation ≠ "_is_a")
    (hb : target.adapter.isBidirectional = false) :
    (serveRequest p r order : Activity σ Unit).run w =
      (reply p r (.systemException, Dispatch.refusal (w.broker p.broker))).run
        (refused w p.broker) := by
  let call := inbound p c r order
  have ht' : (w.broker call.broker).adapters.route call.key = .ok target := ht
  have hexists' : call.operation ≠ "_non_existent" := hexists
  have hisA' : call.operation ≠ "_is_a" := hisA
  have hthrow : (Dispatch.toServant call target : Serving σ Unit) = throw Dispatch.notPermitted := by
    rw [Dispatch.toServant_of_initiated (origin_inbound hrole) hisA', hb]
    rfl
  have houtcome : (throw Dispatch.notPermitted : Serving σ Unit).run.run
      (Dispatch.exchange (Dispatch.engage w call target) call) =
        pure (.error Dispatch.notPermitted, Dispatch.exchange (Dispatch.engage w call target) call) :=
    rfl
  rw [run_serveRequest hc, Dispatch.run_serve ht' hexists', hthrow, houtcome, Activity.run_pure,
    Dispatch.run_conclude_notPermitted]
  rfl

end Job

end ObjectBroker
