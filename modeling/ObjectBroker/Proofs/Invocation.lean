import ObjectBroker.Proofs.Activity
import ObjectBroker.Proofs.World.Delivery

/-!
Where calls go. A call to an endpoint that a broker has a route to starts with its request on the
connection of the route; nothing happens in the world before.
-/

namespace ObjectBroker

variable {σ : Type} {w w' : World σ} {p : Port} {c : Connection} {target : Reference}

namespace World

/-- Calls on a reference go out on a connection: it is found without any change to the world, and
the first change is that the request is sent there. -/
structure CallsOn (w : World σ) (p : Port) (c : Connection) (target : Reference) : Prop where
  connect : Activity.finds w (Invocation.connect p.broker target.endpoint).run = some (.ok c)
  invoke : ∀ operation args, args.output.order = c.order →
    Activity.firstChange w (Invocation.invoke p.broker target operation args).run =
      some (w.sendTracked p fun id => .request
        { (w.broker p.broker).request c target.key operation args.octets with id }).2
  oneway : ∀ operation args, args.output.order = c.order →
    Activity.firstChange w (Invocation.invokeOneway p.broker target operation args).run =
      some (w.sendOneway p ((w.broker p.broker).request c target.key operation args.octets)).2

end World

namespace Invocation

variable {b : BrokerId}

lemma finds_ensureRunning (h : (w.broker b).isRunning = true) :
    Activity.finds w (ensureRunning b).run = some (.ok (w.broker b)) := by
  have hread : Activity.finds w (Call.lift (Activity.broker b)).run = some (.ok (w.broker b)) := rfl
  rw [ensureRunning, Call.finds_bind hread, Broker.ensureRunning, if_pos h]
  rfl

lemma finds_connect {e : Endpoint} (h : (w.broker b).route? e = some c) :
    Activity.finds w (connect b e).run = some (.ok c) := by
  have hread : Activity.finds w (Call.lift (Activity.broker b)).run = some (.ok (w.broker b)) := rfl
  rw [connect, Call.finds_bind hread, h]
  rfl

lemma request_eq {broker : Broker} {operation : String} {args : Marshaller}
    (h : args.output.order = c.order) :
    request broker c target operation args =
      .ok (broker.request c target.key operation args.octets) := by
  rw [request, if_neg (not_not_intro h)]

lemma firstChange_remote (hroute : (w.broker p.broker).route? target.endpoint = some c)
    (hid : c.id = p.connection) {operation : String} {args : Marshaller}
    (ho : args.output.order = c.order) :
    Activity.firstChange w (remote p.broker target operation args).run =
      some (w.sendTracked p fun id => .request
        { (w.broker p.broker).request c target.key operation args.octets with id }).2 := by
  have hread : Activity.finds w (Call.lift (Activity.broker p.broker)).run =
      some (.ok (w.broker p.broker)) := rfl
  rw [remote, Call.firstChange_bind hread, Call.firstChange_bind (finds_connect hroute), hid,
    request_eq ho]
  rfl

lemma callsOn (hrun : (w.broker p.broker).isRunning = true)
    (hroute : (w.broker p.broker).route? target.endpoint = some c) (hid : c.id = p.connection)
    (hl : target.isLocal = false) : w.CallsOn p c target := by
  have hlocal : ¬ target.isLocal = true := by
    rw [hl]
    decide
  refine ⟨finds_connect hroute, fun operation args ho => ?_, fun operation args ho => ?_⟩
  · rw [invoke, Call.firstChange_bind (finds_ensureRunning hrun), if_neg hlocal]
    exact firstChange_remote hroute hid ho
  · rw [invokeOneway, Call.firstChange_bind (finds_ensureRunning hrun), if_neg hlocal,
      Call.firstChange_bind (finds_connect hroute), hid, request_eq ho]
    rfl

end Invocation

end ObjectBroker
