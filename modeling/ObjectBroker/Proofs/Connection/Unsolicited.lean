import ObjectBroker.Proofs.Connection.Negotiation
import ObjectBroker.Proofs.Evaluation

/-!
Calls that nobody asked for. A request on a connection that the broker opened gets to its object
when the adapter of the object is bidirectional; whether the broker has ever offered the connection
for calls back is not looked at.
-/

namespace ObjectBroker

variable {σ ρ : Type}

namespace World

variable (w : World σ) (p : Port)

lemma objects_notifyReader (n : Nat) : (w.notifyReader n).objects = w.objects := by
  rw [notifyReader]
  split <;> rfl

lemma objects_send (m : Message) : (w.send p m).2.objects = w.objects := by
  rw [send]
  split
  · rfl
  · split
    · rfl
    · dsimp only [writePipe]
      split
      · rfl
      · exact objects_notifyReader _ _

lemma objects_untrack : (w.untrack p).objects = w.objects := by
  rw [untrack]
  split
  · rfl
  · dsimp only
    split <;> rfl

lemma objects_closePipe (n : Nat) : (w.closePipe n).objects = w.objects :=
  objects_notifyReader _ n

lemma objects_collect [Servant σ] : w.collect.objects = w.objects := by
  have hfold : ∀ {α : Type} (f : World σ → α → World σ), (∀ w a, (f w a).objects = w.objects) →
      ∀ (l : List α) (w : World σ), (l.foldl f w).objects = w.objects := by
    intro α f hf l
    induction l with
    | nil => exact fun _ => rfl
    | cons a l ih => exact fun w => (ih (f w a)).trans (hf w a)
  have hretire : ∀ (rounds : Nat) (w : World σ), (w.retireUnheld rounds).objects = w.objects := by
    intro rounds
    induction rounds with
    | zero => exact fun _ => rfl
    | succ rounds ih =>
      intro w
      rw [retireUnheld]
      split
      · rfl
      · rw [ih]
        exact hfold retire (fun _ _ => rfl) _ w
  have hrelease : ∀ (w : World σ) b, (w.releaseStreams b).objects = w.objects := by
    refine fun w b => hfold (releaseStream b) (fun w c => ?_) _ w
    rw [releaseStream, objects_closePipe, objects_closePipe]
    rfl
  rw [collect, hfold releaseStreams hrelease, hretire]

end World

lemma Network.objects_absorbAll [Servant σ] (n : Network σ ρ) :
    n.absorbAll.world.objects = n.world.objects := by
  rw [n.absorbAll_eq.1]
  exact World.objects_collect n.world

lemma Activity.run_bind_pure {α β : Type} (a : Activity σ α) (y : β) (w : World σ) :
    ((a >>= fun _ => pure y).run w).2 = (a.run w).2 := by
  induction a generalizing w with
  | pure x => rfl
  | read next ih => exact ih w w
  | write w' next ih => exact ih w'
  | await wait deadline next ih =>
    have hbind : (await wait deadline next >>= fun _ => pure y) =
        await wait deadline fun met => next met >>= fun _ => (pure y : Activity σ β) := rfl
    rw [hbind, run, run]
    split
    · exact ih true w
    · split
      · exact ih false w
      · rfl
  | perform call next ih => rfl

lemma Network.world_settleTask [Servant σ] (n : Network σ ρ) (id : Nat)
    (stop : Activity.Stop σ (Option ρ)) : (n.settleTask id stop).world = n.world := by
  cases stop with
  | done r => cases r <;> rfl
  | _ => rfl

@[reducible] def telltale : Servant Bool where
  typeId _ := ""
  typeIds _ := []
  brokers _ := []
  invoke c _ := Serving.setSelf c (.custom true)

lemma Dispatch.evaluates_invoke {w w' : World σ} [Servant σ] {c : CallContext} {operation : String}
    {x y : Exchange} {state : σ} {r : Except BrokerError Unit}
    (ho : w.objects[c.object]? = some (.custom state))
    (h : (Servant.invoke c operation : Serving σ Unit).Evaluates x w r y w') :
    (Dispatch.invoke c operation : Serving σ Unit).Evaluates x w r y w' := by
  refine .bind (.self c x w) ?_
  rw [ho]
  exact h

namespace Job

variable {w : World Bool} {p : Port} {c : Connection} {r : Request} {order : ByteOrder}
  {target : Target}

/-- Whether or not the answer finds room at once, no object is changed by it. -/
lemma objects_run_reply (w : World σ) (p : Port) (r : Request) (answer : ReplyStatus × Octets) :
    ((reply p r answer).run w).2.objects = w.objects := by
  let Same : World σ → World σ → Prop := fun w w' => w'.objects = w.objects
  obtain ⟨status, body⟩ := answer
  have hreply : (reply p r (status, body)).Respects Same := by
    have hend : (Activity.update fun w : World σ =>
        (w.untrack p).unhold (.broker p.broker)).Respects Same :=
      .update fun w => w.objects_untrack p
    rw [reply]
    split
    · exact (Activity.Respects.update fun w => w.objects_send p _).bind fun _ =>
        (Activity.Respects.written p).bind fun _ => hend
    · exact hend
  have htrans : ∀ w w' w'', Same w w' → Same w' w'' → Same w w'' := fun _ _ _ h h' => h'.trans h
  exact (Activity.RespectsFrom.run (R := Same) (fun _ => rfl) htrans (hreply w)).1

lemma objects_run_admitted (hc : w.connection? p = some c) (hrole : c.role = .initiator)
    (ht : (w.broker p.broker).adapters.route r.key = .ok target)
    (hexists : r.operation ≠ "_non_existent") (hisA : r.operation ≠ "_is_a")
    (hb : target.adapter.isBidirectional = true) {state : Bool}
    (ho : w.objects[target.servant]? = some (.custom state)) :
    ((@serveRequest Bool telltale p r order).run w).2.objects =
      w.objects.setIfInBounds target.servant (.custom true) := by
  let call := inbound p c r order
  let v := Dispatch.engage w call target
  let x := Dispatch.exchange v call
  let u := v.setObject target.servant (.custom true)
  have hinvoke : (@Dispatch.invoke Bool telltale (Dispatch.context call target)
      r.operation).Evaluates x v (.ok ()) x u :=
    @Dispatch.evaluates_invoke _ _ _ telltale _ _ _ _ _ _ ho (.setSelf _ _ x v)
  have hconclude : (Dispatch.conclude v call target (.ok (), x)).Evaluates u
      (.noException, x.reply.octets) (u.unhold (.object target.servant)) := rfl
  rw [@run_admitted Bool w target p c r order telltale hc hrole ht hexists hisA hb call rfl,
    Activity.Evaluates.bind_run hinvoke, Activity.Evaluates.bind_run hconclude, objects_run_reply]
  rfl

lemma objects_run_refused (hc : w.connection? p = some c) (hrole : c.role = .initiator)
    (ht : (w.broker p.broker).adapters.route r.key = .ok target)
    (hexists : r.operation ≠ "_non_existent") (hisA : r.operation ≠ "_is_a")
    (hb : target.adapter.isBidirectional = false) :
    ((@serveRequest Bool telltale p r order).run w).2.objects = w.objects := by
  rw [@run_refused Bool w target p c r order telltale hc hrole ht hexists hisA hb, objects_run_reply]
  rfl

end Job

namespace Network

/-- Where a request on a connection that the broker opened is about to be served, its object is
called when its adapter is bidirectional and only then: nothing is asked about offers. -/
theorem called_iff_bidirectional {n : Network Bool ρ} {p : Port} {c : Connection} {r : Request}
    {order : ByteOrder} {target : Target} {id : Nat} {rest : List (Ready Bool ρ)}
    (hq : n.queue =
      .task id (do @Job.activity Bool telltale (.serve p r order); return none) :: rest)
    (hc : n.world.connection? p = some c) (hrole : c.role = .initiator)
    (ht : (n.world.broker p.broker).adapters.route r.key = .ok target)
    (hexists : r.operation ≠ "_non_existent") (hisA : r.operation ≠ "_is_a")
    (ho : n.world.objects[target.servant]? = some (.custom false)) :
    (@step Bool ρ telltale n).world.objects[target.servant]? = some (.custom true) ↔
      target.adapter.isBidirectional = true := by
  have hobjects : (@step Bool ρ telltale n).world.objects =
      ((@Job.serveRequest Bool telltale p r order).run n.world).2.objects := by
    rw [@step.eq_def _ _ telltale, hq]
    dsimp only
    rw [@objects_absorbAll _ _ telltale, @world_settleTask _ _ telltale]
    exact congrArg World.objects (Activity.run_bind_pure _ none n.world)
  cases hb : target.adapter.isBidirectional with
  | true =>
    obtain ⟨hlt, -⟩ := Array.getElem?_eq_some_iff.mp ho
    rw [hobjects, Job.objects_run_admitted hc hrole ht hexists hisA hb ho,
      Array.getElem?_setIfInBounds, if_pos rfl, if_pos hlt]
    exact iff_of_true rfl rfl
  | false =>
    rw [hobjects, Job.objects_run_refused hc hrole ht hexists hisA hb, ho]
    exact iff_of_false (fun h => by cases h) (by decide)

def dialled : World Bool :=
  let adapters : Directory := { adapters := [
    { name := Adapter.rootName, servants := [("inner", 0)] },
    { name := "open", isBidirectional := true, servants := [("outer", 0)] }] }
  let lone : World Bool := {
    brokers := #[{ Broker.new "a" { name := "a", order := .bigEndian } with adapters }]
    objects := #[.custom false]
    holdings := [.broker 0] }
  ((lone.openStream 0 .initiator { host := "b", port := 7 }).map (·.2.2.2)).toOption.getD lone

def dialledPort : Port := { broker := 0, connection := 1 }

def knock (key : String) : Request :=
  { id := 1, key := Utf8.encode key, operation := "ring", contexts := [], body := [] }

def wasCalled (w : World Bool) : Bool :=
  match w.objects.toList with
  | .custom called :: _ => called
  | _ => false

def serving (key : String) : Network Bool Unit where
  world := dialled
  queue := [.task 0 do @Job.activity Bool telltale (.serve dialledPort (knock key) .bigEndian); return none]

theorem called_iff_bidirectional_dialled :
    (@step Bool Unit telltale (serving "open/outer")).world.objects[0]? = some (.custom true) ∧
      ¬ (@step Bool Unit telltale (serving "inner")).world.objects[0]? = some (.custom true) := by
  have houter : (dialled.broker 0).adapters.route (knock "open/outer").key = .ok
      { adapter := { name := "open", isBidirectional := true, servants := [("outer", 0)] },
        id := "outer", servant := 0 } := by decide +kernel
  have hinner : (dialled.broker 0).adapters.route (knock "inner").key = .ok
      { adapter := { name := Adapter.rootName, servants := [("inner", 0)] }, id := "inner",
        servant := 0 } := by decide +kernel
  have hring : "ring" ≠ "_non_existent" ∧ "ring" ≠ "_is_a" := by decide
  have hfound : ∃ c, dialled.connection? dialledPort = some c ∧ c.role = .initiator := ⟨_, rfl, rfl⟩
  obtain ⟨c, hc, hrole⟩ := hfound
  have hobject : dialled.objects[0]? = some (.custom false) := rfl
  have hcalled (key : String) := @called_iff_bidirectional Unit (serving key) dialledPort c (knock key)
    .bigEndian
  constructor
  · exact (hcalled _ rfl hc hrole houter hring.1 hring.2 hobject).mpr rfl
  · have hnot := hcalled _ rfl hc hrole hinner hring.1 hring.2 hobject
    rw [hnot]
    decide

def knocked : Network Bool Unit :=
  @change Bool Unit telltale { world := dialled } fun w =>
    (w.writePipe 0 [(Message.request (knock "open/outer")).encode .bigEndian]).2

theorem called_without_offer :
    let taken := @settle Bool Unit telltale knocked 1
    let served := @settle Bool Unit telltale knocked 2
    (taken.world.connection? dialledPort).any (fun c =>
        c.role = .initiator ∧ c.isBidirectional = false ∧ (taken.world.pipe c.outbound).chunks = []) ∧
      wasCalled taken.world = false ∧ wasCalled served.world = true := by
  decide +kernel

end Network

end ObjectBroker
