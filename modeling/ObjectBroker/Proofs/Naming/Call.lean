import ObjectBroker.Proofs.Dispatch.Plain
import ObjectBroker.Proofs.Invocation.Errand
import ObjectBroker.Proofs.Naming.Wire

/-!
A call to a naming context from its client to its table and back: what is sent, what the table does
with it, and what the client makes of the reply.
-/

namespace ObjectBroker

variable {σ : Type}

namespace NamingAnswer

def put (o : Output) : NamingAnswer → Output
  | .done => o
  | .object r => Reference.put o r
  | .bindings entries => NamingContext.putList o entries

end NamingAnswer

namespace NamingClient

lemma heapless_readBindings : readBindings.Heapless := by
  refine .bind (.stream _) fun count => .many ?_ count
  exact NamingContext.heapless_readName.bind fun _ =>
    NamingContext.heapless_requireObject.bind fun _ => .pure _

end NamingClient

namespace NamingCall

def operation : NamingCall → String
  | .bind _ _ => "bind"
  | .rebind _ _ => "rebind"
  | .resolve _ => "resolve"
  | .unbind _ => "unbind"
  | .list => "list"

def put (o : Output) : NamingCall → Output
  | .bind name object | .rebind name object => Reference.put (Name.put o name) object
  | .resolve name | .unbind name => Name.put o name
  | .list => o

lemma order_put (o : Output) (call : NamingCall) : (call.put o).order = o.order := by
  have hextends : o.Extends (call.put o) := by
    cases call with
    | bind name object | rebind name object =>
      exact (Name.extends_put o name).trans (Reference.extends_put _ object)
    | resolve name | unbind name => exact Name.extends_put o name
    | list => exact .refl o
  exact hextends.order_eq

def args (blank : Marshaller) (call : NamingCall) : Marshaller :=
  blank.put (call.put ·)

def send (b : BrokerId) (target : Reference) : NamingCall → Call σ NamingAnswer
  | .bind name object => (fun _ => .done) <$> NamingClient.bind b target name object
  | .rebind name object => (fun _ => .done) <$> NamingClient.rebind b target name object
  | .resolve name => .object <$> NamingClient.resolve b target name
  | .unbind name => (fun _ => .done) <$> NamingClient.unbind b target name
  | .list => .bindings <$> NamingClient.list b target

def take (call : NamingCall) (results : Unmarshaller) : Call σ NamingAnswer :=
  match call with
  | .resolve _ => .object <$> Call.reading results NamingContext.requireObject
  | .list => .bindings <$> Call.reading results NamingClient.readBindings
  | _ => pure .done

def accept (call : NamingCall) (results : Unmarshaller) : Except BrokerError NamingAnswer :=
  match call with
  | .resolve _ => .object <$> (results.run NamingContext.requireObject).1.mapError .marshal
  | .list => .bindings <$> (results.run NamingClient.readBindings).1.mapError .marshal
  | _ => .ok .done

lemma evaluates_take (call : NamingCall) (results : Unmarshaller) (w : World σ) :
    (call.take results).Evaluates w (call.accept results) w := by
  cases call with
  | resolve name => exact .map (.reading NamingContext.heapless_requireObject results w) _
  | list => exact .map (.reading NamingClient.heapless_readBindings results w) _
  | _ => exact .pure _ w

def results? (call : NamingCall) (outcome : Except BrokerError Outcome) :
    Except BrokerError Unmarshaller :=
  (outcome >>= Outcome.toResult).mapError call.report

lemma run_report {α β : Type} (report : BrokerError → BrokerError) (c : Call σ Outcome)
    (g : Unmarshaller → Call σ α) (f : α → β) :
    (f <$> (ExceptT.adapt report (c >>= fun outcome => Call.ofExcept outcome.toResult) >>= g)).run =
      c.run >>= fun outcome =>
        ExceptT.bindCont (f <$> g ·) ((outcome >>= Outcome.toResult).mapError report) := by
  change (((c.run >>= _) >>= _) >>= _) >>= _ = _
  rw [Activity.bind_bind, Activity.bind_bind, Activity.bind_bind]
  refine congrArg (c.run >>= ·) (funext fun outcome => ?_)
  rcases outcome with e | outcome
  · rfl
  · cases outcome <;> rfl

lemma adapt_id {α : Type} (c : Call σ α) : ExceptT.adapt id c = c := by
  have hid : (fun r : Except BrokerError α => Pure.pure (r.mapError id) : _ → Activity σ _) =
      Pure.pure := by
    funext r
    cases r <;> rfl
  change c.run >>= _ = c.run
  refine Eq.trans ?_ (Activity.bind_pure c.run)
  exact congrArg (c.run >>= ·) hid

lemma run_send (b : BrokerId) (target : Reference) (call : NamingCall) (w : World σ) :
    (call.send b target).run.run w =
      ((Invocation.invoke b target call.operation (call.args (w.broker b).marshaller)).run >>=
        fun outcome => ExceptT.bindCont call.take (call.results? outcome)).run w := by
  have hread : ∀ {α β γ : Type} (k : Broker → Call σ α) (g : α → Call σ β) (f : β → γ),
      (f <$> ((Call.lift (Activity.broker b) >>= k) >>= g)).run.run w =
        (f <$> (k (w.broker b) >>= g)).run.run w := fun _ _ _ => rfl
  cases call with
  | list =>
    have hreport := run_report id
      (Invocation.invoke b target "list" (w.broker b).marshaller : Call σ Outcome)
      (Call.reading · NamingClient.readBindings) NamingAnswer.bindings
    rw [adapt_id] at hreport
    have hstart : (list.send b target).run.run w = (NamingAnswer.bindings <$>
      (Invocation.invokeResults b target "list" (w.broker b).marshaller >>=
        (Call.reading · NamingClient.readBindings))).run.run w := rfl
    exact hstart.trans (congrArg (Activity.run w) hreport)
  | _ =>
    refine (hread _ _ _).trans ?_
    exact congrArg (Activity.run w) (run_report _ _ _ _)

def errand (b : BrokerId) (blank : Marshaller) (target : Reference) (holding : Holding)
    (call : NamingCall) : Errand σ NamingAnswer where
  broker := b
  target := target
  operation := call.operation
  blank := blank
  args := call.args blank
  holding := holding
  call := call.send b target
  tail outcome := ExceptT.bindCont call.take (call.results? outcome)
  finish outcome := call.results? outcome >>= call.accept
  opens w hb := by
    rw [← hb]
    exact call.run_send b target w
  silent outcome w := by
    cases call.results? outcome with
    | error e => exact .pure _ w
    | ok results => exact call.evaluates_take results w

end NamingCall

structure Exchange.At (x : Exchange) (home : Endpoint) (o : Output) (body : Octets) : Prop where
  home : x.args.home = some home
  input : x.args.input = o.inBody body

lemma Exchange.At.read {α : Type} {x : Exchange} {home : Endpoint} {o o' : Output} {body : Octets}
    {r : Unmarshalling α} {a : α} (hx : x.At home o body) (hr : r.Heapless)
    (h : r.Recovers home o o' a) (hp : o'.octets <+: body) (hl : body.length < 2 ^ 32) :
    ∃ y : Exchange, y.At home o' body ∧ y.reply = x.reply ∧
      ∀ w : World σ, (Serving.read r).Evaluates x w (.ok a) y w := by
  have hrun := h.run x.args body hx.home hx.input hp hl
  have hread : ∀ w : World σ, (Serving.read r).Evaluates x w
      ((x.args.run r).1.mapError .marshal) _ w := fun w => .read hr x w
  rw [hrun] at hread
  refine ⟨_, ⟨?_, ?_⟩, ?_, hread⟩
  · exact hx.home
  · rfl
  · rfl

namespace NamingContext

variable {table table' : NamingContext} {c : CallContext} {w : World σ}
  {f : NamingContext → Except BrokerError NamingContext} {e : BrokerError}

/-- Wherever a table is found, a servant does with it what such an outcome tells: results are added
to the reply, and a refusal leaves the table as it was. -/
def Serves (table : NamingContext) (s : CallContext → Serving σ Unit) (x : Exchange) :
    Except BrokerError (NamingAnswer × NamingContext) → Prop
  | .ok (a, table') => ∃ y : Exchange, y.reply = x.reply.put (a.put ·) ∧
      ∀ (c : CallContext) (w : World σ), w.objects[c.object]? = some (.naming table) →
        (s c).Evaluates x w (.ok ()) y (w.setObject c.object (.naming table'))
  | .error e => ∃ y : Exchange,
      ∀ (c : CallContext) (w : World σ), w.objects[c.object]? = some (.naming table) →
        (s c).Evaluates x w (.error e) y w

def reply (b : Broker) (call : NamingCall) (table : NamingContext) : ReplyStatus × Octets :=
  match table.perform (call.seen b.endpoint) with
  | .ok (a, _) => (.noException, (b.marshaller.put (a.put ·)).octets)
  | .error e => Dispatch.encode b (.error e) b.marshaller

def next (home : Endpoint) (call : NamingCall) (table : NamingContext) : NamingContext :=
  match table.perform (call.seen home) with
  | .ok (_, table') => table'
  | .error _ => table

def told (home away : Endpoint) (call : NamingCall) (table : NamingContext) :
    Except BrokerError NamingAnswer :=
  match table.perform (call.seen home) with
  | .ok (a, _) => .ok (a.seen away)
  | .error e => .error (call.report e)

lemma Sound.next (ht : table.Sound) (call : NamingCall) (home : Endpoint) :
    (table.next home call).Sound := by
  rw [NamingContext.next]
  cases hperform : table.perform (call.seen home) with
  | error e => exact ht
  | ok result => exact ht.perform hperform

end NamingContext

end ObjectBroker
