import ObjectBroker.Proofs.Dispatch.Question

/-!
Servants that are functions: what one does depends on its own state, on the operation and on the
arguments, and it calls nobody. Every question gets an answer from a broker with such servants.
-/

namespace ObjectBroker

variable {σ α β : Type}

namespace Serving

/-- What a servant does at an object ends at once, changes no more than the states of objects, and
comes out the same in every context. -/
def Plain (n : ObjectId) (s : CallContext → Serving σ α) : Prop :=
  ∀ (x : Exchange) (objects : Array (Object σ)), ∃ r y objects',
    objects'.size = objects.size ∧ ∀ (c : CallContext) (w : World σ), c.object = n →
      w.objects = objects → (s c).Evaluates x w r y { w with objects := objects' }

namespace Plain

variable {n : ObjectId} {s : CallContext → Serving σ α} {f : CallContext → α → Serving σ β}

lemma of_still (h : ∀ x objects, ∃ r y, ∀ (c : CallContext) (w : World σ), c.object = n →
    w.objects = objects → (s c).Evaluates x w r y w) : Plain n s := by
  intro x objects
  obtain ⟨r, y, hs⟩ := h x objects
  refine ⟨r, y, objects, rfl, ?_⟩
  rintro c w hc rfl
  exact hs c w hc rfl

lemma pure (a : α) : Plain n (fun _ => Pure.pure a : CallContext → Serving σ α) :=
  of_still fun x _ => ⟨.ok a, x, fun _ w _ _ => .pure a x w⟩

lemma throw (e : BrokerError) : Plain n (fun _ => MonadExcept.throw e : CallContext → Serving σ α) :=
  of_still fun x _ => ⟨.error e, x, fun _ w _ _ => .throw e x w⟩

lemma ofExcept (r : Except BrokerError α) :
    Plain n (fun _ => Serving.ofExcept r : CallContext → Serving σ α) :=
  of_still fun x _ => ⟨r, x, fun _ w _ _ => .ofExcept r x w⟩

lemma modify (g : Exchange → Exchange) :
    Plain n (fun _ => modify g : CallContext → Serving σ PUnit) :=
  of_still fun x _ => ⟨.ok (), g x, fun _ w _ _ => .modify g x w⟩

lemma get : Plain n (fun _ => MonadState.get : CallContext → Serving σ Exchange) :=
  of_still fun x _ => ⟨.ok x, x, fun _ w _ _ => .get x w⟩

lemma read {r : Unmarshalling α} (hr : r.Heapless) :
    Plain n (fun _ => Serving.read r : CallContext → Serving σ α) :=
  of_still fun x _ => ⟨_, _, fun _ w _ _ => .read hr x w⟩

lemma self : Plain n (Serving.self : CallContext → Serving σ (Option (Object σ))) := by
  refine of_still fun x objects => ⟨.ok objects[n]?, x, ?_⟩
  rintro c w rfl rfl
  exact .self c x w

lemma setSelf (o : Object σ) : Plain n (Serving.setSelf · o) := by
  refine fun x objects => ⟨.ok (), x, objects.setIfInBounds n o, Array.size_setIfInBounds, ?_⟩
  rintro c w rfl rfl
  exact .setSelf c o x w

lemma bind (hs : Plain n s) (hf : ∀ a, Plain n (f · a)) : Plain n fun c => s c >>= f c := by
  intro x objects
  obtain ⟨r, y, objects', hsize, hs⟩ := hs x objects
  cases r with
  | error e => exact ⟨.error e, y, objects', hsize, fun c w hc hw => (hs c w hc hw).bind_error⟩
  | ok a =>
    obtain ⟨r, z, objects'', hsize', hf⟩ := hf a y objects'
    refine ⟨r, z, objects'', hsize'.trans hsize, fun c w hc hw => ?_⟩
    exact (hs c w hc hw).bind (hf c { w with objects := objects' } hc rfl)

end Plain

end Serving

open Serving (Plain)

namespace NamingContext

lemma heapless_requireObject : requireObject.Heapless := by
  refine .bind .object fun r => ?_
  cases r with
  | none => exact .throw _
  | some r => exact .pure r

lemma heapless_readName : readName.Heapless :=
  .ofReading Name.read

lemma plain_current (n : ObjectId) : Plain n (current : CallContext → Serving σ NamingContext) := by
  refine Plain.self.bind fun o => ?_
  split <;> exact .pure _

lemma plain_alter (n : ObjectId) (f : NamingContext → Except BrokerError NamingContext) :
    Plain n (alter · f : CallContext → Serving σ Unit) :=
  (plain_current n).bind fun _ => (Plain.ofExcept _).bind fun _ => .setSelf _

lemma plain_invoke (n : ObjectId) (operation : String) :
    Plain n (invoke · operation : CallContext → Serving σ Unit) := by
  have hname : Plain n fun _ => (Serving.read readName : Serving σ Name) := .read heapless_readName
  have hobject : Plain n fun _ => (Serving.read requireObject : Serving σ Reference) :=
    .read heapless_requireObject
  unfold invoke
  split
  · exact hname.bind fun name => hobject.bind fun object => plain_alter n _
  · exact hname.bind fun name => hobject.bind fun object => plain_alter n _
  · exact hname.bind fun name => (plain_current n).bind fun _ => (Plain.ofExcept _).bind fun _ =>
      .modify _
  · exact hname.bind fun name => plain_alter n _
  · exact (plain_current n).bind fun _ => .modify _
  · exact .throw _

end NamingContext

/-- Servants given by a function of their state, the operation, and the arguments with their byte
order: the state afterwards, and the results or why there are none. -/
@[reducible] def Servant.ofFunction (typeId : σ → String) (typeIds : σ → List String)
    (f : σ → String → Octets → ByteOrder → σ × Except BrokerError Octets) : Servant σ where
  typeId := typeId
  typeIds := typeIds
  brokers _ := []
  invoke c operation := do
    match ← Serving.self c with
    | some (.custom state) =>
      let x : Exchange ← get
      let (state', result) := f state operation x.args.input.rest x.args.input.order
      Serving.setSelf c (.custom state')
      let results ← Serving.ofExcept result
      Serving.write (·.append results)
    | _ => Serving.unknown operation

namespace Dispatch

lemma plain_answerIsA [Servant σ] (n : ObjectId) :
    Plain n (answerIsA : CallContext → Serving σ Unit) := by
  refine (Plain.read (.stream Reading.string)).bind fun id => Plain.self.bind fun o => ?_
  split <;> exact .modify _

lemma plain_invoke [Servant σ] {n : ObjectId} {operation : String}
    (h : Plain n (Servant.invoke · operation : CallContext → Serving σ Unit)) :
    Plain n (invoke · operation : CallContext → Serving σ Unit) := by
  refine Plain.self.bind fun o => ?_
  split
  · exact NamingContext.plain_invoke n operation
  · exact h

variable (typeId : σ → String) (typeIds : σ → List String)
  (f : σ → String → Octets → ByteOrder → σ × Except BrokerError Octets)

lemma plain_ofFunction (n : ObjectId) (operation : String) :
    Plain n ((Servant.ofFunction typeId typeIds f).invoke · operation) := by
  refine Plain.self.bind fun o => ?_
  split
  · refine Plain.get.bind fun x => ?_
    exact (Plain.setSelf _).bind fun _ => (Plain.ofExcept _).bind fun _ => .modify _
  · exact .throw _

lemma gives_ofFunction (b : Broker) (q : Question) (objects : Array (Object σ)) :
    ∃ answer objects',
      @Gives σ (.ofFunction typeId typeIds f) b q objects answer objects' := by
  let servant := Servant.ofFunction typeId typeIds f
  by_cases hop : q.operation = "_non_existent"
  · exact ⟨_, _, gives_exists hop objects⟩
  cases hroute : b.adapters.route q.key with
  | error e => exact ⟨_, _, gives_nowhere hop hroute objects⟩
  | ok target =>
    have hplain : Plain target.servant fun c =>
        (if q.operation = "_is_a" then answerIsA c else invoke c q.operation : Serving σ Unit) := by
      by_cases hisA : q.operation = "_is_a"
      · simp only [if_pos hisA]
        exact plain_answerIsA target.servant
      · simp only [if_neg hisA]
        exact plain_invoke (plain_ofFunction typeId typeIds f target.servant q.operation)
    obtain ⟨r, y, objects', hsize, hs⟩ := hplain ⟨b.unmarshaller q.order q.body, b.marshaller⟩ objects
    refine ⟨_, objects', gives_of_object hop hroute ?_ hs⟩
    -- None of these servants keeps a hold on a broker.
    have hnone : ∀ o : Object σ, o.brokers = [] := by
      intro o
      cases o <;> rfl
    refine Array.ext (by simpa using hsize) fun i hi hi' => ?_
    simp only [Array.getElem_map, hnone]

end Dispatch

end ObjectBroker
