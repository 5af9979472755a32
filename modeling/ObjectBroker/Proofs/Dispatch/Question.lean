import ObjectBroker.Proofs.Dispatch
import ObjectBroker.Proofs.Evaluation
import ObjectBroker.Proofs.Value.Unmarshal

/-!
What a broker answers to a question. The answer comes from the objects of the world and from what a
broker keeps for good; how the question came plays no part once it is let in.
-/

namespace ObjectBroker

variable {σ α β : Type}

def Broker.bare (b : Broker) : Broker :=
  { b with connections := [], routes := [], stats := {} }

def Broker.Kin (b b' : Broker) : Prop :=
  b'.bare = b.bare

namespace Broker.Kin

variable {b b' b'' : Broker}

lemma refl (b : Broker) : b.Kin b := rfl

lemma trans (h : b.Kin b') (h' : b'.Kin b'') : b.Kin b'' := Eq.trans h' h

lemma bare_eq (h : b.Kin b') (f : Broker → α) : f b'.bare = f b.bare := congrArg f h

lemma config (h : b.Kin b') : b'.config = b.config := h.bare_eq Broker.config

lemma endpoint (h : b.Kin b') : b'.endpoint = b.endpoint := h.bare_eq Broker.endpoint

lemma adapters (h : b.Kin b') : b'.adapters = b.adapters := h.bare_eq Broker.adapters

lemma table (h : b.Kin b') : b'.table = b.table := h.bare_eq Broker.table

lemma naming (h : b.Kin b') : b'.naming = b.naming := h.bare_eq Broker.naming

lemma isRunning (h : b.Kin b') : b'.isRunning = b.isRunning := h.bare_eq Broker.isRunning

lemma isAlive (h : b.Kin b') : b'.isAlive = b.isAlive := h.bare_eq Broker.isAlive

lemma marshaller (h : b.Kin b') : b'.marshaller = b.marshaller := h.bare_eq Broker.marshaller

lemma unmarshaller (h : b.Kin b') (order : ByteOrder) (body : Octets) :
    b'.unmarshaller order body = b.unmarshaller order body :=
  h.bare_eq (Broker.unmarshaller · order body)

end Broker.Kin

lemma Unmarshaller.run_ofReading (u : Unmarshaller) (r : Reading MarshalError α) :
    u.run (Unmarshalling.ofReading r) =
      ((r.run u.input).1, { u with input := (r.run u.input).2 }) := by
  rw [Unmarshalling.ofReading, Unmarshaller.run_bind, Unmarshaller.run_get]
  dsimp only
  rcases r.run u.input with ⟨e | a, i⟩ <;> rfl

namespace Unmarshalling

def Heapless (r : Unmarshalling α) : Prop :=
  ∀ (u : Unmarshaller) (h : Heap),
    { u with heap := h }.run r = ((u.run r).1, { (u.run r).2 with heap := h })

namespace Heapless

lemma pure (a : α) : Heapless (Pure.pure a : Unmarshalling α) :=
  fun _ _ => rfl

lemma throw (e : MarshalError) : Heapless (MonadExcept.throw e : Unmarshalling α) :=
  fun _ _ => rfl

lemma bind {r : Unmarshalling α} {f : α → Unmarshalling β} (hr : r.Heapless)
    (hf : ∀ a, (f a).Heapless) : Heapless (r >>= f) := by
  intro u h
  rw [Unmarshaller.run_bind, Unmarshaller.run_bind, hr u h]
  rcases u.run r with ⟨e | a, v⟩
  · rfl
  · exact hf a v h

lemma ofReading (r : Reading MarshalError α) : Heapless (ofReading r) := by
  intro u h
  rw [Unmarshaller.run_ofReading, Unmarshaller.run_ofReading]

lemma stream (r : Reading StreamError α) : Heapless (Unmarshalling.stream r) :=
  ofReading _

lemma many {r : Unmarshalling α} (hr : r.Heapless) (n : Nat) : Heapless (many r n) := by
  induction n with
  | zero => exact pure []
  | succ n ih => exact hr.bind fun a => ih.bind fun rest => pure (a :: rest)

lemma object : Heapless object := by
  intro u h
  have hread := ofReading Reference.read u h
  rw [Unmarshalling.object, Unmarshaller.run_bind, Unmarshaller.run_get, Unmarshaller.run_bind,
    Unmarshaller.run_get]
  dsimp only
  rw [Unmarshaller.run_bind, Unmarshaller.run_bind, hread]
  rcases u.run (Unmarshalling.ofReading Reference.read) with ⟨e | a, v⟩ <;> rfl

end Heapless

end Unmarshalling

open Unmarshalling (Heapless)

lemma Activity.Evaluates.reading {r : Unmarshalling α} (hr : r.Heapless) (u : Unmarshaller)
    (w : World σ) :
    (Activity.reading u r).Evaluates w ((u.run r).1, { (u.run r).2 with heap := {} }) w := by
  have hw : ({ w with heap := w.heap } : World σ) = w := rfl
  rw [Activity.reading]
  refine (Activity.Evaluates.change _ w).trans ?_
  dsimp only
  rw [hr u w.heap]

lemma Call.Evaluates.reading {r : Unmarshalling α} (hr : r.Heapless) (u : Unmarshaller)
    (w : World σ) :
    (Call.reading u r).Evaluates w ((u.run r).1.mapError .marshal) w := by
  refine .bind (.lift (.reading hr u w)) ?_
  dsimp only
  rcases u.run r with ⟨e | a, v⟩ <;> rfl

lemma Serving.Evaluates.read {r : Unmarshalling α} (hr : r.Heapless) (x : Exchange) (w : World σ) :
    (Serving.read r).Evaluates x w ((x.args.run r).1.mapError .marshal)
      { x with args := { (x.args.run r).2 with heap := {} } } w := by
  have hreading : (Serving.ofActivity (Activity.reading x.args r)).Evaluates x w
      (.ok ((x.args.run r).1, { (x.args.run r).2 with heap := {} })) x w :=
    Activity.Evaluates.bind (.bind (.reading hr x.args w) rfl) rfl
  refine .bind (.get x w) (.bind hreading ?_)
  dsimp only
  rcases x.args.run r with ⟨e | a, v⟩ <;> rfl

namespace World

def count (w : World σ) (b : BrokerId) (f : Stats → Stats) : World σ :=
  w.updateBroker b fun broker => { broker with stats := f broker.stats }

lemma count_count (w : World σ) (b : BrokerId) (f g : Stats → Stats) :
    (w.count b f).count b g = w.count b (g ∘ f) := by
  have hmodify : (w.brokers.modify b fun broker => { broker with stats := f broker.stats }).modify b
      (fun broker => { broker with stats := g broker.stats }) =
      w.brokers.modify b fun broker => { broker with stats := (g ∘ f) broker.stats } := by
    refine Array.ext (by simp) fun i hi hi' => ?_
    simp only [Array.getElem_modify]
    split <;> rfl
  rw [count, count, count, updateBroker, updateBroker, updateBroker, hmodify]

lemma kin_count (w : World σ) (b : BrokerId) (f : Stats → Stats) (b' : BrokerId) :
    (w.broker b').Kin ((w.count b f).broker b') := by
  rw [count, broker_updateBroker]
  split <;> rfl

end World

structure Question where
  key : Octets
  operation : String
  body : Octets
  order : ByteOrder
  deriving DecidableEq, Repr

def Inbound.question (call : Inbound) : Question :=
  { key := call.key, operation := call.operation, body := call.body, order := call.order }

namespace Dispatch

def Admits (b : Broker) (key : Octets) (origin : Origin) : Prop :=
  ∀ target, b.adapters.route key = .ok target → target.adapter.accepts origin = true

lemma admits_collocated (b : Broker) (key : Octets) : Admits b key .collocated :=
  fun _ _ => rfl

lemma admits_accepted (b : Broker) (key : Octets) : Admits b key .accepted :=
  fun _ _ => rfl

variable [Servant σ]

/-- Wherever the broker is found with these objects, it gives this answer to a question that it lets in,
and leaves those objects. -/
structure Gives (b : Broker) (q : Question) (objects : Array (Object σ))
    (answer : ReplyStatus × Octets) (objects' : Array (Object σ)) : Prop where
  serve : ∀ (call : Inbound) (w : World σ), call.question = q → Admits b q.key call.origin →
    b.Kin (w.broker call.broker) → w.objects = objects →
    ∃ f : Stats → Stats,
      (serve call).Evaluates w answer { w.count call.broker f with objects := objects' }
  brokers : objects'.map Object.brokers = objects.map Object.brokers

lemma Gives.unique {b : Broker} {q : Question} {objects o o' : Array (Object σ)}
    {a a' : ReplyStatus × Octets} (h : Gives b q objects a o) (h' : Gives b q objects a' o') :
    a = a' ∧ o = o' := by
  let w : World σ := { brokers := #[b], objects }
  let call : Inbound := {
    broker := 0, key := q.key, operation := q.operation, body := q.body, order := q.order
    origin := .collocated }
  have hkin : b.Kin (w.broker call.broker) := .refl b
  obtain ⟨f, hserve⟩ := h.serve call w rfl (admits_collocated b q.key) hkin rfl
  obtain ⟨f', hserve'⟩ := h'.serve call w rfl (admits_collocated b q.key) hkin rfl
  have hsame := hserve.symm.trans hserve'
  have hstop := congrArg Prod.fst hsame
  have hworld := congrArg (fun stop => stop.2.objects) hsame
  exact ⟨Activity.Stop.done.inj hstop, hworld⟩

omit [Servant σ] in
lemma encode_kin {b b' : Broker} (h : b.Kin b') (result : Except BrokerError Unit)
    (reply : Marshaller) : encode b' result reply = encode b result reply := by
  simp only [encode, h.marshaller]

def tally (result : Except BrokerError Unit) (s : Stats) : Stats :=
  let counted := { s with dispatched := s.dispatched + 1 }
  if isFailure result then { counted with failures := counted.failures + 1 } else counted

section

variable {b : Broker} {q : Question} {objects objects' : Array (Object σ)}

lemma evaluates_exists {call : Inbound} {w : World σ} (hop : call.operation = "_non_existent")
    (hkin : b.Kin (w.broker call.broker)) :
    (serve call).Evaluates w
      (.noException, (b.marshaller.put (·.putBool !(b.adapters.holds call.key))).octets)
      (w.count call.broker (tally (.ok ()))) := by
  let counted := w.count call.broker (tally (.ok ()))
  have hcounted : b.Kin (counted.broker call.broker) := hkin.trans (w.kin_count _ _ _)
  rw [← hcounted.marshaller, ← hcounted.adapters]
  refine .bind (.update _ w) (.bind (.broker call.broker counted) ?_)
  rw [if_pos hop]
  exact .pure _ _

lemma gives_exists (h : q.operation = "_non_existent") (objects : Array (Object σ)) :
    Gives b q objects
      (.noException, (b.marshaller.put (·.putBool !(b.adapters.holds q.key))).octets) objects where
  brokers := rfl
  serve := by
    rintro call w rfl - hkin rfl
    exact ⟨tally (.ok ()), evaluates_exists h hkin⟩

lemma evaluates_serve {call : Inbound} {w : World σ} {result : Except BrokerError Unit}
    {reply : Marshaller} (hop : call.operation ≠ "_non_existent")
    (hkin : b.Kin (w.broker call.broker))
    (hrun : (run call : Activity σ _).Evaluates (w.count call.broker (tally (.ok ())))
      (result, reply) { w.count call.broker (tally (.ok ())) with objects := objects' }) :
    (serve call).Evaluates w (encode b result reply)
      { w.count call.broker (tally result) with objects := objects' } := by
  let counted := w.count call.broker (tally (.ok ()))
  have hcounted : b.Kin (counted.broker call.broker) := hkin.trans (w.kin_count _ _ _)
  rw [← encode_kin hcounted]
  refine .bind (.update _ w) (.bind (.broker call.broker counted) ?_)
  rw [if_neg hop]
  refine .bind hrun ?_
  dsimp only
  cases hf : isFailure result with
  | false =>
    have htally : tally result = tally (.ok ()) := by
      funext s
      rw [tally, hf]
      rfl
    rw [htally]
    exact .pure _ _
  | true =>
    let fail (s : Stats) : Stats := { s with failures := s.failures + 1 }
    have htally : tally result = fail ∘ tally (.ok ()) := by
      funext s
      rw [tally, hf]
      rfl
    rw [htally, ← World.count_count]
    exact .bind (.update _ _) (.pure _ _)

lemma gives_nowhere {e : BrokerError} (hop : q.operation ≠ "_non_existent")
    (h : b.adapters.route q.key = .error e) (objects : Array (Object σ)) :
    Gives b q objects (encode b (.error e) b.marshaller) objects where
  brokers := rfl
  serve := by
    rintro call w rfl - hkin rfl
    let counted := w.count call.broker (tally (.ok ()))
    have hcounted : b.Kin (counted.broker call.broker) := hkin.trans (w.kin_count _ _ _)
    refine ⟨_, evaluates_serve hop hkin (.bind (.broker call.broker counted) ?_)⟩
    rw [hcounted.adapters, show b.adapters.route call.key = .error e from h, ← hcounted.marshaller]
    exact .pure _ _

lemma gives_of_object {target : Target} {r : Except BrokerError Unit} {y : Exchange}
    (hop : q.operation ≠ "_non_existent") (h : b.adapters.route q.key = .ok target)
    (hb : objects'.map Object.brokers = objects.map Object.brokers)
    (hs : ∀ (c : CallContext) (w : World σ), c.object = target.servant → w.objects = objects →
      (if q.operation = "_is_a" then answerIsA c else invoke c q.operation : Serving σ Unit).Evaluates
        ⟨b.unmarshaller q.order q.body, b.marshaller⟩ w r y { w with objects := objects' }) :
    Gives b q objects (encode b r y.reply) objects' where
  brokers := hb
  serve := by
    rintro call w rfl hadmits hkin rfl
    let counted := w.count call.broker (tally (.ok ()))
    let held := counted.hold (.object target.servant)
    have hcounted : b.Kin (counted.broker call.broker) := hkin.trans (w.kin_count _ _ _)
    have hroute : b.adapters.route call.key = .ok target := h
    have hserved : (toServant call target : Serving σ Unit).Evaluates
        ⟨b.unmarshaller call.order call.body, b.marshaller⟩ held r y
        { held with objects := objects' } := by
      have haccepts : target.adapter.accepts call.origin = true := hadmits target hroute
      rw [toServant, haccepts]
      exact hs (context call target) held rfl rfl
    have hreleased : ({ held with objects := objects' } : World σ).unhold (.object target.servant) =
        { counted with objects := objects' } := by
      simp only [World.unhold, World.hold, held, List.erase_cons_head]
    refine ⟨_, evaluates_serve hop hkin (.bind (.broker call.broker counted) ?_)⟩
    rw [hcounted.adapters, hroute, hcounted.marshaller, hcounted.unmarshaller]
    refine .bind (.update _ counted) (.bind hserved ?_)
    refine .bind (.update _ _) ?_
    rw [hreleased]
    exact .pure _ _

end

end Dispatch

end ObjectBroker
