import ObjectBroker.Proofs.Activity.Execution
import ObjectBroker.Proofs.Adapter
import ObjectBroker.Proofs.Dispatch.Question

/-!
The answer to a request. An object may work on it for as long as it likes and write what it likes;
what its caller is told comes from what it gives in the end. Some requests never get to an object.
-/

namespace ObjectBroker

variable {σ : Type} {E : World σ → World σ → Prop}

def World.Mute (w w' : World σ) : Prop :=
  w'.pipes = w.pipes

namespace Dispatch

variable {w w' v : World σ} {call : Inbound} {target : Target} {l : List (World σ × World σ)}
  {result : Except BrokerError Unit} {answer : ReplyStatus × Octets}

/-- What a caller is told when an object is done: what it had written counts only if it returned. -/
inductive Tells (b : Broker) (written : Octets) :
    Except BrokerError Unit → ReplyStatus × Octets → Prop
  | returned : Tells b written (.ok ()) (.noException, written)
  | raised (x : UserException) : Tells b written (.error (.user x))
      (.userException, (b.marshaller.put (UserException.put · x)).octets)
  | failed {e : BrokerError} (h : ∀ x, e ≠ .user x) : Tells b written (.error e)
      (.systemException, (b.marshaller.put (SystemException.put · e.toSystemException)).octets)

lemma tells_iff {b : Broker} {m : Marshaller} :
    Tells b m.octets result answer ↔ answer = encode b result m := by
  constructor
  · rintro (_ | _ | h)
    · rfl
    · rfl
    · rw [encode]
      exact h
  · rintro rfl
    rcases result with e | _
    · cases e with
      | user x => exact .raised x
      | _ => exact .failed (by simp)
    · exact .returned

/-- A request that its object gets to work on. -/
structure Asks (w : World σ) (call : Inbound) (target : Target) : Prop where
  route : (w.broker call.broker).adapters.route call.key = .ok target
  admitted : call.origin = .initiated → target.adapter.isBidirectional = true
  existence : call.operation ≠ "_non_existent"
  interface : call.operation ≠ "_is_a"

def opening (w : World σ) (call : Inbound) (target : Target) : List (World σ × World σ) :=
  let counted := w.updateBroker call.broker countDispatch
  [(w, counted), (counted, engage w call target)]

def closing (v : World σ) (call : Inbound) (target : Target) (result : Except BrokerError Unit) :
    List (World σ × World σ) :=
  let released := v.unhold (.object target.servant)
  (v, released) ::
    if isFailure result then [(released, released.updateBroker call.broker countFailure)] else []

def release (v : World σ) (call : Inbound) (target : Target) (result : Except BrokerError Unit) :
    World σ :=
  let released := v.unhold (.object target.servant)
  if isFailure result then released.updateBroker call.broker countFailure else released

open Activity

lemma runs_conclude_iff {x : Exchange} :
    (conclude w call target (result, x)).Runs E v l answer w' ↔
      answer = encode (w.broker call.broker) result x.reply ∧
        l = closing v call target result ∧ w' = release v call target result := by
  rw [conclude, runs_update_iff, closing, release]
  cases isFailure result with
  | false => simp [runs_pure_iff, and_comm, and_assoc]
  | true => simp [runs_updateBroker_iff, runs_pure_iff, and_comm, and_assoc]

lemma kin_counted (w : World σ) (b : BrokerId) :
    (w.broker b).Kin ((w.updateBroker b countDispatch).broker b) :=
  w.kin_count b (tally (.ok ())) b

lemma exchange_engage (w : World σ) (call : Inbound) (target : Target) :
    exchange (engage w call target) call = exchange w call := by
  have hkin : (w.broker call.broker).Kin ((engage w call target).broker call.broker) :=
    kin_counted w call.broker
  rw [exchange, exchange, hkin.marshaller, hkin.unmarshaller]

section

variable [Servant σ]

lemma runs_serve_opening (ht : (w.broker call.broker).adapters.route call.key = .ok target)
    (hop : call.operation ≠ "_non_existent") :
    (serve call).Runs E w l answer w' ↔ ∃ l',
      ((toServant call target).run.run (exchange w call) >>=
        conclude (engage w call target) call target).Runs E (engage w call target) l' answer w' ∧
      l = opening w call target ++ l' := by
  rw [← adapters_countDispatch] at ht
  rw [serve, runs_updateBroker_iff, ← exchange_engage w call target]
  simp only [runs_broker_iff, if_neg hop, Dispatch.run, bind_bind, ht, runs_update_iff]
  constructor
  · rintro ⟨_, ⟨l', h, rfl⟩, rfl⟩
    exact ⟨l', h, rfl⟩
  · rintro ⟨l', h, rfl⟩
    exact ⟨_, ⟨l', h, rfl⟩, rfl⟩

lemma runs_serve_iff (ht : (w.broker call.broker).adapters.route call.key = .ok target)
    (hop : call.operation ≠ "_non_existent") :
    (serve call).Runs E w l answer w' ↔ ∃ own result x v,
      ((toServant call target).run.run (exchange w call)).Runs E (engage w call target) own
        (result, x) v ∧
      answer = encode (w.broker call.broker) result x.reply ∧
      l = opening w call target ++ own ++ closing v call target result ∧
      w' = release v call target result := by
  have hkin : (w.broker call.broker).Kin ((engage w call target).broker call.broker) :=
    kin_counted w call.broker
  rw [runs_serve_opening ht hop]
  constructor
  · rintro ⟨_, h, rfl⟩
    obtain ⟨own, ⟨result, x⟩, v, l₂, hown, hend, rfl⟩ := runs_bind_iff.mp h
    obtain ⟨rfl, rfl, rfl⟩ := runs_conclude_iff.mp hend
    exact ⟨own, result, x, v, hown, encode_kin hkin result x.reply, by simp, rfl⟩
  · rintro ⟨own, result, x, v, hown, rfl, rfl, rfl⟩
    refine ⟨own ++ closing v call target result, hown.bind ?_, by simp⟩
    exact runs_conclude_iff.mpr ⟨(encode_kin hkin result x.reply).symm, rfl, rfl⟩

omit [Servant σ] in
lemma accepts_iff : target.adapter.accepts call.origin = true ↔
    (call.origin = .initiated → target.adapter.isBidirectional = true) := by
  cases call.origin <;> simp [Adapter.accepts]

lemma Asks.toServant_eq (h : Asks w call target) :
    (toServant call target : Serving σ Unit) = invoke (context call target) call.operation := by
  rw [toServant, accepts_iff.mpr h.admitted, if_neg h.interface]
  rfl

/-- A request that no object is asked about, with its answer. -/
inductive Settled (w : World σ) (call : Inbound) : ReplyStatus × Octets → Prop
  | existence (hop : call.operation = "_non_existent") : Settled w call (.noException,
      ((w.broker call.broker).marshaller.put
        (·.putBool !((w.broker call.broker).adapters.holds call.key))).octets)
  | nowhere {e : BrokerError} (hop : call.operation ≠ "_non_existent")
      (h : (w.broker call.broker).adapters.route call.key = .error e) :
      Settled w call (.systemException, ((w.broker call.broker).marshaller.put
        (SystemException.put · (BrokerError.raised .objectNotExist))).octets)
  | barred {target : Target} (hop : call.operation ≠ "_non_existent")
      (ht : (w.broker call.broker).adapters.route call.key = .ok target)
      (ho : call.origin = .initiated) (hb : target.adapter.isBidirectional = false) :
      Settled w call (.systemException, refusal (w.broker call.broker))
  | interface {target : Target} {id : String} (hop : call.operation = "_is_a")
      (ht : (w.broker call.broker).adapters.route call.key = .ok target)
      (hb : call.origin = .initiated → target.adapter.isBidirectional = true)
      (hid : ((exchange w call).args.run (.stream Reading.string)).1 = .ok id) :
      Settled w call (.noException, ((w.broker call.broker).marshaller.put
        (·.putBool (w.objects[target.servant]?.any (·.isA id)))).octets)
  | garbled {target : Target} {e : MarshalError} (hop : call.operation = "_is_a")
      (ht : (w.broker call.broker).adapters.route call.key = .ok target)
      (hb : call.origin = .initiated → target.adapter.isBidirectional = true)
      (hid : ((exchange w call).args.run (.stream Reading.string)).1 = .error e) :
      Settled w call (.systemException, ((w.broker call.broker).marshaller.put
        (SystemException.put · (BrokerError.marshal e).toSystemException)).octets)

lemma asks_or_settled (w : World σ) (call : Inbound) :
    (∃ target, Asks w call target) ∨ ∃ answer, Settled w call answer := by
  by_cases hop : call.operation = "_non_existent"
  · exact .inr ⟨_, .existence hop⟩
  cases ht : (w.broker call.broker).adapters.route call.key with
  | error e => exact .inr ⟨_, .nowhere hop ht⟩
  | ok target =>
    by_cases hb : call.origin = .initiated → target.adapter.isBidirectional = true
    · by_cases hisA : call.operation = "_is_a"
      · cases hid : ((exchange w call).args.run (.stream Reading.string)).1 with
        | ok id => exact .inr ⟨_, .interface hisA ht hb hid⟩
        | error e => exact .inr ⟨_, .garbled hisA ht hb hid⟩
      · exact .inl ⟨target, ht, hb, hop, hisA⟩
    · obtain ⟨ho, hb⟩ := Classical.not_imp.mp hb
      exact .inr ⟨_, .barred hop ht ho (Bool.eq_false_of_not_eq_true hb)⟩

lemma evaluates_isA {x : Exchange} {id : String}
    (h : (x.args.run (.stream Reading.string)).1 = .ok id) :
    ∃ args, ∀ (c : CallContext) (w : World σ), (answerIsA c).Evaluates x w (.ok ())
      ⟨args, x.reply.put (·.putBool (w.objects[c.object]?.any (·.isA id)))⟩ w := by
  refine ⟨{ (x.args.run (.stream Reading.string)).2 with heap := {} }, fun c w => ?_⟩
  have hread := Serving.Evaluates.read (.stream Reading.string) x w
  rw [h] at hread
  refine hread.bind (.bind (.self c _ w) ?_)
  cases w.objects[c.object]? with
  | none => exact .modify _ _ w
  | some o => exact .modify _ _ w

lemma evaluates_isA_garbled {x : Exchange} {e : MarshalError}
    (h : (x.args.run (.stream Reading.string)).1 = .error e) :
    ∃ y, ∀ (c : CallContext) (w : World σ),
      (answerIsA c).Evaluates x w (.error (.marshal e)) y w := by
  refine ⟨{ x with args := { (x.args.run (.stream Reading.string)).2 with heap := {} } },
    fun c w => ?_⟩
  have hread := Serving.Evaluates.read (.stream Reading.string) x w
  rw [h] at hread
  exact hread.bind_error

lemma toServant_barred (ho : call.origin = .initiated)
    (hb : target.adapter.isBidirectional = false) :
    (toServant call target : Serving σ Unit) = throw notPermitted := by
  rw [toServant, ho, Adapter.accepts, hb]
  rfl

lemma toServant_isA (hb : call.origin = .initiated → target.adapter.isBidirectional = true)
    (hop : call.operation = "_is_a") :
    (toServant call target : Serving σ Unit) = answerIsA (context call target) := by
  rw [toServant, accepts_iff.mpr hb, if_pos hop]
  rfl

lemma evaluates_serve_of_object {x : Exchange} (hop : call.operation ≠ "_non_existent")
    (ht : (w.broker call.broker).adapters.route call.key = .ok target)
    (h : (toServant call target : Serving σ Unit).Evaluates (exchange w call)
      (engage w call target) result x (engage w call target)) :
    (serve call).Evaluates w (encode (w.broker call.broker) result x.reply)
      (w.count call.broker (tally result)) := by
  let counted := w.count call.broker (tally (.ok ()))
  have hcounted : (w.broker call.broker).Kin (counted.broker call.broker) := w.kin_count _ _ _
  have hreleased : ((engage w call target).unhold (.object target.servant)) = counted :=
    unhold_engage w call target
  have hrun : (run call).Evaluates counted (result, x.reply)
      { counted with objects := w.objects } := by
    refine .bind (.broker call.broker counted) ?_
    rw [hcounted.adapters, ht, hcounted.marshaller, hcounted.unmarshaller]
    refine .bind (.update _ counted) (.bind h (.bind (.update _ _) ?_))
    rw [hreleased]
    exact .pure _ _
  exact evaluates_serve hop (.refl _) hrun

lemma Settled.evaluates (h : Settled w call answer) :
    ∃ f : Stats → Stats, (serve call).Evaluates w answer (w.count call.broker f) := by
  cases h with
  | existence hop => exact ⟨_, evaluates_exists hop (.refl _)⟩
  | nowhere hop h =>
    obtain rfl := Directory.eq_of_route_error h
    have hadmits : Admits (w.broker call.broker) call.key call.origin := fun target ht => by
      cases h.symm.trans ht
    exact (gives_nowhere (q := call.question) hop h w.objects).serve call w rfl hadmits
      (.refl _) rfl
  | @barred target hop ht ho hb =>
    have hthrow : (throw notPermitted : Serving σ Unit).Evaluates (exchange w call)
        (engage w call target) (.error notPermitted) _ _ := .throw notPermitted _ _
    rw [← toServant_barred ho hb] at hthrow
    exact ⟨_, evaluates_serve_of_object hop ht hthrow⟩
  | @interface target id hop ht hb hid =>
    obtain ⟨args, hisA⟩ := evaluates_isA (σ := σ) hid
    have hserved := hisA (context call target) (engage w call target)
    rw [← toServant_isA hb hop] at hserved
    exact ⟨_, evaluates_serve_of_object (by simp [hop]) ht hserved⟩
  | @garbled target e hop ht hb hid =>
    obtain ⟨y, hisA⟩ := evaluates_isA_garbled (σ := σ) hid
    have hserved := hisA (context call target) (engage w call target)
    rw [← toServant_isA hb hop] at hserved
    exact ⟨_, evaluates_serve_of_object (by simp [hop]) ht hserved⟩

omit [Servant σ] in
lemma mute_opening (w : World σ) (call : Inbound) (target : Target) :
    ∀ c ∈ opening w call target, World.Mute c.1 c.2 := by
  simp [opening, World.Mute, engage, World.hold, World.updateBroker]

omit [Servant σ] in
lemma mute_closing (v : World σ) (call : Inbound) (target : Target)
    (result : Except BrokerError Unit) :
    ∀ c ∈ closing v call target result, World.Mute c.1 c.2 := by
  cases h : isFailure result <;>
    simp [closing, h, World.Mute, World.unhold, World.updateBroker]

lemma mute_answerIsA (c : CallContext) : (answerIsA c : Serving σ Unit).Respects World.Mute := by
  refine .bind (.read (fun _ _ => rfl) _) fun id => .bind (.self c) fun o => ?_
  cases o with
  | none => exact .modify _
  | some o => exact .modify _

lemma mute_of_object (hop : call.operation ≠ "_non_existent")
    (ht : (w.broker call.broker).adapters.route call.key = .ok target)
    (hs : (toServant call target : Serving σ Unit).Respects World.Mute)
    (hrun : (serve call).Runs E w l answer w') : ∀ c ∈ l, World.Mute c.1 c.2 := by
  obtain ⟨own, result, x, v, hown, -, rfl, -⟩ := (runs_serve_iff ht hop).mp hrun
  have hmute := hown.changes_respect (hs _ _)
  simp only [List.forall_mem_append]
  exact ⟨⟨mute_opening w call target, hmute⟩, mute_closing v call target result⟩

lemma Settled.mute {a : ReplyStatus × Octets} (h : Settled w call a)
    (hrun : (serve call).Runs E w l answer w') : ∀ c ∈ l, World.Mute c.1 c.2 := by
  cases h with
  | existence hop =>
    rw [serve, runs_updateBroker_iff] at hrun
    simp only [runs_broker_iff, if_pos hop, runs_pure_iff] at hrun
    obtain ⟨_, ⟨rfl, -⟩, rfl⟩ := hrun
    simp [World.Mute, World.updateBroker]
  | nowhere hop h =>
    obtain rfl := Directory.eq_of_route_error h
    -- The broker counts the request and its failure; nobody else comes in.
    rw [← adapters_countDispatch] at h
    rw [serve, runs_updateBroker_iff] at hrun
    simp only [runs_broker_iff, if_neg hop, Dispatch.run, bind_bind, h] at hrun
    obtain ⟨_, hfail, rfl⟩ := hrun
    obtain ⟨_, hend, rfl⟩ := runs_updateBroker_iff.mp hfail
    obtain ⟨rfl, -⟩ := runs_pure_iff.mp hend
    simp [World.Mute, World.updateBroker]
  | barred hop ht ho hb =>
    refine mute_of_object hop ht ?_ hrun
    rw [toServant_barred ho hb]
    exact .throw _
  | interface hop ht hb =>
    refine mute_of_object (by simp [hop]) ht ?_ hrun
    rw [toServant_isA hb hop]
    exact mute_answerIsA _
  | garbled hop ht hb =>
    refine mute_of_object (by simp [hop]) ht ?_ hrun
    rw [toServant_isA hb hop]
    exact mute_answerIsA _

def Own (E : World σ → World σ → Prop) (w : World σ) (call : Inbound)
    (own : List (World σ × World σ)) : Prop :=
  ∃ target result x v, Asks w call target ∧
    ((invoke (context call target) call.operation).run.run (exchange w call)).Runs E
      (engage w call target) own (result, x) v

lemma serve_split (hrun : (serve call).Runs E w l answer w') :
    ∃ before own after, l = before ++ own ++ after ∧ (own = [] ∨ Own E w call own) ∧
      ∀ c ∈ before ++ after, World.Mute c.1 c.2 := by
  -- Only an object that is asked has changes of its own; else they all are the broker's.
  rcases asks_or_settled w call with ⟨target, h⟩ | ⟨a, h⟩
  · obtain ⟨own, result, x, v, hown, -, rfl, -⟩ := (runs_serve_iff h.route h.existence).mp hrun
    rw [h.toServant_eq] at hown
    refine ⟨_, own, _, rfl, .inr ⟨target, result, x, v, h, hown⟩, ?_⟩
    exact List.forall_mem_append.mpr
      ⟨mute_opening w call target, mute_closing v call target result⟩
  · refine ⟨l, [], [], by simp, .inl rfl, ?_⟩
    simpa using h.mute hrun

end

end Dispatch

end ObjectBroker
