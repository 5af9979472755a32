import ObjectBroker.Proofs.Invocation
import ObjectBroker.Proofs.World.Request

/-!
Calls from their start to their end. A call to the broker itself stops once, at the object; a call
to another broker stops once too, at the wait for its reply. What becomes of the answer does not
depend on the world in which it comes.
-/

namespace ObjectBroker

variable {σ α : Type} {w w' : World σ} {p q : Port} {c d : Connection}

namespace Invocation

def verdict (b : Broker) (target : Reference) (operation : String) (order : ByteOrder) :
    ReplyStatus × Octets → Except BrokerError Outcome
  | (.noException, body) => .ok (.returned (b.unmarshaller order body))
  | (.userException, body) =>
    .raised <$> ((b.unmarshaller order body).run
      (Unmarshalling.stream UserException.read)).1.mapError .marshal
  | (.systemException, body) =>
    ((b.unmarshaller order body).run
      (Unmarshalling.stream SystemException.read)).1.mapError .marshal >>= fun x =>
        .error (.ofSystemException x target.keyText operation)
  | (.locationForward, _) => .error (.wire (.invalid "LOCATION_FORWARD replies are not supported"))

variable {b : BrokerId} {broker : Broker} {target : Reference} {operation : String}
  {args : Marshaller}

lemma evaluates_decode (h : broker.Kin (w.broker b)) (target : Reference) (operation : String)
    (order : ByteOrder) (answer : ReplyStatus × Octets) :
    (decode b target operation answer.1 answer.2 order).Evaluates w
      (verdict broker target operation order answer) w := by
  obtain ⟨status, body⟩ := answer
  refine .bind (.lift (.broker b w)) ?_
  rw [h.unmarshaller]
  cases status with
  | noException => exact .pure _ _
  | userException => exact .map (.reading (.stream _) _ w) _
  | systemException =>
    have hreading := Call.Evaluates.reading (.stream SystemException.read)
      (broker.unmarshaller order body) w
    dsimp only [verdict]
    cases hread : ((broker.unmarshaller order body).run
        (Unmarshalling.stream SystemException.read)).1 with
    | error e =>
      rw [hread] at hreading
      exact .bind_error hreading
    | ok x =>
      rw [hread] at hreading
      exact .bind hreading (.throw _ _)
  | locationForward => exact .throw _ _

lemma evaluates_ensureRunning (h : (w.broker b).isRunning = true) :
    (ensureRunning b).Evaluates w (.ok (w.broker b)) w := by
  have hcheck : (w.broker b).ensureRunning = .ok () := if_pos h
  have hpass := Call.Evaluates.ofExcept (w.broker b).ensureRunning w
  rw [hcheck] at hpass
  refine .bind (.lift (.broker b w)) (.bind (a := ()) ?_ (.pure _ _))
  rw [hcheck]
  exact hpass

lemma evaluates_connect {e : Endpoint} (h : (w.broker b).route? e = some c) :
    (connect b e).Evaluates w (.ok c) w := by
  refine .bind (.lift (.broker b w)) ?_
  rw [h]
  exact .pure _ _

lemma run_collocated (b : BrokerId) (target : Reference) (operation : String) (args : Marshaller)
    (w : World σ) :
    ∃ next, (collocated b target operation args).run.run w =
        (.calling (inbound b target operation args) next, w) ∧
      ∀ (broker : Broker) (answer : ReplyStatus × Octets) (v : World σ),
        broker.Kin (v.broker b) → (next answer).Evaluates v
          (verdict broker target operation broker.config.order answer) v := by
  refine ⟨_, rfl, fun broker answer v hkin => ?_⟩
  obtain ⟨status, body⟩ := answer
  have hdecode := evaluates_decode hkin target operation broker.config.order (status, body)
  rw [← hkin.config] at hdecode ⊢
  exact Call.Evaluates.bind (.lift (.broker b v)) hdecode

lemma run_awaitResponse (request : UInt32) {waiter : WaiterId} {timeout : Option Nat}
    (hmet : (Wait.response p waiter).isMet w = false) (ht : timeout ≠ some 0) :
    ∃ deadline next, (awaitResponse p request waiter timeout).run.run w =
        (.waiting (.response p waiter) deadline next, w) ∧
      next true = (Call.change (·.takeResponse p waiter)).run := by
  have hover : Activity.isOver w (timeout.map (w.now + ·)) = false := by
    cases timeout with
    | none => rfl
    | some ms =>
      have hms : ms ≠ 0 := fun h => ht (congrArg some h)
      simp only [Activity.isOver, Option.map_some, Option.any_some, decide_eq_false_iff_not]
      omega
  have hread : (Call.lift Activity.world : Call σ (World σ)).Evaluates w (.ok w) w :=
    .lift (.world w)
  refine ⟨_, _, (hread.bind_run _).trans ((if_neg ?_).trans (if_neg ?_)), rfl⟩
  · rw [hmet]
    decide
  · rw [hover]
    decide

/-- The request that is sent for a call, which may carry an offer. -/
structure Sends (b : Broker) (order : ByteOrder) (target : Reference) (operation : String)
    (args : Marshaller) (r : Request) : Prop where
  key : r.key = target.key
  operation : r.operation = operation
  body : r.body = args.octets
  responseExpected : r.responseExpected = true
  contexts : r.contexts = [] ∨ r.contexts = [Bidirectional.offer [b.endpoint] order]

lemma sends_request (h : broker.Kin (w.broker b)) (c : Connection) (target : Reference)
    (operation : String) (args : Marshaller) (id : UInt32) :
    Sends broker c.order target operation args
      { (w.broker b).request c target.key operation args.octets with id } := by
  refine ⟨rfl, rfl, rfl, rfl, ?_⟩
  by_cases hoffers : (w.broker b).offers c = true
  · right
    rw [← h.endpoint]
    exact if_pos hoffers
  · left
    exact if_neg hoffers

def Awaits (broker : Broker) (target : Reference) (operation : String) (p : Port)
    (waiter : WaiterId) (next : Bool → Activity σ (Except BrokerError Outcome)) : Prop :=
  ∀ (v : World σ) (c : Connection) (reply : Reply) (order : ByteOrder),
    broker.Kin (v.broker p.broker) → v.Has p c →
    c.response? waiter = some (.ok (.reply reply, order)) →
    (next true).Evaluates v (verdict broker target operation order (reply.status, reply.body))
      (v.landed p waiter)

lemma evaluates_takeResponse (hc : w.Has p c) {waiter : WaiterId} {r : Response}
    (hr : c.response? waiter = some r) :
    (Call.change (·.takeResponse p waiter)).Evaluates w r
      ((w.updateConnection p (·.takeResponse waiter)).untrack p) := by
  have htake : w.takeResponse p waiter =
      (r, (w.updateConnection p (·.takeResponse waiter)).untrack p) := by
    rw [World.takeResponse, hc.found, Option.bind_some, hr]
  have hchange := Call.Evaluates.change (·.takeResponse p waiter) w
  rw [htake] at hchange
  exact hchange

lemma run_sent (p : Port) (offered : Bool) (hc : w.Has p c) :
    ∃ flag w', (sent p offered).Evaluates w () w' ∧ w'.Has p { c with isBidirectional := flag } ∧
      w'.pipes = w.pipes ∧ ∀ {P : Port → Prop} {s : BrokerId}, P p → World.Stirs P s [] [] w w' := by
  let count (w : World σ) := w.count p.broker fun s => { s with sent := s.sent + 1 }
  cases offered with
  | false =>
    refine ⟨c.isBidirectional, count w, .bind (.pure _ w) (.update _ w), ?_, rfl, fun _ => ?_⟩
    · exact hc.count p.broker _
    · exact .count w _ _
  | true =>
    let v := w.updateConnection p fun c => { c with isBidirectional := true }
    have hv : v.Has p { c with isBidirectional := true } := hc.update rfl
    refine ⟨true, count v, .bind (.update _ w) (.update _ v), ?_, rfl, fun {P s} hp => ?_⟩
    · exact hv.count p.broker _
    · have hupdate : World.Stirs P s [] [] w v := .updateConnection hp fun _ h => h
      exact hupdate.trans (.count v _ _)

lemma evaluates_written (hc : w.Has p c) (hstuck : w.isStuck c.outbound = false)
    (hopen : (w.pipe c.outbound).isClosed = false) (undo : World σ → World σ) :
    (written p undo).Evaluates w (.ok ()) w := by
  have hcut : (!w.isCut c.outbound) = true := by
    rw [World.isCut, hopen]
    rfl
  have hwritten := Activity.Evaluates.written hc.found hstuck
  rw [hcut] at hwritten
  exact .bind (.lift hwritten) (.pure _ w)

lemma run_remote {P : Port → Prop} {s : BrokerId} {rs : List Request}
    (hkin : broker.Kin (w.broker p.broker)) (hc : w.Has p c)
    (hroute : (w.broker p.broker).route? target.endpoint = some c)
    (ho : args.output.order = c.order) (ht : broker.config.requestTimeout ≠ some 0)
    (he : c.isEstablished = true) (hfree : c.pending.lookup c.nextRequest = none)
    (hnew : c.response? c.nextWaiter = none) (hwire : w.Wire c d q (rs.map .request))
    (hpass : ∀ r, Sends broker c.order target operation args r → World.Passes d c (.request r))
    (hd : w.Has q d) (hreading : d.isReading = true) (hne : q ≠ p) (hp : P p) (hq : P q) :
    ∃ deadline next w' flag r, (remote p.broker target operation args).run.run w =
        (.waiting (.response p c.nextWaiter) deadline next, w') ∧
      Awaits broker target operation p c.nextWaiter next ∧
      Sends broker c.order target operation args r ∧ r.id = c.nextRequest ∧
      w'.Has p { c.enrolled with isBidirectional := flag } ∧
      World.Stirs P s [] [.readable q] w w' ∧ World.Wire.Kept p q w w' ∧
      w'.Wire { c.enrolled with isBidirectional := flag } d q
        ((rs ++ [r]).map .request) := by
  let r := { (w.broker p.broker).request c target.key operation args.octets with
    id := c.nextRequest }
  have hsends : Sends broker c.order target operation args r :=
    sends_request hkin c target operation args c.nextRequest
  have hport : ({ broker := p.broker, connection := c.id } : Port) = p := by rw [hc.id_eq]
  obtain ⟨w₁, hsend, hw₁, hstirs, hkept, hwire₁⟩ := hwire.sendTracked (s := s) hc he hfree
    (fun id => .request
      { (w.broker p.broker).request c target.key operation args.octets with id })
    (hpass r hsends) hp hq
  have hwire₁ : w₁.Wire c.enrolled d q ((rs ++ [r]).map .request) := by
    rw [List.map_append]
    exact hwire₁
  have hstuck := hwire₁.isStuck_requests (hkept.has q d hne hd) hreading
  have hopen : (w₁.pipe c.enrolled.outbound).isClosed = false := by
    rw [hwire₁.joined]
    exact hwire₁.isOpen
  have hwritten := evaluates_written hw₁ hstuck hopen
  obtain ⟨flag, w₂, hsent, hw₂, hpipes, hstirs₂⟩ :=
    run_sent p ((w.broker p.broker).offers c) hw₁
  have hmet : (Wait.response p c.nextWaiter).isMet w₂ = false := by
    have hnone : { c.enrolled with isBidirectional := flag }.response? c.nextWaiter = none := hnew
    rw [Wait.isMet, hw₂.found, Option.bind_some, hnone]
    rfl
  have ht' : (w.broker p.broker).config.requestTimeout ≠ some 0 := by
    rw [hkin.config]
    exact ht
  obtain ⟨deadline, next, hwait, hnext⟩ := run_awaitResponse c.nextRequest hmet ht'
  -- The call runs as far as the wait; of what comes after it only the case of a reply matters.
  have hrun : ∃ rest, (remote p.broker target operation args).run.run w =
        (.waiting (.response p c.nextWaiter) deadline fun met => next met >>= rest, w₂) ∧
      ∀ reply order, rest (.ok (.reply reply, order)) =
        (Call.lift (Activity.updateBroker p.broker countReply) >>= fun _ =>
          decode p.broker target operation reply.status reply.body order).run := by
    have hsend' := Call.Evaluates.change (·.sendTracked p fun id => .request
      { (w.broker p.broker).request c target.key operation args.octets with id }) w
    rw [hsend] at hsend'
    have hread : (Call.lift (Activity.broker p.broker)).Evaluates w (.ok (w.broker p.broker)) w :=
      .lift (.broker _ w)
    rw [remote, hread.bind_run, (evaluates_connect hroute).bind_run, hport, request_eq ho]
    apply Exists.intro
    apply And.intro
    · refine (Call.Evaluates.bind_run (.pure _ w) _).trans ((hsend'.bind_run _).trans ?_)
      refine ((hwritten _).bind_run _).trans ?_
      refine (Call.Evaluates.bind_run (.lift hsent) _).trans ?_
      exact Activity.bind_run_waiting hwait _
    · intro reply order
      rfl
  obtain ⟨rest, hrun, hrest⟩ := hrun
  refine ⟨deadline, _, w₂, flag, r, hrun, ?_, hsends, rfl, hw₂, ?_,
    ⟨fun c' d' r ms' hr h' => ?_, fun r c' hr h' => ?_⟩, ?_⟩
  · -- With the reply there, the caller takes it, counts it and decodes it.
    intro v e reply order hkin' hv hresponse
    obtain ⟨events, -, hlanded⟩ :=
      World.Stirs.landed (P := (· = p)) (s := s) v rfl c.nextWaiter
    have htake : (next true).Evaluates v (.ok (.reply reply, order))
        ((v.updateConnection p (·.takeResponse c.nextWaiter)).untrack p) := by
      rw [hnext]
      exact evaluates_takeResponse hv hresponse
    have hdecode := evaluates_decode (hkin'.trans (hlanded.kin p.broker)) target operation order
      (reply.status, reply.body)
    refine htake.bind ?_
    rw [hrest]
    exact Call.Evaluates.bind (.lift (.update _ _)) hdecode
  · exact hstirs.trans (hstirs₂ hp)
  · exact (hkept.wires c' d' r ms' hr h').of_pipes hpipes (.refl c') (.refl d') rfl
  · have hbeside := (hstirs₂ (P := (· = p)) (s := s) rfl).toBeside
    exact (hkept.has r c' hr h').beside hbeside hr
  · exact hwire₁.of_pipes hpipes rfl (.refl d) rfl

end Invocation

/-- A call to an object with what its caller makes of the outcome, and what it holds until it ends.
The caller may use the marshaller of the broker, `blank`, before. -/
structure Errand (σ α : Type) where
  broker : BrokerId
  target : Reference
  operation : String
  blank : Marshaller
  args : Marshaller
  holding : Holding
  call : Call σ α
  tail : Except BrokerError Outcome → Activity σ (Except BrokerError α)
  finish : Except BrokerError Outcome → Except BrokerError α
  /-- The caller invokes the operation and goes on from there. -/
  opens : ∀ w, (w.broker broker).marshaller = blank →
    call.run.run w = ((Invocation.invoke broker target operation args).run >>= tail).run w
  /-- The caller looks at the outcome and at nothing else. -/
  silent : ∀ outcome w, (tail outcome).Evaluates w (finish outcome) w

namespace Errand

open Invocation (verdict Sends)

def activity (e : Errand σ α) : Activity σ (Option (Except BrokerError α)) := do
  let r ← e.call.run
  Activity.update (·.unhold e.holding)
  return some r

def inbound (e : Errand σ α) : Inbound :=
  Invocation.inbound e.broker e.target e.operation e.args

def question (e : Errand σ α) : Question :=
  e.inbound.question

def result (e : Errand σ α) (broker : Broker) (order : ByteOrder) (answer : ReplyStatus × Octets) :
    Except BrokerError α :=
  e.finish (verdict broker e.target e.operation order answer)

def Ends (e : Errand σ α) (broker : Broker)
    (next : ReplyStatus × Octets → Activity σ (Option (Except BrokerError α))) : Prop :=
  ∀ (answer : ReplyStatus × Octets) (v : World σ), broker.Kin (v.broker e.broker) →
    (next answer).Evaluates v (some (e.result broker broker.config.order answer))
      (v.unhold e.holding)

lemma run_inside (e : Errand σ α) (hl : e.target.isLocal = true)
    (hrun : (w.broker e.broker).isRunning = true) (hb : (w.broker e.broker).marshaller = e.blank)
    (broker : Broker) :
    ∃ next, e.activity.run w = (.calling e.inbound next, w) ∧ e.Ends broker next := by
  obtain ⟨next, hcall, hnext⟩ :=
    Invocation.run_collocated e.broker e.target e.operation e.args w
  have hinvoke : (Invocation.invoke e.broker e.target e.operation e.args).run.run w =
      (.calling e.inbound next, w) := by
    rw [Invocation.invoke, (Invocation.evaluates_ensureRunning hrun).bind_run, if_pos hl]
    exact hcall
  have hopens : e.call.run.run w = (.calling e.inbound fun answer => next answer >>= e.tail, w) :=
    (e.opens w hb).trans (Activity.bind_run_calling hinvoke _)
  refine ⟨_, Activity.bind_run_calling hopens _, fun answer v hkin => ?_⟩
  have htail := (hnext broker answer v hkin).bind (e.silent _ v)
  exact htail.bind (.bind (.update _ v) (.pure _ _))

def Waits (e : Errand σ α) (broker : Broker) (p : Port) (waiter : WaiterId)
    (next : Bool → Activity σ (Option (Except BrokerError α))) : Prop :=
  ∀ (v : World σ) (c : Connection) (reply : Reply) (order : ByteOrder),
    broker.Kin (v.broker p.broker) → v.Has p c →
    c.response? waiter = some (.ok (.reply reply, order)) →
    (next true).Evaluates v (some (e.result broker order (reply.status, reply.body)))
      ((v.landed p waiter).unhold e.holding)

lemma run_away {P : Port → Prop} {s : BrokerId} {rs : List Request} {broker : Broker}
    (e : Errand σ α) (hl : e.target.isLocal = false) (hb : e.broker = p.broker)
    (hm : (w.broker e.broker).marshaller = e.blank)
    (hrun : (w.broker p.broker).isRunning = true) (hkin : broker.Kin (w.broker p.broker))
    (hc : w.Has p c) (hroute : (w.broker p.broker).route? e.target.endpoint = some c)
    (ho : e.args.output.order = c.order) (ht : broker.config.requestTimeout ≠ some 0)
    (he : c.isEstablished = true) (hfree : c.pending.lookup c.nextRequest = none)
    (hnew : c.response? c.nextWaiter = none) (hwire : w.Wire c d q (rs.map .request))
    (hpass : ∀ r, Sends broker c.order e.target e.operation e.args r →
      World.Passes d c (.request r))
    (hd : w.Has q d) (hreading : d.isReading = true) (hne : q ≠ p) (hp : P p) (hq : P q) :
    ∃ deadline next w' flag r, e.activity.run w =
        (.waiting (.response p c.nextWaiter) deadline next, w') ∧
      e.Waits broker p c.nextWaiter next ∧
      Sends broker c.order e.target e.operation e.args r ∧ r.id = c.nextRequest ∧
      w'.Has p { c.enrolled with isBidirectional := flag } ∧
      World.Stirs P s [] [.readable q] w w' ∧ World.Wire.Kept p q w w' ∧
      w'.Wire { c.enrolled with isBidirectional := flag } d q
        ((rs ++ [r]).map .request) := by
  obtain ⟨deadline, next, w', flag, r, hcall, hnext, hrest⟩ := Invocation.run_remote (s := s)
    hkin hc hroute ho ht he hfree hnew hwire hpass hd hreading hne hp hq
  have hlocal : ¬ e.target.isLocal = true := by
    rw [hl]
    decide
  have hinvoke : (Invocation.invoke e.broker e.target e.operation e.args).run.run w =
      (.waiting (.response p c.nextWaiter) deadline next, w') := by
    rw [hb, Invocation.invoke, (Invocation.evaluates_ensureRunning hrun).bind_run, if_neg hlocal]
    exact hcall
  have hopens : e.call.run.run w = (.waiting (.response p c.nextWaiter) deadline
      fun met => next met >>= e.tail, w') :=
    (e.opens w hm).trans (Activity.bind_run_waiting hinvoke _)
  refine ⟨deadline, _, w', flag, r, Activity.bind_run_waiting hopens _,
    fun v c' reply order hkin hv hr => ?_, hrest⟩
  have htail := (hnext v c' reply order hkin hv hr).bind (e.silent _ (v.landed p c.nextWaiter))
  exact htail.bind (.bind (.update _ _) (.pure _ _))

end Errand

end ObjectBroker
