import ObjectBroker.Proofs.Dispatch.Plain
import ObjectBroker.Proofs.Message.Size
import ObjectBroker.Proofs.Network.Run

/-!
It makes no difference where a caller is. A call over a connection does to the objects what the same
call inside the broker does, and both callers are told the same.
-/

namespace ObjectBroker

variable {σ : Type}

def Outcome.report : Outcome → (Octets × ByteOrder) ⊕ UserException
  | .returned results => .inl (results.input.rest, results.input.order)
  | .raised exception => .inr exception

def Errand.plain (broker : BrokerId) (blank : Marshaller) (target : Reference)
    (operation : String) (args : Marshaller) (holding : Holding) : Errand σ Outcome where
  broker := broker
  target := target
  operation := operation
  blank := blank
  args := args
  holding := holding
  call := Invocation.invoke broker target operation args
  tail := pure
  finish := id
  opens w _ := by rw [Activity.bind_pure]
  silent outcome w := .pure outcome w

namespace Invocation

lemma report_verdict (b b' : Broker) {target target' : Reference} (hk : target'.key = target.key)
    (operation : String) (order : ByteOrder) (a : ReplyContent) :
    (verdict b target operation order a).map Outcome.report =
      (verdict b' target' operation order a).map Outcome.report := by
  have hrun : ∀ {β : Type} (r : Reading StreamError β) (body : Octets),
      ((b.unmarshaller order body).run (Unmarshalling.stream r)).1 =
        ((b'.unmarshaller order body).run (Unmarshalling.stream r)).1 := by
    intro β r body
    rw [Unmarshalling.stream, Unmarshaller.run_ofReading, Unmarshaller.run_ofReading]
    rfl
  have htext : target'.keyText = target.keyText := by
    rw [Reference.keyText, hk, Reference.keyText]
  obtain ⟨status, body⟩ := a
  cases status with
  | noException => rfl
  | userException => rw [verdict, verdict, hrun]
  | systemException => rw [verdict, verdict, hrun, htext]
  | locationForward => rfl

end Invocation

namespace Network

variable [inst : Servant σ] {n : Network σ (Except BrokerError Outcome)} {s : BrokerId} {l : Line}
  {target home : Reference} {operation : String} {args : Marshaller}

/-- Servants are functions of their states, of the operation, and of the arguments with their byte
order. Over a connection that the broker of the object has accepted, and inside that broker, a call
is served once, leaves the same objects and is told the same. -/
theorem remote_agrees_collocated {typeId : σ → String} {typeIds : σ → List String}
    {f : σ → String → Octets → ByteOrder → σ × Except BrokerError Octets}
    (hs : inst = .ofFunction typeId typeIds f)
    (hx : Site.Sound { base := n, server := s, lines := [l] })
    (hserver : (n.world.broker s).isRunning = true)
    (hclient : (n.world.broker l.near.broker).isRunning = true)
    (htimeout : (n.world.broker l.near.broker).config.requestTimeout ≠ some 0)
    (hrole : l.host.role = .acceptor)
    (htarget : target.isLocal = false) (hhome : home.isLocal = true) (hkey : home.key = target.key)
    (hroute : (n.world.broker l.near.broker).route? target.endpoint = some l.client)
    (horder : args.output.order = l.client.order)
    (hrequest : ∀ r, Invocation.Sends (n.world.broker l.near.broker) l.client.order target operation
      args r → World.Passes l.host l.client (.request r))
    (hreply : ∀ a w, (Dispatch.serve (Invocation.inbound s home operation args)).run n.world =
      (.done a, w) → ∀ id, World.Passes l.client l.host
        (.reply { id, status := a.1, body := a.2 }))
    (holding holding' : Holding) :
    ∃ (told told' : Except BrokerError Outcome) (a : ReplyContent) (w : World σ) (enough : Nat),
      told.map Outcome.report = told'.map Outcome.report ∧
      (Dispatch.serve (Invocation.inbound s home operation args)).run n.world = (.done a, w) ∧
      ∀ fuel, enough ≤ fuel →
        let away := (n.startCall holding
          (Invocation.invoke l.near.broker target operation args)).2.settle fuel
        let inside := (n.startCall holding'
          (Invocation.invoke s home operation args)).2.settle fuel
        (away.queue = [] ∧ away.results = [(n.nextTask, told)] ∧
          away.world.objects = w.objects) ∧
        inside.queue = [] ∧ inside.results = [(n.nextTask, told')] ∧
          inside.world.objects = w.objects := by
  let x : Site σ Outcome := { base := n, server := s, lines := [l] }
  let away : Trip σ Outcome := {
    errand := .plain l.near.broker (n.world.broker l.near.broker).marshaller target operation args
      holding
    line := some l }
  let inside : Trip σ Outcome := {
    errand := .plain s (n.world.broker s).marshaller home operation args holding'
    line := none }
  have hquestion : away.errand.question = inside.errand.question := by
    have hsame : away.errand.question = Question.mk target.key operation args.octets
      args.output.order := rfl
    rw [hsame, ← hkey]
    rfl
  obtain ⟨a, objects, hgives⟩ : ∃ a objects,
      Dispatch.Gives x.host inside.errand.question n.world.objects a objects := by
    subst hs
    exact Dispatch.gives_ofFunction typeId typeIds f _ _ _
  have hgives' := hgives
  rw [← hquestion] at hgives'
  obtain ⟨stats, hserve⟩ := hgives.serve (Invocation.inbound s home operation args) n.world rfl
    (Dispatch.admits_collocated _ _) (.refl _) rfl
  have hpass : ∀ id, World.Passes l.client l.host (.reply { id, status := a.1, body := a.2 }) :=
    hreply a _ hserve
  have hadmits : Dispatch.Admits x.host target.key (Job.origin l.host) := by
    have horigin : Job.origin l.host = .accepted := by rw [Job.origin, hrole]
    rw [horigin]
    exact Dispatch.admits_accepted _ _
  have hover : x.Takes away :=
    ⟨List.mem_singleton_self l, rfl, htarget, hclient, rfl, htimeout, hroute, horder, hadmits,
      hrequest⟩
  have hin : x.Takes inside := ⟨rfl, hhome, hserver, rfl⟩
  obtain ⟨enough, haway⟩ := hx.run_one hover
    (Site.able_one hgives' fun l' hl' => by cases hl'; exact hpass) hgives'
  obtain ⟨enough', hinside⟩ := hx.run_one hin
    (Site.able_one hgives fun l' hl' => by cases hl') hgives
  refine ⟨x.result away a, x.result inside a, a, _, max enough enough', ?_, hserve,
    fun fuel hf => ?_⟩
  · exact Invocation.report_verdict (x.broker l.near.broker) (x.broker s) hkey operation _ a
  · have hfuel := haway fuel (Nat.le_trans (Nat.le_max_left _ _) hf)
    have hfuel' := hinside fuel (Nat.le_trans (Nat.le_max_right _ _) hf)
    exact ⟨hfuel, hfuel'⟩

/-- Counts its calls and gives back what it gets, the last octet first. -/
structure Mirror where
  calls : Nat

def Mirror.answer (m : Mirror) (_ : String) (body : Octets) (_ : ByteOrder) :
    Mirror × Except BrokerError Octets :=
  ({ calls := m.calls + 1 }, .ok body.reverse)

instance : Servant Mirror :=
  .ofFunction (fun _ => "IDL:Mirror:1.0") (fun _ => []) Mirror.answer

def mirror : Reference where
  typeId := "IDL:Mirror:1.0"
  endpoint := { host := "b", port := 7 }
  key := Utf8.encode "tally"

def ownMirror : Reference :=
  { mirror with isLocal := true }

def besideMirror : Network Mirror (Except BrokerError Outcome) :=
  (Site.pair #[.custom { calls := 0 }]).base

def threeOctets : Marshaller :=
  Site.caller.marshaller.put (·.append [1, 2, 3])

lemma passes_flip (r : Request) (h : Invocation.Sends (besideMirror.world.broker 0)
    Site.onlyLine.client.order mirror "flip" threeOctets r) :
    World.Passes Site.onlyLine.host Site.onlyLine.client (.request r) := by
  obtain ⟨hkey, hoperation, hbody, -, hcontexts⟩ := h
  have hlength := Message.length_request_le r Site.onlyLine.client.order
  have hroom : Message.contextRoom r.contexts ≤ 64 := by
    rcases hcontexts with h | h <;> rw [h] <;> decide +kernel
  have hparts : mirror.key.length = 5 ∧ (Utf8.encode "flip").length = 4 ∧
      threeOctets.octets.length = 3 := by decide +kernel
  have hlimit : Site.onlyLine.host.reader.limit = 16777216 := by decide +kernel
  rw [hkey, hoperation, hbody] at hlength
  exact ⟨Nat.le_refl 24, (fun h => by cases h), by omega, by omega⟩

lemma passes_flipped (a : ReplyContent) (w : World Mirror)
    (h : (Dispatch.serve (Invocation.inbound 1 ownMirror "flip" threeOctets)).run
      besideMirror.world = (.done a, w)) (id : UInt32) :
    World.Passes Site.onlyLine.client Site.onlyLine.host
      (.reply { id, status := a.1, body := a.2 }) := by
  have ha : Activity.Stop.done (.noException, [3, 2, 1]) = Activity.Stop.done a :=
    congrArg Prod.fst h
  obtain rfl := Activity.Stop.done.inj ha
  have hlength : (Message.encode (.reply { id, status := .noException, body := [3, 2, 1] })
      Site.onlyLine.host.order).length ≤ 43 := Message.length_reply_le _ _
  have hlimit : Site.onlyLine.client.reader.limit = 16777216 := by decide +kernel
  exact ⟨by decide, (fun h => by cases h), Nat.lt_of_le_of_lt hlength (by decide),
    Nat.le_trans hlength (by omega)⟩

theorem remote_agrees_collocated_mirror :
    ∃ (told told' : Except BrokerError Outcome) (a : ReplyContent) (w : World Mirror)
      (enough : Nat),
      told.map Outcome.report = told'.map Outcome.report ∧
      (Dispatch.serve (Invocation.inbound 1 ownMirror "flip" threeOctets)).run
        besideMirror.world = (.done a, w) ∧
      ∀ fuel, enough ≤ fuel →
        let away := (besideMirror.startCall (.broker 0)
          (Invocation.invoke 0 mirror "flip" threeOctets)).2.settle fuel
        let inside := (besideMirror.startCall (.broker 1)
          (Invocation.invoke 1 ownMirror "flip" threeOctets)).2.settle fuel
        (away.queue = [] ∧ away.results = [(besideMirror.nextTask, told)] ∧
          away.world.objects = w.objects) ∧
        inside.queue = [] ∧ inside.results = [(besideMirror.nextTask, told')] ∧
          inside.world.objects = w.objects := by
  have hsound : Site.Sound (α := Outcome)
      { base := besideMirror, server := 1, lines := [Site.onlyLine] } := Site.sound_pair _
  have hserver : (besideMirror.world.broker 1).isRunning = true := rfl
  have hclient : (besideMirror.world.broker Site.onlyLine.near.broker).isRunning = true := rfl
  have htimeout : (besideMirror.world.broker Site.onlyLine.near.broker).config.requestTimeout ≠
      some 0 := by decide
  have hroute : (besideMirror.world.broker Site.onlyLine.near.broker).route? mirror.endpoint =
      some Site.onlyLine.client := rfl
  exact @remote_agrees_collocated Mirror _ besideMirror 1 Site.onlyLine mirror ownMirror "flip"
    threeOctets (fun _ => "IDL:Mirror:1.0") (fun _ => []) Mirror.answer rfl hsound hserver hclient
    htimeout rfl rfl rfl rfl hroute rfl passes_flip passes_flipped (.broker 0) (.broker 1)

end Network

end ObjectBroker
