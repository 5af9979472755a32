import ObjectBroker.Proofs.Dispatch
import ObjectBroker.Proofs.Invocation
import ObjectBroker.Proofs.Message.Offer
import ObjectBroker.Proofs.Network.History

/-!
Calling back. A broker that others may call on the connections it opens offers its endpoint in the
requests it sends there; the broker that is reached takes up the offer before it serves the request,
and from then on its own calls come back on the same connection.
-/

namespace ObjectBroker

variable {σ : Type} {w w' : World σ} {p q : Port} {c d : Connection}

namespace Broker

variable {b : Broker}

lemma contexts_request (hrole : c.role = .initiator) (hm : c.isBidirectional = false)
    (ha : ∃ a ∈ b.adapters.adapters, a.isRunning = true ∧ a.isBidirectional = true)
    (key : Octets) (operation : String) (body : Octets) :
    (b.request c key operation body).contexts = [Bidirectional.offer [b.endpoint] c.order] := by
  have hany : b.adapters.anyBidirectional = true := by
    obtain ⟨a, hmem, hrunning, hbidirectional⟩ := ha
    refine List.any_eq_true.mpr ⟨a, hmem, ?_⟩
    rw [hrunning, hbidirectional]
    rfl
  have hoffers : b.offers c = true := by
    rw [offers, hrole, hm, hany]
    rfl
  exact if_pos hoffers

lemma takeOffer_eq {contexts : List ServiceContext} {points : List Endpoint}
    (hrole : c.role = .acceptor) (h : Bidirectional.find contexts = .ok (some points)) :
    b.takeOffer c contexts = b.registerPoints c.id points := by
  rw [takeOffer, if_pos hrole, h]

end Broker

namespace World

/-- Two brokers at the ends of one stream: `p` is where it was opened, `q` where it was taken. -/
structure Joined (w : World σ) (p q : Port) (c d : Connection) : Prop where
  numbered : (w.broker p.broker).Numbered
  opened : w.connection? p = some c
  initiator : c.role = .initiator
  taken : (w.broker q.broker).Seats q.connection d
  there : d.inbound = c.outbound
  back : d.outbound = c.inbound

lemma Joined.later (h : w.Joined p q c d) (hw : w.Leads w') :
    ∃ c' d', w'.Joined p q c' d' ∧ c.Becomes c' ∧ d.Becomes d' := by
  obtain ⟨claims, hp⟩ := hw.course p.broker (lt_size_of_connection? h.opened) h.numbered
  obtain ⟨more, hq⟩ := hw.course q.broker (lt_size_of_connection? (p := q) h.taken.found)
    h.taken.numbered
  obtain ⟨c', hc', hc⟩ := hp.connection h.numbered h.opened
  obtain ⟨d', hd', hd⟩ := h.taken.course hq
  refine ⟨c', d', ⟨hp.numbered h.numbered, hc', hc.role.trans h.initiator, hd', ?_, ?_⟩, hc, hd⟩
  · rw [hd.inbound, hc.outbound, h.there]
  · rw [hd.outbound, hc.inbound, h.back]

section Attach

variable {b : BrokerId} {role : Role} {peer : Endpoint} {inbound outbound : Nat}

lemma broker_attach (h : w.attach b role peer inbound outbound = .ok (p, w')) :
    w'.broker b = ((w.broker b).adopt role peer inbound outbound).2 := by
  obtain ⟨-, hbrokers, hrun⟩ := attach_eq_ok h
  -- A broker that runs is one of the world's.
  have hb : b < w.brokers.size := by
    by_contra hsize
    have hn : w.broker b = default := by
      rw [broker, Array.getElem?_eq_none (Nat.le_of_not_lt hsize)]
      rfl
    rw [hn] at hrun
    cases hrun
  have hsame := broker_updateBroker w b b fun _ =>
    ((w.broker b).adopt role peer inbound outbound).2
  rw [if_pos ⟨rfl, hb⟩] at hsame
  rw [broker_of_brokers hbrokers, hsame]

lemma connection?_attach (h : w.attach b role peer inbound outbound = .ok (p, w')) :
    w'.connection? p = some ((w.broker b).entrant role peer inbound outbound) := by
  obtain ⟨rfl, -, -⟩ := attach_eq_ok h
  have hid : ((w.broker b).entrant role peer inbound outbound).id =
      (w.broker b).lastConnection + 1 := rfl
  rw [connection?, broker_attach h, Broker.connection?, Broker.connections_adopt, List.find?_cons,
    hid, beq_self_eq_true]

lemma seats_attach (h : w.attach b .acceptor peer inbound outbound = .ok (p, w'))
    (hb : (w.broker b).Numbered) :
    (w'.broker p.broker).Seats p.connection ((w.broker b).entrant .acceptor peer inbound outbound) := by
  have hfound := connection?_attach h
  obtain ⟨rfl, -, -⟩ := attach_eq_ok h
  have hbroker := broker_attach h
  refine ⟨?_, hfound, rfl, ?_, fun _ => ?_⟩
  · dsimp only
    rw [hbroker]
    exact (Broker.Turn.adopt _ _ _ _ _).numbered hb
  · intro h
    cases h
  · dsimp only
    rw [hbroker, Broker.table_adopt]
    exact List.mem_cons_self

end Attach

lemma joined_link {opener reached : BrokerId} {endpoint peer : Endpoint}
    (hw : ∀ b, (w.broker b).Numbered)
    (h : w.link opener endpoint reached peer = (.ok (p, q), w')) :
    ∃ c d, w'.Joined p q c d := by
  rw [link] at h
  dsimp only at h
  split at h
  · cases h
  · next q' w₁ hq =>
    split at h
    · cases h
    · next p' w₂ hp =>
      cases h
      have hnumbered : (w₁.broker opener).Numbered :=
        (((follows_attach hq).path opener).course (hw opener)).2
      have hseats := seats_attach hq (hw reached)
      obtain ⟨rfl, -, -⟩ := attach_eq_ok hp
      obtain ⟨d, hd, hbecomes⟩ :=
        hseats.course (((follows_attach hp).path q.broker).course hseats.numbered).1
      refine ⟨_, d, ⟨?_, connection?_attach hp, rfl, hd, hbecomes.inbound, hbecomes.outbound⟩⟩
      dsimp only
      rw [broker_attach hp]
      exact (Broker.Turn.adopt _ _ _ _ _).numbered hnumbered

section Offer

variable {r : Request} {order : ByteOrder} {e : Endpoint} {sender : ByteOrder}

lemma find_offer_of_readNext (hread : (w.readNext q d).1 = .done (.request r, order))
    (hr : r.contexts = [Bidirectional.offer [e] sender]) :
    Bidirectional.find r.contexts = .ok (some [e]) := by
  -- What was read from the wire was short enough to stand there.
  have hmessage : (d.reader.readMessage (w.inlet d)).1 = .done (.request r, order) := hread
  obtain ⟨header, body, hbody⟩ := Reader.decodeBody_of_readFrames hmessage
  have hlength := Message.length_data_lt_of_decodeBody hbody _
    (hr ▸ List.mem_singleton_self (Bidirectional.offer [e] sender))
  rw [hr]
  exact Bidirectional.find_offer e sender hlength

lemma broker_readNext (w : World σ) (q : Port) (d : Connection) :
    ∃ connections,
      (w.readNext q d).2.broker q.broker = { w.broker q.broker with connections } := by
  rw [readNext]
  dsimp only
  rw [updateConnection, broker_updateBroker]
  split <;> exact ⟨_, rfl⟩

lemma routes_acceptRequest (h : w.Has q c) (d : Connection) (r : Request) (order : ByteOrder) :
    ((w.acceptRequest q d r order).broker q.broker).routes =
      ((w.broker q.broker).takeOffer d r.contexts).routes := by
  let w₁ := w.updateBroker q.broker fun b => b.takeOffer d r.contexts
  have hoffer : w₁.broker q.broker = (w.broker q.broker).takeOffer d r.contexts := by
    rw [broker_updateBroker, if_pos ⟨rfl, h.lt_size⟩]
  have htrack : (w.acceptRequest q d r order).broker q.broker = (w₁.track q).broker q.broker :=
    broker_of_brokers rfl q.broker
  rw [htrack, track, updateConnection, broker_updateBroker, ← hoffer]
  split <;> rfl

lemma lookup_acceptRequest (h : w.Has q c) (hid : d.id = q.connection) (hrole : d.role = .acceptor)
    (ha : (w.broker q.broker).config.acceptBidirectional = true)
    (hfind : Bidirectional.find r.contexts = .ok (some [e])) :
    ((w.acceptRequest q d r order).broker q.broker).routes.lookup e = some q.connection := by
  rw [routes_acceptRequest h, Broker.takeOffer_eq hrole hfind, hid,
    Broker.lookup_registerPoints _ _ _ ha, if_pos (List.mem_singleton_self e)]

end Offer

/-- What comes of the requests that arrive where a stream was opened: an object whose adapter is
bidirectional is asked, and the callers of all others are refused. -/
structure Answers [Servant σ] (w : World σ) (p : Port) (c : Connection) : Prop where
  starts : ∀ r order v, (w.broker p.broker).isAlive = true →
    w.readNext p c = (.done (.request r, order), v) →
    (v.take p c order (.request r)).events = w.events ++ [.started (.serve p r order)]
  asks : ∀ r order target, (w.broker p.broker).adapters.route r.key = .ok target →
    r.operation ≠ "_non_existent" → r.operation ≠ "_is_a" → target.adapter.isBidirectional = true →
    ∀ call, call = Job.inbound p c r order →
    ((Job.serve p r order).activity : Activity σ Unit).run w =
      ((Dispatch.invoke (Dispatch.context call target) r.operation).run.run
          (Dispatch.exchange (Dispatch.engage w call target) call) >>= fun outcome =>
        Dispatch.conclude (Dispatch.engage w call target) call target outcome >>= Job.reply p r).run
          (Dispatch.engage w call target)
  refuses : ∀ r order target, (w.broker p.broker).adapters.route r.key = .ok target →
    r.operation ≠ "_non_existent" → r.operation ≠ "_is_a" → target.adapter.isBidirectional = false →
    ((Job.serve p r order).activity : Activity σ Unit).run w =
      (Job.reply p r (.systemException, Dispatch.refusal (w.broker p.broker))).run
        (Job.refused w p.broker)

lemma objects_readNext (w : World σ) (p : Port) (c : Connection) :
    (w.readNext p c).2.objects = w.objects ∧ (w.readNext p c).2.events = w.events := by
  rw [readNext]
  exact ⟨rfl, rfl⟩

lemma objects_acceptRequest (w : World σ) (p : Port) (c : Connection) (r : Request)
    (order : ByteOrder) :
    (w.acceptRequest p c r order).objects = w.objects ∧
      (w.acceptRequest p c r order).events = w.events ++ [.started (.serve p r order)] := by
  rw [acceptRequest]
  exact ⟨rfl, rfl⟩

lemma take_readNext {r : Request} {order : ByteOrder} {v : World σ}
    (ha : (w.broker p.broker).isAlive = true)
    (hread : w.readNext p c = (.done (.request r, order), v)) :
    v.take p c order (.request r) = v.acceptRequest p c r order ∧
      (v.take p c order (.request r)).objects = w.objects ∧
      (v.take p c order (.request r)).events = w.events ++ [.started (.serve p r order)] := by
  obtain rfl : (w.readNext p c).2 = v := congrArg Prod.snd hread
  have halive : ((w.readNext p c).2.broker p.broker).isAlive = true := by
    obtain ⟨connections, hbroker⟩ := broker_readNext w p c
    rw [hbroker]
    exact ha
  obtain ⟨hobjects, hevents⟩ := objects_readNext w p c
  obtain ⟨hobjects', hevents'⟩ := objects_acceptRequest (w.readNext p c).2 p c r order
  rw [take_request halive, hobjects', hevents', hobjects, hevents]
  exact ⟨rfl, rfl, rfl⟩

lemma answers [Servant σ] (hc : w.connection? p = some c) (hrole : c.role = .initiator) :
    w.Answers p c where
  starts _ _ _ ha hread := (take_readNext ha hread).2.2
  asks _ _ _ ht hexists hisA hb _ hcall := Job.run_admitted hc hrole ht hexists hisA hb hcall
  refuses _ _ _ ht hexists hisA hb := Job.run_refused hc hrole ht hexists hisA hb

lemma Joined.ne (h : w.Joined p q c d) : p ≠ q := by
  rintro rfl
  obtain rfl : c = d := Option.some.inj (h.opened.symm.trans h.taken.found)
  have hrole := h.taken.role
  rw [h.initiator] at hrole
  cases hrole

lemma Joined.route? {e : Endpoint} {claims : List (Endpoint × Nat)}
    (h : w.Joined p q c d) (he : (w.broker q.broker).routes.lookup e = some q.connection)
    (hw : (w.broker q.broker).Course claims (w'.broker q.broker))
    (hu : Broker.Undisputed claims e q.connection) (hrun : (w'.broker q.broker).isRunning = true)
    {d' : Connection} (hd : w'.connection? q = some d') (hup : d'.isEstablished = true) :
    (w'.broker q.broker).route? e = some d' := by
  obtain ⟨d₁, hd₁, -⟩ := h.taken.course hw
  obtain rfl : d₁ = d' := Option.some.inj (hd₁.found.symm.trans hd)
  have hisUp : (w'.broker q.broker).IsUp q.connection := ⟨hrun, d₁, hd, hup⟩
  exact hd₁.route? (hw.lookup h.taken hu hisUp he) hisUp

/-- A broker that is reached on a stream and is offered the endpoint of the other end calls back on
it: the offer is taken up before the request is served, and the stream is the way to that endpoint
for as long as it is established and no other connection is made so. Whoever opened it passes on
the calls that come back as its adapters allow. -/
theorem Joined.calls_back [Servant σ] {w₁ w₂ w₃ w₄ v : World σ} {c₁ d₁ : Connection}
    (hj : w₁.Joined p q c₁ d₁) (h₁₂ : w₁.Leads w₂) (hc : w₂.connection? p = some c)
    (hm : c.isBidirectional = false)
    (ha : ∃ a ∈ (w₂.broker p.broker).adapters.adapters,
      a.isRunning = true ∧ a.isBidirectional = true)
    {key : Octets} {operation : String} {body : Octets} {id : UInt32} {expected : Bool} {r : Request}
    (hr : r = { (w₂.broker p.broker).request c key operation body with
      id, responseExpected := expected })
    (h₂₃ : w₂.Leads w₃) (hd : w₃.Has q d)
    (hb : (w₃.broker q.broker).config.acceptBidirectional = true) {order : ByteOrder}
    (hread : w₃.readNext q d = (.done (.request r, order), v))
    (h₄ : w₄ = v.take q d order (.request r)) {e : Endpoint}
    (he : e = (w₂.broker p.broker).endpoint) :
    (w₄.objects = w₃.objects ∧ w₄.events = w₃.events ++ [.started (.serve q r order)]) ∧
    (∀ (w₅ : World σ) (claims : List (Endpoint × Nat)) (d' : Connection),
      (w₄.broker q.broker).Course claims (w₅.broker q.broker) →
      Broker.Undisputed claims e q.connection → (w₅.broker q.broker).isRunning = true →
      w₅.connection? q = some d' → d'.isEstablished = true →
      (w₅.broker q.broker).route? e = some d' ∧
      ∀ target : Reference, target.endpoint = e → target.isLocal = false →
        w₅.CallsOn q d' target) ∧
    (∀ (w₆ : World σ) (c' d' : Connection), w₁.Leads w₆ → w₆.connection? p = some c' →
      w₆.connection? q = some d' →
      (∀ backlog, d'.isEstablished = true → w₆.Behind c' d' backlog →
        w₆.Delivers q d' p c' backlog) ∧
      w₆.Answers p c') ∧
    ((∀ call operation, (Servant.invoke call operation : Serving σ Unit).Respects Leads) →
      ∀ (ρ : Type) (n n' : Network σ ρ) (log : List Incident), n.Abides Leads →
        n.History log n' → n'.Abides Leads ∧ n.world.Leads n'.world) := by
  obtain ⟨c₂, d₂, hj₂, -, -⟩ := hj.later h₁₂
  obtain ⟨c₃, d₃, hj₃, -, -⟩ := hj₂.later h₂₃
  obtain rfl : c₂ = c := Option.some.inj (hj₂.opened.symm.trans hc)
  obtain rfl : d = d₃ := hd.unique hj₃.taken.found
  obtain rfl : (w₃.readNext q d).2 = v := congrArg Prod.snd hread
  obtain ⟨htake, hobjects, hevents⟩ := take_readNext hd.alive hread
  rw [← h₄] at htake hobjects hevents
  refine ⟨⟨hobjects, hevents⟩, ?_, ?_, fun hs _ _ _ _ hn hh => hn.history_leads hs hh⟩
  · intro w₅ claims d' hcourse hclaims hrun hd' hup
    have hcontexts : r.contexts = [Bidirectional.offer [e] c₂.order] := by
      rw [hr, he]
      exact Broker.contexts_request hj₂.initiator hm ha key operation body
    have hfind := find_offer_of_readNext (congrArg Prod.fst hread) hcontexts
    obtain ⟨d₄, hhas, -⟩ := hd.reads_next
    have haccept : ((w₃.readNext q d).2.broker q.broker).config.acceptBidirectional = true := by
      obtain ⟨connections, hbroker⟩ := broker_readNext w₃ q d
      rw [hbroker]
      exact hb
    have hlookup : (w₄.broker q.broker).routes.lookup e = some q.connection := by
      rw [htake]
      exact lookup_acceptRequest hhas hd.id_eq hj₃.taken.role haccept hfind
    have hlead : w₃.Leads w₄ := by
      rw [h₄]
      exact (Leads.readNext w₃ q d).trans (Leads.take _ q d order (.request r))
    obtain ⟨c₄, d₄, hj₄, -, -⟩ := hj₃.later hlead
    have hroute := hj₄.route? hlookup hcourse hclaims hrun hd' hup
    refine ⟨hroute, fun target htarget hremote => ?_⟩
    exact Invocation.callsOn hrun (htarget ▸ hroute) (Broker.id_of_connection? hd') hremote
  · intro w₆ c' d' hlead hc' hd'
    obtain ⟨c₆, d₆, hj₆, -, -⟩ := hj.later hlead
    obtain rfl : c₆ = c' := Option.some.inj (hj₆.opened.symm.trans hc')
    obtain rfl : d₆ = d' := Option.some.inj (hj₆.taken.found.symm.trans hd')
    exact ⟨fun _ hup hbehind => hbehind.delivers hj₆.ne hc' hd' hup hj₆.back,
      answers hc' hj₆.initiator⟩

def apart : World Unit where
  brokers := #[
    { Broker.new "a" { name := "a", order := .bigEndian } with
      adapters := { adapters := [
        { name := Adapter.rootName, servants := [("inner", 0)] },
        { name := "open", isBidirectional := true, servants := [("outer", 0)] }] } },
    Broker.new "b" { name := "b", order := .littleEndian }]
  objects := #[.custom ()]

def opener : Port := { broker := 0, connection := 1 }

def reached : Port := { broker := 1, connection := 1 }

def together : World Unit :=
  (apart.link 0 { host := "b", port := 7 } 1 { host := "a", port := 7 }).2

def outgoing : Connection := (apart.broker 0).entrant .initiator { host := "b", port := 7 } 1 0

def incoming : Connection := (apart.broker 1).entrant .acceptor { host := "a", port := 7 } 0 1

def ping (id : UInt32) : Request :=
  { (together.broker 0).request outgoing (Utf8.encode "bell") "ring" [] with id }

def called : World Unit := (together.sendTracked opener fun id => .request (ping id)).2

def heard : World Unit :=
  (called.readNext reached incoming).2.take reached incoming .bigEndian (.request (ping 0))

lemma together_joined : ∃ c d, together.Joined opener reached c d := by
  have hnew : ∀ b, (apart.broker b).Numbered := by
    rintro (_ | _ | b) <;> exact .of_nil rfl
  have hlink : apart.link 0 { host := "b", port := 7 } 1 { host := "a", port := 7 } =
      (.ok (opener, reached), together) := Prod.ext rfl rfl
  exact joined_link hnew hlink

lemma called_readNext : called.connection? reached = some incoming ∧
    (called.readNext reached incoming).1 = .done (.request (ping 0), .bigEndian) := by
  have hbehind : together.Behind incoming outgoing [] :=
    ⟨rfl, by decide, (fun _ h => by cases h), ⟨[], rfl, rfl⟩, (fun _ h => by cases h),
      ⟨fun _ => rfl, rfl⟩⟩
  have hpasses : Passes incoming outgoing (.request (ping 0)) :=
    ⟨by decide +kernel, by decide, by decide +kernel, by decide +kernel⟩
  have hdelivers := @Behind.delivers Unit together reached opener incoming outgoing [] hbehind
    (by decide) rfl rfl rfl rfl
  obtain ⟨waiter, w, hsent, hfound, c, hc, hread, -⟩ :=
    hdelivers.tracked (fun id => .request (ping id)) hpasses
  obtain rfl := Option.some.inj (hfound.symm.trans hc)
  have hcalled : called = w := congrArg Prod.snd hsent
  rw [hcalled]
  exact ⟨hfound, hread⟩

theorem Joined.calls_back_ping :
    (∃ d, heard.connection? reached = some d ∧
      (heard.broker 1).route? (together.broker 0).endpoint = some d ∧
      ∀ target : Reference, target.endpoint = (together.broker 0).endpoint →
        target.isLocal = false → heard.CallsOn reached d target) ∧
    ∀ r : Request, r.key = Utf8.encode "inner" → r.operation = "ring" →
      (@Job.activity Unit refusing (.serve opener r .littleEndian)).run together =
        (Job.reply opener r (.systemException, Dispatch.refusal (together.broker 0))).run
          (Job.refused together 0) := by
  obtain ⟨c, d, hj⟩ := together_joined
  obtain ⟨hfound, hread⟩ := called_readNext
  have hlead : together.Leads called := .sendTracked together opener _
  have hhas : called.Has reached incoming := ⟨hfound, by decide +kernel⟩
  have hadapter : ∃ a ∈ (together.broker 0).adapters.adapters,
      a.isRunning = true ∧ a.isBidirectional = true :=
    ⟨_, List.mem_cons_of_mem _ List.mem_cons_self, rfl, rfl⟩
  have hnext : called.readNext reached incoming =
      (.done (.request (ping 0), .bigEndian), (called.readNext reached incoming).2) := by
    rw [← hread]
  have hheard : heard = (called.readNext reached incoming).2.take reached incoming .bigEndian
      (.request (ping 0)) := by
    rw [heard]
  obtain ⟨-, hroute, hback, -⟩ := @Joined.calls_back Unit opener reached outgoing incoming refusing
    together together called heard (called.readNext reached incoming).2 c d hj (.refl _) rfl rfl
    hadapter (Utf8.encode "bell") "ring" [] 0 true (ping 0) rfl hlead hhas (by decide +kernel)
    .bigEndian hnext hheard (together.broker 0).endpoint rfl
  constructor
  · have hup : (heard.connection? reached).any (·.isEstablished) = true := by decide +kernel
    obtain ⟨d', hd', hestablished⟩ := (Option.any_eq_true _ _).mp hup
    have hrunning : (heard.broker 1).isRunning = true := by decide +kernel
    have hfirst : Broker.Undisputed [] (together.broker 0).endpoint reached.connection :=
      fun _ h => by cases h
    exact ⟨d', hd', hroute heard [] d' .refl hfirst hrunning hd' hestablished⟩
  · intro r hkey hoperation
    obtain ⟨-, hanswers⟩ := hback together outgoing incoming (.refl _) rfl rfl
    have htarget : (together.broker 0).adapters.route r.key = .ok
        { adapter := { name := Adapter.rootName, servants := [("inner", 0)] }, id := "inner",
          servant := 0 } := by
      rw [hkey]
      rfl
    have hexists : r.operation ≠ "_non_existent" := by
      rw [hoperation]
      decide
    have hisA : r.operation ≠ "_is_a" := by
      rw [hoperation]
      decide
    exact @Answers.refuses Unit refusing _ _ _ hanswers r _ _ htarget hexists hisA rfl

end World

end ObjectBroker
