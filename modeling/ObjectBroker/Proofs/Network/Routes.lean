import ObjectBroker.Proofs.Network.History

/-!
The routes of the brokers of a network, whatever has happened there. Each leads to a connection of
the table and comes of what the broker has learnt on it. An endpoint is reached on the connection
that was last made its route, and is not reached at all once that connection has gone, even if
others still lead there.
-/

namespace ObjectBroker

namespace Broker

variable {b : Broker} {k : List (Endpoint × Nat)} {e : Endpoint} {id : Nat} {c : Connection}

lemma mem_listed (hc : b.connection? id = some c) (hid : id ∈ b.table) : c ∈ b.listed := by
  rw [mem_listed_iff, id_of_connection? hc]
  exact ⟨List.mem_of_find?_eq_some hc, hid⟩

lemma route?_eq_some_iff : b.route? e = some c ↔
    ∃ id ∈ b.table, b.routes.lookup e = some id ∧ b.connection? id = some c ∧
      c.isEstablished = true := by
  rw [route?, Option.bind_eq_bind, Option.bind_eq_some_iff]
  refine exists_congr fun id => ?_
  by_cases hid : id ∈ b.table
  · simp [hid, Option.filter_eq_some_iff]
  · simp [hid]

namespace Routed

lemma mem_routes (h : b.Routed k) (hrun : b.isRunning = true) (hr : (e, id) ∈ b.routes) :
    newest k e = some id ∧ id ∈ b.table := by
  have hlookup := (lookup_eq_some_iff_mem h.unique).mpr hr
  rw [h.lookup hrun] at hlookup
  simpa [Option.filter_eq_some_iff] using hlookup

lemma route?_eq_some_iff (h : b.Routed k) (hrun : b.isRunning = true) :
    b.route? e = some c ↔ newest k e = some c.id ∧ c ∈ b.listed ∧ c.isEstablished = true := by
  rw [Broker.route?_eq_some_iff, mem_listed_iff]
  constructor
  · rintro ⟨id, hid, hlookup, hc, hestablished⟩
    rw [h.lookup hrun, Option.filter_eq_some_iff] at hlookup
    obtain rfl := id_of_connection? hc
    exact ⟨hlookup.1, ⟨List.mem_of_find?_eq_some hc, hid⟩, hestablished⟩
  · rintro ⟨hnewest, ⟨hc, hid⟩, hestablished⟩
    refine ⟨c.id, hid, ?_, h.numbered.connection?_of_mem hc, hestablished⟩
    rw [h.lookup hrun, hnewest]
    simp [Option.filter_some, hid]

end Routed

end Broker

namespace World

variable {σ : Type} {w : World σ} {log : List Incident} {b : BrokerId} {e : Endpoint} {id : Nat}

/-- Why a connection is the route to an endpoint: the broker opened it to reach the endpoint, or the
peer has asked on it for calls that are meant for the endpoint. -/
def Justifies (w : World σ) (log : List Incident) (b : BrokerId) (c : Connection) (e : Endpoint) :
    Prop :=
  c.role = .initiator ∧ c.peer = e ∨
    c.role = .acceptor ∧ (w.broker b).config.acceptBidirectional = true ∧
      ∃ r, .heard { broker := b, connection := c.id } .acceptor r ∈ log ∧ e ∈ r.offered

lemma Reflects.justifies (h : w.Reflects log) (hk : (e, id) ∈ w.claims log b) :
    ∃ c, (w.broker b).connection? id = some c ∧ w.Justifies log b c e := by
  obtain ⟨i, hi, hclaim⟩ := List.mem_flatMap.mp hk
  have hstands := h.stands i hi
  cases i with
  | opened port role peer =>
    obtain ⟨c, hc, hrole, hpeer⟩ := hstands
    rw [Incident.claims] at hclaim
    split at hclaim
    · next hport =>
      obtain ⟨rfl, rfl⟩ := Prod.mk.inj (List.mem_singleton.mp hclaim)
      obtain ⟨rfl, hinitiator⟩ := hport
      exact ⟨c, hc, .inl ⟨hrole.trans hinitiator, hpeer⟩⟩
    · cases hclaim
  | heard port role request =>
    obtain ⟨c, hc, hrole⟩ := hstands
    rw [Incident.claims] at hclaim
    split at hclaim
    · next hport =>
      obtain ⟨e', he, heq⟩ := List.mem_map.mp hclaim
      obtain ⟨rfl, rfl⟩ := Prod.mk.inj heq
      obtain ⟨rfl, haccept, rfl⟩ := hport
      refine ⟨c, hc, .inr ⟨hrole, haccept, request, ?_, he⟩⟩
      rw [Broker.id_of_connection? hc]
      exact hi
    · cases hclaim

end World

namespace Network

open Broker (newest)

section Overlap

/-! Two connections on which the same endpoint is offered; the second one ends at once. -/

def offered : Endpoint := { host := "peer", port := 5 }

def offer : Request :=
  { id := 1, key := Utf8.encode "bell", operation := "ring",
    contexts := [Bidirectional.offer [offered] .bigEndian], body := [] }

def offerOctets : Octets :=
  (Writer.octets Writer.defaultLimit (.request offer) .bigEndian).toOption.getD []

def unattached : World Empty :=
  { (({} : World Empty).addBroker (.new "a" { name := "a", order := .bigEndian })).2 with
    pipes := #[{ chunks := [offerOctets] }, {}, { chunks := [offerOctets], isClosed := true }, {}] }

def attachedTo (w : World Empty) (inbound outbound : Nat) : World Empty :=
  ((w.attach 0 .acceptor { host := "client", port := 1 } inbound outbound).toOption.map (·.2)).getD w

instance : Servant Empty where
  typeId := Empty.elim
  typeIds := Empty.elim
  brokers := Empty.elim
  invoke _ operation := Serving.unknown operation

lemma madeOf_unknown (c : CallContext) (operation : String) :
    (Servant.invoke c operation : Serving Empty Unit).MadeOf Activity.Primitive :=
  fun _ => .pure _

def attached : Network Empty Unit :=
  { world := attachedTo (attachedTo unattached 0 1) 2 3 : Network Empty Unit }.absorbAll

def incidentsBefore : List Incident :=
  [.opened { broker := 0, connection := 1 } .acceptor { host := "client", port := 1 },
   .opened { broker := 0, connection := 2 } .acceptor { host := "client", port := 1 }]

lemma history_attached : History {} incidentsBefore attached := by
  have hcreated : History ({} : Network Empty Unit) ([] ++ []) _ :=
    .tail .refl (.create "a" { name := "a", order := .bigEndian })
  have hstreams := hcreated.tail (.outside (w := unattached) rfl)
  have hfirst : unattached.attach 0 .acceptor { host := "client", port := 1 } 0 1 =
      .ok ({ broker := 0, connection := 1 }, attachedTo unattached 0 1) := rfl
  have hsecond : (attachedTo unattached 0 1).attach 0 .acceptor { host := "client", port := 1 } 2 3 =
      .ok ({ broker := 0, connection := 2 }, attachedTo (attachedTo unattached 0 1) 2 3) := rfl
  exact ((hstreams.tail (.attach hfirst)).tail (.attach hsecond)).tail .absorb

lemma history_step : History {} (incidentsBefore ++ attached.incidents) attached.step :=
  history_attached.tail .step

lemma history_twice :
    History {} (incidentsBefore ++ attached.incidents ++ attached.step.incidents) attached.step.step :=
  history_step.tail .step

lemma heard_first : .heard { broker := 0, connection := 1 } .acceptor offer ∈ attached.incidents := by
  decide +kernel

end Overlap

variable {σ ρ : Type} [Servant σ]

/-- In whatever way a network has come about, the connections of a broker have ids of their own and
keep them. A route leads to a connection of the table that justifies it, the connection that it
gives is established, and a connection that has left the table does not come back, nor does a
route to it. -/
theorem History.routes_justified
    (hs : ∀ c operation, (Servant.invoke c operation : Serving σ Unit).MadeOf Activity.Primitive)
    {n : Network σ ρ} {log : List Incident} (h : History {} log n) {b : BrokerId}
    (hrun : (n.world.broker b).isRunning = true) :
    (n.world.broker b).ids.Nodup ∧
    (∀ e id, (e, id) ∈ (n.world.broker b).routes →
      ∃ c ∈ (n.world.broker b).listed, c.id = id ∧ n.world.Justifies log b c e) ∧
    (∀ e c, (n.world.broker b).route? e = some c →
      c ∈ (n.world.broker b).listed ∧ c.isEstablished = true) ∧
    ∀ more n', History n more n' →
      (∀ id c, (n.world.broker b).connection? id = some c →
        ∃ d, (n'.world.broker b).connection? id = some d ∧ c.Stays d) ∧
      ∀ id ∈ (n.world.broker b).ids, id ∉ (n.world.broker b).table →
        id ∉ (n'.world.broker b).table ∧
          ((n'.world.broker b).isRunning = true → ∀ e, (e, id) ∉ (n'.world.broker b).routes) := by
  have hrecorded := Recorded.empty.history hs h
  rw [List.nil_append] at hrecorded
  have hrouted := hrecorded.reflects.routed b
  refine ⟨hrouted.numbered.nodup, fun e id hr => ?_, fun e c hc => ?_, fun more n' hn' => ?_⟩
  · obtain ⟨hnewest, hid⟩ := hrouted.mem_routes hrun hr
    obtain ⟨c, hc, hjustified⟩ := hrecorded.reflects.justifies (Broker.mem_of_newest hnewest)
    exact ⟨c, Broker.mem_listed hc hid, Broker.id_of_connection? hc, hjustified⟩
  · exact ((hrouted.route?_eq_some_iff hrun).mp hc).2
  · obtain ⟨-, marks, hpath⟩ := hrecorded.path hs hn' (World.lt_size_of_isRunning hrun)
    refine ⟨fun id c hc => hpath.stays hrouted.numbered hc, fun id hid hout => ?_⟩
    have hgone : id ∉ (n'.world.broker b).table := by
      intro hin
      obtain ⟨c, hc⟩ := Broker.exists_connection?_iff.mpr hid
      rcases hpath.table.2 id hin with hin | hnew
      · exact hout hin
      · exact Nat.not_lt.mpr (hrouted.numbered.id_le hc) hnew
    refine ⟨hgone, fun hrun' e hr => hgone ?_⟩
    have hrouted' := ((hrecorded.history hs hn').reflects.routed b)
    exact (hrouted'.mem_routes hrun' hr).2

/-- An endpoint that a peer has offered is reached on the connection that was made its route last,
as long as that one is established, and on no other. -/
theorem History.route?_newest
    (hs : ∀ c operation, (Servant.invoke c operation : Serving σ Unit).MadeOf Activity.Primitive)
    {n : Network σ ρ} {log : List Incident} (h : History {} log n) {b : BrokerId}
    (hrun : (n.world.broker b).isRunning = true)
    (haccept : (n.world.broker b).config.acceptBidirectional = true) {id : Nat} {r : Request}
    {e : Endpoint} (hheard : .heard { broker := b, connection := id } .acceptor r ∈ log)
    (he : e ∈ r.offered) :
    ∃ c ∈ (n.world.broker b).connections, newest (n.world.claims log b) e = some c.id ∧
      ∀ d, (n.world.broker b).route? e = some d ↔
        d = c ∧ c ∈ (n.world.broker b).listed ∧ c.isEstablished = true := by
  have hrecorded := Recorded.empty.history hs h
  rw [List.nil_append] at hrecorded
  have hrouted := hrecorded.reflects.routed b
  have hclaim : (e, id) ∈ n.world.claims log b := by
    refine List.mem_flatMap.mpr ⟨_, hheard, ?_⟩
    rw [Incident.claims, if_pos ⟨rfl, haccept, rfl⟩]
    exact List.mem_map_of_mem he
  obtain ⟨id', hnewest⟩ := Broker.exists_newest hclaim
  obtain ⟨c, hc⟩ := hrouted.claimed _ (Broker.mem_of_newest hnewest)
  obtain rfl := Broker.id_of_connection? hc
  refine ⟨c, List.mem_of_find?_eq_some hc, hnewest, fun d => ?_⟩
  rw [hrouted.route?_eq_some_iff hrun, hnewest, Option.some.injEq]
  constructor
  · rintro ⟨hid, hlisted, hestablished⟩
    have hd := hrouted.numbered.connection?_of_mem (Broker.mem_listed_iff.mp hlisted).1
    rw [← hid] at hd
    obtain rfl := Option.some.inj (hc.symm.trans hd)
    exact ⟨rfl, hlisted, hestablished⟩
  · rintro ⟨rfl, hlisted, hestablished⟩
    exact ⟨rfl, hlisted, hestablished⟩

theorem History.route?_newest_offered :
    ∃ c, (attached.step.world.broker 0).route? offered = some c ∧ c.id = 1 := by
  have hrun : (attached.step.world.broker 0).isRunning = true := by decide +kernel
  have haccept : (attached.step.world.broker 0).config.acceptBidirectional = true := by
    decide +kernel
  have hoffered : offered ∈ offer.offered := by decide +kernel
  obtain ⟨c, hc, hnewest, hroute⟩ := History.route?_newest madeOf_unknown history_step hrun haccept
    (List.mem_append_right _ heard_first) hoffered
  have hlast : newest (attached.step.world.claims (incidentsBefore ++ attached.incidents) 0)
      offered = some 1 := by decide +kernel
  have hid : c.id = 1 := Option.some.inj (hnewest.symm.trans hlast)
  have hall : ∀ c ∈ (attached.step.world.broker 0).connections, c.id = 1 →
      (attached.step.world.broker 0).table.contains c.id = true ∧ c.isEstablished = true := by
    decide +kernel
  obtain ⟨htable, hestablished⟩ := hall c hc hid
  have hlisted : c ∈ (attached.step.world.broker 0).listed :=
    Broker.mem_listed_iff.mpr ⟨hc, List.contains_iff_mem.mp htable⟩
  exact ⟨c, (hroute c).mpr ⟨rfl, hlisted, hestablished⟩, hid⟩

theorem History.unreachable_while_established :
    ∃ log : List Incident, ∃ n : Network Empty Unit, History {} log n ∧
      (n.world.broker 0).isRunning = true ∧
      (n.world.broker 0).config.acceptBidirectional = true ∧
      (∃ c ∈ (n.world.broker 0).listed, c.role = .acceptor ∧ c.isEstablished = true ∧
        ∃ r, .heard { broker := 0, connection := c.id } .acceptor r ∈ log ∧ offered ∈ r.offered) ∧
      (n.world.broker 0).route? offered = none := by
  have hlisted : ∃ c ∈ (attached.step.step.world.broker 0).listed,
      c.id = 1 ∧ c.role = .acceptor ∧ c.isEstablished = true := by decide +kernel
  have hroute : ((attached.step.step.world.broker 0).route? offered).isNone = true := by
    decide +kernel
  have hoffered : offered ∈ offer.offered := by decide +kernel
  obtain ⟨c, hc, hid, hrole, hestablished⟩ := hlisted
  refine ⟨_, _, history_twice, by decide +kernel, by decide +kernel,
    ⟨c, hc, hrole, hestablished, offer, ?_, hoffered⟩, Option.isNone_iff_eq_none.mp hroute⟩
  rw [hid]
  exact List.mem_append_left _ (List.mem_append_right _ heard_first)

end Network

end ObjectBroker
