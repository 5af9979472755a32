import ObjectBroker.Lifetime
import ObjectBroker.Proofs.Broker.Path
import ObjectBroker.Proofs.Connection.Action

/-!
What happens in a world, as the paths that its brokers take. Few operations do anything to a broker
that has to be noted: a caller leaves, an offer is taken up, a stream becomes a connection.
-/

namespace ObjectBroker

open Broker (Mark Move)

def Request.offered (r : Request) : List Endpoint :=
  match Bidirectional.find r.contexts with
  | .ok (some points) => points
  | _ => []

def Request.claims (r : Request) (accept : Bool) (role : Role) (id : Nat) : List Mark :=
  if accept = true ∧ role = .acceptor then r.offered.map (.claim · id) else []

lemma Request.mem_claims {r : Request} {accept : Bool} {role : Role} {id : Nat} {m : Mark}
    (h : m ∈ r.claims accept role id) : ∃ e id, m = .claim e id := by
  rw [Request.claims] at h
  split at h
  · obtain ⟨e, -, rfl⟩ := List.mem_map.mp h
    exact ⟨e, id, rfl⟩
  · cases h

def Message.request? : Message → Option Request
  | .request r => some r
  | _ => none

namespace World

variable {σ : Type} {w w' w'' : World σ} {p : Port} {b : BrokerId}
  {marks more : BrokerId → List Mark}

structure Follows (marks : BrokerId → List Mark) (w w' : World σ) : Prop where
  size : w'.brokers.size = w.brokers.size
  path : ∀ b, (w.broker b).Path (marks b) (w'.broker b)

def Silent (w w' : World σ) : Prop :=
  w.Follows (fun _ => []) w'

def only (b : BrokerId) (marks : List Mark) (b' : BrokerId) : List Mark :=
  if b' = b then marks else []

lemma only_nil (b : BrokerId) : only b [] = fun _ => [] := by
  funext b'
  rw [only, ite_self]

lemma only_append (b : BrokerId) (marks more : List Mark) :
    only b (marks ++ more) = fun b' => only b marks b' ++ only b more b' := by
  funext b'
  rw [only, only, only]
  split <;> rfl

lemma Silent.only (h : w.Silent w') (b : BrokerId) : w.Follows (only b []) w' := by
  rw [only_nil]
  exact h

lemma Follows.trans (h : w.Follows marks w') (h' : w'.Follows more w'') :
    w.Follows (fun b => marks b ++ more b) w'' :=
  ⟨h'.size.trans h.size, fun b => (h.path b).trans (h'.path b)⟩

lemma Follows.silent (h : w.Follows marks w') (h' : w'.Silent w'') : w.Follows marks w'' := by
  have hall := h.trans h'
  simpa only [List.append_nil] using hall

lemma Silent.follows (h : w.Silent w') (h' : w'.Follows marks w'') : w.Follows marks w'' :=
  Follows.trans h h'

lemma connection?_updateConnection_ne (w : World σ) {f : Connection → Connection}
    (hf : ∀ c, c.id = p.connection → (f c).id = p.connection) {q : Port} (hq : q ≠ p) :
    (w.updateConnection p f).connection? q = w.connection? q := by
  rw [connection?, updateConnection, broker_updateBroker]
  split
  · next hb =>
    rw [Broker.connection?_update_map _ hf, connection?]
    cases hc : (w.broker q.broker).connection? q.connection with
    | none => rfl
    | some c =>
      have hid : c.id = q.connection := Broker.id_of_connection? hc
      have hne : ¬ c.id = p.connection := by
        intro h
        refine hq ?_
        obtain ⟨pb, pc⟩ := p
        obtain ⟨qb, qc⟩ := q
        simp only [Port.mk.injEq]
        exact ⟨hb.1.symm, hid.symm.trans h⟩
      exact congrArg some (if_neg hne)
  · rfl

lemma attach_eq_ok {role : Role} {peer : Endpoint} {inbound outbound : Nat}
    (h : w.attach b role peer inbound outbound = .ok (p, w')) :
    p = { broker := b, connection := (w.broker b).lastConnection + 1 } ∧
      w'.brokers = (w.updateBroker b fun _ =>
        ((w.broker b).adopt role peer inbound outbound).2).brokers ∧
      (w.broker b).isRunning = true := by
  rw [attach, Broker.ensureRunning] at h
  by_cases hrun : (w.broker b).isRunning = true
  · rw [if_pos hrun] at h
    cases h
    exact ⟨rfl, rfl, hrun⟩
  · rw [if_neg hrun] at h
    cases h

lemma lt_size_of_connection? {c : Connection} (h : w.connection? p = some c) :
    p.broker < w.brokers.size := by
  by_contra hb
  have hn : w.broker p.broker = default := by
    rw [broker, Array.getElem?_eq_none (Nat.le_of_not_lt hb)]
    rfl
  rw [connection?, hn] at h
  cases h

lemma lt_size_of_isRunning (h : (w.broker b).isRunning = true) : b < w.brokers.size := by
  by_contra hb
  rw [broker, Array.getElem?_eq_none (Nat.le_of_not_lt hb)] at h
  cases h

lemma broker_updateConnection_twice (w : World σ) {f g : Connection → Connection}
    (hf : ∀ c, c.id = p.connection → (f c).id = p.connection) (b : BrokerId) :
    ((w.updateConnection p f).updateConnection p g).broker b =
      (w.updateConnection p (g ∘ f)).broker b := by
  have hsize : (w.updateConnection p f).brokers.size = w.brokers.size := Array.size_modify
  rw [World.updateConnection, broker_updateBroker, hsize, World.updateConnection,
    broker_updateBroker, World.updateConnection, broker_updateBroker]
  split
  · rw [Broker.update, Broker.update, Broker.update, List.map_map]
    congr 1
    refine List.map_congr_left fun c _ => ?_
    by_cases hc : c.id = p.connection
    · simp [hc, hf c hc]
    · simp [hc]
  · rfl

lemma register_eq_some {request : UInt32} {waiter : WaiterId}
    (h : w.register p = some (request, waiter, w')) :
    ∃ c, w.connection? p = some c ∧ c.register.1 = request ∧ c.register.2.1 = waiter ∧
      w'.brokers = (w.updateConnection p fun _ => c.register.2.2).brokers := by
  rw [register, Option.bind_eq_bind, Option.bind_eq_some_iff] at h
  obtain ⟨c, hc, hrest⟩ := h
  cases hrest
  exact ⟨c, hc, rfl, rfl, rfl⟩

lemma Follows.updateBroker {f : Broker → Broker} {marks : List Mark}
    (h : (w.broker b).Path marks (f (w.broker b)))
    (hmissing : w.brokers.size ≤ b → marks = []) :
    w.Follows (only b marks) (w.updateBroker b f) := by
  refine ⟨Array.size_modify, fun b' => ?_⟩
  rw [broker_updateBroker, only]
  by_cases hb : b' = b
  · subst hb
    rw [if_pos rfl]
    split
    · exact h
    · next hsize =>
      rw [hmissing (Nat.le_of_not_lt fun hlt => hsize ⟨rfl, hlt⟩)]
      exact .refl
  · rw [if_neg hb, if_neg fun h => hb h.1.symm]
    exact .refl

namespace Silent

lemma trans (h : w.Silent w') (h' : w'.Silent w'') : w.Silent w'' :=
  Follows.trans h h'

lemma of_brokers (h : w'.brokers = w.brokers) : w.Silent w' := by
  refine ⟨congrArg Array.size h, fun b => ?_⟩
  rw [broker_of_brokers h]
  exact .refl

lemma refl (w : World σ) : w.Silent w :=
  of_brokers rfl

lemma updateBroker {f : Broker → Broker} (h : (w.broker b).Path [] (f (w.broker b))) :
    w.Silent (w.updateBroker b f) := by
  have hf := Follows.updateBroker h fun _ => rfl
  rwa [only_nil] at hf

lemma move {f : Broker → Broker} (h : (w.broker b).Move [] (f (w.broker b))) :
    w.Silent (w.updateBroker b f) :=
  updateBroker h.path

lemma updateConnection {f : Connection → Connection}
    (hid : ∀ c, c.id = p.connection → (f c).id = p.connection)
    (hf : ∀ c, w.connection? p = some c → c.Change (f c)) :
    w.Silent (w.updateConnection p f) :=
  move (.change _ f hid hf)

lemma adjust {f : Connection → Connection} (hf : ∀ c : Connection, c.Change (f c)) :
    w.Silent (w.updateConnection p f) :=
  updateConnection (fun c hc => (hf c).stays.id.trans hc) fun c _ => hf c

lemma foldl {α : Type} {f : World σ → α → World σ} (hf : ∀ w a, Silent w (f w a)) (l : List α)
    (w : World σ) : w.Silent (l.foldl f w) := by
  induction l generalizing w with
  | nil => exact .refl w
  | cons a l ih => exact (hf w a).trans (ih _)

lemma of_ends (h : Ends p w w') : w.Silent w' := by
  induction h with
  | of_brokers h => exact of_brokers h
  | fail w e => exact adjust fun c => .fail e
  | part w => exact adjust fun c => .part
  | quit w s hs => exact adjust fun c => .quit s hs
  | remove hc hstate hreading =>
    have hremove := Broker.Move.remove (List.mem_of_find?_eq_some hc) hstate hreading
    rw [Broker.id_of_connection? hc] at hremove
    exact move hremove
  | trans _ _ ih ih' => exact ih.trans ih'

section Connections

variable (w : World σ) (p : Port)

lemma track : w.Silent (w.track p) :=
  adjust fun c => .aside c.reader c.nextRequest c.isBidirectional (c.outstanding + 1) c.isReleased

lemma untrack : w.Silent (w.untrack p) := by
  rw [World.untrack]
  split
  · exact .refl w
  · have hu : w.Silent (w.updateConnection p Connection.untrack) := adjust fun c =>
      .aside c.reader c.nextRequest c.isBidirectional (c.outstanding - 1) c.isReleased
    dsimp only
    split
    · exact hu.trans (of_brokers rfl)
    · exact hu

lemma send (m : Message) : w.Silent (w.send p m).2 :=
  of_brokers (brokers_send w p m)

lemma complete (request : UInt32) (r : Response) : w.Silent (w.complete p request r) := by
  rw [World.complete]
  split
  · exact .refl w
  · exact trans (adjust fun c => .complete request r) (of_brokers rfl)

lemma finish (exit : Connection.Exit) : w.Silent (w.finish p exit) :=
  of_ends (.finish w exit)

lemma goodbye : w.Silent (w.goodbye p) :=
  of_ends (.goodbye w)

lemma readNext (c : Connection) : w.Silent (w.readNext p c).2 :=
  (of_brokers (brokers_setPipe w _ _)).trans (adjust fun d =>
    .aside _ d.nextRequest d.isBidirectional d.outstanding d.isReleased)

/-- A caller gets a place if its message can be written, and otherwise leaves no trace but the
numbers it took. -/
lemma sendTracked (message : UInt32 → Message) : w.Silent (w.sendTracked p message).2 := by
  rw [World.sendTracked]
  split
  · exact .refl w
  · next request waiter w₁ hregister =>
    refine (track w p).trans ?_
    obtain ⟨c, hc, hrequest, -, hbrokers⟩ := register_eq_some hregister
    let v := (w.track p).updateConnection p fun _ => c.register.2.2
    have hid : c.register.2.2.id = p.connection :=
      c.stays_register.id.trans (Broker.id_of_connection? hc)
    have hfound : w₁.connection? p = some c.register.2.2 := by
      rw [connection?, broker_of_brokers hbrokers, ← connection?,
        connection?_updateConnection (f := fun _ => c.register.2.2) _ fun _ _ => hid, hc]
      rfl
    have hsent := brokers_sendOpen w₁ p (message request)
    rcases hs : w₁.sendOpen p (message request) with ⟨result, w₂⟩
    rw [hs] at hsent
    cases result with
    | ok _ =>
      have hopen : c.checkOpen = .ok () := by
        refine Connection.checkOpen_of_state c.stays_register_state ?_
        cases ho : c.register.2.2.checkOpen with
        | ok _ => rfl
        | error e =>
          rw [sendOpen, hfound, Option.map_some, ho] at hs
          cases hs
      have hplaced : (w.track p).Silent v := by
        refine updateConnection (fun _ _ => hid) fun d hd => ?_
        obtain rfl : c = d := Option.some.inj (hc.symm.trans hd)
        exact .place hopen
      exact hplaced.trans (of_brokers (hsent.trans hbrokers))
    | error e =>
      refine trans ?_ (untrack _ p)
      have hrefused : (w.track p).Silent ((w.track p).updateConnection p
          fun _ => c.register.2.2.forget c.register.1) := by
        refine updateConnection (fun _ _ => hid) fun d hd => ?_
        obtain rfl : c = d := Option.some.inj (hc.symm.trans hd)
        exact .refuse
      have hsame : (w₂.updateConnection p (·.forget request)).brokers =
          (v.updateConnection p (·.forget request)).brokers := by
        have hbefore : w₂.brokers = v.brokers := hsent.trans hbrokers
        rw [World.updateConnection, World.updateBroker, hbefore]
        rfl
      refine ⟨?_, fun b => ?_⟩
      · rw [hsame]
        exact Array.size_modify.trans Array.size_modify
      · rw [broker_of_brokers hsame, broker_updateConnection_twice _ fun _ _ => hid, ← hrequest]
        exact hrefused.path b

lemma sendOneway (r : Request) : w.Silent (w.sendOneway p r).2 := by
  rw [World.sendOneway]
  split
  · exact .refl w
  · next c hc =>
    split
    · exact .refl w
    · have hid : c.id = p.connection := Broker.id_of_connection? hc
      have hnumbered : w.Silent (w.updateConnection p fun _ => c.takeRequestId.2) := by
        refine updateConnection (fun _ _ => hid) fun d hd => ?_
        obtain rfl : c = d := Option.some.inj (hc.symm.trans hd)
        exact .aside c.reader (c.nextRequest + 2) c.isBidirectional c.outstanding c.isReleased
      have hsent := (hnumbered.trans (track _ p)).trans (send _ p (.request
        { r with id := c.takeRequestId.1, responseExpected := false }))
      dsimp only
      split
      · next hs =>
        rw [hs] at hsent
        exact hsent
      · next hs =>
        rw [hs] at hsent
        exact hsent.trans (untrack _ p)

lemma begin : w.Silent (Closing.begin w p).2 := by
  rw [Closing.begin]
  split
  · exact .refl w
  · next d hd =>
    obtain ⟨c, hc, hclose⟩ := Option.bind_eq_some_iff.mp hd
    have hchange : c.Change d := .beginClose hclose
    refine updateConnection (fun _ _ => hchange.stays.id.trans (Broker.id_of_connection? hc))
      fun c' hc' => ?_
    obtain rfl : c = c' := Option.some.inj (hc.symm.trans hc')
    exact hchange

end Connections

lemma start (drain : Bool) (ports : List Port) (state : List Port × World σ) :
    state.2.Silent (ports.foldl (Closing.start drain) state).2 := by
  induction ports generalizing state with
  | nil => exact .refl _
  | cons p ports ih =>
    refine trans ?_ (ih _)
    obtain ⟨waiting, w⟩ := state
    have hbegin := begin w p
    rw [Closing.start]
    rcases hb : Closing.begin w p with ⟨isFirst, w'⟩
    rw [hb] at hbegin
    cases isFirst with
    | false => exact hbegin
    | true =>
      dsimp only
      split
      · exact hbegin
      · exact hbegin.trans (goodbye w' p)

lemma stop (w : World σ) (b : BrokerId) : w.Silent (w.updateBroker b Closing.stop) :=
  move (.stop _)

lemma calm (h : w.Calm w') : w.Silent w' := by
  induction h with
  | of_brokers h => exact of_brokers h
  | count w b f => exact move (.aside _ _ _ _ _)
  | untrack w p => exact untrack w p
  | trans _ _ ih ih' => exact ih.trans ih'

lemma collect [Servant σ] (w : World σ) : w.Silent w.collect := by
  have hretire : ∀ (w : World σ) b, w.Silent (w.retire b) := fun w b => move (.aside _ _ _ _ _)
  have hunheld : ∀ (rounds : Nat) (w : World σ), w.Silent (w.retireUnheld rounds) := by
    intro rounds
    induction rounds with
    | zero => exact refl
    | succ rounds ih =>
      intro w
      rw [retireUnheld]
      split
      · exact .refl w
      · exact (foldl hretire _ w).trans (ih _)
  have hrelease : ∀ b (w : World σ) c, w.Silent (releaseStream b w c) := by
    intro b w c
    have hreleased : w.Silent (w.updateConnection { broker := b, connection := c.id }
        ({ · with isReleased := true })) :=
      adjust fun c => .aside c.reader c.nextRequest c.isBidirectional c.outstanding true
    refine hreleased.trans (of_brokers ?_)
    rw [releaseStream]
    simp only [brokers_closePipe]
  have hstreams : ∀ (w : World σ) b, w.Silent (w.releaseStreams b) := fun w b =>
    foldl (hrelease b) (w.unheldConnections b) w
  have hall := foldl hstreams (List.range w.brokers.size) (w.retireUnheld w.brokers.size)
  exact (hunheld w.brokers.size w).trans hall

end Silent

lemma follows_removeUnused (w : World σ) (b : BrokerId) :
    w.Follows (only b ((w.broker b).unused.map fun c => .retire c.id))
      (w.updateBroker b fun broker =>
        (w.broker b).unused.foldl (fun b c => b.remove c.id) broker) := by
  have hremove : ∀ (cs : List Connection) (broker : Broker),
      (∀ c ∈ cs, c ∈ broker.connections ∧ c.role = .initiator) →
      broker.Path (cs.map fun c => .retire c.id) (cs.foldl (fun b c => b.remove c.id) broker) := by
    intro cs
    induction cs with
    | nil => exact fun broker _ => .refl
    | cons c cs ih =>
      intro broker h
      obtain ⟨hc, hrole⟩ := h c List.mem_cons_self
      refine (Move.retire hc hrole).path.trans (ih (broker.remove c.id) fun c' hc' => ?_)
      rw [Broker.connections_remove]
      exact h c' (List.mem_cons_of_mem _ hc')
  refine .updateBroker (hremove _ _ fun c hc => ?_) fun hsize => ?_
  · obtain ⟨hlisted, hunused⟩ := List.mem_filter.mp hc
    simp only [Bool.and_eq_true, beq_iff_eq] at hunused
    exact ⟨List.mem_reverse.mp (List.mem_filter.mp hlisted).1, hunused.1.1.1⟩
  · rw [broker, Array.getElem?_eq_none hsize]
    rfl

def Quiet (w w' : World σ) : Prop :=
  ∃ marks, (∀ b, Broker.claims (marks b) = []) ∧ w.Follows marks w'

namespace Quiet

lemma of_silent (h : w.Silent w') : w.Quiet w' :=
  ⟨_, fun _ => rfl, h⟩

lemma trans (h : w.Quiet w') (h' : w'.Quiet w'') : w.Quiet w'' := by
  obtain ⟨marks, hm, h⟩ := h
  obtain ⟨more, hm', h'⟩ := h'
  refine ⟨_, fun b => ?_, h.trans h'⟩
  rw [Broker.claims_append, hm, hm', List.append_nil]

lemma of_only {marks : List Mark} (hm : Broker.claims marks = [])
    (h : w.Follows (only b marks) w') : w.Quiet w' := by
  refine ⟨_, fun b' => ?_, h⟩
  rw [only]
  split
  · exact hm
  · rfl

lemma removeUnused (w : World σ) (b : BrokerId) :
    w.Quiet (w.updateBroker b fun broker =>
      (w.broker b).unused.foldl (fun b c => b.remove c.id) broker) := by
  refine of_only ?_ (follows_removeUnused w b)
  induction (w.broker b).unused with
  | nil => rfl
  | cons c cs ih => exact ih

end Quiet

section Leaving

variable (w : World σ) (p : Port)

lemma follows_forget (hsize : p.broker < w.brokers.size) (request : UInt32) :
    w.Follows (only p.broker [.abandon p.connection request])
      (w.updateConnection p (·.forget request)) :=
  .updateBroker (Move.abandon _ _ request).path fun h => absurd hsize (Nat.not_lt.mpr h)

lemma follows_takeResponse {c : Connection} (hc : w.connection? p = some c) {waiter : WaiterId}
    {r : Response} (hr : c.response? waiter = some r) :
    w.Follows (only p.broker [.collect p.connection waiter]) (w.takeResponse p waiter).2 := by
  have hleft : w.Follows (only p.broker [.collect p.connection waiter])
      (w.updateConnection p (·.takeResponse waiter)) :=
    .updateBroker (Move.collect _ _ waiter).path fun h =>
      absurd (lt_size_of_connection? hc) (Nat.not_lt.mpr h)
  have htake : w.takeResponse p waiter =
      (r, (w.updateConnection p (·.takeResponse waiter)).untrack p) := by
    rw [takeResponse, hc, Option.bind_some, hr]
  rw [htake]
  exact hleft.silent (.untrack _ p)

lemma Quiet.forget (request : UInt32) : w.Quiet (w.updateConnection p (·.forget request)) := by
  by_cases hsize : p.broker < w.brokers.size
  · exact .of_only rfl (follows_forget w p hsize request)
  · have hsame : w.Silent (w.updateConnection p (·.forget request)) := by
      refine ⟨Array.size_modify, fun b => ?_⟩
      have hb : ¬ (p.broker = b ∧ b < w.brokers.size) := fun h => hsize (h.1 ▸ h.2)
      rw [World.updateConnection, broker_updateBroker, if_neg hb]
      exact .refl
    exact .of_silent hsame

lemma Quiet.abandon (request : UInt32) : w.Quiet (w.abandon p request) :=
  (Quiet.forget w p request).trans (.of_silent (.send _ p (.cancelRequest request)))

lemma Quiet.retract (request : UInt32) (waiter : WaiterId) :
    w.Quiet (w.retract p request waiter) := by
  rw [World.retract]
  split
  · exact .of_silent (.refl w)
  · split
    · exact .of_silent (.untrack w p)
    · split
      · exact (Quiet.forget w p request).trans (.of_silent (.untrack _ p))
      · exact .of_silent ((Silent.complete w p request _).trans (.untrack _ p))

lemma Quiet.takeResponse (waiter : WaiterId) : w.Quiet (w.takeResponse p waiter).2 := by
  cases hc : w.connection? p with
  | none =>
    rw [World.takeResponse, hc]
    exact .of_silent (.refl w)
  | some c =>
    cases hr : c.response? waiter with
    | some r => exact .of_only rfl (follows_takeResponse w p hc hr)
    | none =>
      rw [World.takeResponse, hc, Option.bind_some, hr]
      exact .of_silent (.refl w)

end Leaving

section Receiving

/-- The requests that are taken up while messages are received, each with the role that the
connection has. -/
def requestsUpTo (w : World σ) (p : Port) : (messages : Nat) → List (Role × Request)
  | 0 => []
  | n + 1 =>
    match w.connection? p with
    | none => []
    | some c =>
      if !c.isReading then []
      else match w.readNext p c with
        | (.done (m, order), w) =>
          match w.handle p c order m with
          | (w, none) => m.request?.toList.map (c.role, ·) ++ w.requestsUpTo p n
          | (_, some _) => []
        | _ => []

def requests (w : World σ) (p : Port) : List (Role × Request) :=
  match w.connection? p with
  | none => []
  | some c =>
    match c.readerState with
    | .reading => w.requestsUpTo p (c.reader.available (w.inlet c) + 1)
    | _ => []

lemma follows_acceptRequest {c d : Connection} (hd : w.connection? p = some d)
    (hid : c.id = p.connection) (hrole : d.role = c.role) (hreading : d.isReading = true)
    (r : Request) (order : ByteOrder) :
    w.Follows (only p.broker (r.claims (w.broker p.broker).config.acceptBidirectional d.role
      p.connection)) (w.acceptRequest p c r order) := by
  have hoffer : w.Follows (only p.broker (r.claims
      (w.broker p.broker).config.acceptBidirectional d.role p.connection))
      (w.updateBroker p.broker fun b => b.takeOffer c r.contexts) := by
    refine .updateBroker ?_ fun h => absurd (lt_size_of_connection? hd) (Nat.not_lt.mpr h)
    rw [Broker.takeOffer, Request.claims, Request.offered, hid, hrole]
    by_cases hc : c.role = .acceptor
    · rw [if_pos hc]
      rcases Bidirectional.find r.contexts with e | _ | points
      · simpa using .refl
      · simpa using .refl
      · by_cases ha : (w.broker p.broker).config.acceptBidirectional = true
        · rw [if_pos ⟨ha, hc⟩]
          exact (Move.register points ha hd (hrole.trans hc) hreading).path
        · have hsame : (w.broker p.broker).registerPoints p.connection points =
              w.broker p.broker := by
            rw [Broker.registerPoints, Bool.eq_false_iff.mpr ha]
            rfl
          rw [if_neg fun h => ha h.1]
          dsimp only
          rw [hsame]
          exact .refl
    · rw [if_neg hc, if_neg fun h => hc h.2]
      exact .refl
  exact hoffer.silent ((Silent.track _ p).trans (.of_brokers rfl))

lemma eq_of_handle {c : Connection} {order : ByteOrder} {m : Message} {exit : Connection.Exit}
    (h : w.handle p c order m = (w', some exit)) : w' = w := by
  cases m with
  | request r =>
    rw [handle] at h
    split at h
    · cases h
    · cases h
      rfl
  | _ =>
    cases h
    try rfl

lemma follows_handle {c d : Connection} (hd : w.connection? p = some d)
    (hid : c.id = p.connection) (hrole : d.role = c.role) (hreading : d.isReading = true)
    {order : ByteOrder} {m : Message} (h : w.handle p c order m = (w', none)) :
    w.Follows (only p.broker (m.request?.toList.flatMap fun r =>
      r.claims (w.broker p.broker).config.acceptBidirectional c.role p.connection)) w' := by
  cases m with
  | request r =>
    rw [handle] at h
    split at h
    · cases h
      have haccept := follows_acceptRequest hd hid hrole hreading r order
      rw [hrole] at haccept
      simpa [Message.request?] using haccept
    · cases h
  | reply r =>
    cases h
    exact (Silent.complete w p r.id _).only _
  | locateReply id status =>
    cases h
    exact (Silent.complete w p id _).only _
  | locateRequest id key =>
    cases h
    have hsame : w.Silent ((w.hold (.connection p)).emit
        (.started (.answerLocate p id (w.locate p.broker key)))) := .of_brokers rfl
    exact hsame.only _
  | cancelRequest id =>
    cases h
    exact (Silent.refl w).only _
  | closeConnection | messageError | fragment => cases h

lemma connection?_readNext {c : Connection} (hc : w.connection? p = some c) :
    (w.readNext p c).2.connection? p =
      some { c with reader := (c.reader.readMessage (w.inlet c)).2.1 } := by
  rw [readNext]
  dsimp only
  rw [connection?_updateConnection]
  · exact congrArg (Option.map _) hc
  · exact fun _ h => h

lemma follows_receiveUpTo (w : World σ) (p : Port) (n : Nat) :
    w.Follows (only p.broker ((w.requestsUpTo p n).flatMap fun r =>
      r.2.claims (w.broker p.broker).config.acceptBidirectional r.1 p.connection))
      (w.receiveUpTo p n) := by
  induction n generalizing w with
  | zero => exact (Silent.refl w).only _
  | succ n ih =>
    rw [receiveUpTo, requestsUpTo]
    cases hc : w.connection? p with
    | none => exact (Silent.refl w).only _
    | some c =>
      dsimp only
      cases hreading : c.isReading with
      | false => exact (Silent.refl w).only _
      | true =>
        have hread := Silent.readNext w p c
        have hd := connection?_readNext hc
        rcases hnext : w.readNext p c with ⟨result, v⟩
        rw [hnext] at hread hd
        cases result with
        | waiting => exact hread.only _
        | failed e => exact (hread.trans (.finish v p _)).only _
        | done message =>
          obtain ⟨m, order⟩ := message
          simp only [Bool.not_true, Bool.false_eq_true, if_false]
          rcases hhandle : v.handle p c order m with ⟨v', exit⟩
          cases exit with
          | some exit =>
            obtain rfl := eq_of_handle hhandle
            exact (hread.trans (.finish v' p exit)).only _
          | none =>
            have htaken := follows_handle hd (Broker.id_of_connection? hc) rfl hreading hhandle
            have hconfig : (v.broker p.broker).config = (w.broker p.broker).config :=
              (hread.path p.broker).config
            have hconfig' : (v'.broker p.broker).config = (v.broker p.broker).config :=
              (htaken.path p.broker).config
            have hrest := ih v'
            rw [hconfig', hconfig] at hrest
            rw [hconfig] at htaken
            dsimp only
            rw [List.flatMap_append, only_append, List.flatMap_map]
            exact hread.follows (htaken.trans hrest)

lemma follows_receive (w : World σ) (p : Port) :
    w.Follows (only p.broker ((w.requests p).flatMap fun r =>
      r.2.claims (w.broker p.broker).config.acceptBidirectional r.1 p.connection))
      (w.receive p) := by
  rw [receive, requests]
  cases w.connection? p with
  | none => exact (Silent.refl w).only _
  | some c =>
    dsimp only
    cases c.readerState with
    | reading => exact follows_receiveUpTo w p _
    | stopping => exact (Silent.adjust fun c => .quit .gone (by decide)).only _
    | finishing | gone => exact (Silent.refl w).only _

lemma follows_attach {role : Role} {peer : Endpoint} {inbound outbound : Nat}
    (h : w.attach b role peer inbound outbound = .ok (p, w')) :
    w.Follows (only p.broker (if role = .initiator then [.claim peer p.connection] else [])) w' := by
  obtain ⟨rfl, hb, hrun⟩ := attach_eq_ok h
  have hadopt : w.Follows (only b (if role = .initiator then
      [.claim peer ((w.broker b).lastConnection + 1)] else []))
      (w.updateBroker b fun _ => ((w.broker b).adopt role peer inbound outbound).2) := by
    exact .updateBroker (Move.adopt role peer inbound outbound hrun).path fun hsize =>
      absurd (lt_size_of_isRunning hrun) (Nat.not_lt.mpr hsize)
  exact hadopt.silent (.of_brokers hb)

end Receiving

end World

end ObjectBroker
