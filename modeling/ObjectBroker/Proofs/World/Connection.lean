import Mathlib.Data.List.Basic
import ObjectBroker.Invocation

/-!
What the operations of a world do to one of its connections. Streams, holds and events stand
beside the brokers; an operation that leaves the brokers alone leaves every connection alone.
-/

namespace ObjectBroker

namespace World

variable {σ : Type}

section Brokers

variable (w : World σ) (p : Port) (n : Nat)

@[simp] lemma brokers_setPipe (q : Pipe) : (w.setPipe n q).brokers = w.brokers := rfl

@[simp] lemma brokers_notifyWaiters (waiters : List WaiterId) :
    (w.notifyWaiters p waiters).brokers = w.brokers := rfl

@[simp] lemma brokers_notifyReader : (w.notifyReader n).brokers = w.brokers := by
  unfold notifyReader
  split <;> rfl

@[simp] lemma brokers_emit (e : Event) : (w.emit e).brokers = w.brokers := rfl

@[simp] lemma brokers_closePipe : (w.closePipe n).brokers = w.brokers := by
  simp [closePipe]

@[simp] lemma brokers_writePipe (chunks : List Octets) :
    (w.writePipe n chunks).2.brokers = w.brokers := by
  unfold writePipe
  dsimp only
  split <;> simp

@[simp] lemma brokers_send (m : Message) : (w.send p m).2.brokers = w.brokers := by
  unfold send
  split
  · rfl
  · split
    · rfl
    · simp

@[simp] lemma brokers_sendOpen (m : Message) : (w.sendOpen p m).2.brokers = w.brokers := by
  unfold sendOpen
  split
  · rfl
  · simp

@[simp] lemma brokers_shutWriter : (w.shutWriter p).brokers = w.brokers := by
  unfold shutWriter
  split <;> simp

@[simp] lemma brokers_report (exit : Connection.Exit) : (w.report p exit).brokers = w.brokers := by
  unfold report
  split <;> simp

end Brokers

lemma broker_of_brokers {w w' : World σ} (h : w'.brokers = w.brokers) (b : BrokerId) :
    w'.broker b = w.broker b := by
  rw [broker, h, broker]

/-- At a port there is this connection, of a broker that somebody holds. -/
structure Has (w : World σ) (p : Port) (c : Connection) : Prop where
  found : w.connection? p = some c
  alive : (w.broker p.broker).isAlive = true

namespace Has

variable {w w' : World σ} {p : Port} {c : Connection}

lemma id_eq (h : w.Has p c) : c.id = p.connection := by
  have hc := List.find?_some h.found
  simpa using hc

lemma lt_size (h : w.Has p c) : p.broker < w.brokers.size := by
  by_contra hb
  have hn : w.broker p.broker = default := by
    rw [broker, Array.getElem?_eq_none (Nat.le_of_not_lt hb)]
    rfl
  have hf := h.found
  rw [connection?, hn] at hf
  cases hf

lemma of_brokers (h : w.Has p c) (hb : w'.brokers = w.brokers) : w'.Has p c := by
  have hbroker := broker_of_brokers hb p.broker
  refine ⟨?_, ?_⟩
  · rw [connection?, hbroker]
    exact h.found
  · rw [hbroker]
    exact h.alive

lemma unique (h : w.Has p c) {c' : Connection} (h' : w.connection? p = some c') : c = c' :=
  Option.some.inj (h.found.symm.trans h')

lemma updateBroker (h : w.Has p c) {f : Broker → Broker} {c' : Connection}
    (hc : (f (w.broker p.broker)).connection? p.connection = some c')
    (hg : (f (w.broker p.broker)).isGone = (w.broker p.broker).isGone) :
    (w.updateBroker p.broker f).Has p c' := by
  have hb : (w.updateBroker p.broker f).broker p.broker = f (w.broker p.broker) := by
    have hs := h.lt_size
    simp [World.updateBroker, broker, Array.getElem?_modify, Array.getElem?_eq_getElem hs]
  refine ⟨?_, ?_⟩
  · rw [connection?, hb]
    exact hc
  · rw [hb, Broker.isAlive, hg]
    exact h.alive

end Has

end World

lemma Broker.id_of_connection? {b : Broker} {id : Nat} {c : Connection}
    (h : b.connection? id = some c) : c.id = id := by
  simpa using List.find?_some h

lemma Broker.connection?_update {b : Broker} {id : Nat} {c : Connection}
    (h : b.connection? id = some c) {f : Connection → Connection} (hf : (f c).id = c.id) :
    (b.update id f).connection? id = some (f c) := by
  obtain ⟨hc, front, back, hl, hfront⟩ := List.find?_eq_some_iff_append.mp h
  have hid : c.id = id := by simpa using hc
  have hmap : front.map (fun c => if c.id = id then f c else c) = front := by
    refine (List.map_congr_left ?_).trans (List.map_id front)
    intro a ha
    have hne : ¬ a.id = id := by simpa using hfront a ha
    exact if_neg hne
  rw [connection?, update, hl, List.map_append, hmap, List.map_cons, if_pos hid]
  exact List.find?_eq_some_iff_append.mpr ⟨by simpa [hf] using hid, front, _, rfl, hfront⟩

lemma Broker.connections_remove (b : Broker) (id : Nat) :
    (b.remove id).connections = b.connections := by
  rw [Broker.remove]
  split <;> rfl

lemma Broker.connection?_remove {b : Broker} {id : Nat} {c : Connection}
    (h : b.connection? id = some c) (n : Nat) : (b.remove n).connection? id = some c := by
  unfold remove
  split <;> exact h

lemma Broker.isGone_remove (b : Broker) (n : Nat) : (b.remove n).isGone = b.isGone := by
  unfold remove
  split <;> rfl

lemma Broker.foldl_registerPoint (b : Broker) (id : Nat) (points : List Endpoint) :
    ∃ routes stats, points.foldl (registerPoint id) b = { b with routes, stats } := by
  induction points generalizing b with
  | nil => exact ⟨b.routes, b.stats, rfl⟩
  | cons e points ih =>
    obtain ⟨routes, stats, h⟩ := ih (registerPoint id b e)
    refine ⟨routes, stats, ?_⟩
    rw [List.foldl_cons, h, registerPoint]
    split <;> rfl

lemma Broker.isGone_takeOffer (b : Broker) (c : Connection) (contexts : List ServiceContext) :
    (b.takeOffer c contexts).isGone = b.isGone := by
  unfold takeOffer registerPoints
  split
  · split
    · split
      · rfl
      · next points _ _ =>
        obtain ⟨routes, stats, hb⟩ := foldl_registerPoint b c.id points
        rw [hb]
        rfl
    · rfl
  · rfl

lemma Broker.connection?_takeOffer {b : Broker} {id : Nat} {c : Connection}
    (h : b.connection? id = some c) {c' : Connection} (hi : c'.id = id)
    (contexts : List ServiceContext) :
    ∃ flag, (b.takeOffer c' contexts).connection? id = some { c with isBidirectional := flag } := by
  have hsame : ∃ flag, b.connection? id = some { c with isBidirectional := flag } :=
    ⟨c.isBidirectional, h⟩
  unfold takeOffer registerPoints
  split
  · split
    · split
      · exact hsame
      · rename_i points _ _
        rw [hi]
        obtain ⟨routes, stats, hb⟩ := foldl_registerPoint b id points
        refine ⟨true, connection?_update ?_ rfl⟩
        rw [hb]
        exact h
    · exact hsame
  · exact hsame

namespace Connection

variable (c : Connection)

lemma id_setState (s : ConnectionState) : (c.setState s).id = c.id := by
  unfold setState
  split <;> rfl

lemma state_setState_closed : (c.setState .closed).state = .closed := by
  unfold setState
  split
  · rfl
  · next hr =>
    cases hs : c.state with
    | closed => rfl
    | _ => exact absurd (by rw [hs]; decide) hr

lemma setState_of_closed {c : Connection} (h : c.state = .closed) : c.setState .closed = c := by
  rw [setState, h]
  rfl

lemma id_quit (s : ReaderState) : (c.quit s).id = c.id :=
  id_setState c .closed

lemma exitError_leave (exit : Exit) : c.leave.exitError exit = c.exitError exit := by
  have hpeer : c.leave.peer = c.peer := by
    unfold leave quit setState
    split <;> rfl
  cases exit <;> simp only [exitError, hpeer]

/-- The connection when its reader has come to an end. -/
def finished (exit : Exit) (isBusy : Bool) : Connection :=
  if isBusy then if exit.isViolation then c.leave else c.leave.failPending (c.exitError exit)
  else (c.leave.failPending (c.exitError exit)).depart

def parted : Connection :=
  (c.setState .closed).stopReading

lemma id_stopReading : c.stopReading.id = c.id := by
  unfold stopReading
  split <;> rfl

lemma id_parted : c.parted.id = c.id := by
  rw [parted, id_stopReading, id_setState]

lemma id_register : c.register.2.2.id = c.id := by
  unfold register
  dsimp only
  split <;> rfl

lemma forget_of_lookup_none {c : Connection} {request : UInt32}
    (h : c.pending.lookup request = none) : c.forget request = c := by
  have hall : c.pending.filter (·.1 != request) = c.pending :=
    List.filter_eq_self.mpr fun entry he => by
      rw [bne_comm]
      exact List.lookup_eq_none_iff.mp h entry he
  rw [forget, hall]

lemma forget_complete (request : UInt32) (r : Response) :
    (c.complete request r).forget request = c.complete request r := by
  rw [complete]
  cases hl : c.pending.lookup request with
  | none => exact forget_of_lookup_none hl
  | some waiter => simp [forget, respond, List.filter_filter]

lemma response?_failPending {request : UInt32} {waiter : WaiterId}
    (h : (request, waiter) ∈ c.pending) (e : BrokerError) :
    (c.failPending e).response? waiter = some (.error e) := by
  have hlookup : ∀ l : List (UInt32 × WaiterId), (request, waiter) ∈ l →
      List.lookup waiter (l.map (fun place => (place.2, (.error e : Response))) ++ c.responses) =
        some (.error e) := by
    intro l hl
    induction l with
    | nil => cases hl
    | cons entry l ih =>
      rw [List.map_cons, List.cons_append, List.lookup_cons]
      by_cases hw : waiter = entry.2
      · rw [beq_iff_eq.mpr hw]
      · rw [beq_eq_false_iff_ne.mpr hw]
        refine ih ((List.mem_cons.mp hl).resolve_left ?_)
        rintro rfl
        exact hw rfl
  exact hlookup c.pending h

end Connection

namespace World.Has

variable {σ : Type} {w : World σ} {p : Port} {c : Connection}

lemma update (h : w.Has p c) {f : Connection → Connection} (hf : (f c).id = c.id) :
    (w.updateConnection p f).Has p (f c) :=
  h.updateBroker (Broker.connection?_update h.found hf) rfl

lemma track (h : w.Has p c) : (w.track p).Has p c.track :=
  h.update rfl

lemma untrack (h : w.Has p c) : (w.untrack p).Has p c.untrack := by
  have hu : (w.updateConnection p Connection.untrack).Has p c.untrack := h.update rfl
  rw [World.untrack, h.found]
  dsimp only
  split
  · exact hu.of_brokers rfl
  · exact hu

lemma send (h : w.Has p c) (m : Message) : (w.send p m).2.Has p c :=
  h.of_brokers (brokers_send w p m)

lemma forget (h : w.Has p c) (request : UInt32) :
    (w.updateConnection p (·.forget request)).Has p (c.forget request) :=
  h.update rfl

lemma complete (h : w.Has p c) (request : UInt32) (r : Response) :
    (w.complete p request r).Has p (c.complete request r) := by
  rw [World.complete, h.found, Option.bind_some]
  cases hl : c.pending.lookup request with
  | none =>
    rw [Connection.complete, hl]
    exact h
  | some waiter =>
    refine of_brokers (h.update (f := (·.complete request r)) ?_) rfl
    rw [Connection.complete, hl]
    rfl

lemma failPending (h : w.Has p c) (e : BrokerError) :
    (w.failPending p e).Has p (c.failPending e) := by
  rw [World.failPending, h.found]
  exact (h.update (f := (·.failPending e)) rfl).of_brokers rfl

lemma shutWriter (h : w.Has p c) : (w.shutWriter p).Has p c :=
  h.of_brokers (brokers_shutWriter w p)

lemma tell (h : w.Has p c) (exit : Connection.Exit) :
    (w.tell p exit).Has p (c.failPending (c.exitError exit)) := by
  rw [World.tell, h.found]
  exact (h.of_brokers (brokers_report w p exit)).failPending _

lemma discard (h : w.Has p c) : (w.discard p).Has p c := by
  rw [World.discard, if_pos h.alive]
  exact h.updateBroker (Broker.connection?_remove h.found _) (Broker.isGone_remove _ _)

lemma shut (h : w.Has p c) : (w.shut p).Has p c.depart :=
  (h.update (f := Connection.depart) (c.id_quit .gone)).shutWriter.discard

lemma leave (h : w.Has p c) : (w.updateConnection p Connection.leave).Has p c.leave :=
  h.update (c.id_quit .finishing)

lemma finish (h : w.Has p c) (exit : Connection.Exit) :
    (w.finish p exit).Has p (c.finished exit (w.pipe c.outbound).isFull) := by
  have htold := h.leave.tell exit
  rw [Connection.exitError_leave] at htold
  rw [World.finish, h.found]
  dsimp only
  rw [Connection.finished]
  split
  · split
    · exact h.leave.of_brokers rfl
    · exact htold.of_brokers rfl
  · exact htold.shut

lemma finishLate (h : w.Has p c) (hc : c.readerState = .finishing) (exit : Connection.Exit) :
    (w.finishLate p exit).Has p
      (if exit.isViolation then c.failPending (c.exitError exit) else c).depart := by
  rw [World.finishLate, h.found]
  dsimp only
  rw [if_pos hc]
  split
  · exact (h.tell exit).shut
  · exact h.shut

lemma part (h : w.Has p c) (isFree : Bool) : (w.part p isFree).Has p c.parted := by
  have hlast : ∀ w' : World σ, w'.Has p c →
      ((w'.updateConnection p fun c => (c.setState .closed).stopReading).emit (.readable p)).Has p
        c.parted :=
    fun w' h' => (h'.update (f := Connection.parted) (Connection.id_parted c)).of_brokers rfl
  rw [World.part]
  cases isFree with
  | false => exact hlast w h
  | true =>
    have hsent := h.send .closeConnection
    cases hs : w.send p .closeConnection with
    | mk result w' =>
      rw [hs] at hsent
      cases result with
      | ok _ => exact hlast _ hsent.shutWriter
      | error _ => exact hlast _ hsent

lemma goodbye (h : w.Has p c) :
    (w.goodbye p).Has p (if (w.pipe c.outbound).isFull then c.failPending c.shutDownError
      else (c.failPending c.shutDownError).parted) := by
  have hfailed := h.failPending c.shutDownError
  rw [World.goodbye, h.found]
  dsimp only
  split
  · exact hfailed
  · exact hfailed.part true

lemma register (h : w.Has p c) :
    ∃ w' : World σ, w.register p = some (c.register.1, c.register.2.1, w') ∧
      w'.Has p c.register.2.2 := by
  have hu : (w.updateConnection p fun _ => c.register.2.2).Has p c.register.2.2 :=
    h.update (f := fun _ => c.register.2.2) (Connection.id_register c)
  refine ⟨(w.updateConnection p fun _ => c.register.2.2).notifyWaiters p
    (c.pending.lookup c.register.1).toList, ?_, hu.of_brokers rfl⟩
  rw [World.register, h.found]
  rfl

lemma withdraw (h : w.Has p c) (request : UInt32) :
    (w.withdraw p request).Has p (c.forget request).untrack :=
  (h.forget request).untrack

lemma retract_own (h : w.Has p c) {request : UInt32} {waiter : WaiterId}
    (hown : ∀ x ∈ c.pending.lookup request, x = waiter) :
    (w.retract p request waiter).Has p (c.forget request).untrack := by
  rw [World.retract, h.found]
  dsimp only
  cases hl : c.pending.lookup request with
  | none =>
    rw [Connection.forget_of_lookup_none hl]
    exact h.untrack
  | some other =>
    obtain rfl := hown other hl
    dsimp only
    rw [if_pos rfl]
    exact h.withdraw request

lemma retract_other (h : w.Has p c) {request : UInt32} {waiter other : WaiterId}
    (hl : c.pending.lookup request = some other) (hne : other ≠ waiter) :
    (w.retract p request waiter).Has p
      (c.complete request (.error (c.dropped request))).untrack := by
  rw [World.retract, h.found]
  dsimp only
  rw [hl]
  dsimp only
  rw [if_neg hne]
  exact (h.complete request _).untrack

lemma sendOneway (h : w.Has p c) (ho : c.checkOpen = .ok ()) (r : Request) :
    (∃ e w', w.sendOneway p r = (.error e, w') ∧ w'.Has p c.takeRequestId.2.track.untrack) ∨
      ∃ w', w.sendOneway p r = (.ok (), w') ∧ w'.Has p c.takeRequestId.2.track := by
  have hnumbered : (w.updateConnection p fun _ => c.takeRequestId.2).Has p c.takeRequestId.2 :=
    h.update (f := fun _ => c.takeRequestId.2) rfl
  have hsent := hnumbered.track.send (.request { r with id := c.nextRequest, responseExpected := false })
  rw [World.sendOneway, h.found]
  dsimp only
  rw [ho]
  dsimp only [Connection.takeRequestId] at hsent ⊢
  rcases hs : World.send _ p _ with ⟨_ | _, w'⟩
  · rw [hs] at hsent
    exact .inl ⟨_, _, rfl, hsent.untrack⟩
  · rw [hs] at hsent
    exact .inr ⟨_, rfl, hsent⟩

lemma abandon (h : w.Has p c) (request : UInt32) :
    (w.abandon p request).Has p (c.forget request) :=
  (h.forget request).send (.cancelRequest request)

lemma takeResponse (h : w.Has p c) {waiter : WaiterId} {r : Response}
    (hr : c.response? waiter = some r) :
    w.takeResponse p waiter =
        (r, (w.updateConnection p (·.takeResponse waiter)).untrack p) ∧
      (w.takeResponse p waiter).2.Has p (c.takeResponse waiter).untrack := by
  have ht : w.takeResponse p waiter =
      (r, (w.updateConnection p (·.takeResponse waiter)).untrack p) := by
    rw [World.takeResponse, h.found, Option.bind_some, hr]
  refine ⟨ht, ?_⟩
  rw [ht]
  exact (h.update (f := (·.takeResponse waiter)) rfl).untrack

lemma acceptRequest (h : w.Has p c) {c' : Connection} (hi : c'.id = p.connection) (r : Request)
    (order : ByteOrder) :
    ∃ flag, (w.acceptRequest p c' r order).Has p { c with isBidirectional := flag }.track := by
  obtain ⟨flag, hf⟩ := Broker.connection?_takeOffer h.found hi r.contexts
  refine ⟨flag, ?_⟩
  have ho : (w.updateBroker p.broker fun b => b.takeOffer c' r.contexts).Has p
      { c with isBidirectional := flag } := h.updateBroker hf (Broker.isGone_takeOffer _ _ _)
  exact ho.track.of_brokers rfl

end World.Has

end ObjectBroker
