import ObjectBroker.Proofs.World.Connection

/-!
What happens on one connection, as those see it who wait for replies there. A call is registered,
and its message written, in two steps between which anything may happen.
-/

namespace ObjectBroker

namespace Message

def answered? : Message → Option UInt32
  | .reply r => some r.id
  | .locateReply id _ => some id
  | _ => none

def isCall : Message → Bool
  | .request _ | .locateRequest _ _ | .cancelRequest _ => true
  | _ => false

def exit? : Message → Option Connection.Exit
  | .closeConnection => some .peerClosed
  | .messageError => some .peerError
  | .fragment id _ _ => some (.violation (.unexpectedFragment id))
  | _ => none

end Message

structure Ticket where
  request : UInt32
  waiter : WaiterId
  deriving DecidableEq

inductive Action where
  | register
  | written (t : Ticket)
  | unwritten (t : Ticket) (e : BrokerError)
  | oneway
  | arrive (m : Message) (order : ByteOrder)
  | lose (e : WireError)
  /-- The end of the connection is made known after it could not be for a while. -/
  | late (exit : Connection.Exit)
  | fail (e : BrokerError)
  | goodbye
  | collect (t : Ticket)
  | expire (t : Ticket) (ms : Nat)

namespace Action

def isCall : Action → Bool
  | .arrive m _ => m.isCall
  | _ => false

def takesId : Action → Bool
  | .register | .oneway => true
  | _ => false

def ticket? : Action → Option Ticket
  | .written t | .unwritten t _ | .collect t | .expire t _ => some t
  | _ => none

/-- What a caller is told that waits for the reply to a request: the reply itself, or that
everyone who waits has failed. -/
def verdict (c : Connection) (request : UInt32) : Action → Option Response
  | .arrive m order =>
    match m.answered? with
    | some id => if id = request then some (.ok (m, order)) else none
    | none => m.exit?.map fun exit => .error (c.exitError exit)
  | .lose e => some (.error (c.exitError (.ofError e)))
  | .late exit => some (.error (c.exitError exit))
  | .fail e => some (.error e)
  | .goodbye => some (.error c.shutDownError)
  | _ => none

def apply (c : Connection) : Action → Connection
  | .register => c.register.2.2
  | .oneway => c.takeRequestId.2
  | .unwritten t _ | .expire t _ => c.forget t.request
  | .collect t => c.takeResponse t.waiter
  | .arrive m order =>
    match m.answered? with
    | some id => c.complete id (.ok (m, order))
    | none => (m.exit?.map fun exit => c.failPending (c.exitError exit)).getD c
  | .lose e => c.failPending (c.exitError (.ofError e))
  | .late exit => c.failPending (c.exitError exit)
  | .fail e => c.failPending e
  | .goodbye => c.failPending c.shutDownError
  | .written _ => c

end Action

namespace World

variable {σ : Type}

def take (w : World σ) (p : Port) (c : Connection) (order : ByteOrder) (m : Message) : World σ :=
  match w.handle p c order m with
  | (w, none) => w
  | (w, some exit) => w.finish p exit

lemma take_request {w : World σ} {p : Port} (ha : (w.broker p.broker).isAlive = true)
    (c : Connection) (order : ByteOrder) (r : Request) :
    w.take p c order (.request r) = w.acceptRequest p c r order := by
  simp only [take, handle, ha, if_true]

/-- Whether those who wait learn at once of an end: one that has to be reported must wait for the
stream. -/
def Tells (w : World σ) (p : Port) (exit : Connection.Exit) : Prop :=
  exit.isViolation = true → ∀ c, w.connection? p = some c → (w.pipe c.outbound).isFull = false

/-- An action and what it makes of the world. The messages of a caller, and whether they can be
written, are up to the caller and the world. -/
inductive Does (p : Port) : World σ → Action → World σ → Prop
  | register {w w' : World σ} {t : Ticket}
      (h : (w.track p).register p = some (t.request, t.waiter, w')) : Does p w .register w'
  | written {w : World σ} {m : Message} (t : Ticket) (h : (w.sendOpen p m).1 = .ok ()) :
      Does p w (.written t) (w.sendOpen p m).2
  | unwritten {w : World σ} {m : Message} {e : BrokerError} (t : Ticket)
      (h : (w.sendOpen p m).1 = .error e) :
      Does p w (.unwritten t e) ((w.sendOpen p m).2.withdraw p t.request)
  | cut {w : World σ} (t : Ticket)
      (h : ∀ c, w.connection? p = some c → ∀ x ∈ c.pending.lookup t.request, x = t.waiter) :
      Does p w (.unwritten t (.wire brokenPipe)) (w.retract p t.request t.waiter)
  | oneway {w : World σ} {c : Connection} (r : Request) (h : w.connection? p = some c)
      (ho : c.checkOpen = .ok ()) : Does p w .oneway (w.sendOneway p r).2
  | arrive {w : World σ} {c : Connection} (m : Message) (order : ByteOrder)
      (h : c.id = p.connection) (ht : ∀ exit, m.exit? = some exit → w.Tells p exit) :
      Does p w (.arrive m order) (w.take p c order m)
  | lose {w : World σ} (e : WireError) (ht : w.Tells p (.ofError e)) :
      Does p w (.lose e) (w.finish p (.ofError e))
  | late {w : World σ} {c : Connection} (exit : Connection.Exit) (h : w.connection? p = some c)
      (hc : c.readerState = .finishing) (hx : exit.isViolation = true) :
      Does p w (.late exit) (w.finishLate p exit)
  | fail {w : World σ} (e : BrokerError) : Does p w (.fail e) (w.failPending p e)
  | goodbye {w : World σ} : Does p w .goodbye (w.goodbye p)
  | collect {w : World σ} {c : Connection} (t : Ticket) (h : w.connection? p = some c)
      (hr : (c.response? t.waiter).isSome) : Does p w (.collect t) (w.takeResponse p t.waiter).2
  | expire {w : World σ} (t : Ticket) (ms : Nat) :
      Does p w (.expire t ms) (w.abandon p t.request)

end World

namespace Connection

def desk (c : Connection) : Connection :=
  { c with
    reader := .new 0, state := .connecting, isBidirectional := false, outstanding := 0,
    readerState := .reading, isReleased := false }

variable (c : Connection)

@[simp] lemma desk_track : c.track.desk = c.desk := rfl

@[simp] lemma desk_setState (s : ConnectionState) : (c.setState s).desk = c.desk := by
  unfold setState
  split <;> rfl

@[simp] lemma desk_stopReading : c.stopReading.desk = c.desk := by
  unfold stopReading
  split <;> rfl

lemma desk_register : c.register.2.2.desk = c.desk.register.2.2 := by
  unfold register takeRequestId
  dsimp only
  rw [show c.desk.pending = c.pending from rfl, show c.desk.nextRequest = c.nextRequest from rfl]
  cases c.pending.lookup c.nextRequest <;> rfl

lemma desk_complete (request : UInt32) (r : Response) :
    (c.complete request r).desk = c.desk.complete request r := by
  unfold complete
  rw [show c.desk.pending = c.pending from rfl]
  cases c.pending.lookup request <;> rfl

lemma desk_failPending (e : BrokerError) : (c.failPending e).desk = c.desk.failPending e := rfl

lemma exitError_desk (exit : Exit) : c.desk.exitError exit = c.exitError exit := by
  cases exit <;> rfl

lemma desk_quit (s : ReaderState) : (c.quit s).desk = c.desk :=
  c.desk_setState .closed

@[simp] lemma desk_leave : c.leave.desk = c.desk :=
  c.desk_quit .finishing

@[simp] lemma desk_depart : c.depart.desk = c.desk :=
  c.desk_quit .gone

@[simp] lemma desk_parted : c.parted.desk = c.desk := by
  rw [parted, desk_stopReading, desk_setState]

lemma desk_finished {exit : Exit} {isBusy : Bool}
    (h : exit.isViolation = true → isBusy = false) :
    (c.finished exit isBusy).desk = c.desk.failPending (c.exitError exit) := by
  have htold : (c.leave.failPending (c.exitError exit)).desk =
      c.desk.failPending (c.exitError exit) := by
    rw [desk_failPending, desk_leave]
  rw [finished]
  split
  · next hbusy =>
    split
    · next hx => exact absurd (h hx) (by simp [hbusy])
    · exact htold
  · rw [desk_depart, htold]

lemma desk_finished_held {exit : Exit} (h : exit.isViolation = true) :
    (c.finished exit true).desk = c.desk := by
  rw [finished, if_pos rfl, if_pos h, desk_leave]

end Connection

namespace Action

lemma apply_desk (c : Connection) (a : Action) : (a.apply c).desk = a.apply c.desk := by
  cases a with
  | register => exact c.desk_register
  | arrive m order =>
    unfold apply
    dsimp only
    cases m.answered? with
    | some id => exact c.desk_complete id _
    | none =>
      cases m.exit? with
      | none => rfl
      | some exit =>
        dsimp only [Option.map_some, Option.getD_some]
        rw [c.desk_failPending, c.exitError_desk]
  | lose e =>
    unfold apply
    dsimp only
    rw [c.desk_failPending, c.exitError_desk]
  | late exit =>
    unfold apply
    dsimp only
    rw [c.desk_failPending, c.exitError_desk]
  | _ => rfl

lemma apply_congr {c c' : Connection} (h : c.desk = c'.desk) (a : Action) :
    (a.apply c).desk = (a.apply c').desk := by
  rw [apply_desk, apply_desk, h]

lemma verdict_congr {c c' : Connection} (hid : c.id = c'.id) (hpeer : c.peer = c'.peer)
    (a : Action) (request : UInt32) : a.verdict c request = a.verdict c' request := by
  have hexit : ∀ exit, c.exitError exit = c'.exitError exit := by
    intro exit
    cases exit <;> simp [Connection.exitError, hpeer]
  cases a <;> simp [verdict, hexit, Connection.shutDownError, hid]

lemma news_cases (c : Connection) {a : Action} (ht : a.ticket? = none) (hi : a.takesId = false) :
    (∃ id r, a.apply c = c.complete id r ∧
        ∀ q, a.verdict c q = if id = q then some r else none) ∨
      (∃ e, a.apply c = c.failPending e ∧ ∀ q, a.verdict c q = some (.error e)) ∨
      (a.apply c = c ∧ ∀ q, a.verdict c q = none) := by
  cases a with
  | register => cases hi
  | oneway => cases hi
  | written t => cases ht
  | unwritten t e => cases ht
  | collect t => cases ht
  | expire t ms => cases ht
  | lose e => exact .inr (.inl ⟨_, rfl, fun _ => rfl⟩)
  | late exit => exact .inr (.inl ⟨_, rfl, fun _ => rfl⟩)
  | fail e => exact .inr (.inl ⟨_, rfl, fun _ => rfl⟩)
  | goodbye => exact .inr (.inl ⟨_, rfl, fun _ => rfl⟩)
  | arrive m order =>
    unfold apply verdict
    dsimp only
    cases m.answered? with
    | some id => exact .inl ⟨id, _, rfl, fun _ => rfl⟩
    | none =>
      cases m.exit? with
      | some exit => exact .inr (.inl ⟨_, rfl, fun _ => rfl⟩)
      | none => exact .inr (.inr ⟨rfl, fun _ => rfl⟩)

end Action

namespace World

variable {σ : Type} {w w' : World σ} {p : Port} {c : Connection}

lemma Has.finish_tells (h : w.Has p c) {exit : Connection.Exit} (ht : w.Tells p exit) :
    ∃ d, (w.finish p exit).Has p d ∧ d.desk = (c.failPending (c.exitError exit)).desk :=
  ⟨_, h.finish exit, c.desk_finished fun hx => ht hx c h.found⟩

lemma Has.take (h : w.Has p c) {c' : Connection} (hi : c'.id = p.connection) (order : ByteOrder)
    (m : Message) (ht : ∀ exit, m.exit? = some exit → w.Tells p exit) :
    ∃ d, (w.take p c' order m).Has p d ∧ d.desk = ((Action.arrive m order).apply c).desk := by
  have hsame : ∀ w' : World σ, w'.brokers = w.brokers → ∃ d, w'.Has p d ∧ d.desk = c.desk :=
    fun w' hb => ⟨c, h.of_brokers hb, rfl⟩
  cases m with
  | reply r => exact ⟨_, h.complete r.id (.ok (.reply r, order)), rfl⟩
  | locateReply id status => exact ⟨_, h.complete id (.ok (.locateReply id status, order)), rfl⟩
  | request r =>
    obtain ⟨flag, hf⟩ := h.acceptRequest hi r order
    have hw : w.take p c' order (.request r) = w.acceptRequest p c' r order := by
      simp only [World.take, World.handle, h.alive, if_true]
    rw [hw]
    exact ⟨_, hf, rfl⟩
  | locateRequest id key => exact hsame _ rfl
  | cancelRequest id => exact hsame _ rfl
  | closeConnection => exact h.finish_tells (ht _ rfl)
  | messageError => exact h.finish_tells (ht _ rfl)
  | fragment id more body => exact h.finish_tells (ht _ rfl)

lemma Does.has {a : Action} (hd : w.Does p a w') (h : w.Has p c) :
    ∃ d, w'.Has p d ∧ d.desk = (a.apply c).desk := by
  cases hd with
  | register hr =>
    obtain ⟨w'', hw, hh⟩ := h.track.register
    simp only [hw, Option.some.injEq, Prod.mk.injEq] at hr
    obtain ⟨-, -, rfl⟩ := hr
    exact ⟨_, hh, Action.apply_congr c.desk_track .register⟩
  | written t hs => exact ⟨c, h.of_brokers (brokers_sendOpen w p _), rfl⟩
  | unwritten t hs =>
    exact ⟨_, (h.of_brokers (brokers_sendOpen w p _)).withdraw t.request, rfl⟩
  | cut t hown => exact ⟨_, h.retract_own (hown c h.found), rfl⟩
  | oneway r hc ho =>
    cases h.unique hc
    rcases h.sendOneway ho r with ⟨e, w', hs, hw'⟩ | ⟨w', hs, hw'⟩
    · rw [hs]
      exact ⟨_, hw', rfl⟩
    · rw [hs]
      exact ⟨_, hw', rfl⟩
  | arrive m order hi ht => exact h.take hi order m ht
  | lose e ht => exact h.finish_tells ht
  | late exit hc hf hx =>
    cases h.unique hc
    refine ⟨_, h.finishLate hf exit, ?_⟩
    rw [if_pos hx, Connection.desk_depart]
    rfl
  | fail e => exact ⟨_, h.failPending e, rfl⟩
  | goodbye =>
    refine ⟨_, h.goodbye, ?_⟩
    split
    · rfl
    · exact (Connection.desk_parted _).trans rfl
  | collect t hc hr =>
    cases h.unique hc
    obtain ⟨r, hr⟩ := Option.isSome_iff_exists.mp hr
    exact ⟨_, (h.takeResponse hr).2, rfl⟩
  | expire t ms => exact ⟨_, h.abandon t.request, rfl⟩

end World

end ObjectBroker
