import Mathlib.Algebra.Group.Nat.Defs
import Mathlib.Data.List.Nodup
import Mathlib.Logic.Relation
import ObjectBroker.Closing
import ObjectBroker.Proofs.Connection.Action

/-!
The work in progress on one connection, step by step. Callers, the reader and whoever closes the
connection take turns between any two steps; the sending of a request alone takes five.
-/

namespace ObjectBroker

inductive Phase where
  /-- It has a place, and has still to look whether the connection is open. -/
  | registered
  /-- The connection was open. -/
  | writing
  /-- The connection was not open. -/
  | refused
  /-- The message could not be written. -/
  | unsent
  | waiting
  /-- The place has been given up, and the caller is about to return. -/
  | leaving
  deriving DecidableEq

structure Place extends Ticket where
  rank : Nat
  deriving DecidableEq

inductive Stage where
  | before
  | begun
  /-- Everyone who waited has been told. -/
  | failed
  | over
  deriving DecidableEq

structure Work where
  /-- Requests that are counted and have no place yet. -/
  starting : Nat := 0
  requests : List (Place × Phase) := []
  oneways : Nat := 0
  dispatches : Nat := 0
  /-- The request ids taken so far. -/
  ids : Nat := 0
  closing : Stage := .before
  finishing : Stage := .before
  /-- Whether whoever closes the connection has seen all work done. -/
  drained : Bool := false

namespace Work

def count (k : Work) : Nat :=
  k.starting + k.requests.length + k.oneways + k.dispatches

def places (k : Work) : List Place :=
  k.requests.map (·.1)

def sent (k : Work) : Except BrokerError (UInt32 × WaiterId) → Work
  | .ok (request, waiter) => { k with
      requests := (⟨⟨request, waiter⟩, k.ids⟩, .writing) :: k.requests
      ids := k.ids + 1 }
  | .error _ => { k with ids := k.ids + 1 }

def Failed (k : Work) : Prop :=
  k.closing = .failed ∨ k.closing = .over ∨ k.finishing = .failed

end Work

namespace Connection

structure Alike (c d : Connection) : Prop where
  state : d.state = c.state
  pending : d.pending = c.pending
  responses : d.responses = c.responses
  nextRequest : d.nextRequest = c.nextRequest
  nextWaiter : d.nextWaiter = c.nextWaiter
  outstanding : d.outstanding = c.outstanding

end Connection

/-- One step of somebody who uses a connection, serves it or ends it. -/
inductive Step : Connection × Work → Connection × Work → Prop
  | establish {c k} : Step (c, k) (c.setState .established, k)
  | start {c k} : Step (c, k) (c.track, { k with starting := k.starting + 1 })
  | register {c k n} (h : k.starting = n + 1) :
      Step (c, k) (c.register.2.2, { k with
        starting := n
        requests := (⟨⟨c.register.1, c.register.2.1⟩, k.ids⟩, .registered) :: k.requests
        ids := k.ids + 1 })
  | pass {c k front x back} (h : k.requests = front ++ (x, .registered) :: back)
      (ho : c.checkOpen = .ok ()) :
      Step (c, k) (c, { k with requests := front ++ (x, .writing) :: back })
  | refuse {c k front x back e} (h : k.requests = front ++ (x, .registered) :: back)
      (ho : c.checkOpen = .error e) :
      Step (c, k) (c, { k with requests := front ++ (x, .refused) :: back })
  | written {c k front x back} (h : k.requests = front ++ (x, .writing) :: back) :
      Step (c, k) (c, { k with requests := front ++ (x, .waiting) :: back })
  | unwritten {c k front x back} (h : k.requests = front ++ (x, .writing) :: back) :
      Step (c, k) (c, { k with requests := front ++ (x, .unsent) :: back })
  | undo {c k front x phase back} (h : k.requests = front ++ (x, phase) :: back)
      (hx : phase = .refused ∨ phase = .unsent) :
      Step (c, k) (c.forget x.request, { k with requests := front ++ (x, .leaving) :: back })
  | collect {c k front x back r} (h : k.requests = front ++ (x, .waiting) :: back)
      (hr : c.response? x.waiter = some r) :
      Step (c, k) (c.takeResponse x.waiter, { k with requests := front ++ (x, .leaving) :: back })
  | expire {c k front x back} (h : k.requests = front ++ (x, .waiting) :: back) :
      Step (c, k) (c.forget x.request, { k with requests := front ++ (x, .leaving) :: back })
  | leave {c k front x back} (h : k.requests = front ++ (x, .leaving) :: back) :
      Step (c, k) (c.untrack, { k with requests := front ++ back })
  | startOneway {c k} : Step (c, k) (c.track, { k with oneways := k.oneways + 1 })
  | number {c k} (h : 0 < k.oneways) :
      Step (c, k) (c.takeRequestId.2, { k with ids := k.ids + 1 })
  | endOneway {c k n} (h : k.oneways = n + 1) : Step (c, k) (c.untrack, { k with oneways := n })
  | startDispatch {c k} : Step (c, k) (c.track, { k with dispatches := k.dispatches + 1 })
  | endDispatch {c k n} (h : k.dispatches = n + 1) :
      Step (c, k) (c.untrack, { k with dispatches := n })
  | reply {c k} (request : UInt32) (r : Response) : Step (c, k) (c.complete request r, k)
  | beginClose {c k d} (h : c.beginClose? = some d) : Step (c, k) (d, { k with closing := .begun })
  | drain {c k} (h : k.closing = .begun) (hi : c.isIdle = true) :
      Step (c, k) (c, { k with drained := true })
  | failClose {c k} (h : k.closing = .begun) (e : BrokerError) :
      Step (c, k) (c.failPending e, { k with closing := .failed })
  | endClose {c k} (h : k.closing = .failed) :
      Step (c, k) (c.setState .closed, { k with closing := .over })
  | beginFinish {c k} (h : k.finishing = .before) :
      Step (c, k) (c.setState .closed, { k with finishing := .begun })
  | failFinish {c k} (h : k.finishing = .begun) (e : BrokerError) :
      Step (c, k) (c.failPending e, { k with finishing := .failed })
  | aside {c d k} (h : c.Alike d) : Step (c, k) (d, k)

abbrev Steps : Connection × Work → Connection × Work → Prop :=
  Relation.ReflTransGen Step

lemma Steps.retreat {c : Connection} {k : Work} {front back : List (Place × Phase)} {x : Place}
    {phase : Phase} (h : k.requests = front ++ (x, phase) :: back)
    (hx : phase = .refused ∨ phase = .unsent) :
    Steps (c, k) ((c.forget x.request).untrack, { k with requests := front ++ back }) :=
  .tail (.single (.undo h hx)) (.leave rfl)

namespace World

variable {σ : Type} {w w' w'' : World σ} {p : Port} {c : Connection} {k l m : Work}

def Moves (p : Port) (w : World σ) (k : Work) (w' : World σ) (l : Work) : Prop :=
  ∀ c, w.Has p c → ∃ d, w'.Has p d ∧ Steps (c, k) (d, l)

namespace Moves

lemma trans (h : Moves p w k w' l) (h' : Moves p w' l w'' m) : Moves p w k w'' m := by
  intro c hc
  obtain ⟨d, hd, hcd⟩ := h c hc
  obtain ⟨e, he, hde⟩ := h' d hd
  exact ⟨e, he, hcd.trans hde⟩

lemma sendTracked {message : UInt32 → Message} {result : Except BrokerError (UInt32 × WaiterId)}
    (h : (w.sendTracked p message).1 = result) :
    Moves p w k (w.sendTracked p message).2 (k.sent result) := by
  subst h
  intro c hc
  obtain ⟨w₁, hregister, hw₁⟩ := hc.track.register
  let x : Place := ⟨⟨c.track.register.1, c.track.register.2.1⟩, k.ids⟩
  let d := c.track.register.2.2
  let stand (phase : Phase) : Work :=
    { k with requests := (x, phase) :: k.requests, ids := k.ids + 1 }
  have hfront : ∀ phase, (stand phase).requests = [] ++ (x, phase) :: k.requests := fun _ => rfl
  have hplaced : Steps (c, k) (d, stand .registered) := .tail (.single .start) (.register rfl)
  have hretreat : ∀ phase, phase = .refused ∨ phase = .unsent → Steps (d, stand phase)
      ((d.forget x.request).untrack, { k with ids := k.ids + 1 }) := fun phase => .retreat (hfront phase)
  rw [World.sendTracked, hregister]
  dsimp only
  cases ho : d.checkOpen with
  | error e =>
    have hopen : w₁.sendOpen p (message x.request) = (.error e, w₁) := by
      rw [World.sendOpen, hw₁.found, Option.map_some, ho]
    have hrefuse : Step (d, stand .registered) (d, stand .refused) :=
      .refuse (hfront .registered) ho
    rw [hopen]
    exact ⟨_, (hw₁.forget _).untrack, (hplaced.tail hrefuse).trans (hretreat _ (.inl rfl))⟩
  | ok u =>
    have hopen : w₁.sendOpen p (message x.request) = w₁.send p (message x.request) := by
      rw [World.sendOpen, hw₁.found, Option.map_some, ho]
    have hpass : Step (d, stand .registered) (d, stand .writing) := .pass (hfront .registered) ho
    have hsent := hw₁.send (message x.request)
    rw [hopen]
    rcases hs : w₁.send p (message x.request) with ⟨result, w₂⟩
    rw [hs] at hsent
    cases result with
    | ok u => exact ⟨_, hsent, hplaced.tail hpass⟩
    | error e =>
      have hunwritten : Step (d, stand .writing) (d, stand .unsent) :=
        .unwritten (hfront .writing)
      exact ⟨_, (hsent.forget _).untrack,
        ((hplaced.tail hpass).tail hunwritten).trans (hretreat _ (.inr rfl))⟩

lemma written {front back : List (Place × Phase)} {x : Place}
    (hk : k.requests = front ++ (x, .writing) :: back) (w : World σ) :
    Moves p w k w { k with requests := front ++ (x, .waiting) :: back } :=
  fun c hc => ⟨c, hc, .single (.written hk)⟩

lemma retract {front back : List (Place × Phase)} {x : Place}
    (hk : k.requests = front ++ (x, .writing) :: back) (w : World σ) :
    Moves p w k (w.retract p x.request x.waiter) { k with requests := front ++ back } := by
  intro c hc
  have hunwritten : Steps (c, k) (c, { k with requests := front ++ (x, .unsent) :: back }) :=
    .single (.unwritten hk)
  by_cases hown : ∀ y ∈ c.pending.lookup x.request, y = x.waiter
  · exact ⟨_, hc.retract_own hown, hunwritten.trans (Steps.retreat rfl (.inr rfl))⟩
  · -- The number is another caller's by now, who is told first; nothing is left to take back.
    obtain ⟨y, hl, hne⟩ : ∃ y, c.pending.lookup x.request = some y ∧ y ≠ x.waiter := by
      simpa using hown
    refine ⟨_, hc.retract_other hl hne, ?_⟩
    have htold := hunwritten.tail (.reply x.request (.error (c.dropped x.request)))
    have hleft := htold.trans (Steps.retreat rfl (.inr rfl))
    rwa [Connection.forget_complete] at hleft

lemma sendOneway (r : Request) (h : w.Has p c) (ho : c.checkOpen = .ok ()) :
    Moves p w k (w.sendOneway p r).2
      (match (w.sendOneway p r).1 with
      | .ok _ => { k with oneways := k.oneways + 1, ids := k.ids + 1 }
      | .error _ => { k with ids := k.ids + 1 }) := by
  intro c' hc'
  cases h.unique hc'.found
  have hnumbered : Steps (c, k)
      (c.takeRequestId.2.track, { k with oneways := k.oneways + 1, ids := k.ids + 1 }) :=
    .tail (.single .startOneway) (.number (Nat.succ_pos _))
  rcases h.sendOneway ho r with ⟨e, w', hs, hw'⟩ | ⟨w', hs, hw'⟩
  · rw [hs]
    exact ⟨_, hw', hnumbered.tail (.endOneway rfl)⟩
  · rw [hs]
    exact ⟨_, hw', hnumbered⟩

lemma endOneway {n : Nat} (hk : k.oneways = n + 1) (w : World σ) :
    Moves p w k (w.untrack p) { k with oneways := n } :=
  fun _ hc => ⟨_, hc.untrack, .single (.endOneway hk)⟩

lemma takeResponse {front back : List (Place × Phase)} {x : Place} {r : Response}
    (hk : k.requests = front ++ (x, .waiting) :: back) (h : w.Has p c)
    (hr : c.response? x.waiter = some r) :
    Moves p w k (w.takeResponse p x.waiter).2 { k with requests := front ++ back } := by
  intro c' hc'
  cases h.unique hc'.found
  exact ⟨_, (h.takeResponse hr).2, .tail (.single (.collect hk hr)) (.leave rfl)⟩

lemma abandon {front back : List (Place × Phase)} {x : Place}
    (hk : k.requests = front ++ (x, .waiting) :: back) (w : World σ) :
    Moves p w k (w.abandon p x.request) { k with requests := front ++ (x, .leaving) :: back } :=
  fun _ hc => ⟨_, hc.abandon x.request, .single (.expire hk)⟩

lemma leave {front back : List (Place × Phase)} {x : Place}
    (hk : k.requests = front ++ (x, .leaving) :: back) (w : World σ) :
    Moves p w k (w.untrack p) { k with requests := front ++ back } :=
  fun _ hc => ⟨_, hc.untrack, .single (.leave hk)⟩

lemma complete (w : World σ) (request : UInt32) (r : Response) :
    Moves p w k (w.complete p request r) k :=
  fun _ hc => ⟨_, hc.complete request r, .single (.reply request r)⟩

lemma acceptRequest (w : World σ) {c : Connection} (hi : c.id = p.connection) (r : Request)
    (order : ByteOrder) :
    Moves p w k (w.acceptRequest p c r order) { k with dispatches := k.dispatches + 1 } := by
  intro c' hc'
  obtain ⟨flag, hf⟩ := hc'.acceptRequest hi r order
  refine ⟨_, hf, .tail (.single (.aside ?_)) .startDispatch⟩
  exact ⟨rfl, rfl, rfl, rfl, rfl, rfl⟩

lemma endDispatch {n : Nat} (hk : k.dispatches = n + 1) (w : World σ) :
    Moves p w k (w.untrack p) { k with dispatches := n } :=
  fun _ hc => ⟨_, hc.untrack, .single (.endDispatch hk)⟩

lemma beginClose (h : (Closing.begin w p).1 = true) :
    Moves p w k (Closing.begin w p).2 { k with closing := .begun } := by
  intro c hc
  rw [Closing.begin, hc.found, Option.bind_some] at h ⊢
  cases hb : c.beginClose? with
  | none =>
    rw [hb] at h
    cases h
  | some d =>
    have hid : d.id = c.id := by
      rw [Connection.beginClose?] at hb
      split at hb
      · cases hb
      · cases hb
      · cases hb
        rfl
    exact ⟨d, hc.update (f := fun _ => d) hid, .single (.beginClose hb)⟩

lemma part (hk : k.closing = .failed) (w : World σ) (isFree : Bool) :
    Moves p w k (w.part p isFree) { k with closing := .over } := by
  intro c hc
  refine ⟨_, hc.part isFree, .tail (.single (.endClose hk)) (.aside ?_)⟩
  rw [Connection.parted, Connection.stopReading]
  split <;> exact ⟨rfl, rfl, rfl, rfl, rfl, rfl⟩

lemma failPending (hk : k.closing = .begun) (w : World σ) (e : BrokerError) :
    Moves p w k (w.failPending p e) { k with closing := .failed } :=
  fun _ hc => ⟨_, hc.failPending e, .single (.failClose hk e)⟩

lemma goodbye (hk : k.closing = .begun) (h : w.Has p c) :
    Moves p w k (w.goodbye p)
      { k with closing := if (w.pipe c.outbound).isFull then .failed else .over } := by
  have hfailed : Moves p w k (w.failPending p c.shutDownError) { k with closing := .failed } :=
    failPending hk w c.shutDownError
  rw [World.goodbye, h.found]
  dsimp only
  split
  · exact hfailed
  · exact hfailed.trans (part rfl _ true)

lemma leaveReading (hk : k.finishing = .before) (w : World σ) :
    Moves p w k (w.updateConnection p Connection.leave) { k with finishing := .begun } := by
  intro c hc
  refine ⟨_, hc.leave, .tail (.single (.beginFinish hk)) (.aside ?_)⟩
  exact ⟨rfl, rfl, rfl, rfl, rfl, rfl⟩

lemma tell (hk : k.finishing = .begun) (w : World σ) (exit : Connection.Exit) :
    Moves p w k (w.tell p exit) { k with finishing := .failed } :=
  fun c hc => ⟨_, hc.tell exit, .single (.failFinish hk (c.exitError exit))⟩

lemma shut (h : w.Has p c) (hc : c.state = .closed) : Moves p w k (w.shut p) k := by
  intro c' hc'
  cases h.unique hc'.found
  refine ⟨_, h.shut, .single (.aside ?_)⟩
  rw [Connection.depart, Connection.quit, Connection.setState_of_closed hc]
  exact ⟨rfl, rfl, rfl, rfl, rfl, rfl⟩

lemma emit (w : World σ) (e : Event) : Moves p w k (w.emit e) k :=
  fun c hc => ⟨c, hc.of_brokers rfl, .refl⟩

lemma finish (hk : k.finishing = .before) (h : w.Has p c) (exit : Connection.Exit) :
    Moves p w k (w.finish p exit) { k with finishing :=
      if (w.pipe c.outbound).isFull && exit.isViolation then .begun else .failed } := by
  have hleft : Moves p w k (w.updateConnection p Connection.leave) { k with finishing := .begun } :=
    leaveReading hk w
  have htold := hleft.trans (tell rfl _ exit)
  rw [World.finish, h.found]
  dsimp only
  by_cases hfull : (w.pipe c.outbound).isFull = true
  · rw [if_pos hfull]
    by_cases hx : exit.isViolation = true
    · rw [if_pos hx, if_pos (Bool.and_eq_true_iff.mpr ⟨hfull, hx⟩)]
      exact hleft.trans (emit _ _)
    · rw [if_neg hx, if_neg fun h => hx (Bool.and_eq_true_iff.mp h).2]
      exact htold.trans (emit _ _)
  · rw [if_neg hfull, if_neg fun h => hfull (Bool.and_eq_true_iff.mp h).1]
    exact htold.trans (shut (h.leave.tell exit) c.state_setState_closed)

lemma finishLate (h : w.Has p c) (hc : c.readerState = .finishing) (hs : c.state = .closed) {exit : Connection.Exit}
    (hk : exit.isViolation = true → k.finishing = .begun) :
    Moves p w k (w.finishLate p exit)
      (if exit.isViolation then { k with finishing := .failed } else k) := by
  rw [World.finishLate, h.found]
  dsimp only
  rw [if_pos hc]
  by_cases hx : exit.isViolation = true
  · rw [if_pos hx, if_pos hx]
    exact (tell (hk hx) w exit).trans (shut (h.tell exit) hs)
  · rw [if_neg hx, if_neg hx]
    exact shut h hs

end Moves

end World

end ObjectBroker
