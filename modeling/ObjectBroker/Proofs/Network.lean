import ObjectBroker.Hosting
import ObjectBroker.Proofs.Connection.Scope
import ObjectBroker.Proofs.World.Course

/-!
Networks. What a call, the end of a connection or a request that is served can do to the world is
known from what they are made of; a network whose tasks are known in this way stays so.
-/

namespace ObjectBroker

variable {σ α : Type}

namespace Activity

variable {R : World σ → World σ → Prop}

def Stop.Respects (R : World σ → World σ → Prop) : Stop σ α → Prop
  | .done _ => True
  | .waiting _ _ next => ∀ met, (next met).Respects R
  | .calling _ next => ∀ r, (next r).Respects R

lemma RespectsFrom.run (hrefl : ∀ w, R w w) (htrans : ∀ w w' w'', R w w' → R w' w'' → R w w'')
    {a : Activity σ α} {w : World σ} (h : a.RespectsFrom R w) :
    R w (a.run w).2 ∧ (a.run w).1.Respects R := by
  induction a generalizing w with
  | pure a => exact ⟨hrefl w, trivial⟩
  | read next ih => exact ih w h
  | write w' next ih =>
    obtain ⟨hfirst, hnext⟩ := h
    obtain ⟨hrest, hstop⟩ := ih hnext
    exact ⟨htrans w w' _ hfirst hrest, hstop⟩
  | await wait deadline next ih =>
    rw [Activity.run]
    split
    · exact ih true (h true w)
    · split
      · exact ih false (h false w)
      · exact ⟨hrefl w, h⟩
  | perform call next ih => exact ⟨hrefl w, h⟩

lemma RespectsFrom.mono {R' : World σ → World σ → Prop} (hR : ∀ w w', R w w' → R' w w')
    {a : Activity σ α} {w : World σ} (h : a.RespectsFrom R w) : a.RespectsFrom R' w := by
  induction a generalizing w with
  | pure a => trivial
  | read next ih => exact ih w h
  | write w' next ih => exact ⟨hR _ _ h.1, ih h.2⟩
  | await wait deadline next ih => exact fun met w' => ih met (h met w')
  | perform call next ih => exact fun r w' => ih r (h r w')

namespace Respects

lemma dispatch (call : Inbound) :
    (Activity.dispatch call : Activity σ (ReplyStatus × Octets)).Respects R :=
  fun _ _ _ => trivial

lemma mono {R' : World σ → World σ → Prop} (hR : ∀ w w', R w w' → R' w w') {a : Activity σ α}
    (h : a.Respects R) : a.Respects R' :=
  fun w => (h w).mono hR

end Respects

inductive Gentle : (α : Type) → Activity σ α → Prop
  | change {α : Type} (f : World σ → α × World σ) (h : ∀ w : World σ, w.Silent (f w).2) :
      Gentle α (.change f)
  | wait (wait : Wait) (deadline : Option Nat) (h : ∀ p x, wait ≠ .response p x) :
      Gentle Bool (waitFor wait deadline)

lemma Gentle.update {f : World σ → World σ} (h : ∀ w : World σ, w.Silent (f w)) :
    (Activity.update f).MadeOf Gentle :=
  .base (.change _ h)

lemma MadeOf.silent {a : Activity σ α} (h : a.MadeOf Gentle) : a.Respects World.Silent := by
  refine h.respects (fun _ _ h => .calm h) fun α a ha => ?_
  cases ha with
  | change f h => exact .change h
  | wait wait deadline h => exact .waitFor wait deadline

end Activity

namespace Call.Respects

variable {R : World σ → World σ → Prop}

lemma pure (x : α) : Respects R (Pure.pure x : Call σ α) :=
  Activity.Respects.pure _

lemma change {f : World σ → Except BrokerError α × World σ} (h : ∀ w, R w (f w).2) :
    (Call.change f).Respects R :=
  Activity.Respects.change h

end Call.Respects

lemma Call.bind_bind {β γ : Type} (c : Call σ α) (f : α → Call σ β) (g : β → Call σ γ) :
    c >>= f >>= g = c >>= fun x => f x >>= g := by
  refine (Activity.bind_bind c _ _).trans (congrArg (Activity.bind c) (funext fun result => ?_))
  cases result <;> rfl

namespace Call.MadeOf

variable {B : (α : Type) → Activity σ α → Prop}

lemma ofExcept (r : Except BrokerError α) : (Call.ofExcept r : Call σ α).MadeOf B := by
  cases r with
  | ok a => exact .pure a
  | error e => exact .throw e

lemma change {f : World σ → Except BrokerError α × World σ} (h : ∀ w : World σ, w.Silent (f w).2) :
    (Call.change f).MadeOf Activity.Gentle :=
  Activity.MadeOf.base (.change f h)

end Call.MadeOf

namespace Invocation

section MadeOf

open Call.MadeOf

variable {B : (α : Type) → Activity σ α → Prop}

lemma madeOf_ensureRunning (b : BrokerId) : (ensureRunning b : Call σ Broker).MadeOf B :=
  (lift (.broker b)).bind fun _ => (ofExcept _).bind fun _ => .pure _

lemma madeOf_connect (b : BrokerId) (e : Endpoint) : (connect b e : Call σ Connection).MadeOf B := by
  refine (lift (.broker b)).bind fun broker => ?_
  split
  · exact .pure _
  · exact .throw _

lemma madeOf_written (p : Port) {undo : World σ → World σ} (h : (Activity.update undo).MadeOf B) :
    (written p undo).MadeOf B := by
  refine (lift (.written p)).bind fun isWritten => ?_
  cases isWritten with
  | true => exact .pure ()
  | false => exact (lift h).bind fun _ => .throw _

lemma madeOf_sent (p : Port) (offered : Bool) :
    (sent p offered : Activity σ Unit).MadeOf Activity.Gentle := by
  have hcount : (Activity.updateBroker p.broker countSent : Activity σ Unit).MadeOf
      Activity.Gentle := Activity.Gentle.update fun w => .move (.aside _ _ _ _ _)
  have hmark : (Activity.update fun w : World σ => w.updateConnection p fun c =>
      { c with isBidirectional := true }).MadeOf Activity.Gentle :=
    Activity.Gentle.update fun w =>
      .adjust fun c => .aside c.reader c.nextRequest true c.outstanding c.isReleased
  cases offered with
  | true => exact hmark.bind fun _ => hcount
  | false => exact hcount

lemma madeOf_invokeOneway (b : BrokerId) (target : Reference) (operation : String)
    (args : Marshaller) :
    (invokeOneway b target operation args : Call σ Unit).MadeOf Activity.Gentle := by
  refine (madeOf_ensureRunning b).bind fun broker => ?_
  split
  · exact lift (.update fun w => .of_brokers rfl)
  · refine (madeOf_connect b _).bind fun c => (ofExcept _).bind fun r => ?_
    have huntrack : (Activity.update fun w : World σ =>
        w.untrack { broker := b, connection := c.id }).MadeOf Activity.Gentle :=
      .update fun w => .untrack w _
    refine (change fun w => .sendOneway w _ r).bind fun _ => ?_
    exact (madeOf_written _ huntrack).bind fun _ =>
      (lift huntrack).bind fun _ => lift (madeOf_sent _ _)

end MadeOf

def ask (p : Port) (message : UInt32 → Message) (after : Activity σ Unit) (timeout : Option Nat) :
    Call σ (Message × ByteOrder) := do
  let (request, waiter) ← Call.change (·.sendTracked p message)
  written p (·.retract p request waiter)
  Call.lift after
  awaitResponse p request waiter timeout

open Call.Respects in
lemma quiet_ask (p : Port) (message : UInt32 → Message) {after : Activity σ Unit}
    (hafter : after.MadeOf Activity.Gentle) (timeout : Option Nat) :
    (ask p message after timeout).Respects World.Quiet := by
  have hsilent : ∀ w w' : World σ, w.Silent w' → w.Quiet w' := fun _ _ => .of_silent
  have hbetween : after.Respects World.Quiet := hafter.silent.mono hsilent
  refine (change fun w => .of_silent (.sendTracked w p message)).bind fun place => ?_
  refine ((lift (.written p)).bind fun isWritten => ?_).bind fun _ => ?_
  · cases isWritten with
    | true => exact .pure ()
    | false => exact (lift (.update fun w => .retract w p place.1 place.2)).bind fun _ => .throw _
  refine (lift hbetween).bind fun _ => (lift .world).bind fun w => ?_
  refine (lift (.waitFor _ _)).bind fun came => ?_
  cases came with
  | true => exact change fun w => .takeResponse w p _
  | false =>
    refine (lift (.update fun w => .abandon w p _)).bind fun _ => (lift (.written p)).bind fun _ => ?_
    exact (lift (.update fun w => .of_silent (.untrack w p))).bind fun _ => .throw _

end Invocation

namespace Activity

inductive Busy : (α : Type) → Activity σ α → Prop
  | gentle {α : Type} {a : Activity σ α} (h : Gentle α a) : Busy α a
  | dispatch (call : Inbound) : Busy _ (Activity.dispatch call)
  | ask (p : Port) (message : UInt32 → Message) {after : Activity σ Unit} (h : after.MadeOf Gentle)
      (timeout : Option Nat) : Busy _ (Invocation.ask p message after timeout).run

lemma MadeOf.mono {B B' : (α : Type) → Activity σ α → Prop} (hB : ∀ α a, B α a → B' α a)
    {a : Activity σ α} (h : a.MadeOf B) : a.MadeOf B' := by
  induction h with
  | base h => exact .base (hB _ _ h)
  | pure x => exact .pure x
  | bind _ _ iha ihf => exact iha.bind ihf
  | look f => exact .look f
  | change f h => exact .change f h
  | outlet n => exact .outlet n

lemma MadeOf.busy {a : Activity σ α} (h : a.MadeOf Gentle) : a.MadeOf Busy :=
  h.mono fun _ _ => .gentle

lemma MadeOf.quiet_busy {a : Activity σ α} (h : a.MadeOf Busy) : a.Respects World.Quiet := by
  refine h.respects (fun _ _ h => .of_silent (.calm h)) fun α a ha => ?_
  cases ha with
  | gentle h => exact (MadeOf.base h).silent.mono fun _ _ => .of_silent
  | dispatch call => exact .dispatch call
  | ask p message h timeout => exact Invocation.quiet_ask p message h timeout

end Activity

namespace Invocation

open Call.MadeOf

lemma madeOf_ask (p : Port) (message : UInt32 → Message) {after : Activity σ Unit}
    (hafter : after.MadeOf Activity.Gentle) (timeout : Option Nat)
    {f : Message × ByteOrder → Call σ α} (hf : ∀ x, (f x).MadeOf Activity.Busy) :
    Call.MadeOf Activity.Busy (Call.change (·.sendTracked p message) >>= fun place =>
      written p (·.retract p place.1 place.2) >>= fun _ =>
        Call.lift after >>= fun _ => awaitResponse p place.1 place.2 timeout >>= f) := by
  have hask : Call.MadeOf Activity.Busy (ask p message after timeout >>= f) :=
    .bind (Activity.MadeOf.base (.ask p message hafter timeout)) hf
  simp only [ask, Call.bind_bind] at hask
  exact hask

lemma madeOf_remote (b : BrokerId) (target : Reference) (operation : String) (args : Marshaller) :
    (remote b target operation args : Call σ Outcome).MadeOf Activity.Busy := by
  have hreply : (Activity.updateBroker b countReply : Activity σ Unit).MadeOf Activity.Busy :=
    (Activity.Gentle.update fun w => .move (.aside _ _ _ _ _)).busy
  refine (lift (.broker b)).bind fun broker => (madeOf_connect b _).bind fun c => ?_
  refine (ofExcept _).bind fun r => madeOf_ask _ _ (madeOf_sent _ _) _ fun answer => ?_
  refine (lift hreply).bind fun _ => ?_
  split
  · exact madeOf_decode _ _ _ _ _ _
  · exact .throw _

lemma madeOf_invoke (b : BrokerId) (target : Reference) (operation : String) (args : Marshaller) :
    (invoke b target operation args : Call σ Outcome).MadeOf Activity.Busy := by
  refine (madeOf_ensureRunning b).bind fun _ => ?_
  split
  · refine (lift (.base (.dispatch _))).bind fun reply => (lift (.broker b)).bind fun broker => ?_
    exact madeOf_decode _ _ _ _ _ _
  · exact madeOf_remote b target operation args

lemma madeOf_locate (b : BrokerId) (target : Reference) :
    (locate b target : Call σ Bool).MadeOf Activity.Busy := by
  have hnothing : (Pure.pure () : Activity σ Unit).MadeOf Activity.Gentle := .pure ()
  refine (madeOf_ensureRunning b).bind fun broker => ?_
  split
  · exact .pure _
  · refine (madeOf_connect b _).bind fun c => madeOf_ask _ _ hnothing _ fun answer => ?_
    split
    · exact .pure _
    · exact .pure _
    · exact .throw _
    · exact .throw _

end Invocation

lemma Directory.isStopped_shutdown (d : Directory) : d.shutdown.IsStopped := by
  intro a ha
  obtain ⟨a', -, rfl⟩ := List.mem_map.mp ha
  exact ⟨rfl, rfl⟩

namespace Closing

open Activity.MadeOf

lemma madeOf_drain (deadline turns : Nat) (ports : List Port) :
    (drain deadline turns ports : Activity σ Unit).MadeOf Activity.Gentle := by
  have hall : ∀ ports : List Port,
      (Activity.update fun w : World σ => ports.foldl World.goodbye w).MadeOf Activity.Gentle :=
    fun ports => Activity.Gentle.update fun w => .foldl World.Silent.goodbye ports w
  induction turns generalizing ports with
  | zero =>
    cases ports with
    | nil => exact .pure ()
    | cons p ports => exact hall (p :: ports)
  | succ turns ih =>
    cases ports with
    | nil => exact .pure ()
    | cons p ports =>
      refine (base (.wait _ _ (by simp))).bind fun came => ?_
      cases came with
      | true =>
        exact (base (.change _ fun w => .foldl World.Silent.goodbye _ w)).bind fun waiting =>
          ih waiting
      | false => exact hall (p :: ports)

lemma madeOf_linger (timeout : Nat) (ports : List Port) :
    (linger timeout ports : Activity σ Unit).MadeOf Activity.Gentle := by
  have hall : ∀ (deadline : Nat) (ports : List Port),
      (partAll deadline ports : Activity σ Unit).MadeOf Activity.Gentle := by
    intro deadline ports
    induction ports with
    | nil => exact .pure ()
    | cons p ports ih =>
      refine world.bind fun w => ?_
      split
      · exact (Activity.MadeOf.pure ()).bind fun _ => ih
      · refine ((base (.wait (.outlet _) (some deadline) (by simp))).bind fun isFree => ?_).bind
          fun _ => ih
        exact Activity.Gentle.update fun w => .of_ends (.parted w isFree)
  exact world.bind fun w => hall _ _

lemma madeOf_closeAll (ports : List Port) (drained : Bool) (timeout : Nat) :
    (closeAll ports drained timeout : Activity σ Unit).MadeOf Activity.Gentle := by
  have hhold : ∀ w : World σ, w.Silent (holdAll ports w) := fun w =>
    .foldl (f := fun w p => w.hold (.connection p)) (fun _ _ => .of_brokers rfl) ports w
  have hunhold : ∀ w : World σ, w.Silent (unholdAll ports w) := fun w =>
    .foldl (f := fun w p => w.unhold (.connection p)) (fun _ _ => .of_brokers rfl) ports w
  have hstart : (Activity.change fun w : World σ =>
      ports.foldl (start drained) ([], holdAll ports w)).MadeOf Activity.Gentle :=
    base (.change _ fun w => (hhold w).trans (.start drained ports ([], holdAll ports w)))
  refine world.bind fun w => hstart.bind fun waiting => ?_
  refine (madeOf_drain _ _ _).bind fun _ => (madeOf_linger _ _).bind fun _ => ?_
  exact Activity.Gentle.update hunhold

lemma quiet_closeIdle (b : BrokerId) : (closeIdle b : Activity σ Nat).Respects World.Quiet := by
  -- What is unused is looked up in the very world in which it is removed.
  intro w
  refine ⟨.removeUnused w b, ?_⟩
  have hclose := (madeOf_closeAll (σ := σ) (portsOf b (w.broker b).unused) false
    (w.broker b).config.drainTimeout).silent.mono fun _ _ => World.Quiet.of_silent
  exact (hclose.bind fun _ => .pure _) _

lemma madeOf_shutdown (b : BrokerId) (drained : Bool) :
    (shutdown b drained : Activity σ Bool).MadeOf Activity.Gentle := by
  have hrunning : (do return (← Activity.broker b).isRunning : Activity σ Bool).MadeOf
      Activity.Gentle := (broker b).bind fun _ => .pure _
  have hadapters : (Activity.updateBroker b fun broker =>
      { broker with adapters := broker.adapters.shutdown } : Activity σ Unit).MadeOf
      Activity.Gentle :=
    Activity.Gentle.update fun w => .move (.house fun _ _ => Directory.isStopped_shutdown _)
  refine (broker b).bind fun broker => ?_
  split
  · refine (Activity.Gentle.update fun w => .stop w b).bind fun _ => ?_
    exact (madeOf_closeAll _ _ _).bind fun _ => hadapters.bind fun _ => hrunning
  · exact hrunning

end Closing

namespace Network

variable {ρ : Type}

lemma absorb_eq [Servant σ] (n : Network σ ρ) (e : Event) :
    (n.absorb e).world = n.world ∧ (n.absorb e).results = n.results := by
  cases e with
  | readable p =>
    rw [absorb]
    split <;> exact ⟨rfl, rfl⟩
  | started job => exact ⟨rfl, rfl⟩
  | responded p waiter => exact ⟨rfl, rfl⟩
  | idle p => exact ⟨rfl, rfl⟩
  | closed pipe => exact ⟨rfl, rfl⟩

lemma absorbAll_eq [Servant σ] (n : Network σ ρ) :
    n.absorbAll.world = { n.world.collect with events := [] } ∧ n.absorbAll.results = n.results := by
  have hfold : ∀ (events : List Event) (n : Network σ ρ),
      (events.foldl absorb n).world = n.world ∧ (events.foldl absorb n).results = n.results := by
    intro events
    induction events with
    | nil => exact fun n => ⟨rfl, rfl⟩
    | cons e events ih =>
      exact fun n => ⟨(ih _).1.trans (n.absorb_eq e).1, (ih _).2.trans (n.absorb_eq e).2⟩
  exact hfold _ _

structure Abides (R : World σ → World σ → Prop) (n : Network σ ρ) : Prop where
  queue : ∀ id a, .task id a ∈ n.queue → a.Respects R
  parked : ∀ k ∈ n.parked, ∀ met, (k.next met).Respects R

namespace Abides

variable {R : World σ → World σ → Prop} {n : Network σ ρ}

lemma enqueue (h : n.Abides R) {r : Ready σ ρ} (hr : ∀ id a, r = .task id a → a.Respects R) :
    (n.enqueue r).Abides R := by
  refine ⟨fun id a ha => ?_, h.parked⟩
  rcases List.mem_append.mp ha with ha | ha
  · exact h.queue id a ha
  · exact hr id a (List.mem_singleton.mp ha).symm

lemma start (h : n.Abides R) {a : Activity σ (Option ρ)} (ha : a.Respects R) :
    (n.start a).2.Abides R := by
  have hq := h.enqueue (r := .task n.nextTask a) fun id a' h' => by
    cases h'
    exact ha
  exact ⟨hq.queue, hq.parked⟩

lemma wake (h : n.Abides R) (due : Parked σ ρ → Bool) : (n.wake due).Abides R := by
  refine ⟨fun id a ha => ?_, fun k hk => h.parked k (List.mem_filter.mp hk).1⟩
  rcases List.mem_append.mp ha with ha | ha
  · exact h.queue id a ha
  · obtain ⟨k, hk, hresume⟩ := List.mem_map.mp ha
    cases hresume
    exact fun _ met => h.parked k (List.mem_filter.mp hk).1 met

lemma setTime (h : n.Abides R) (time : Nat) : (n.setTime time).Abides R :=
  wake (n := { n with world := { n.world with now := time } }) ⟨h.queue, h.parked⟩ _

variable [Servant σ] (hsilent : ∀ w w' : World σ, w.Silent w' → R w w')
  (hs : ∀ c operation, (Servant.invoke c operation : Serving σ Unit).Respects R)
include hsilent hs

lemma absorb (h : n.Abides R) (e : Event) : (n.absorb e).Abides R := by
  cases e with
  | readable p =>
    rw [Network.absorb]
    split
    · exact h
    · refine h.enqueue fun id a ha => ?_
      cases ha
  | started job =>
    have hjob : (do job.activity; return none : Activity σ (Option ρ)).Respects R :=
      (Job.respects_activity (fun _ _ h => hsilent _ _ (.calm h)) hs fun p exit _ =>
        .update fun w => hsilent _ _ (.of_ends (.finishLate w exit))).bind fun _ => .pure _
    exact h.start hjob
  | responded p waiter => exact h.wake _
  | idle p => exact h.wake _
  | closed pipe => exact h.wake _

lemma absorbAll (h : n.Abides R) :
    n.absorbAll.Abides R ∧ n.absorbAll.world = { n.world.collect with events := [] } := by
  have hfold : ∀ (events : List Event) (n : Network σ ρ), n.Abides R →
      (events.foldl Network.absorb n).Abides R := by
    intro events
    induction events with
    | nil => exact fun n h => h
    | cons e events ih => exact fun n h => ih _ (absorb hsilent hs h e)
  exact ⟨hfold _ _ ⟨h.queue, h.parked⟩, n.absorbAll_eq.1⟩

lemma settleTask (h : n.Abides R) (id : Nat) {stop : Activity.Stop σ (Option ρ)}
    (hstop : stop.Respects R) :
    (n.settleTask id stop).Abides R ∧ (n.settleTask id stop).world = n.world := by
  cases stop with
  | done r =>
    cases r with
    | none => exact ⟨h, rfl⟩
    | some r => exact ⟨⟨h.queue, h.parked⟩, rfl⟩
  | waiting wait deadline next =>
    refine ⟨⟨h.queue, fun k hk => ?_⟩, rfl⟩
    rcases List.mem_append.mp hk with hk | hk
    · exact h.parked k hk
    · obtain rfl := List.mem_singleton.mp hk
      exact hstop
  | calling call next =>
    refine ⟨⟨fun id' a ha => ?_, h.parked⟩, rfl⟩
    rcases List.mem_cons.mp ha with ha | ha
    · cases ha
      exact (Dispatch.respects_serve (fun _ _ h => hsilent _ _ (.calm h)) hs call).bind hstop
    · exact h.queue id' a ha

lemma step_reader (h : n.Abides R) {p : Port} {rest : List (Ready σ ρ)}
    (hq : n.queue = .reader p :: rest) :
    n.step.Abides R ∧ n.step.world = { (n.world.receive p).collect with events := [] } := by
  have hrest : ({ n with queue := rest, world := n.world.receive p } : Network σ ρ).Abides R :=
    ⟨fun id a ha => h.queue id a (hq ▸ List.mem_cons_of_mem _ ha), h.parked⟩
  rw [Network.step, hq]
  exact absorbAll hsilent hs hrest

lemma step_task (hrefl : ∀ w, R w w) (htrans : ∀ w w' w'', R w w' → R w' w'' → R w w'')
    (h : n.Abides R) {id : Nat} {a : Activity σ (Option ρ)} {rest : List (Ready σ ρ)}
    (hq : n.queue = .task id a :: rest) :
    n.step.Abides R ∧ ∃ w, R n.world w ∧ n.step.world = { w.collect with events := [] } := by
  have ha : a.Respects R := h.queue id a (hq ▸ List.mem_cons_self)
  obtain ⟨hrun, hstop⟩ := (ha n.world).run hrefl htrans
  have hrest : ({ n with queue := rest, world := (a.run n.world).2 } : Network σ ρ).Abides R :=
    ⟨fun id a ha => h.queue id a (hq ▸ List.mem_cons_of_mem _ ha), h.parked⟩
  obtain ⟨hsettled, hworld⟩ := settleTask hsilent hs hrest id hstop
  obtain ⟨ho, hw⟩ := absorbAll hsilent hs hsettled
  rw [hworld] at hw
  rw [Network.step, hq]
  exact ⟨ho, _, hrun, hw⟩

end Abides

end Network

end ObjectBroker
