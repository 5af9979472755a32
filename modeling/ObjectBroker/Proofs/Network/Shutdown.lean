import ObjectBroker.Proofs.Connection.Unsolicited
import ObjectBroker.Proofs.Network.Pursuit
import ObjectBroker.Proofs.Network.Routes
import ObjectBroker.Resolution

/-!
Shutting a broker down. When it is over nobody waits on a connection that could be used before; the
broker has no connections, routes and servants any more, and refuses everything from then on.
-/

namespace ObjectBroker

variable {σ α ρ : Type}

namespace World

variable {w w' : World σ} {b : BrokerId} {ids : List Nat} {ports : List Port}

/-- A broker has been told to stop. Goodbye has been said on the connections `ids`, apart from
those where it still has to be. -/
structure Draining (w : World σ) (b : BrokerId) (ids : List Nat) (ports : List Port) : Prop where
  size : b < w.brokers.size
  leaving : (w.broker b).Leaving
  numbered : (w.broker b).Numbered
  here : ∀ p ∈ ports, p.broker = b ∧ ∃ c, w.connection? p = some c ∧ 2 ≤ c.state.rank
  ended : ∀ id ∈ ids, { broker := b, connection := id } ∈ ports ∨
    w.Over { broker := b, connection := id }

namespace Draining

lemma onward (h : w.Draining b ids ports) (ho : Onward b w w') : w'.Draining b ids ports := by
  obtain ⟨marks, hpath⟩ := ho.path
  refine ⟨Nat.lt_of_lt_of_le h.size ho.size, hpath.leaving h.leaving, (hpath.course h.numbered).2,
    fun p hp => ?_, fun id hid => (h.ended id hid).imp_right fun hover => ?_⟩
  · obtain ⟨rfl, c, hc, hrank⟩ := h.here p hp
    obtain ⟨d, hd, hstays⟩ := hpath.stays h.numbered hc
    exact ⟨rfl, d, hd, Nat.le_trans hrank hstays.rank⟩
  · obtain ⟨c, hc, hover⟩ := hover
    obtain ⟨d, hd, hdover, -⟩ := hpath.stays_over h.numbered hc hover
    exact ⟨d, hd, hdover⟩

lemma goodbyes (h : w.Draining b ids ports) {said left : List Port} (hsaid : said ⊆ ports)
    (hleft : left ⊆ ports) (hall : ∀ p ∈ ports, p ∈ said ∨ p ∈ left) :
    (said.foldl goodbye w).Draining b ids left := by
  have hover := over_goodbyes h.numbered fun p hp => h.here p (hsaid hp)
  have hafter := h.onward (.of_silent (Silent.foldl Silent.goodbye said w))
  refine ⟨hafter.size, hafter.leaving, hafter.numbered, fun p hp => hafter.here p (hleft hp),
    fun id hid => ?_⟩
  rcases hafter.ended id hid with hp | hp
  · exact (hall _ hp).symm.imp_right (hover _)
  · exact .inr hp

lemma release (h : w.Draining b ids ports) :
    (Closing.release ports w).2.Draining b ids (Closing.release ports w).1 := by
  refine h.goodbyes List.filter_sublist.subset List.filter_sublist.subset fun p hp => ?_
  cases hidle : Closing.isIdle w p with
  | true => exact .inl (List.mem_filter.mpr ⟨hp, hidle⟩)
  | false => exact .inr (List.mem_filter.mpr ⟨hp, by rw [hidle]; rfl⟩)

end Draining

structure Ended (w : World σ) (b : BrokerId) (ids : List Nat) : Prop where
  numbered : (w.broker b).Numbered
  stopped : (w.broker b).Stopped
  ended : ∀ id ∈ ids, w.Over { broker := b, connection := id }

lemma Ended.onward (h : w.Ended b ids) (ho : Onward b w w') : w'.Ended b ids := by
  obtain ⟨marks, hpath⟩ := ho.path
  refine ⟨(hpath.course h.numbered).2, hpath.stopped h.stopped, fun id hid => ?_⟩
  obtain ⟨c, hc, hover⟩ := h.ended id hid
  obtain ⟨d, hd, hdover, -⟩ := hpath.stays_over h.numbered hc hover
  exact ⟨d, hd, hdover⟩

end World

/-- What holds whatever the others do holds after an activity that does no more than they. -/
lemma Activity.Ensures.gentle {b : BrokerId} {Q : World σ → Prop}
    (hQ : ∀ w w', World.Onward b w w' → Q w → Q w') {a : Activity σ α} (h : a.MadeOf Gentle)
    {w : World σ} (hw : Q w) : a.Ensures (World.Onward b) (fun _ => Q) w := by
  induction h generalizing w with
  | base h =>
    cases h with
    | change f h => exact hQ _ _ (.of_silent (h w)) hw
    | wait wait deadline h => exact fun _ w' ho => hQ w w' ho hw
  | pure x => exact hw
  | bind _ _ iha ihf => exact (iha hw).bind fun x _ => ihf x
  | look f => exact hw
  | change f h => exact hQ _ _ (.of_silent (.calm (h w))) hw
  | outlet n => exact fun _ w' ho => hQ w w' ho hw

def Broker.established (b : Broker) : List Nat :=
  (b.connections.filter (·.isEstablished)).map (·.id)

namespace Closing

open World

def begun (b : BrokerId) (drained : Bool) (w : World σ) : List Port × World σ :=
  (portsOf b (w.broker b).listed).foldl (start drained)
    ([], holdAll (portsOf b (w.broker b).listed) (w.updateBroker b stop))

section Begun

variable {w : World σ} {b : BrokerId} (drained : Bool)

variable (hw : w.Sound) (hrun : (w.broker b).isRunning = true)
include hw

include hrun

end Begun

section Shutdown

variable {w : World σ} {b : BrokerId}

def settled (b : BrokerId) (w : World σ) : World σ :=
  w.updateBroker b fun broker => { broker with adapters := broker.adapters.shutdown }

end Shutdown

end Closing

def Call.Refused (c : Call σ α) (w : World σ) : Prop :=
  ∃ e : BrokerError, c.Evaluates w (.error e) w ∧ e.category = .cancelled

def BrokerError.Cancels (r : Except BrokerError α) : Prop :=
  ∃ e : BrokerError, r = .error e ∧ e.category = .cancelled

open BrokerError (Cancels)

/-- A broker refuses to do anything. -/
structure World.Refuses [Servant σ] (w : World σ) (b : BrokerId) : Prop where
  invoke : ∀ target operation args,
    (Invocation.invoke b target operation args : Call σ Outcome).Refused w
  invokeOneway : ∀ target operation args,
    (Invocation.invokeOneway b target operation args : Call σ Unit).Refused w
  locate : ∀ target, (Invocation.locate b target : Call σ Bool).Refused w
  resolve : ∀ text locator, Locator.parse text = .ok locator →
    (Resolution.resolve b text : Call σ Reference).Refused w
  attach : ∀ role peer inbound outbound, Cancels (w.attach b role peer inbound outbound)
  createAdapter : ∀ name isBidirectional, Cancels ((w.broker b).createAdapter name isBidirectional)
  activate : ∀ name a id n, (w.broker b).adapters.get? name = some a →
    (∀ text ∈ id, Adapter.isPlain text = true) → Cancels (w.activate b a id n)

namespace Broker.Stopped

variable {w : World σ} {b : BrokerId}

lemma cancels_ensureRunning {broker : Broker} (h : broker.Stopped) :
    Cancels broker.ensureRunning := by
  rw [ensureRunning, h.isRunning]
  exact ⟨_, rfl, rfl⟩

lemma cancels_insert {a : Adapter} (h : a.isRunning = false) (id : String) (n : ObjectId) :
    Cancels (a.insert id n) := by
  rw [Adapter.insert, h]
  exact ⟨_, rfl, rfl⟩

lemma refused_bind (h : (w.broker b).Stopped) (f : Broker → Call σ α) :
    Call.Refused (Invocation.ensureRunning b >>= f) w := by
  obtain ⟨e, he, hcategory⟩ := h.cancels_ensureRunning
  refine ⟨e, .bind_error (.bind (.lift (.broker b w)) (.bind_error ?_)), hcategory⟩
  rw [he]
  exact .throw e w

lemma refuses [Servant σ] (h : (w.broker b).Stopped) : w.Refuses b where
  invoke _ _ _ := h.refused_bind _
  invokeOneway _ _ _ := h.refused_bind _
  locate _ := h.refused_bind _
  resolve text locator hl := by
    obtain ⟨e, he, hcategory⟩ : (Resolution.ofLocator b locator : Call σ Reference).Refused w :=
      h.refused_bind _
    refine ⟨e, .bind (a := locator) ?_ he, hcategory⟩
    rw [hl]
    exact .pure locator w
  attach role peer inbound outbound := by
    obtain ⟨e, he, hcategory⟩ := h.cancels_ensureRunning
    refine ⟨e, ?_, hcategory⟩
    rw [World.attach, he]
    rfl
  createAdapter name isBidirectional := by
    obtain ⟨e, he, hcategory⟩ := h.cancels_ensureRunning
    refine ⟨e, ?_, hcategory⟩
    rw [Broker.createAdapter, he]
    rfl
  activate name a id n ha hid := by
    have hstopped := (h.adapters a (Directory.mem_of_get? ha)).1
    cases id with
    | none =>
      obtain ⟨e, he, hcategory⟩ := cancels_insert hstopped (toString a.nextId) n
      refine ⟨e, ?_, hcategory⟩
      rw [World.activate, Adapter.activate, hstopped, if_neg Bool.false_ne_true, he]
      rfl
    | some id =>
      obtain ⟨e, he, hcategory⟩ := cancels_insert hstopped id n
      refine ⟨e, ?_, hcategory⟩
      rw [World.activate, Adapter.activateWithId, if_pos (hid id rfl), he]
      rfl

end Broker.Stopped

namespace Network

/-- Nobody is waited for at a port, and whoever waits there finds its answer. -/
structure Answered (n : Network σ ρ) (p : Port) : Prop where
  pending : ∃ c, n.world.connection? p = some c ∧ c.pending = []
  isMet : ∀ id x deadline next, (id, .await (.response p x) deadline next) ∈ n.tasks →
    (Wait.response p x).isMet n.world = true

lemma Attended.answered {n : Network σ ρ} {seat : Nat → Option Seat} (h : n.Attended seat) {p : Port}
    (hp : n.world.Over p) : n.Answered p := by
  obtain ⟨c, hc, hover⟩ := hp
  refine ⟨⟨c, hc, hover.pending⟩, fun id x deadline next ht => ?_⟩
  obtain ⟨request, hkeeps⟩ := h.keeps_response ht
  obtain ⟨d, hd, -, hknown⟩ := hkeeps.exists_held
  obtain rfl := Option.some.inj (hc.symm.trans hd)
  rw [Ticket.Known, Ticket.Pending, hover.pending] at hknown
  rw [Wait.isMet, hc]
  exact hknown.resolve_left List.not_mem_nil

section Ringing

/-! A call that is never answered, while its broker is shut down. There may be no room for its
request on the stream. -/

def ring : Activity Empty (Option Bool) := do
  let target : Reference := { typeId := "", endpoint := offered, key := Utf8.encode "bell" }
  let _ ← (Invocation.invoke 0 target "ring" (.new .bigEndian 8)).run
  return none

def unconnected (room : Nat) : World Empty :=
  { (({} : World Empty).addBroker (.new "a" { name := "a", order := .bigEndian })).2 with
    pipes := #[{}, { reader := some { broker := 1, connection := 1 }, room }] }

def connected (room : Nat) : World Empty :=
  (((unconnected room).attach 0 .initiator offered 0 1).toOption.map (·.2)).getD (unconnected room)

def calling (room : Nat) : Network Empty Bool :=
  ({ world := connected room : Network Empty Bool }.absorbAll.start ring).2.step.step.step

def closing (room : Nat) (drained : Bool) : Network Empty Bool :=
  ((calling room).start do return some (← Closing.shutdown 0 drained)).2

def closed (room : Nat) (drained : Bool) : Network Empty Bool :=
  ((closing room drained).step.setTime 5000).step

end Ringing

variable [Servant σ]

end Network

end ObjectBroker
