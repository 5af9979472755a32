import ObjectBroker.Proofs.Dispatch.Question
import ObjectBroker.Proofs.World.Delivery

/-!
What stays as it is while brokers talk over some of their connections: the brokers themselves, their
other connections and the streams that others read.
-/

namespace ObjectBroker

variable {σ : Type} {w w' w'' : World σ} {p q : Port} {b : BrokerId}

namespace World

lemma pipe_setPipe (w : World σ) (n : Nat) (pipe : Pipe) (k : Nat) :
    (w.setPipe n pipe).pipe k = if n = k ∧ n < w.pipes.size then pipe else w.pipe k := by
  rw [World.pipe, World.pipe, setPipe, Array.getElem?_setIfInBounds]
  by_cases hk : n = k
  · subst hk
    by_cases hn : n < w.pipes.size
    · simp [hn]
    · simp [hn]
  · simp [hk]

structure Beside (P : Port → Prop) (s : BrokerId) (w w' : World σ) : Prop where
  size : w'.brokers.size = w.brokers.size
  kin : ∀ b, (w.broker b).Kin (w'.broker b)
  ids : ∀ b, (w'.broker b).connections.map (·.id) = (w.broker b).connections.map (·.id)
  routes : ∀ b, b ≠ s → (w'.broker b).routes = (w.broker b).routes
  connection : ∀ p, ¬ P p → w'.connection? p = w.connection? p
  pipes : w'.pipes.size = w.pipes.size
  isClosed : ∀ n, (w'.pipe n).isClosed = (w.pipe n).isClosed
  reader : ∀ n, (w'.pipe n).reader = (w.pipe n).reader
  chunks : ∀ n, (∀ p, (w.pipe n).reader = some p → ¬ P p) → (w'.pipe n).chunks = (w.pipe n).chunks

namespace Beside

variable {P P' : Port → Prop} {s : BrokerId}

lemma of_same (hb : w'.brokers = w.brokers) (hp : w'.pipes = w.pipes) :
    Beside P s w w' := by
  have hbroker := broker_of_brokers hb
  have hpipe := pipe_of_pipes hp
  refine ⟨congrArg _ hb, fun b => ?_, fun b => ?_, fun b _ => ?_, fun p _ => ?_, congrArg _ hp,
    fun n => ?_, fun n => ?_, fun n _ => ?_⟩
  · rw [hbroker]
    exact .refl _
  · rw [hbroker]
  · rw [hbroker]
  · rw [connection?, hbroker, connection?]
  · rw [hpipe]
  · rw [hpipe]
  · rw [hpipe]

lemma refl (w : World σ) : Beside P s w w := of_same rfl rfl

lemma unhold (w : World σ) (y : Holding) : Beside P s w (w.unhold y) := of_same rfl rfl

lemma trans (h : Beside P s w w') (h' : Beside P s w' w'') : Beside P s w w'' where
  size := h'.size.trans h.size
  kin b := (h.kin b).trans (h'.kin b)
  ids b := (h'.ids b).trans (h.ids b)
  routes b hb := (h'.routes b hb).trans (h.routes b hb)
  connection p hp := (h'.connection p hp).trans (h.connection p hp)
  pipes := h'.pipes.trans h.pipes
  isClosed n := (h'.isClosed n).trans (h.isClosed n)
  reader n := (h'.reader n).trans (h.reader n)
  chunks n hn := by
    refine (h'.chunks n fun p hp => hn p ?_).trans (h.chunks n hn)
    rw [← h.reader n]
    exact hp

lemma mono (h : Beside P s w w') (hP : ∀ p, P p → P' p) : Beside P' s w w' where
  size := h.size
  kin := h.kin
  ids := h.ids
  routes := h.routes
  connection p hp := h.connection p fun hp' => hp (hP p hp')
  pipes := h.pipes
  isClosed := h.isClosed
  reader := h.reader
  chunks n hn := h.chunks n fun p hp hp' => hn p hp (hP p hp')

lemma updateBroker {f : Broker → Broker} (hk : ∀ b : Broker, b.Kin (f b))
    (hi : ∀ b : Broker, (f b).connections.map (·.id) = b.connections.map (·.id))
    (hr : b ≠ s → ∀ b : Broker, (f b).routes = b.routes)
    (hc : ∀ id, ¬ P { broker := b, connection := id } →
      (f (w.broker b)).connection? id = (w.broker b).connection? id) :
    Beside P s w (w.updateBroker b f) := by
  refine ⟨Array.size_modify, fun b' => ?_, fun b' => ?_, fun b' hb => ?_, fun p hp => ?_, rfl,
    fun _ => rfl, fun _ => rfl, fun _ _ => rfl⟩
  · rw [broker_updateBroker]
    split
    · exact hk _
    · exact .refl _
  · rw [broker_updateBroker]
    split
    · exact hi _
    · rfl
  · rw [broker_updateBroker]
    split
    · next h =>
      obtain ⟨rfl, -⟩ := h
      exact hr hb _
    · rfl
  · rw [connection?, broker_updateBroker, connection?]
    split
    · next h =>
      obtain ⟨rfl, -⟩ := h
      exact hc p.connection hp
    · rfl

lemma count (w : World σ) (b : BrokerId) (f : Stats → Stats) : Beside P s w (w.count b f) :=
  updateBroker (fun _ => rfl) (fun _ => rfl) (fun _ _ => rfl) fun _ _ => rfl

lemma updateConnection (hp : P p) {f : Connection → Connection}
    (hf : ∀ c, c.id = p.connection → (f c).id = p.connection) :
    Beside P s w (w.updateConnection p f) := by
  refine updateBroker (fun _ => rfl) (fun b => b.ids_update hf) (fun _ _ => rfl) fun id hid => ?_
  rw [Broker.connection?_update_map _ hf]
  cases hc : (w.broker p.broker).connection? id with
  | none => rfl
  | some c =>
    have hne : ¬ c.id = p.connection := by
      intro h
      rw [Broker.id_of_connection? hc] at h
      rw [h] at hid
      exact hid hp
    exact congrArg some (if_neg hne)

lemma setChunks {n : Nat} (hn : ∃ p, (w.pipe n).reader = some p ∧ P p) (chunks : List Octets) :
    Beside P s w (w.setPipe n { w.pipe n with chunks }) := by
  have hother : ∀ k, n ≠ k → (w.setPipe n { w.pipe n with chunks }).pipe k = w.pipe k := by
    intro k hk
    rw [pipe_setPipe, if_neg fun h => hk h.1]
  refine ⟨rfl, fun _ => .refl _, fun _ => rfl, fun _ _ => rfl, fun _ _ => rfl,
    Array.size_setIfInBounds, fun k => ?_, fun k => ?_, fun k hk => ?_⟩
  · rw [pipe_setPipe]
    split
    · next h => rw [h.1]
    · rfl
  · rw [pipe_setPipe]
    split
    · next h => rw [h.1]
    · rfl
  · refine congrArg _ (hother k ?_)
    rintro rfl
    obtain ⟨p, hreader, hp⟩ := hn
    exact hk p hreader hp

lemma takeOffer (hq : P q) {c : Connection} (hc : c.id = q.connection)
    (contexts : List ServiceContext) :
    Beside P q.broker w (w.updateBroker q.broker (·.takeOffer c contexts)) := by
  have hregister : ∀ (points : List Endpoint) (broker : Broker),
      broker.Kin (broker.registerPoints c.id points) ∧
      (broker.registerPoints c.id points).connections.map (·.id) = broker.connections.map (·.id) ∧
      ∀ id, id ≠ q.connection →
        (broker.registerPoints c.id points).connection? id = broker.connection? id := by
    intro points broker
    rw [Broker.registerPoints]
    split
    · exact ⟨.refl _, rfl, fun _ _ => rfl⟩
    · obtain ⟨routes, stats, hb⟩ := broker.foldl_registerPoint c.id points
      rw [hb]
      refine ⟨rfl, ?_, fun id hid => ?_⟩
      · exact Broker.ids_update _ fun _ h => h
      · rw [Broker.connection?_update_map (f := fun c => { c with isBidirectional := true }) _
          fun _ h => h, Broker.connection?]
        cases hd : broker.connections.find? (·.id == id) with
        | none => simp [hd, Broker.connection?]
        | some d =>
          have hne : ¬ d.id = c.id := by
            rw [Broker.id_of_connection? hd, hc]
            exact hid
          simp [hd, Broker.connection?, hne]
  have hoffer : ∀ broker : Broker, broker.Kin (broker.takeOffer c contexts) ∧
      (broker.takeOffer c contexts).connections.map (·.id) = broker.connections.map (·.id) ∧
      ∀ id, id ≠ q.connection →
        (broker.takeOffer c contexts).connection? id = broker.connection? id := by
    intro broker
    rw [Broker.takeOffer]
    split
    · split
      · exact hregister _ broker
      · exact ⟨.refl _, rfl, fun _ _ => rfl⟩
    · exact ⟨.refl _, rfl, fun _ _ => rfl⟩
  refine updateBroker (fun b => (hoffer b).1) (fun b => (hoffer b).2.1) (fun h => absurd rfl h) ?_
  intro id hid
  refine (hoffer _).2.2 id ?_
  rintro rfl
  exact hid hq

end Beside

lemma Has.beside {P : Port → Prop} {s : BrokerId} {c : Connection} (h : w.Has p c)
    (hw : Beside P s w w') (hp : ¬ P p) : w'.Has p c := by
  refine ⟨(hw.connection p hp).trans h.found, ?_⟩
  rw [(hw.kin p.broker).isAlive]
  exact h.alive

end World

end ObjectBroker
