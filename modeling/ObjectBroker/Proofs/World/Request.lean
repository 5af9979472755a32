import ObjectBroker.Proofs.World.Receipt

/-!
Sending a request and taking its reply, on a connection whose stream has a reader at its end.
-/

namespace ObjectBroker

namespace Connection

def enrolled (c : Connection) : Connection :=
  { c.track with
    nextRequest := c.nextRequest + 2, nextWaiter := c.nextWaiter + 1,
    pending := (c.nextRequest, c.nextWaiter) :: c.pending }

lemma register_track {c : Connection} (h : c.pending.lookup c.nextRequest = none) :
    c.track.register = (c.nextRequest, c.nextWaiter, c.enrolled) := by
  have htracked : c.track.takeRequestId.2.pending.lookup c.track.nextRequest = none := h
  rw [register]
  dsimp only [takeRequestId] at htracked ⊢
  rw [htracked]
  rfl

lemma kin_enrolled (c : Connection) : c.Kin c.enrolled := rfl

end Connection

namespace World

variable {σ : Type} {w : World σ} {p q : Port} {c d : Connection} {P : Port → Prop} {s : BrokerId}
  {ms : List Message}

lemma Wire.sendTracked (h : w.Wire c d q ms) (hc : w.Has p c) (he : c.isEstablished = true)
    (hfree : c.pending.lookup c.nextRequest = none) (message : UInt32 → Message)
    (hm : Passes d c (message c.nextRequest)) (hp : P p) (hq : P q) :
    ∃ w', w.sendTracked p message = (.ok (c.nextRequest, c.nextWaiter), w') ∧
      w'.Has p c.enrolled ∧ Stirs P s [] [.readable q] w w' ∧ Wire.Kept p q w w' ∧
      w'.Wire c.enrolled d q (ms ++ [message c.nextRequest]) := by
  let v := (w.track p).updateConnection p fun _ => c.enrolled
  have hv : v.Has p c.enrolled := hc.track.update rfl
  have hregister : (w.track p).register p = some (c.nextRequest, c.nextWaiter, v) := by
    have hnotify : v.notifyWaiters p [] = v := by
      rw [notifyWaiters, List.map_nil, List.append_nil]
    have htracked : c.track.pending.lookup c.nextRequest = none := hfree
    rw [register, hc.track.found, Option.bind_eq_bind, Option.bind_some,
      Connection.register_track hfree]
    dsimp only
    rw [htracked]
    exact congrArg (fun w => some (c.nextRequest, c.nextWaiter, w)) hnotify
  have hwire : v.Wire c.enrolled d q ms := h.of_pipes rfl c.kin_enrolled (.refl d) rfl
  obtain ⟨w', hsend, hbrokers, hstirs, hkept, hwire'⟩ :=
    hwire.send hv.found (hm.kin c.kin_enrolled (.refl d)) hq
  have hcheck : c.enrolled.checkOpen = .ok () := by
    have hstate : c.enrolled.state = .established := beq_iff_eq.mp he
    rw [Connection.checkOpen, hstate]
  have hopen : v.sendOpen p (message c.nextRequest) = (.ok (), w') := by
    rw [sendOpen, hv.found, Option.map_some, hcheck]
    exact hsend
  have hstirs' : ∀ {P : Port → Prop}, P p → Stirs P s [] [] w v := by
    intro P hp
    have htrack : Stirs P s [] [] w (w.track p) := .updateConnection hp fun _ h => h
    have hplace : Stirs P s [] [] (w.track p) v := .updateConnection hp fun _ _ => hc.id_eq
    exact htrack.trans hplace
  refine ⟨w', ?_, hv.of_brokers hbrokers, ?_, ⟨fun c' d' r ms' hr h' => ?_, fun r c' hr h' => ?_⟩,
    hwire'⟩
  · rw [World.sendTracked, hregister]
    dsimp only
    rw [hopen]
  · exact (hstirs' hp).trans hstirs
  · exact hkept.wires c' d' r ms' hr (h'.of_pipes rfl (.refl c') (.refl d') rfl)
  · have hbeside : Beside (· = p) s w v := (hstirs' (P := (· = p)) rfl).toBeside
    exact (h'.beside hbeside hr).of_brokers hbrokers

lemma Has.count (h : w.Has p c) (b : BrokerId) (f : Stats → Stats) : (w.count b f).Has p c := by
  have hconnections : ((w.count b f).broker p.broker).connections =
      (w.broker p.broker).connections := by
    rw [World.count, broker_updateBroker]
    split <;> rfl
  refine ⟨?_, ?_⟩
  · rw [connection?, Broker.connection?, hconnections]
    exact h.found
  · rw [(w.kin_count b f p.broker).isAlive]
    exact h.alive

def landed (w : World σ) (p : Port) (waiter : WaiterId) : World σ :=
  ((w.updateConnection p (·.takeResponse waiter)).untrack p).count p.broker fun s =>
    { s with replies := s.replies + 1 }

lemma Stirs.untrack (w : World σ) (hp : P p) :
    ∃ events, (events = [] ∨ events = [.idle p]) ∧ Stirs P s [] events w (w.untrack p) := by
  rw [World.untrack]
  split
  · exact ⟨[], .inl rfl, .refl w⟩
  · have hupdate : Stirs P s [] [] w (w.updateConnection p Connection.untrack) :=
      .updateConnection hp fun _ h => h
    dsimp only
    split
    · exact ⟨[.idle p], .inr rfl, hupdate.trans (.emit _ _)⟩
    · exact ⟨[], .inl rfl, hupdate⟩

lemma Stirs.landed (w : World σ) (hp : P p) (waiter : WaiterId) :
    ∃ events, (events = [] ∨ events = [.idle p]) ∧
      Stirs P s [] events w (w.landed p waiter) := by
  have htake : Stirs P s [] [] w (w.updateConnection p (·.takeResponse waiter)) :=
    .updateConnection hp fun _ h => h
  obtain ⟨events, hevents, huntrack⟩ := Stirs.untrack (s := s)
    (w.updateConnection p (·.takeResponse waiter)) hp
  have hcount := (htake.trans huntrack).trans (.count _ p.broker fun s =>
    { s with replies := s.replies + 1 })
  simp only [List.nil_append, List.append_nil] at hcount
  exact ⟨events, hevents, hcount⟩

lemma Has.landed (h : w.Has p c) (waiter : WaiterId) :
    (w.landed p waiter).Has p (c.takeResponse waiter).untrack := by
  have htake : (w.updateConnection p (·.takeResponse waiter)).Has p (c.takeResponse waiter) :=
    h.update rfl
  exact htake.untrack.count p.broker _

lemma pipes_landed (w : World σ) (p : Port) (waiter : WaiterId) :
    (w.landed p waiter).pipes = w.pipes :=
  pipes_untrack _ p

end World

end ObjectBroker
