import ObjectBroker.Proofs.World.Path

/-!
Whatever happens in a world, each of its brokers takes its course.
-/

namespace ObjectBroker

namespace World

variable {σ : Type} {w w' w'' : World σ} {p : Port} {b : BrokerId}

structure Leads (w w' : World σ) : Prop where
  size : w.brokers.size ≤ w'.brokers.size
  course : ∀ b < w.brokers.size, (w.broker b).Numbered →
    ∃ claims, (w.broker b).Course claims (w'.broker b)

namespace Leads

lemma of_follows {marks : BrokerId → List Broker.Mark} (h : w.Follows marks w') : w.Leads w' :=
  ⟨Nat.le_of_eq h.size.symm, fun b _ hb => ⟨_, ((h.path b).course hb).1⟩⟩

lemma of_silent (h : w.Silent w') : w.Leads w' :=
  of_follows h

lemma of_quiet (h : w.Quiet w') : w.Leads w' := by
  obtain ⟨marks, -, h⟩ := h
  exact of_follows h

lemma trans (h : w.Leads w') (h' : w'.Leads w'') : w.Leads w'' := by
  refine ⟨Nat.le_trans h.size h'.size, fun b hsize hb => ?_⟩
  obtain ⟨claims, hc⟩ := h.course b hsize hb
  obtain ⟨more, hm⟩ := h'.course b (Nat.lt_of_lt_of_le hsize h.size) (hc.numbered hb)
  exact ⟨claims ++ more, hc.trans hm⟩

lemma of_brokers (h : w'.brokers = w.brokers) : w.Leads w' :=
  of_silent (.of_brokers h)

lemma refl (w : World σ) : w.Leads w :=
  of_brokers rfl

lemma turn {f : Broker → Broker} (h : ∃ claims, (w.broker b).Course claims (f (w.broker b))) :
    w.Leads (w.updateBroker b f) := by
  refine ⟨Nat.le_of_eq Array.size_modify.symm, fun b' _ _ => ?_⟩
  rw [broker_updateBroker]
  split
  · next hb' =>
    obtain ⟨rfl, -⟩ := hb'
    exact h
  · exact ⟨[], .refl⟩

section Connections

variable (w : World σ) (p : Port)

lemma acceptRequest (c : Connection) (r : Request) (order : ByteOrder) :
    w.Leads (w.acceptRequest p c r order) := by
  have hoffer : w.Leads (w.updateBroker p.broker fun b => b.takeOffer c r.contexts) := by
    refine turn ?_
    rw [Broker.takeOffer]
    split
    · split
      · next points _ =>
        by_cases ha : (w.broker p.broker).config.acceptBidirectional = true
        · exact ⟨_, (Broker.Turn.register c.id points ha).course⟩
        · rw [Bool.not_eq_true] at ha
          rw [Broker.registerPoints, ha]
          exact ⟨[], .refl⟩
      · exact ⟨[], .refl⟩
    · exact ⟨[], .refl⟩
  exact hoffer.trans (of_silent ((Silent.track _ p).trans (.of_brokers rfl)))

lemma take (c : Connection) (order : ByteOrder) (m : Message) :
    w.Leads (w.take p c order m) := by
  cases m with
  | request r =>
    by_cases ha : (w.broker p.broker).isAlive = true
    · rw [take_request ha]
      exact acceptRequest w p c r order
    · simp only [World.take, handle, ha]
      exact of_silent (.finish w p .brokerGone)
  | locateRequest id key => exact of_brokers rfl
  | cancelRequest id => exact .refl w
  | reply r => exact of_silent (.complete w p r.id _)
  | locateReply id status => exact of_silent (.complete w p id _)
  | closeConnection => exact of_silent (.finish w p .peerClosed)
  | messageError => exact of_silent (.finish w p .peerError)
  | fragment id more data => exact of_silent (.finish w p (.violation (.unexpectedFragment id)))

lemma readNext (c : Connection) : w.Leads (w.readNext p c).2 :=
  of_silent (.readNext w p c)

lemma receive : w.Leads (w.receive p) :=
  of_follows (follows_receive w p)

lemma sendTracked (message : UInt32 → Message) : w.Leads (w.sendTracked p message).2 :=
  of_silent (.sendTracked w p message)

end Connections

lemma attach {role : Role} {peer : Endpoint} {inbound outbound : Nat}
    (h : w.attach b role peer inbound outbound = .ok (p, w')) : w.Leads w' :=
  of_follows (follows_attach h)

lemma collect [Servant σ] (w : World σ) : w.Leads w.collect :=
  of_silent (.collect w)

end Leads

end World

end ObjectBroker
