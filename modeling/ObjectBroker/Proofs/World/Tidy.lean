import ObjectBroker.Proofs.World.Beside

/-!
Worlds in which nothing is left over: whoever lets go what nobody holds finds nothing to let go. So
they stay while brokers talk over connections that are being read.
-/

namespace ObjectBroker

namespace World

variable {σ : Type} [Servant σ] {w w' : World σ} {P : Port → Prop} {s : BrokerId}

structure Tidy (w : World σ) : Prop where
  brokers : w.unheldBrokers = []
  connections : ∀ b, w.unheldConnections b = []

lemma Tidy.collect (h : w.Tidy) : w.collect = w := by
  have hretire : ∀ rounds, w.retireUnheld rounds = w := by
    intro rounds
    cases rounds with
    | zero => rfl
    | succ rounds => rw [retireUnheld, h.brokers]
  have hrelease : ∀ ids : List BrokerId, ids.foldl releaseStreams w = w := by
    intro ids
    induction ids with
    | nil => rfl
    | cons b ids ih =>
      have hb : w.releaseStreams b = w := by
        rw [releaseStreams, h.connections b]
        rfl
      rw [List.foldl_cons, hb]
      exact ih
  rw [World.collect, hretire]
  exact hrelease _

section Held

variable (hw : Beside P s w w') (hh : ∀ x ∈ w.holdings, x ∈ w'.holdings)

include hw hh

omit [Servant σ] in
lemma isObjectHeld_beside {n : ObjectId} (h : w.isObjectHeld n = true) :
    w'.isObjectHeld n = true := by
  rw [isObjectHeld, Bool.or_eq_true] at h ⊢
  rcases h with h | h
  · exact .inl (List.contains_iff_mem.mpr (hh _ (List.contains_iff_mem.mp h)))
  · right
    rw [Array.any_eq_true] at h ⊢
    obtain ⟨b, hb, hkeeps⟩ := h
    have hb' : b < w'.brokers.size := hw.size.symm ▸ hb
    have hfound : w.broker b = w.brokers[b] := by
      rw [broker, Array.getElem?_eq_getElem hb]
      rfl
    have hfound' : w'.broker b = w'.brokers[b] := by
      rw [broker, Array.getElem?_eq_getElem hb']
      rfl
    have hkin := hw.kin b
    rw [hfound, hfound'] at hkin
    refine ⟨b, hb', ?_⟩
    rw [hkin.isAlive, Broker.keeps, hkin.naming, hkin.adapters]
    exact hkeeps

lemma isBrokerHeld_beside (ho : w'.objects.map Object.brokers = w.objects.map Object.brokers)
    {b : BrokerId} (h : w.isBrokerHeld b = true) : w'.isBrokerHeld b = true := by
  rw [isBrokerHeld, Bool.or_eq_true] at h ⊢
  rcases h with h | h
  · exact .inl (List.contains_iff_mem.mpr (hh _ (List.contains_iff_mem.mp h)))
  · right
    rw [List.any_eq_true] at h ⊢
    obtain ⟨n, hn, hheld⟩ := h
    rw [Bool.and_eq_true] at hheld
    have hsize : w'.objects.size = w.objects.size := by
      have hmap := congrArg Array.size ho
      rwa [Array.size_map, Array.size_map] at hmap
    have hbrokers : w'.objects[n]?.map Object.brokers = w.objects[n]?.map Object.brokers := by
      rw [← Array.getElem?_map, ← Array.getElem?_map, ho]
    have hany : ∀ o : Option (Object σ), (o.any fun o => o.brokers.contains b) =
        (o.map Object.brokers).any fun ids => ids.contains b := by
      intro o
      cases o <;> rfl
    refine ⟨n, hsize.symm ▸ hn, ?_⟩
    rw [Bool.and_eq_true, hany, hbrokers, ← hany]
    exact ⟨isObjectHeld_beside hw hh hheld.1, hheld.2⟩

omit [Servant σ] in
lemma isConnectionHeld_beside {b : BrokerId} {c : Connection}
    (h : w.isConnectionHeld b c = true) : w'.isConnectionHeld b c = true := by
  rw [isConnectionHeld, Bool.or_eq_true, Bool.or_eq_true] at h ⊢
  rcases h with (h | h) | h
  · exact .inl (.inl h)
  · exact .inl (.inr (List.contains_iff_mem.mpr (hh _ (List.contains_iff_mem.mp h))))
  · rw [(hw.kin b).isAlive, (hw.kin b).table]
    exact .inr h

end Held

omit [Servant σ] in
lemma Beside.numbered (hw : Beside P s w w') {b : BrokerId} (h : (w.broker b).Numbered) :
    (w'.broker b).Numbered := by
  have hlast : (w'.broker b).lastConnection = (w.broker b).lastConnection :=
    (hw.kin b).bare_eq Broker.lastConnection
  refine ⟨?_, ?_⟩
  · rw [hw.ids b, hlast]
    exact h.le_last
  · rw [hw.ids b]
    exact h.nodup

lemma Tidy.beside (h : w.Tidy) (hn : ∀ b, (w.broker b).Numbered)
    (hw : Beside P s w w') (hh : ∀ x ∈ w.holdings, x ∈ w'.holdings)
    (ho : w'.objects.map Object.brokers = w.objects.map Object.brokers)
    (hP : ∀ p, P p → ∃ c, w'.connection? p = some c ∧ c.isReading = true) : w'.Tidy where
  brokers := by
    rw [unheldBrokers, List.filter_eq_nil_iff]
    intro b hb hun
    rw [Bool.and_eq_true, Bool.not_eq_true'] at hun
    have hb' : b ∈ List.range w.brokers.size := hw.size ▸ hb
    have hheld := List.filter_eq_nil_iff.mp h.brokers b hb'
    rw [← (hw.kin b).isAlive, hun.1, Bool.true_and, Bool.not_eq_true', Bool.not_eq_false] at hheld
    rw [isBrokerHeld_beside hw hh ho hheld] at hun
    exact Bool.noConfusion hun.2
  connections b := by
    rw [unheldConnections, List.filter_eq_nil_iff]
    intro c hc hun
    rw [Bool.and_eq_true, Bool.not_eq_true', Bool.not_eq_true'] at hun
    have hfound : w'.connection? { broker := b, connection := c.id } = some c :=
      (hw.numbered (hn b)).connection?_of_mem (List.mem_reverse.mp hc)
    by_cases hp : P { broker := b, connection := c.id }
    · -- It is being read, and so held by its reader.
      obtain ⟨d, hd, hreading⟩ := hP _ hp
      obtain rfl : c = d := Option.some.inj (hfound.symm.trans hd)
      have hstate : c.readerState = .reading := beq_iff_eq.mp hreading
      have hheld : w'.isConnectionHeld b c = true := by
        rw [isConnectionHeld, hstate]
        rfl
      rw [hheld] at hun
      exact Bool.noConfusion hun.2
    · have hbefore : w.connection? { broker := b, connection := c.id } = some c :=
        (hw.connection _ hp).symm.trans hfound
      have hmem : c ∈ (w.broker b).connections.reverse :=
        List.mem_reverse.mpr (List.mem_of_find?_eq_some hbefore)
      have hheld := List.filter_eq_nil_iff.mp (h.connections b) c hmem
      rw [hun.1, Bool.not_false, Bool.true_and, Bool.not_eq_true', Bool.not_eq_false] at hheld
      rw [isConnectionHeld_beside hw hh hheld] at hun
      exact Bool.noConfusion hun.2

end World

end ObjectBroker
