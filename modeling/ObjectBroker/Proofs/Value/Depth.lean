import ObjectBroker.Proofs.Value.Counter
import ObjectBroker.Proofs.Value.Refusal

/-! The limit of nested levels. A value needs as many levels as its walk has, to be written and to
be read again, and with fewer it is refused. -/

namespace ObjectBroker

open Marshalling

section

variable {h : Heap} {R : Registry} {order : ByteOrder} {limit limit' : Nat} {n : Option NodeId}
  {M : Marshaller}

lemma refuses_nothing (hh : h.WellTyped) (hn : ∀ k ∈ n, (h.get? k).isSome)
    (hR : ∀ k i, h.Reaches n.toList k → h.get? k = some i → R.Makes i.type) :
    ∀ x ∈ h.walkFrom n, R.refuses h x.2 = none := by
  intro x hx
  have hreach := Heap.reaches_of_mem_walkFrom hx
  obtain ⟨i, hi⟩ := Heap.exists_of_reaches hh (fun k hk => hn k (Option.mem_toList.mp hk)) hreach
  exact Registry.refuses_eq_none hi (hR x.2 i hreach hi)

lemma read_accepted (home : Option Endpoint) (g : Heap) (hh : h.WellTyped)
    (hn : ∀ k ∈ n, (h.get? k).isSome)
    (hw : (Marshaller.new order limit).run (Marshalling.value h n) = (.ok (), M))
    (hlen : M.octets.length < 2 ^ 31)
    (hR : ∀ k i, h.Reaches n.toList k → h.get? k = some i → R.Makes i.type)
    (hd : h.depth n ≤ limit') :
    ∃ u f, { Unmarshaller.new order M.octets R limit' home with heap := g }.run
        Unmarshalling.value = (.ok (n.map f), u) ∧
      Heap.Isomorphic f h n.toList u.heap (n.toList.map f) := by
  have hfst := run_value_fst h order limit' n
  rw [if_pos hd] at hfst
  rcases hw' : (Marshaller.new order limit').run (Marshalling.value h n) with ⟨e | _, M'⟩
  · rw [hw'] at hfst
    cases hfst
  -- The reader follows a writer that has its own limit.
  have hg := ends_valueAt h limit' n (Marshaller.new order limit')
  rw [show (Marshaller.new order limit').run (valueAt h limit' n) = _ from hw'] at hg
  rw [← Body.octets_eq_of_limits (Body.write_withLimit h (.value n)) hw hw'] at hlen ⊢
  obtain ⟨u, hu, ha⟩ := Body.exists_advance hg hw' hlen fun hM =>
    Body.copies_value hM hh (Body.serves_of_reaches hg hR) hg.limit.le hn
  exact ⟨u, _, hu, Body.isomorphic_of_advance hg ha⟩

lemma read_tooDeep (home : Option Endpoint) (g : Heap) (hh : h.WellTyped)
    (hn : ∀ k ∈ n, (h.get? k).isSome)
    (hw : (Marshaller.new order limit).run (Marshalling.value h n) = (.ok (), M))
    (hlen : M.octets.length < 2 ^ 31)
    (hR : ∀ k i, h.Reaches n.toList k → h.get? k = some i → R.Makes i.type)
    (hd : limit' < h.depth n) :
    ∃ u, { Unmarshaller.new order M.octets R limit' home with heap := g }.run
      Unmarshalling.value = (.error (.tooDeep limit'), u) := by
  refine read_refused hh hn hw hlen (fun k i hk hi => .inl (hR k i hk hi)) ?_
  rw [Heap.findSome?_refusal (refuses_nothing hh hn hR), if_neg (Nat.not_le.2 hd)]

end

/-- A value needs the levels of its walk. With as many it is written, and what was written is read;
with fewer it is refused on either side. A counter of the levels shows the same and stands in the
end, also after a refusal, where it stood before. -/
theorem Heap.depth_needed (h : Heap) (n : Option NodeId) :
    (∀ order limit, ((Marshaller.new order limit).run (Marshalling.value h n)).1 =
      if h.depth n ≤ limit then .ok () else .error (.tooDeep limit)) ∧
    (∀ order limit limit' M R home g, h.WellTyped → (∀ k ∈ n, (h.get? k).isSome) →
      (Marshaller.new order limit).run (Marshalling.value h n) = (.ok (), M) →
      M.octets.length < 2 ^ 31 →
      (∀ k i, h.Reaches n.toList k → h.get? k = some i → R.Makes i.type) →
      let read := { Unmarshaller.new order M.octets R limit' home with heap := g }.run
        Unmarshalling.value
      (h.depth n ≤ limit' → ∃ f, read.1 = .ok (n.map f) ∧
        Heap.Isomorphic f h n.toList read.2.heap (n.toList.map f)) ∧
      (limit' < h.depth n → read.1 = .error (.tooDeep limit'))) ∧
    (∀ m depth calls, m.limit - depth < calls → (Counting.writeValue h calls n).run m depth =
      some (Counting.outcome (Marshalling.valueAt h (m.limit - depth) n) m depth)) ∧
    ∀ u depth calls, u.limit - depth < calls → (Counting.readValue calls).run u depth =
      some (Counting.outcome (Unmarshalling.valueAt (u.limit - depth)) u depth) := by
  refine ⟨fun order limit => run_value_fst h order limit n, ?_,
    fun m depth calls hc => (Counting.counts_writeValue h hc n m rfl).1,
    fun u depth calls hc => (Counting.counts_readValue hc u rfl).1⟩
  intro order limit limit' M R home g hh hn hw hlen hR
  refine ⟨fun hd => ?_, fun hd => ?_⟩
  · obtain ⟨u, f, hu, hiso⟩ := read_accepted home g hh hn hw hlen hR hd
    rw [hu]
    exact ⟨f, rfl, hiso⟩
  · obtain ⟨u, hu⟩ := read_tooDeep home g hh hn hw hlen hR hd
    rw [hu]

section

open Body

theorem Heap.depth_needed_ring :
    ((Marshaller.new .bigEndian 1).run (Marshalling.value ring (some 0))).1 =
      .error (.tooDeep 1) ∧
    ∃ M, (Marshaller.new .bigEndian 3).run (Marshalling.value ring (some 0)) = (.ok (), M) ∧
      (∃ k, ((Unmarshaller.new .bigEndian M.octets ringRegistry 2).run Unmarshalling.value).1 =
        .ok (some k)) ∧
      ((Unmarshaller.new .bigEndian M.octets ringRegistry 1).run Unmarshalling.value).1 =
        .error (.tooDeep 1) := by
  obtain ⟨hwrite, hread, -⟩ := Heap.depth_needed ring (some 0)
  rw [depth_ring] at hwrite hread
  obtain ⟨M, hM⟩ : ∃ M, (Marshaller.new .bigEndian 3).run (Marshalling.value ring (some 0)) =
      (.ok (), M) := ⟨_, Prod.ext (hwrite .bigEndian 3) rfl⟩
  have hlen : M.octets.length < 2 ^ 31 := by
    have hsnd : _ = M := congrArg Prod.snd hM
    rw [← hsnd]
    decide +kernel
  have hboth := fun limit' => hread .bigEndian 3 limit' M ringRegistry none {} ring_wellTyped
    ring_isSome hM hlen fun _ _ _ hi => ringRegistry_makes hi
  obtain ⟨f, hf, -⟩ := (hboth 2).1 (Nat.le_refl 2)
  exact ⟨hwrite .bigEndian 1, M, hM, ⟨f 0, hf⟩, (hboth 1).2 (by decide)⟩

end

theorem Heap.depth_needed_farthest :
    let h := Roll.heap (List.replicate Roll.farthest Roll.itemType)
    ∃ M u, h.WellTyped ∧ (h.get? 0).isSome ∧
      (∀ k i, h.Reaches [0] k → h.get? k = some i → Roll.registry.Makes i.type) ∧
      h.depth (some 0) ≤ 2 ∧
      (Marshaller.new .bigEndian 2).run (Marshalling.value h (some 0)) = (.ok (), M) ∧
      (Unmarshaller.new .bigEndian M.octets Roll.registry 2).run Unmarshalling.value =
        (.error (.dangling (20 + 2 ^ 32 : Nat)), u) := by
  intro h
  have hw := Roll.run_value_replicate .bigEndian 0 Roll.farthest
  let M := Roll.putItems (Roll.begun .bigEndian 2 Roll.farthest) Roll.farthest
  obtain ⟨u, hu⟩ : ∃ u, (Unmarshaller.new .bigEndian M.octets Roll.registry 2).run
      Unmarshalling.value = (.error (.dangling (20 + 2 ^ 32 : Nat)), u) :=
    Roll.run_value_farthest 0 Roll.registry_roll Roll.registry_item (Nat.le_refl _)
      (Nat.le_succ _) (.refl M)
  refine ⟨M, u, Roll.wellTyped_heap fun t ht => ?_, ?_, fun k i _ hi => ?_, ?_, hw, hu⟩
  · rw [List.eq_of_mem_replicate ht]
    exact ⟨by decide, rfl⟩
  · rw [Roll.get?_heap_zero]
    rfl
  · rcases Roll.type_of_get? hi with ht | ht
    · rw [ht]
      exact ⟨.new Roll.rollType, rfl, rfl, rfl⟩
    · rw [List.eq_of_mem_replicate ht]
      exact ⟨.new Roll.itemType, rfl, rfl, rfl⟩
  · exact Roll.depth_le_of_run hw

end ObjectBroker
