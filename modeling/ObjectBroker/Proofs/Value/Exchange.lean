import ObjectBroker.Proofs.Value.Unmarshal

/-! A marshaller and an unmarshaller in step. The reader numbers the instances in the order in
which the writer met them, so the copy of a node is its place in that order. -/

namespace ObjectBroker

structure Placed {α : Type} (table : List (α × Nat)) (bound : Nat) : Prop where
  falling : table.Pairwise fun p q => q.2 < p.2
  below : ∀ p ∈ table, p.2 < bound

namespace Placed

variable {α β : Type} {table : List (α × Nat)} {bound : Nat}

lemma mono (h : Placed table bound) {bound' : Nat} (hb : bound ≤ bound') : Placed table bound' :=
  ⟨h.falling, fun p hp => (h.below p hp).trans_le hb⟩

lemma cons (h : Placed table bound) (a : α) {place bound' : Nat} (hp : bound ≤ place)
    (hb : place < bound') : Placed ((a, place) :: table) bound' := by
  refine ⟨List.pairwise_cons.mpr ⟨fun q hq => (h.below q hq).trans_le hp, h.falling⟩, ?_⟩
  intro q hq
  rcases List.mem_cons.mp hq with rfl | hq
  · exact hb
  · exact ((h.below q hq).trans_le hp).trans hb

lemma lookup (h : Placed table bound) (g : α → β) {a : α} {place : Nat}
    (ha : (a, place) ∈ table) : (table.map fun p => (p.2, g p.1)).lookup place = some (g a) := by
  obtain ⟨hf, -⟩ := h
  induction table with
  | nil => cases ha
  | cons p table ih =>
    obtain ⟨hp, hf⟩ := List.pairwise_cons.mp hf
    rw [List.map_cons]
    rcases List.mem_cons.mp ha with rfl | ha
    · exact List.lookup_cons_self
    · have hlt : place < p.2 := hp _ ha
      rw [List.lookup_cons, beq_eq_false_iff_ne.mpr hlt.ne]
      exact ih ha hf

end Placed

namespace Marshaller

lemma Extends.written_initial {m m' : Marshaller} (h : m.Extends m') :
    m.written <+: m'.written := by
  obtain ⟨front, hf⟩ := h.instances
  refine ⟨(front.map Prod.fst).reverse, ?_⟩
  rw [written, written, ← hf, List.map_append, List.reverse_append]

lemma length_written (m : Marshaller) : m.written.length = m.instances.length := by
  simp [written]

lemma Extends.idxOf_lt {m m' : Marshaller} (h : m.Extends m') {n : NodeId} (hn : n ∈ m.written) :
    m'.written.idxOf n < m.instances.length := by
  obtain ⟨rest, hr⟩ := h.written_initial
  rw [← hr, List.idxOf_append_of_mem hn, ← length_written]
  exact List.idxOf_lt_length_of_mem hn

lemma Extends.le_idxOf {m m' : Marshaller} (h : m.Extends m') {n : NodeId} (hn : n ∉ m.written) :
    m.instances.length ≤ m'.written.idxOf n := by
  obtain ⟨rest, hr⟩ := h.written_initial
  rw [← hr, List.idxOf_append_of_notMem hn, ← length_written]
  exact Nat.le_add_right _ _

end Marshaller

def Unmarshaller.copyOf (U : Unmarshaller) (M : Marshaller) (n : NodeId) : NodeId :=
  U.heap.size + M.written.idxOf n

structure InStep (h : Heap) (M : Marshaller) (U : Unmarshaller) (m : Marshaller)
    (u : Unmarshaller) : Prop where
  begun : m.Extends M
  input : u.input = m.output.inBody M.octets
  registry : u.registry = U.registry
  limit : u.limit = U.limit
  home : u.home = U.home
  instances : u.instances = m.instances.map fun p => (p.2, U.copyOf M p.1)
  typeIds : u.typeIds = m.typeIds.map fun p => (p.2, p.1)
  size : u.heap.size = U.heap.size + m.instances.length
  types : ∀ n ∈ m.written, u.heap.typeOf? (U.copyOf M n) = h.typeOf? n
  nodes : Placed m.instances m.output.position
  ids : Placed m.typeIds m.output.position

def Copied (h : Heap) (M : Marshaller) (U : Unmarshaller) (copy : Heap) (n : NodeId) : Prop :=
  ∃ i, h.get? n = some i ∧ copy.get? (U.copyOf M n) = some (i.renumber (U.copyOf M))

/-- What one has read while the other has written from `m` to `m'`. Of the instances that were
there before only the one in `hole` may have changed. -/
structure Advance (h : Heap) (M : Marshaller) (U : Unmarshaller) (hole : Option NodeId)
    (m : Marshaller) (u : Unmarshaller) (m' : Marshaller) (u' : Unmarshaller) : Prop where
  inStep : InStep h M U m' u'
  grows : m.Extends m'
  frame : ∀ j < u.heap.size, hole ≠ some j → u'.heap.get? j = u.heap.get? j
  copied : ∀ n ∈ m'.written, n ∈ m.written ∨ Copied h M U u'.heap n

def Copies {α : Type} (h : Heap) (M : Marshaller) (U : Unmarshaller) (fault : MarshalError → Prop)
    (w : Marshalling Unit) (r : Unmarshalling α) (a : α) : Prop :=
  ∀ ⦃m m' : Marshaller⦄ ⦃u : Unmarshaller⦄, InStep h M U m u → m.run w = (.ok (), m') →
    m'.Extends M → (∃ u', u.run r = (.ok a, u') ∧ Advance h M U none m u m' u') ∨
      ∃ e u', u.run r = (.error e, u') ∧ fault e

section

variable {α β : Type} {h : Heap} {M : Marshaller} {U : Unmarshaller} {fault : MarshalError → Prop}
variable {m m' m'' : Marshaller} {u u' u'' : Unmarshaller}

lemma Advance.rest_eq_nil {hole : Option NodeId} (ha : Advance h M U hole m u M u') :
    u'.input.rest = [] := by
  rw [ha.inStep.input]
  exact List.drop_eq_nil_of_le M.output.length_octets.le

lemma Copied.of_frame {copy copy' : Heap} {n : NodeId} (hc : Copied h M U copy n)
    (hf : copy'.get? (U.copyOf M n) = copy.get? (U.copyOf M n)) :
    Copied h M U copy' n := by
  obtain ⟨i, hi, hj⟩ := hc
  exact ⟨i, hi, hf.trans hj⟩

lemma InStep.copyOf_lt (hs : InStep h M U m u) {n : NodeId} (hn : n ∈ m.written) :
    U.copyOf M n < u.heap.size := by
  rw [hs.size]
  exact Nat.add_lt_add_left (hs.begun.idxOf_lt hn) _

lemma InStep.le_copyOf (hs : InStep h M U m u) {n : NodeId} (hn : n ∉ m.written) :
    u.heap.size ≤ U.copyOf M n := by
  rw [hs.size]
  exact Nat.add_le_add_left (hs.begun.le_idxOf hn) _

namespace Advance

variable {hole : Option NodeId}

lemma refl (hs : InStep h M U m u) : Advance h M U hole m u m u :=
  ⟨hs, .refl m, fun _ _ _ => rfl, fun _ hn => .inl hn⟩

lemma size_le (hs : InStep h M U m u) (ha : Advance h M U hole m u m' u') :
    u.heap.size ≤ u'.heap.size := by
  rw [hs.size, ha.inStep.size]
  exact Nat.add_le_add_left ha.grows.instances.length_le _

lemma of_none (ha : Advance h M U none m u m' u') : Advance h M U hole m u m' u' :=
  { ha with frame := fun j hj _ => ha.frame j hj nofun }

lemma trans (hs : InStep h M U m u) (hh : ∀ j ∈ hole, j < u.heap.size)
    (ha : Advance h M U hole m u m' u') (hb : Advance h M U hole m' u' m'' u'') :
    Advance h M U hole m u m'' u'' where
  inStep := hb.inStep
  grows := ha.grows.trans hb.grows
  frame j hj hne := (hb.frame j (hj.trans_le (ha.size_le hs)) hne).trans (ha.frame j hj hne)
  copied n hn := by
    rcases hb.copied n hn with hn | hc
    · by_cases hm : n ∈ m.written
      · exact .inl hm
      · -- The copies that were made between `m` and `m'` are not in the hole, which is older.
        have hne : hole ≠ some (U.copyOf M n) := fun hj =>
          absurd (hh _ hj) (hs.le_copyOf hm).not_gt
        have hf := hb.frame _ (ha.inStep.copyOf_lt hn) hne
        exact (ha.copied n hn).imp id fun hc => hc.of_frame hf
    · exact .inr hc

end Advance

lemma InStep.put (hs : InStep h M U m u) {f : Output → Output}
    (hf : m.output.Extends (f m.output)) (hm : (m.put f).Extends M) :
    Advance h M U none m u (m.put f) (u.seek ((f m.output).inBody M.octets)) where
  inStep := { hs with
    begun := hm
    input := rfl
    nodes := hs.nodes.mono hf.position_le
    ids := hs.ids.mono hf.position_le }
  grows := m.extends_put hf
  frame _ _ _ := rfl
  copied _ hn := .inl hn

namespace Copies

lemma pure (a : α) : Copies h M U fault (Pure.pure ()) (Pure.pure a) a := by
  intro m m' u hs hr hm
  cases hr
  exact .inl ⟨u, rfl, .refl hs⟩

lemma bind {w w' : Marshalling Unit} {r : Unmarshalling α} {k : α → Unmarshalling β} {a : α} {b : β}
    (hw : Copies h M U fault w r a) (hk : Copies h M U fault w' (k a) b)
    (hg : ∀ {m m' : Marshaller}, m.run w' = (.ok (), m') → m.Extends m') :
    Copies h M U fault (do w; w') (r >>= k) b := by
  intro m m'' u hs hr hm
  obtain ⟨⟨⟩, m', hr, hr'⟩ := Marshaller.run_bind_ok hr
  rcases hw hs hr ((hg hr').trans hm) with ⟨u', hu, ha⟩ | ⟨e, u', hu, he⟩
  · rw [Unmarshaller.run_bind_of_ok hu]
    rcases hk ha.inStep hr' hm with ⟨u'', hu', hb⟩ | hfault
    · exact .inl ⟨u'', hu', ha.trans hs nofun hb⟩
    · exact .inr hfault
  · exact .inr ⟨e, u', Unmarshaller.run_bind_of_error hu, he⟩

lemma andThen {w : Marshalling Unit} {r : Unmarshalling α} {k : α → Unmarshalling β} {a : α} {b : β}
    (hw : Copies h M U fault w r a)
    (hk : ∀ {m m' : Marshaller} {u' : Unmarshaller}, m.run w = (.ok (), m') →
      InStep h M U m' u' → u'.run (k a) = (.ok b, u')) :
    Copies h M U fault w (r >>= k) b := by
  intro m m' u hs hr hm
  rcases hw hs hr hm with ⟨u', hu, ha⟩ | ⟨e, u', hu, he⟩
  · refine .inl ⟨u', ?_, ha⟩
    rw [Unmarshaller.run_bind_of_ok hu, hk hr ha.inStep]
  · exact .inr ⟨e, u', Unmarshaller.run_bind_of_error hu, he⟩

end Copies

structure Marshaller.Bounded (M : Marshaller) : Prop where
  origin : M.output.origin = 0
  length : M.output.length < 2 ^ 31

lemma Marshaller.Bounded.of_extends (hM : M.Bounded) (he : m.Extends M) : m.Bounded := by
  refine ⟨?_, he.output.length_le.trans_lt hM.length⟩
  obtain ⟨x, hx⟩ := he.output
  have ho := hM.origin
  rw [hx] at ho
  exact ho

lemma Marshaller.Bounded.position_eq (hm : m.Bounded) : m.output.position = m.output.length := by
  rw [Output.position, hm.origin, Nat.zero_add]

lemma copies_ofReading (hM : M.Bounded) {f : Output → Output} {r : Reading MarshalError α} {a : α}
    (hr : ∀ o, (f o).length < 2 ^ 31 → r.Recovers o (f o) a) :
    Copies h M U fault (modify fun m => m.put f) (Unmarshalling.ofReading r) a := by
  intro m m' u hs hw hm
  obtain rfl : m.put f = m' := congrArg Prod.snd hw
  have hb := hM.of_extends hm
  have hread := hr m.output hb.length
  have hrun : r.run u.input = (.ok a, (f m.output).inBody M.octets) := by
    rw [hs.input]
    exact hread.run_inBody hm.output.octets_initial
  exact .inl ⟨_, Unmarshalling.run_ofReading hrun, hs.put hread.extends_output hm⟩

lemma copies_put (hM : M.Bounded) {f : Output → Output} {r : Reading StreamError α} {a : α}
    (hr : ∀ o, (f o).length < 2 ^ 31 → r.Recovers o (f o) a) :
    Copies h M U fault (modify fun m => m.put f) (Unmarshalling.stream r) a :=
  copies_ofReading hM fun o ho => (hr o ho).adapt MarshalError.stream

lemma extends_pointer (o : Output) (target : Nat) : o.Extends (Unmarshalling.pointer o target) :=
  (Output.extends_putWord _ 4 _).trans (Output.extends_putWord _ 4 _)

lemma copies_null (levels levels' : Nat) :
    Copies h M U fault (Marshalling.valueAt h levels none) (Unmarshalling.valueAt levels')
      none := by
  intro m m' u hs hw hm
  rw [Marshalling.run_valueAt_null] at hw
  obtain rfl : m.put (·.putUInt32 ValueTag.null) = m' := congrArg Prod.snd hw
  have hu := Unmarshalling.run_start_null hs.input hm.output.octets_initial
  exact .inl ⟨_, Unmarshalling.run_valueAt_null levels' hu,
    hs.put (Output.extends_putWord _ 4 _) hm⟩

lemma Marshaller.Bounded.span {target : Nat} (hb : (m.putIndirection target).Bounded) :
    (m.output.putUInt32 ValueTag.indirection).position ≤ target + 2 ^ 31 := by
  have he : (m.output.putUInt32 ValueTag.indirection).Extends (m.putIndirection target).output :=
    Output.extends_putWord _ 4 _
  have hle := he.position_le
  have hlength := hb.length
  rw [hb.position_eq] at hle
  omega

lemma InStep.shared (hM : M.Bounded) (hs : InStep h M U m u) {n : NodeId} {target : Nat}
    (hn : m.instances.lookup n = some target) (hm : (m.putIndirection target).Extends M)
    (levels : Nat) :
    ∃ u', u.run (Unmarshalling.valueAt levels) = (.ok (some (U.copyOf M n)), u') ∧
      Advance h M U none m u (m.putIndirection target) u' := by
  have hmem := Marshaller.mem_of_lookup hn
  have hspan := (hM.of_extends hm).span
  have ht : target < m.output.position := hs.nodes.below _ hmem
  have hk : u.instances.lookup target = some (U.copyOf M n) := by
    rw [hs.instances]
    exact hs.nodes.lookup (U.copyOf M) hmem
  have hu := Unmarshalling.run_start_shared ht.le hspan hs.input
    hm.output.octets_initial hk
  exact ⟨_, Unmarshalling.run_valueAt_shared levels hu,
    hs.put (f := (Unmarshalling.pointer · target)) (extends_pointer _ target) hm⟩

lemma run_typeId_putTypeId (hM : M.Bounded) {id : String} (hm : (m.putTypeId id).Extends M)
    (hu : u.input = m.output.inBody M.octets) (hi : u.typeIds = m.typeIds.map fun p => (p.2, p.1))
    (hp : Placed m.typeIds m.output.position) :
    u.run Unmarshalling.typeId = (.ok id,
      { u with
        input := (m.putTypeId id).output.inBody M.octets
        typeIds := (m.putTypeId id).typeIds.map fun p => (p.2, p.1) }) ∧
    Placed (m.putTypeId id).typeIds (m.putTypeId id).output.position := by
  have hb := hM.of_extends hm
  cases hl : m.typeIds.lookup id with
  | some target =>
    have hmt : m.putTypeId id = m.putIndirection target := by
      unfold Marshaller.putTypeId
      rw [hl]
    rw [hmt] at hm hb ⊢
    have hmem := Marshaller.mem_of_lookup hl
    have ht : target < m.output.position := hp.below _ hmem
    have hk : u.typeIds.lookup target = some id := by
      rw [hi]
      exact hp.lookup (fun id => id) hmem
    refine ⟨?_, hp.mono (extends_pointer m.output target).position_le⟩
    rw [Unmarshalling.run_typeId_shared ht.le hb.span hu
      hm.output.octets_initial hk]
    change (Except.ok id, { u with input := _ }) = _
    rw [hi]
    rfl
  | none =>
    have hmt : m.putTypeId id = { m with
        output := (m.output.align 4).putString id
        typeIds := (id, (m.output.align 4).position) :: m.typeIds } := by
      unfold Marshaller.putTypeId
      rw [hl]
    rw [hmt] at hm hb ⊢
    have hlen := (m.output.align 4).length_le_putString id
    refine ⟨?_, hp.cons id (Output.extends_align _ 4).position_le ?_⟩
    · rw [Unmarshalling.run_typeId_new hb.length hu hm.output.octets_initial, hi]
      rfl
    · exact (Output.extends_putString _ id).position_lt (by omega)

lemma Marshaller.notMem_written_of_lookup {n : NodeId} (hn : m.instances.lookup n = none) :
    n ∉ m.written := by
  intro hk
  obtain ⟨p, hp, rfl⟩ := Marshaller.mem_written.mp hk
  have := List.lookup_eq_none_iff.mp hn p hp
  simp at this

lemma Marshaller.Extends.idxOf_fresh {n : NodeId} {id : String} (he : (m.putHead n id).Extends M)
    (hn : n ∉ m.written) : M.written.idxOf n = m.instances.length := by
  obtain ⟨rest, hr⟩ := he.written_initial
  have hw : (m.putHead n id).written = m.written ++ [n] := by
    rw [Marshaller.written, Marshaller.putHead_eq, Marshaller.putTypeId_instances]
    exact List.reverse_cons
  rw [← hr, hw, List.append_assoc, List.idxOf_append_of_notMem hn, List.singleton_append,
    List.idxOf_cons_self, Marshaller.length_written, Nat.add_zero]

lemma InStep.copyOf_fresh (hs : InStep h M U m u) {n : NodeId} {id : String}
    (hn : m.instances.lookup n = none) (hm : (m.putHead n id).Extends M) :
    U.copyOf M n = u.heap.size := by
  rw [Unmarshaller.copyOf, hm.idxOf_fresh (Marshaller.notMem_written_of_lookup hn), hs.size]

def Unmarshaller.pastHead (u : Unmarshaller) (M m : Marshaller) (n : NodeId) (id : String) :
    Unmarshaller :=
  { u with
    input := (m.putHead n id).output.inBody M.octets
    typeIds := (m.putHead n id).typeIds.map fun p => (p.2, p.1) }

lemma InStep.head (hM : M.Bounded) (hs : InStep h M U m u) {n : NodeId} {id : String}
    (hm : (m.putHead n id).Extends M) :
    ∃ u₁, u.run Unmarshalling.start =
        (.ok (.fresh (m.output.align 4).position ValueTag.single), u₁) ∧
      u₁.run Unmarshalling.typeId = (.ok id, u.pastHead M m n id) ∧
      Placed (m.putHead n id).typeIds (m.putHead n id).output.position ∧
      Placed (m.putHead n id).instances (m.putHead n id).output.position := by
  let mt := m.putTag n
  have hout : mt.output = m.output.putUInt32 ValueTag.single := m.putTag_output n
  have hp := ((mt.extends_putTypeId id).trans hm).output.octets_initial
  rw [hout] at hp
  have hu : (u.seek ((m.output.putUInt32 ValueTag.single).inBody M.octets)).input =
      mt.output.inBody M.octets := by
    rw [hout]
    rfl
  have htag := (m.output.align 4).length_le_putWord 4 ValueTag.single.toNat
  have hpos : (m.output.align 4).position < mt.output.position :=
    (Output.extends_putWord _ 4 _).position_lt (by omega)
  have hle : m.output.position ≤ (m.output.align 4).position :=
    (Output.extends_align _ 4).position_le
  obtain ⟨htype, hids⟩ := run_typeId_putTypeId hM hm hu hs.typeIds (hs.ids.mono (hle.trans hpos.le))
  refine ⟨_, Unmarshalling.run_start_fresh hs.input hp, htype, hids, ?_⟩
  rw [Marshaller.putHead_eq, Marshaller.putTypeId_instances]
  exact (hs.nodes.cons n hle hpos).mono (mt.extends_putTypeId id).output.position_le

lemma InStep.fresh (hs : InStep h M U m u) {n : NodeId} {i i₀ : Instance}
    (hn : m.instances.lookup n = none) (hi : h.get? n = some i) (ht : i₀.type = i.type)
    (hm : (m.putHead n i.type.id).Extends M)
    (hids : Placed (m.putHead n i.type.id).typeIds (m.putHead n i.type.id).output.position)
    (hnodes : Placed (m.putHead n i.type.id).instances (m.putHead n i.type.id).output.position) :
    InStep h M U (m.putHead n i.type.id)
      { u.pastHead M m n i.type.id with
        heap := (u.heap.alloc i₀).2
        instances := ((m.output.align 4).position, u.heap.size) :: u.instances } := by
  have hidx := hs.copyOf_fresh hn hm
  have hinst : (m.putHead n i.type.id).instances =
      (n, (m.output.align 4).position) :: m.instances :=
    (m.putTag n).putTypeId_instances i.type.id
  refine
    { begun := hm, input := rfl, registry := hs.registry, limit := hs.limit, home := hs.home
      typeIds := rfl, ids := hids
      nodes := hnodes, instances := ?_, size := ?_, types := ?_ }
  · rw [hinst, List.map_cons, hidx, ← hs.instances]
  · rw [hinst, List.length_cons, ← Nat.add_assoc, ← hs.size]
    exact Array.size_push _
  · intro k hk
    rcases Marshaller.mem_written_putHead.mp hk with rfl | hk
    · rw [hidx, Heap.typeOf?, Heap.typeOf?, hi]
      change ((u.heap.alloc i₀).2.get? (u.heap.alloc i₀).1).map _ = _
      rw [Heap.get?_alloc_self]
      exact congrArg some ht
    · rw [← hs.types k hk, Heap.typeOf?, Heap.typeOf?]
      exact congrArg _ (Heap.get?_alloc_of_lt u.heap i₀ (hs.copyOf_lt hk))

lemma InStep.isA_eq (hs : InStep h M U m u) {n : NodeId} (hn : n ∈ m.written) (id : String) :
    u.heap.isA (U.copyOf M n) id = h.isA n id := by
  rw [Heap.isA, Heap.isA, hs.types n hn]

lemma InStep.fits (hs : InStep h M U m u) (kind : FieldKind) {v : FieldValue}
    (hf : h.fits kind v = true) (hn : ∀ n ∈ v.nodes, n ∈ m.written) :
    u.heap.fits kind (v.renumber (U.copyOf M)) = true := by
  induction kind generalizing v with
  | scalar kind => cases v <;> simp_all [Heap.fits, FieldValue.renumber]
  | string => cases v <;> simp_all [Heap.fits, FieldValue.renumber]
  | value declared =>
    cases v with
    | value n =>
      cases n with
      | none => simp [Heap.fits, FieldValue.renumber]
      | some n =>
        rw [Heap.fits] at hf
        rw [FieldValue.renumber, Heap.fits, hs.isA_eq (hn n (by simp [FieldValue.nodes])), hf]
    | _ => simp [Heap.fits] at hf
  | sequence element ih =>
    cases v with
    | sequence items =>
      rw [Heap.fits, List.all_eq_true] at hf
      rw [FieldValue.renumber, Heap.fits, FieldValue.renumberAll_eq_map, List.all_map,
        List.all_eq_true]
      intro v hv
      exact ih (hf v hv) fun n hk => hn n (FieldValue.mem_nodesAll.mpr ⟨v, hv, hk⟩)
    | _ => simp [Heap.fits] at hf

lemma Heap.lt_size_of_get? {n : NodeId} {i : Instance} (hi : h.get? n = some i) : n < h.size := by
  obtain ⟨hn, -⟩ := Array.getElem?_eq_some_iff.mp hi
  exact hn

lemma Heap.get?_write_self {n : NodeId} {i j : Instance} (hi : h.get? n = some j) :
    (h.write n i).get? n = some i := by
  have hlt : n < h.nodes.size := Heap.lt_size_of_get? hi
  simp [Heap.write, Heap.get?, hlt]

lemma InStep.write (hs : InStep h M U m u) {n : NodeId} {i j : Instance}
    (hi : u.heap.get? n = some i) (ht : j.type = i.type) :
    Advance h M U (some n) m u m { u with heap := u.heap.write n j } where
  inStep := { hs with
    size := Array.size_setIfInBounds.trans hs.size
    types := fun k hk => by
      rw [← hs.types k hk, Heap.typeOf?, Heap.typeOf?]
      by_cases he : n = U.copyOf M k
      · rw [← he, hi, Heap.get?_write_self hi]
        exact congrArg some ht
      · exact congrArg _ (Heap.get?_write_ne u.heap j he) }
  grows := .refl m
  frame k _ hk := Heap.get?_write_ne u.heap j fun he => hk (congrArg some he)
  copied _ hk := .inl hk

lemma run_assignable (hs : InStep h M U m u) {declared : String} {n : Option NodeId}
    (hf : h.fits (.value declared) (.value n) = true) (hn : ∀ k ∈ n, k ∈ m.written) :
    u.run (Unmarshalling.assignable declared (n.map (U.copyOf M))) =
      (.ok (n.map (U.copyOf M)), u) := by
  cases n with
  | none => rfl
  | some n =>
    change Unmarshaller.run u (if u.heap.isA (U.copyOf M n) declared then
      pure (some (U.copyOf M n)) else throw _) = _
    rw [hs.isA_eq (hn n rfl), if_pos (by rwa [Heap.fits] at hf)]
    rfl

end

end ObjectBroker
