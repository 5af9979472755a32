import ObjectBroker.Proofs.Value.Exchange

/-! Values are read back as copies of what was written, field by field and level by level. -/

namespace ObjectBroker

lemma InStep.run_sequenceLength {h : Heap} {M m : Marshaller} {U u : Unmarshaller}
    (hM : M.Bounded) (hs : InStep h M U m u) {count : Nat}
    (hp : (m.output.putWord 4 count).octets <+: M.octets)
    (hlen : (m.output.putWord 4 count).length + count ≤ M.output.length) :
    u.run Unmarshalling.sequenceLength = (.ok count,
      u.seek ((m.output.putWord 4 count).inBody M.octets)) := by
  have hb : M.output.length < 2 ^ 31 := hM.length
  have hword := Unmarshalling.run_stream
    (Reading.recovers_word m.output 4 count (by omega)) hs.input hp
  let u₁ := u.seek ((m.output.putWord 4 count).inBody M.octets)
  have hremaining : ¬ u₁.input.remaining < count := by
    have hrest : u₁.input.remaining =
        M.octets.length - (m.output.putWord 4 count).length := List.length_drop
    have hbody : M.octets.length = M.output.length := M.output.length_octets
    omega
  rw [Unmarshalling.sequenceLength, Unmarshaller.run_bind_of_ok hword,
    Unmarshaller.run_bind_of_ok (Unmarshaller.run_get u₁), if_neg hremaining]
  rfl

structure CopiesValues (h : Heap) (M : Marshaller) (U : Unmarshaller) (fault : MarshalError → Prop)
    (write : Option NodeId → Marshalling Unit) (read : Unmarshalling (Option NodeId)) : Prop where
  copies : ∀ n : Option NodeId, (∀ k ∈ n, (h.get? k).isSome) →
    Copies h M U fault (write n) read (n.map (U.copyOf M))
  ends : ∀ n m, Marshalling.Ends h n.toList m (m.run (write n))
  length : ∀ n (m m' : Marshaller), m.run (write n) = (.ok (), m') →
    m.output.length < m'.output.length

namespace CopiesValues

variable {h : Heap} {M : Marshaller} {U : Unmarshaller} {fault : MarshalError → Prop}
variable {write : Option NodeId → Marshalling Unit} {read : Unmarshalling (Option NodeId)}
variable {m m' : Marshaller} {u : Unmarshaller}

lemma grows (hv : CopiesValues h M U fault write read) {vs : List FieldValue}
    (hr : m.run (Marshalling.fields write vs) = (.ok (), m')) :
    m.Grows h (FieldValue.nodesAll vs) m' := by
  have he := Marshalling.ends_fields hv.ends vs m
  rwa [hr] at he

lemma grows_field (hv : CopiesValues h M U fault write read) {v : FieldValue}
    (hr : m.run (Marshalling.field write v) = (.ok (), m')) : m.Grows h v.nodes m' := by
  have he := Marshalling.ends_field hv.ends v m
  rwa [hr] at he

lemma many (hv : CopiesValues h M U fault write read) {read' : Unmarshalling FieldValue}
    (items : List FieldValue)
    (hi : ∀ v ∈ items, Copies h M U fault (Marshalling.field write v) read'
      (v.renumber (U.copyOf M))) :
    Copies h M U fault (Marshalling.fields write items) (Unmarshalling.many read' items.length)
      (FieldValue.renumberAll (U.copyOf M) items) := by
  induction items with
  | nil => exact .pure _
  | cons v items ih =>
    have hrest := ih fun v hv => hi v (List.mem_cons_of_mem _ hv)
    refine (hi v List.mem_cons_self).bind ?_ fun hr => (hv.grows hr).toExtends
    exact hrest.andThen fun _ _ => rfl

lemma run_sequenceLength (hM : M.Bounded) (hv : CopiesValues h M U fault write read)
    (hs : InStep h M U m u) {items : List FieldValue}
    (hr : (m.put (·.putWord 4 items.length)).run (Marshalling.fields write items) = (.ok (), m'))
    (hm : m'.Extends M) :
    u.run Unmarshalling.sequenceLength = (.ok items.length,
      u.seek ((m.output.putWord 4 items.length).inBody M.octets)) := by
  -- Every item takes at least one octet, so the count is never taken for too large.
  have hlen : (m.output.putWord 4 items.length).length + items.length ≤ m'.output.length :=
    Marshalling.length_fields hv.length items hr
  exact hs.run_sequenceLength hM ((hv.grows hr).toExtends.trans hm).output.octets_initial
    (hlen.trans hm.output.length_le)

lemma field (hM : M.Bounded) (hv : CopiesValues h M U fault write read) (kind : FieldKind)
    {v : FieldValue} (hf : h.fits kind v = true) :
    Copies h M U fault (Marshalling.field write v) (Unmarshalling.field read kind)
      (v.renumber (U.copyOf M)) := by
  induction kind generalizing v with
  | scalar kind =>
    cases v with
    | scalar s =>
      obtain rfl : s.kind = kind := by simpa [Heap.fits] using hf
      refine (copies_put hM fun o _ => ?_).andThen fun _ _ => rfl
      exact Reading.recovers_scalar o s
    | _ => simp [Heap.fits] at hf
  | string =>
    cases v with
    | string text =>
      refine (copies_put hM fun o ho => ?_).andThen
        fun _ _ => rfl
      have hl := o.length_le_putString text
      exact Reading.recovers_string o text (by omega)
    | _ => simp [Heap.fits] at hf
  | value declared =>
    cases v with
    | value n =>
      have hn : ∀ k ∈ n, (h.get? k).isSome := by
        rintro k rfl
        exact Heap.isSome_of_fits hf
      have hnode : (FieldValue.value n).renumber (U.copyOf M) =
          .value (n.map (U.copyOf M)) := by cases n <;> rfl
      rw [hnode]
      refine (hv.copies n hn).andThen fun {m m' u'} hr hs => ?_
      have hg := hv.ends n m
      rw [hr] at hg
      have hk : ∀ k ∈ n, k ∈ m'.written := fun k hk => hg.covers k (by simpa using hk)
      rw [Unmarshaller.run_bind_of_ok (run_assignable hs hf hk)]
      rfl
    | _ => simp [Heap.fits] at hf
  | sequence element ih =>
    cases v with
    | sequence items =>
      rw [Heap.fits, List.all_eq_true] at hf
      intro m m' u hs hr hm
      have hlength := hv.run_sequenceLength hM hs hr hm
      have hput := hs.put (m.output.extends_putWord 4 items.length)
        ((hv.grows hr).toExtends.trans hm)
      have hitems : Copies h M U fault (Marshalling.fields write items)
          (do
            let vs ← Unmarshalling.many (Unmarshalling.field read element) items.length
            return FieldValue.sequence vs)
          (FieldValue.sequence (FieldValue.renumberAll (U.copyOf M) items)) :=
        (hv.many items fun v hv => ih (hf v hv)).andThen fun _ _ => rfl
      rw [Unmarshalling.field, Unmarshaller.run_bind_of_ok hlength]
      rcases hitems hput.inStep hr hm with ⟨u', hu, ha⟩ | hfault
      · exact .inl ⟨u', hu, hput.trans hs (by simp) ha⟩
      · exact .inr hfault
    | _ => simp [Heap.fits] at hf

lemma setAt_append {t : ValueType} {front fs : List Field} {f : Field} (old v : FieldValue)
    (done rest : List FieldValue) (ht : t.fields = front ++ f :: fs)
    (hd : done.length = front.length) (hv : h.fits f.kind v = true) :
    Instance.setAt h ⟨t, done ++ old :: rest⟩ front.length v = .ok ⟨t, (done ++ [v]) ++ rest⟩ := by
  have hf : t.fields[front.length]? = some f := by
    rw [ht, List.getElem?_append_right (Nat.le_refl _), Nat.sub_self]
    rfl
  have hset : (done ++ old :: rest).set front.length v = (done ++ [v]) ++ rest := by
    rw [← hd, List.set_append_right _ _ (Nat.le_refl _), Nat.sub_self, List.set_cons_zero,
      List.append_cons]
  rw [Instance.setAt, hf, ← hset]
  exact if_pos hv

lemma store (hv : CopiesValues h M U fault write read) {node : NodeId} {t : ValueType}
    {front fs : List Field} {f : Field} {v old : FieldValue} {done rest : List FieldValue}
    {u' : Unmarshaller} (hf : h.fits f.kind v = true) (ht : t.fields = front ++ f :: fs)
    (hd : done.length = front.length) (hs : InStep h M U m u)
    (hi : u.heap.get? node = some ⟨t, done ++ old :: rest⟩)
    (hr : m.run (Marshalling.field write v) = (.ok (), m')) (ha : Advance h M U none m u m' u') :
    ∃ u'', u'.run (Unmarshalling.store node front.length (v.renumber (U.copyOf M))) =
        (.ok (), u'') ∧ Advance h M U (some node) m u m' u'' ∧
      u''.heap.get? node = some ⟨t, (done ++ [v.renumber (U.copyOf M)]) ++ rest⟩ := by
  have hlt : ∀ j ∈ some node, j < u.heap.size := by
    rintro _ ⟨⟩
    exact Heap.lt_size_of_get? hi
  have hi' := (ha.frame node (hlt node rfl) nofun).trans hi
  have hset := setAt_append old _ done rest ht hd
    (ha.inStep.fits f.kind hf (hv.grows_field hr).covers)
  have hwrite := ha.inStep.write (j := ⟨t, (done ++ [v.renumber (U.copyOf M)]) ++ rest⟩) hi' rfl
  exact ⟨_, Unmarshalling.run_store hi' hset, ha.of_none.trans hs hlt hwrite,
    Heap.get?_write_self hi'⟩

lemma fill (hM : M.Bounded) (hv : CopiesValues h M U fault write read) {node : NodeId}
    {t : ValueType} {fs : List Field} {vs : List FieldValue}
    (hf : List.Forall₂ (fun f v => h.fits f.kind v = true) fs vs) {front : List Field}
    {done rest : List FieldValue} (ht : t.fields = front ++ fs) (hd : done.length = front.length)
    (hl : rest.length = fs.length) (hs : InStep h M U m u)
    (hi : u.heap.get? node = some ⟨t, done ++ rest⟩)
    (hr : m.run (Marshalling.fields write vs) = (.ok (), m')) (hm : m'.Extends M) :
    (∃ u', u.run (Unmarshalling.fill read node front.length fs) = (.ok (), u') ∧
      Advance h M U (some node) m u m' u' ∧
      u'.heap.get? node = some ⟨t, done ++ FieldValue.renumberAll (U.copyOf M) vs⟩) ∨
    ∃ e u', u.run (Unmarshalling.fill read node front.length fs) = (.error e, u') ∧ fault e := by
  -- The node is half filled: `done` has been read, and `rest` is what the factory put there.
  induction hf generalizing front done rest m u with
  | nil =>
    cases hr
    obtain rfl := List.eq_nil_of_length_eq_zero hl
    exact .inl ⟨u, rfl, .refl hs, hi⟩
  | @cons f v fs vs hfit _ ih =>
    obtain ⟨old, rest, rfl⟩ := List.exists_cons_of_length_eq_add_one hl
    obtain ⟨⟨⟩, m₁, hr₁, hr₂⟩ := Marshaller.run_bind_ok hr
    have hlt : ∀ j ∈ some node, j < u.heap.size := by
      rintro _ ⟨⟩
      exact Heap.lt_size_of_get? hi
    rw [Unmarshalling.fill]
    rcases hv.field hM f.kind hfit hs hr₁ ((hv.grows hr₂).toExtends.trans hm) with
      ⟨u₁, hu₁, ha₁⟩ | ⟨e, u₁, hu₁, he⟩
    · obtain ⟨u', hu', hstep, hi'⟩ := hv.store hfit ht hd hs hi hr₁ ha₁
      rw [Unmarshaller.run_bind_of_ok hu₁, Unmarshaller.run_bind_of_ok hu']
      have hindex : front.length + 1 = (front ++ [f]).length := by simp
      rw [hindex]
      rcases ih (ht.trans (List.append_cons _ _ _)) (by simp [hd]) (Nat.succ.inj hl) hstep.inStep
        hi' hr₂ with ⟨u₂, hu₂, ha₂, hi₂⟩ | hfault
      · refine .inl ⟨u₂, hu₂, hstep.trans hs hlt ha₂, ?_⟩
        rw [hi₂, List.append_assoc]
        rfl
      · exact .inr hfault
    · exact .inr ⟨e, u₁, Unmarshaller.run_bind_of_error hu₁, he⟩

end CopiesValues

section

variable {h : Heap} {M : Marshaller} {U : Unmarshaller} {fault : MarshalError → Prop}

def Registry.Makes (R : Registry) (t : ValueType) : Prop :=
  ∃ i, R.create t.id = .ok i ∧ i.type = t ∧ i.fields.length = t.fields.length

def Registry.Serves (R : Registry) (fault : MarshalError → Prop) (t : ValueType) : Prop :=
  R.Makes t ∨ ∃ e, R.create t.id = .error e ∧ fault e

lemma Advance.ofFresh {m m' : Marshaller} {u u₁ u' : Unmarshaller} {n : NodeId} {i i₀ : Instance}
    (hi : h.get? n = some i) (hidx : U.copyOf M n = u.heap.size)
    (hheap : u₁.heap = (u.heap.alloc i₀).2)
    (ha : Advance h M U (some u.heap.size) (m.putHead n i.type.id) u₁ m' u')
    (hn : u'.heap.get? u.heap.size = some (i.renumber (U.copyOf M))) :
    Advance h M U none m u m' u' where
  inStep := ha.inStep
  grows := (m.extends_putHead n _).trans ha.grows
  frame j hj _ := by
    have hlt : j < u₁.heap.size := by
      rw [hheap]
      exact hj.trans_le (by simp [Heap.alloc, Heap.size])
    rw [ha.frame j hlt (by simpa using hj.ne'), hheap, Heap.get?_alloc_of_lt u.heap i₀ hj]
  copied k hk := by
    rcases ha.copied k hk with hk | hc
    · rcases Marshaller.mem_written_putHead.mp hk with rfl | hk
      · exact .inr ⟨i, hi, by rw [hidx, hn]⟩
      · exact .inl hk
    · exact .inr hc

lemma copies_fresh (hM : M.Bounded) (hh : h.WellTyped)
    (hR : ∀ n ∈ M.written, ∀ i, h.get? n = some i → U.registry.Serves fault i.type)
    {levels levels' : Nat}
    (hv : CopiesValues h M U fault (Marshalling.valueAt h levels) (Unmarshalling.valueAt levels'))
    {m m' : Marshaller} {u : Unmarshaller} {n : NodeId} {i : Instance} (hi : h.get? n = some i)
    (hn : m.instances.lookup n = none) (hs : InStep h M U m u)
    (hr : m.run (Marshalling.valueAt h (levels + 1) (some n)) = (.ok (), m')) (hm : m'.Extends M) :
    (∃ u', u.run (Unmarshalling.valueAt (levels' + 1)) = (.ok (some (U.copyOf M n)), u') ∧
      Advance h M U none m u m' u') ∨
    ∃ e u', u.run (Unmarshalling.valueAt (levels' + 1)) = (.error e, u') ∧ fault e := by
  have hid := Heap.typeId_eq hi
  rw [Marshalling.run_valueAt_fresh h m levels hn, hid, hi] at hr
  have hm₁ : (m.putHead n i.type.id).Extends M := (hv.grows hr).toExtends.trans hm
  have hmem : n ∈ M.written := hm₁.mem_written (Marshaller.mem_written_putHead.mpr (.inl rfl))
  -- The copy has its place before its fields are read, so a cycle back to it finds it there.
  have hidx := hs.copyOf_fresh hn hm₁
  obtain ⟨u₁, hstart, htype, hids, hnodes⟩ := hs.head hM hm₁
  rw [Unmarshalling.run_valueAt_fresh levels' hstart]
  have hreg : (u.pastHead M m n i.type.id).registry = U.registry := hs.registry
  rcases hR n hmem i hi with ⟨i₀, hc, ht, hl⟩ | ⟨e, hc, he⟩
  · have hfresh := Unmarshalling.run_fresh (m.output.align 4).position htype (by rw [hreg, hc])
    rw [ht] at hfresh
    rw [Unmarshaller.run_bind_of_ok hfresh]
    have hs₂ := hs.fresh hn hi ht hm₁ hids hnodes
    have hnew : (u.heap.alloc i₀).2.get? u.heap.size = some ⟨i.type, [] ++ i₀.fields⟩ := by
      rw [← ht]
      exact u.heap.get?_alloc_self i₀
    rcases hv.fill hM (hh n i hi) (show i.type.fields = [] ++ _ from rfl) rfl hl hs₂ hnew hr hm with
      ⟨u', hu, ha, hfull⟩ | ⟨e, u', hu, he⟩
    · refine .inl ⟨u', ?_, ha.ofFresh hi hidx rfl hfull⟩
      rw [hidx]
      exact Unmarshaller.run_bind_of_ok hu
    · exact .inr ⟨e, u', Unmarshaller.run_bind_of_error hu, he⟩
  · have hfresh := Unmarshalling.run_fresh_error (m.output.align 4).position htype
      (by rw [hreg, hc])
    exact .inr ⟨e, _, Unmarshaller.run_bind_of_error hfresh, he⟩

lemma copies_valueAt (hM : M.Bounded) (hh : h.WellTyped)
    (hR : ∀ n ∈ M.written, ∀ i, h.get? n = some i → U.registry.Serves fault i.type)
    {levels levels' : Nat} (hl : levels ≤ levels') :
    CopiesValues h M U fault (Marshalling.valueAt h levels) (Unmarshalling.valueAt levels') := by
  refine ⟨fun n hn => ?_, fun n m => Marshalling.ends_valueAt h levels n m,
    fun n m m' => Marshalling.length_valueAt h levels n⟩
  -- On the levels that the writer has left, of which the reader has no fewer.
  induction levels generalizing levels' n with
  | zero =>
    cases n with
    | none => exact copies_null 0 levels'
    | some n =>
      intro m m' u hs hr hm
      cases hl : m.instances.lookup n with
      | none =>
        rw [Marshalling.run_valueAt_zero h m hl] at hr
        cases hr
      | some target =>
        rw [Marshalling.run_valueAt_shared h m 0 hl] at hr
        cases hr
        exact .inl (hs.shared hM hl hm levels')
  | succ levels ih =>
    obtain ⟨levels', rfl⟩ : ∃ k, levels' = k + 1 := ⟨levels' - 1, by omega⟩
    cases n with
    | none => exact copies_null (levels + 1) (levels' + 1)
    | some n =>
      intro m m' u hs hr hm
      cases hk : m.instances.lookup n with
      | none =>
        obtain ⟨i, hi⟩ := Option.isSome_iff_exists.mp (hn n rfl)
        have hv : CopiesValues h M U fault (Marshalling.valueAt h levels)
            (Unmarshalling.valueAt levels') :=
          ⟨fun n hn => ih (Nat.le_of_succ_le_succ hl) n hn,
            fun n m => Marshalling.ends_valueAt h levels n m,
            fun n m m' => Marshalling.length_valueAt h levels n⟩
        exact copies_fresh hM hh hR hv hi hk hs hr hm
      | some target =>
        rw [Marshalling.run_valueAt_shared h m _ hk] at hr
        cases hr
        exact .inl (hs.shared hM hk hm (levels' + 1))

end

end ObjectBroker
