import ObjectBroker.Proofs.Stream.Position
import ObjectBroker.Proofs.Value.Copy

/-! What a reader of values does when it does not fail, whatever octets it is given. -/

namespace ObjectBroker

def Input.Passes (i : Input) (f : Output → Output) (j : Input) : Prop :=
  ∀ ⦃o : Output⦄ ⦃last : Nat⦄, i.Abreast o last → j.Abreast (f o) last

namespace Unmarshalling

open Unmarshaller

variable {α β : Type} {u u' : Unmarshaller}

lemma of_run_bind {r : Unmarshalling α} {f : α → Unmarshalling β} {b : β} {u'' : Unmarshaller}
    (h : u.run (r >>= f) = (.ok b, u'')) :
    ∃ a u', u.run r = (.ok a, u') ∧ u'.run (f a) = (.ok b, u'') := by
  rw [run_bind] at h
  rcases hr : u.run r with ⟨e | a, u'⟩
  · rw [hr] at h
    cases h
  · rw [hr] at h
    exact ⟨a, u', rfl, h⟩

lemma of_run_pure {a b : α} (h : u.run (pure a) = (.ok b, u')) : a = b ∧ u = u' := by
  cases h
  exact ⟨rfl, rfl⟩

lemma of_run_stream {r : Reading StreamError α} {a : α} (h : u.run (stream r) = (.ok a, u')) :
    ∃ j, r.run u.input = (.ok a, j) ∧ u' = u.seek j := by
  rw [stream, ofReading, run_bind_of_ok (run_get u)] at h
  rcases hr : Reading.run (ExceptT.adapt MarshalError.stream r) u.input with ⟨e | b, j⟩
  · rw [hr] at h
    cases h
  · rw [hr] at h
    cases h
    exact ⟨j, Reading.of_run_adapt hr, rfl⟩

lemma of_run_stream_bind {r : Reading StreamError α} {f : α → Unmarshalling β} {b : β}
    (h : u.run (stream r >>= f) = (.ok b, u')) :
    ∃ a j, r.run u.input = (.ok a, j) ∧ (u.seek j).run (f a) = (.ok b, u') := by
  obtain ⟨a, u₁, hr, hf⟩ := of_run_bind h
  obtain ⟨j, hj, rfl⟩ := of_run_stream hr
  exact ⟨a, j, hj, hf⟩

lemma of_run_indirection {target : Nat} (h : u.run indirection = (.ok target, u')) :
    ∃ j, u' = u.seek j ∧ ∀ n, u.input.Passes (·.putUInt32 n) j := by
  obtain ⟨⟨⟩, i, halign, h⟩ := of_run_stream_bind h
  rw [run_bind_of_ok (run_position _)] at h
  obtain ⟨offset, j, hword, h⟩ := of_run_stream_bind h
  dsimp only at h
  split at h
  · cases h
  · obtain ⟨-, rfl⟩ := of_run_pure h
    refine ⟨j, rfl, fun n o last ha => ?_⟩
    have hj := (ha.align halign).uint32 hword n
    rwa [Output.putUInt32, Output.putWord_align] at hj

lemma of_run_peekWord {width w : Nat} {i j : Input}
    (h : (Reading.peekWord width).run i = (.ok w, j)) : i.Passes (·.align width) j := by
  obtain ⟨⟨⟩, k, halign, h⟩ := Reading.of_run_bind h
  obtain ⟨x, k', hpeek, hrest⟩ := Reading.of_run_bind h
  obtain ⟨-, -, rfl⟩ := Reading.of_run_peek hpeek
  cases hrest
  exact fun _ _ ha => ha.align halign

lemma of_run_typeId {id : String} (h : u.run typeId = (.ok id, u')) :
    (∃ j, u' = u.seek j ∧ u.input.Passes (pointer · 0) j ∧ ∃ x ∈ u.typeIds, x.2 = id) ∨
    ∃ j place, u' = { u.seek j with typeIds := (place, id) :: u.typeIds } ∧
      u.input.Passes (·.putString id) j := by
  obtain ⟨w, i, hpeek, h⟩ := of_run_stream_bind h
  have hi := of_run_peekWord hpeek
  split at h
  · left
    obtain ⟨w, k, hword, h⟩ := of_run_stream_bind h
    obtain ⟨target, u₂, htarget, h⟩ := of_run_bind h
    obtain ⟨j, rfl, hj⟩ := of_run_indirection htarget
    rw [run_bind_of_ok (run_get _)] at h
    dsimp only [seek] at h
    cases hl : u.typeIds.lookup target with
    | none =>
      rw [hl] at h
      cases h
    | some id' =>
      rw [hl] at h
      obtain ⟨rfl, rfl⟩ := of_run_pure h
      refine ⟨j, rfl, fun o last ha => ?_, _, Marshaller.mem_of_lookup hl, rfl⟩
      have hk := (hi ha).word hword ValueTag.indirection.toNat
      rw [Output.putWord_align] at hk
      exact hj _ hk
  · right
    rw [run_bind_of_ok (run_position _)] at h
    obtain ⟨id', j, hstring, h⟩ := of_run_stream_bind h
    cases h
    refine ⟨j, _, rfl, fun o last ha => ?_⟩
    have hj := (hi ha).string hstring
    rwa [Output.putString, Output.putWord_align] at hj

lemma of_run_head {tag : UInt32} {id : String} (h : u.run (head tag) = (.ok id, u')) :
    u.run typeId = (.ok id, u') ∨
      ∃ location u₁, u.run typeId = (.ok location, u₁) ∧ u₁.run typeId = (.ok id, u') := by
  rw [head] at h
  split at h
  · exact .inr (of_run_bind h)
  · exact .inl h

inductive Starts (u : Unmarshaller) : Start → Unmarshaller → Prop
  | null {j : Input} : u.input.Passes (·.putUInt32 ValueTag.null) j → Starts u .null (u.seek j)
  | shared {j : Input} {place : Nat} {n : NodeId} : (place, n) ∈ u.instances →
      u.input.Passes (pointer · 0) j → Starts u (.shared n) (u.seek j)
  | fresh {j : Input} (origin : Nat) (tag : UInt32) :
      u.input.Passes (·.putUInt32 ValueTag.single) j → Starts u (.fresh origin tag) (u.seek j)

lemma of_run_start {s : Start} (h : u.run start = (.ok s, u')) : Starts u s u' := by
  obtain ⟨⟨⟩, i, halign, h⟩ := of_run_stream_bind h
  rw [run_bind_of_ok (run_position _)] at h
  obtain ⟨tag, k, hword, h⟩ := of_run_stream_bind h
  have hk (n : UInt32) : u.input.Passes (·.putUInt32 n) k := by
    intro o last ha
    have hk := (ha.align halign).uint32 hword n
    rwa [Output.putUInt32, Output.putWord_align] at hk
  split at h
  · obtain ⟨rfl, rfl⟩ := of_run_pure h
    exact .null (hk _)
  · split at h
    · obtain ⟨target, u₂, htarget, h⟩ := of_run_bind h
      obtain ⟨j, rfl, hj⟩ := of_run_indirection htarget
      rw [run_bind_of_ok (run_get _)] at h
      dsimp only [seek] at h
      cases hl : u.instances.lookup target with
      | none =>
        rw [hl] at h
        cases h
      | some n =>
        rw [hl] at h
        obtain ⟨rfl, rfl⟩ := of_run_pure h
        exact .shared (Marshaller.mem_of_lookup hl) fun o last ha => hj _ (hk _ ha)
    · split at h
      · obtain ⟨rfl, rfl⟩ := of_run_pure h
        exact .fresh _ tag (hk _)
      · cases h

lemma of_run_create {id : String} {n : NodeId} (h : u.run (create id) = (.ok n, u')) :
    ∃ i, u.registry.create id = .ok i ∧ n = u.heap.size ∧
      u' = { u with heap := (u.heap.alloc i).2 } := by
  cases hc : u.registry.create id with
  | error e =>
    rw [run_create_error hc] at h
    cases h
  | ok i =>
    rw [run_create hc] at h
    cases h
    exact ⟨i, rfl, rfl, rfl⟩

lemma of_run_fresh {origin : Nat} {tag : UInt32} {n : NodeId} {fields : List Field}
    (h : u.run (fresh origin tag) = (.ok (n, fields), u')) :
    ∃ id i u₁, u.run (head tag) = (.ok id, u₁) ∧ u₁.registry.create id = .ok i ∧
      n = u₁.heap.size ∧ fields = i.type.fields ∧
      u' = { u₁ with
        heap := (u₁.heap.alloc i).2
        instances := (origin, u₁.heap.size) :: u₁.instances } := by
  obtain ⟨id, u₁, hhead, h⟩ := of_run_bind h
  obtain ⟨n', u₂, hcreate, h⟩ := of_run_bind h
  obtain ⟨i, hc, rfl, rfl⟩ := of_run_create hcreate
  have ht : (u₁.heap.alloc i).2.typeOf? u₁.heap.size = some i.type :=
    congrArg (Option.map _) (u₁.heap.get?_alloc_self i)
  cases h
  exact ⟨id, i, u₁, hhead, hc, rfl, by rw [ht]; rfl, rfl⟩

lemma of_run_store {n : NodeId} {index : Nat} {v : FieldValue} {i : Instance}
    (hi : u.heap.get? n = some i) (h : u.run (store n index v) = (.ok (), u')) :
    ∃ j, i.setAt u.heap index v = .ok j ∧ u' = { u with heap := u.heap.write n j } := by
  rw [store, run_bind_of_ok (run_get u), hi] at h
  dsimp only at h
  cases hs : i.setAt u.heap index v with
  | error e =>
    rw [hs] at h
    cases h
  | ok j =>
    rw [hs] at h
    cases h
    exact ⟨j, rfl, rfl⟩

lemma of_run_assignable {declared : String} {n k : Option NodeId}
    (h : u.run (assignable declared n) = (.ok k, u')) : k = n ∧ u' = u := by
  cases n with
  | none =>
    cases h
    exact ⟨rfl, rfl⟩
  | some n =>
    rw [assignable, run_bind_of_ok (run_get u)] at h
    dsimp only at h
    split at h
    · cases h
      exact ⟨rfl, rfl⟩
    · cases h

lemma of_run_sequenceLength {n : Nat} (h : u.run sequenceLength = (.ok n, u')) :
    ∃ j, u' = u.seek j ∧ ∀ k, u.input.Passes (·.putWord 4 k) j := by
  obtain ⟨count, j, hword, h⟩ := of_run_stream_bind h
  rw [run_bind_of_ok (run_get _)] at h
  dsimp only at h
  split at h
  · cases h
  · obtain ⟨rfl, rfl⟩ := of_run_pure h
    exact ⟨j, rfl, fun k _ _ ha => ha.word hword k⟩

end Unmarshalling

def Registry.Blank (R : Registry) : Prop :=
  ∀ x ∈ R.factories, x.2 = .new x.2.type

lemma Registry.mem_of_create {R : Registry} {id : String} {i : Instance}
    (h : R.create id = .ok i) : (id, i) ∈ R.factories ∧ i.type.id = id := by
  rw [create] at h
  cases hl : R.lookup? id with
  | none =>
    rw [hl] at h
    cases h
  | some i' =>
    rw [hl] at h
    dsimp only at h
    split at h
    · next hid =>
      cases h
      exact ⟨Marshaller.mem_of_lookup hl, hid⟩
    · cases h

lemma Registry.Blank.makes {R : Registry} (hR : R.Blank) {id : String} {i : Instance}
    (h : R.create id = .ok i) : R.Makes i.type := by
  obtain ⟨hmem, rfl⟩ := mem_of_create h
  have hblank : i = .new i.type := hR _ hmem
  refine ⟨i, h, rfl, ?_⟩
  rw [hblank]
  exact List.length_map _

lemma Instance.of_setAt {h : Heap} {i j : Instance} {index : Nat} {v : FieldValue}
    (hj : i.setAt h index v = .ok j) :
    ∃ f, i.type.fields[index]? = some f ∧ h.fits f.kind v = true ∧
      j = { i with fields := i.fields.set index v } := by
  rw [setAt] at hj
  cases hf : i.type.fields[index]? with
  | none =>
    rw [hf] at hj
    cases hj
  | some f =>
    rw [hf] at hj
    dsimp only at hj
    split at hj
    · next hv =>
      cases hj
      exact ⟨f, rfl, hv, rfl⟩
    · cases hj

namespace Heap

variable {h : Heap}

lemma fits_zero (h : Heap) (kind : FieldKind) : h.fits kind (.zero kind) = true := by
  cases kind with
  | scalar kind => cases kind <;> rfl
  | string => rfl
  | value declared => rfl
  | sequence element => simp [FieldValue.zero, fits]

lemma WellTyped.alloc_of_fits (hh : h.WellTyped) {i : Instance}
    (hi : List.Forall₂ (fun field v => h.fits field.kind v = true) i.type.fields i.fields) :
    (h.alloc i).2.WellTyped := by
  have hkeep (field : Field) (v : FieldValue) (hf : h.fits field.kind v = true) :
      (h.alloc i).2.fits field.kind v = true := by
    refine fits_of_types _ hf fun k hk => ?_
    obtain ⟨j, hj⟩ := Option.isSome_iff_exists.mp (isSome_of_fits_nodes _ hf hk)
    exact congrArg (Option.map _) (get?_alloc_of_lt h _ (lt_size_of_get? hj))
  intro n j hj
  have hlt : n < h.size + 1 := by
    have hlt := lt_size_of_get? hj
    rwa [Heap.alloc, size, Array.size_push] at hlt
  rcases Nat.lt_succ_iff_lt_or_eq.mp hlt with hn | rfl
  · rw [get?_alloc_of_lt h _ hn] at hj
    exact (hh n j hj).imp hkeep
  · obtain rfl := Option.some.inj ((h.get?_alloc_self i).symm.trans hj)
    exact hi.imp hkeep

lemma forall₂_fits_new (h : Heap) (t : ValueType) :
    List.Forall₂ (fun field v => h.fits field.kind v = true) t.fields (Instance.new t).fields :=
  List.forall₂_map_right_iff.mpr (List.forall₂_same.mpr fun field _ => fits_zero h field.kind)

lemma WellTyped.alloc (hh : h.WellTyped) (t : ValueType) :
    (h.alloc (.new t)).2.WellTyped :=
  hh.alloc_of_fits (forall₂_fits_new h t)

lemma forall₂_set {α β : Type} {P : α → β → Prop} {l : List α} {l' : List β} {index : Nat} {a : α}
    {b : β} (hl : List.Forall₂ P l l') (ha : l[index]? = some a) (hb : P a b) :
    List.Forall₂ P l (l'.set index b) := by
  induction hl generalizing index with
  | nil => exact .nil
  | @cons a' b' l l' hab hl ih =>
    cases index with
    | zero =>
      obtain rfl : a' = a := Option.some.inj ha
      exact .cons hb hl
    | succ index => exact .cons hab (ih ha)

lemma typeOf?_write {n : NodeId} {i j : Instance} (hi : h.get? n = some i) (ht : j.type = i.type)
    (k : NodeId) : (h.write n j).typeOf? k = h.typeOf? k := by
  rw [typeOf?, typeOf?]
  by_cases hk : n = k
  · rw [← hk, hi, get?_write_self hi]
    exact congrArg some ht
  · rw [get?_write_ne h j hk]

lemma WellTyped.write (hh : h.WellTyped) {n : NodeId} {i j : Instance} {index : Nat}
    {v : FieldValue} (hi : h.get? n = some i) (hj : i.setAt h index v = .ok j) :
    (h.write n j).WellTyped := by
  obtain ⟨f, hf, hv, hset⟩ := Instance.of_setAt hj
  have ht : j.type = i.type := by rw [hset]
  have hkeep {kind : FieldKind} {w : FieldValue} (hw : h.fits kind w = true) :
      (h.write n j).fits kind w = true :=
    fits_of_types kind hw fun k _ => typeOf?_write hi ht k
  intro k i' hi'
  by_cases hk : n = k
  · rw [← hk, get?_write_self hi] at hi'
    cases hi'
    have hfits := forall₂_set ((hh n i hi).imp fun _ _ => hkeep) hf (hkeep hv)
    rwa [← ht, show i.fields.set index v = j.fields by rw [hset]] at hfits
  · rw [get?_write_ne h _ hk] at hi'
    exact (hh k i' hi').imp fun _ _ => hkeep

end Heap

namespace Unmarshaller

/-- A reader whose heap is well typed; the instances from `base` on are of types that its registry
makes. -/
structure Sound (R : Registry) (base : Nat) (u : Unmarshaller) : Prop where
  registry : u.registry = R
  wellTyped : u.heap.WellTyped
  made : ∀ n i, base ≤ n → u.heap.get? n = some i → R.Makes i.type

/-- What reading does to the heap. Of the instances that were there before only the one in `hole`
may have changed. -/
structure Reads (R : Registry) (base : Nat) (hole : Option NodeId) (u u' : Unmarshaller) : Prop where
  size_le : u.heap.size ≤ u'.heap.size
  frame : ∀ j < u.heap.size, hole ≠ some j → u'.heap.get? j = u.heap.get? j
  sound : u.Sound R base → u'.Sound R base

namespace Reads

variable {R : Registry} {base : Nat} {hole : Option NodeId} {u u' u'' : Unmarshaller}

lemma of_heap_eq (hr : u'.registry = u.registry) (hh : u'.heap = u.heap) :
    Reads R base hole u u' where
  size_le := by rw [hh]
  frame j _ _ := by rw [hh]
  sound hs := by
    refine ⟨hr.trans hs.registry, ?_, ?_⟩ <;> rw [hh]
    · exact hs.wellTyped
    · exact hs.made

lemma trans (h : Reads R base hole u u') (h' : Reads R base hole u' u'') :
    Reads R base hole u u'' where
  size_le := h.size_le.trans h'.size_le
  frame j hj hne := (h'.frame j (hj.trans_le h.size_le) hne).trans (h.frame j hj hne)
  sound hs := h'.sound (h.sound hs)

lemma of_none (h : Reads R base none u u') : Reads R base hole u u' :=
  { h with frame := fun j hj _ => h.frame j hj nofun }

lemma of_new {n : NodeId} (h : Reads R base (some n) u u') (hn : u.heap.size ≤ n) :
    Reads R base none u u' :=
  { h with frame := fun j hj _ => h.frame j hj fun he => by cases he; omega }

lemma alloc (hR : R.Blank) {id : String} {i : Instance} (hc : R.create id = .ok i)
    (instances : List (Nat × NodeId)) :
    Reads R base hole u { u with heap := (u.heap.alloc i).2, instances } where
  size_le := by simp [Heap.alloc, Heap.size]
  frame j hj _ := u.heap.get?_alloc_of_lt i hj
  sound hs := by
    have hblank : i = .new i.type := hR _ (Registry.mem_of_create hc).1
    refine ⟨hs.registry, ?_, fun n k hn hk => ?_⟩
    · rw [hblank]
      exact hs.wellTyped.alloc i.type
    · by_cases hlt : n < u.heap.size
      · rw [u.heap.get?_alloc_of_lt i hlt] at hk
        exact hs.made n k hn hk
      · have hsize : n < u.heap.size + 1 := by
          have hsize := Heap.lt_size_of_get? hk
          rwa [Heap.alloc, Heap.size, Array.size_push] at hsize
        obtain rfl : n = u.heap.size := by omega
        obtain rfl := Option.some.inj ((u.heap.get?_alloc_self i).symm.trans hk)
        exact hR.makes hc

lemma write {n : NodeId} {i j : Instance} {index : Nat} {v : FieldValue}
    (hi : u.heap.get? n = some i) (hj : i.setAt u.heap index v = .ok j) :
    Reads R base (some n) u { u with heap := u.heap.write n j } where
  size_le := by simp [Heap.write, Heap.size]
  frame k _ hk := Heap.get?_write_ne u.heap j fun he => hk (congrArg some he)
  sound hs := by
    refine ⟨hs.registry, hs.wellTyped.write hi hj, fun k i' hk hi' => ?_⟩
    by_cases he : n = k
    · rw [← he, Heap.get?_write_self hi] at hi'
      cases hi'
      obtain ⟨f, -, -, rfl⟩ := Instance.of_setAt hj
      exact hs.made n i (he ▸ hk) hi
    · rw [Heap.get?_write_ne u.heap j he] at hi'
      exact hs.made k i' hk hi'

lemma agrees (h : Reads R base hole u' u'') (hh : ∀ j ∈ hole, j < u.heap.size) {H : Heap}
    (hH : ∀ n, u.heap.size ≤ n → n < u''.heap.size → H.get? n = u''.heap.get? n) {n : NodeId}
    (hn : u.heap.size ≤ n) (hlt : n < u'.heap.size) : H.get? n = u'.heap.get? n := by
  rw [hH n hn (hlt.trans_le h.size_le)]
  exact h.frame n hlt fun he => absurd (hh n he) hn.not_gt

end Reads

end Unmarshaller

end ObjectBroker
