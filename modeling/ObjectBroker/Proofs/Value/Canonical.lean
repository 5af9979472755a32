import Mathlib.Algebra.GroupWithZero.Nat
import ObjectBroker.Proofs.Value.Accepted
import ObjectBroker.Proofs.Value.RoundTrip
import ObjectBroker.Proofs.Value.Span

/-! What was read can be written again. The octets of a value need not be those that a marshaller
would write: there may be code locations, type ids that stand there again in full, and
indirections to anything that came before. Whatever they are, the reader numbers the instances in
the order in which they are written again, with the same sharing and at the same depth, and what
is written leads to a copy of what was read. -/

namespace ObjectBroker

open Unmarshalling

def Paces (f g : Output → Output) : Prop :=
  ∀ ⦃o p : Output⦄ ⦃a b : Nat⦄, o.position + 8 * a ≤ p.position + 8 * b →
    (f o).position + 8 * a ≤ (g p).position + 8 * b

lemma paces_putWord {width : Nat} (hw : width ∣ 8) (n k : Nat) :
    Paces (·.putWord width n) (·.putWord width k) :=
  fun _ _ _ _ h => Output.position_putWord_le h hw n k

lemma paces_putString (text : String) : Paces (·.putString text) (·.putString text) :=
  fun _ _ _ _ h => Output.position_putString_le h text

lemma paces_pointer (target target' : Nat) : Paces (pointer · target) (pointer · target') :=
  fun _ _ _ _ h => Output.position_putWord_le (Output.position_putWord_le h (by decide) _ _)
    (by decide) _ _

lemma position_pointer (o : Output) (target : Nat) :
    (pointer o target).position = aligned o.position 4 + 8 := by
  have h4 : 4 ∣ (o.putUInt32 ValueTag.indirection).position :=
    o.dvd_position_putWord 4 _ (by decide)
  have hself := Output.position_align (o.putUInt32 ValueTag.indirection) 4
  rw [Output.align_eq_self _ 4 h4] at hself
  rw [pointer, Output.putUInt32, Output.position_putWord, ← hself, Output.putUInt32,
    Output.position_putWord]

def eights (id : String) : Nat :=
  ((Utf8.encode id).length + 5) / 8

/-- The room that `m` has, which writes again what `u` has read; `o` stands where `u` does. Type
ids that were read as code locations only are `owed`: an indirection may lead to them, and then
they have to be written. An indirection can take more room than a type id that was read again in
full; each such time is a `debt`, and it has taken nine octets to read. -/
structure Account (long : Prop) (last spent : Nat) (m : Marshaller) (u : Unmarshaller) (o : Output)
    (owed : List String) (debt : Nat) : Prop where
  abreast : u.input.Abreast o last
  known : ∀ x ∈ u.typeIds, x.2 ∈ m.typeIds.map Prod.fst ∨ x.2 ∈ owed
  room : m.output.position + 8 * (owed.map eights).sum ≤ o.position + 8 * debt
  free : long → debt = 0
  paid : 9 * debt + spent ≤ o.position

def Affords (long : Prop) (last spent : Nat) (m : Marshaller) (u : Unmarshaller) : Prop :=
  ∃ o owed debt, Account long last spent m u o owed debt

section

variable {long : Prop} {last spent : Nat} {m : Marshaller} {u u' : Unmarshaller} {id : String}

lemma Affords.congr (h : Affords long last spent m u) {m' : Marshaller}
    (ho : m'.output = m.output) (hm : m'.typeIds = m.typeIds) (hi : u'.input = u.input)
    (hu : u'.typeIds = u.typeIds) : Affords long last spent m' u' := by
  obtain ⟨o, owed, debt, ha⟩ := h
  refine ⟨o, owed, debt, ?_, ?_, ?_, ha.free, ha.paid⟩
  · rw [hi]
    exact ha.abreast
  · rw [hm, hu]
    exact ha.known
  · rw [ho]
    exact ha.room

lemma Affords.put (h : Affords long last 0 m u) {f g : Output → Output} {j : Input}
    (hj : u.input.Passes g j) (hf : Paces f g)
    (hg : ∀ o : Output, o.position + spent ≤ (g o).position) :
    Affords long last spent (m.put f) (u.seek j) := by
  obtain ⟨o, owed, debt, ha⟩ := h
  have hpaid := ha.paid
  have hmore := hg o
  exact ⟨g o, owed, debt, hj ha.abreast, ha.known, hf ha.room, ha.free, by omega⟩

lemma Affords.location (h : Affords long last spent m u) (hr : u.run typeId = (.ok id, u')) :
    Affords long last spent m u' := by
  obtain ⟨o, owed, debt, ha⟩ := h
  have hroom := ha.room
  have hpaid := ha.paid
  have hle := le_aligned o.position 4
  rcases of_run_typeId hr with ⟨j, rfl, hj, -⟩ | ⟨j, place, rfl, hj⟩
  · have hp := position_pointer o 0
    exact ⟨pointer o 0, owed, debt, hj ha.abreast, ha.known, by omega, ha.free, by omega⟩
  · have hp := o.position_putString id
    have hid : 8 * eights id ≤ (Utf8.encode id).length + 5 := Nat.mul_div_le _ 8
    refine ⟨o.putString id, id :: owed, debt, hj ha.abreast, ?_, ?_, ha.free, by omega⟩
    · intro x hx
      rcases List.mem_cons.mp hx with rfl | hx
      · exact .inr List.mem_cons_self
      · exact (ha.known x hx).imp_right (List.mem_cons_of_mem _)
    · rw [List.map_cons, List.sum_cons]
      omega

lemma Marshaller.putTypeId_of_some {target : Nat} (hl : m.typeIds.lookup id = some target) :
    m.putTypeId id = m.putIndirection target := by
  unfold putTypeId
  rw [hl]

lemma Marshaller.putTypeId_of_none (hl : m.typeIds.lookup id = none) :
    m.putTypeId id = { m with
      output := m.output.putString id
      typeIds := (id, (m.output.align 4).position) :: m.typeIds } := by
  unfold putTypeId
  rw [hl]
  dsimp only
  rw [Output.putString, Output.putWord_align]
  rfl

lemma mem_keys_of_lookup {target : Nat} (hl : m.typeIds.lookup id = some target) :
    id ∈ m.typeIds.map Prod.fst :=
  List.mem_map_of_mem (Marshaller.mem_of_lookup hl)

lemma notMem_keys_of_lookup (hl : m.typeIds.lookup id = none) :
    id ∉ m.typeIds.map Prod.fst := by
  intro hid
  obtain ⟨x, hx, rfl⟩ := List.mem_map.mp hid
  simpa using List.lookup_eq_none_iff.mp hl x hx

lemma Affords.typeId_shared {o : Output} {owed : List String} {debt : Nat} {j : Input}
    (ha : Account long last spent m u o owed debt) (hj : u.input.Passes (pointer · 0) j)
    (hid : ∃ x ∈ u.typeIds, x.2 = id) :
    Affords long last 0 (m.putTypeId id) (u.seek j) := by
  have hroom := ha.room
  have hpaid := ha.paid
  have hle := le_aligned o.position 4
  have hp := position_pointer o 0
  cases hl : m.typeIds.lookup id with
  | some target =>
    rw [Marshaller.putTypeId_of_some hl]
    exact ⟨pointer o 0, owed, debt, hj ha.abreast, ha.known, paces_pointer target 0 hroom, ha.free,
      by omega⟩
  | none =>
    obtain ⟨x, hx, rfl⟩ := hid
    have howed := (ha.known x hx).resolve_left (notMem_keys_of_lookup hl)
    obtain ⟨l₁, l₂, rfl⟩ := List.append_of_mem howed
    rw [Marshaller.putTypeId_of_none hl]
    refine ⟨pointer o 0, l₁ ++ l₂, debt, hj ha.abreast, ?_, ?_, ha.free, by omega⟩
    · intro y hy
      simp only [List.map_cons, List.mem_cons, List.mem_append]
      rcases ha.known y hy with hk | hk
      · exact .inl (.inr hk)
      · simp only [List.mem_append, List.mem_cons] at hk
        tauto
    · have haligned := aligned_le_aligned (by decide : 4 ∣ 8) hroom
      have hw := m.output.position_putString x.2
      have hid : (Utf8.encode x.2).length + 5 < 8 * eights x.2 + 8 :=
        Nat.lt_mul_div_succ _ (by decide)
      simp only [List.map_append, List.map_cons, List.sum_append, List.sum_cons] at haligned ⊢
      omega

/-- The type id stands there in full. If it is known already, an indirection to it may be longer
than it is. -/
lemma Affords.typeId_new {o : Output} {owed : List String} {debt place : Nat} {j : Input}
    (ha : Account long last 4 m u o owed debt) (hj : u.input.Passes (·.putString id) j)
    (hlong : long → 3 ≤ (Utf8.encode id).length) :
    Affords long last 0 (m.putTypeId id)
      { u.seek j with typeIds := (place, id) :: u.typeIds } := by
  have hroom := ha.room
  have hpaid := ha.paid
  have hle := le_aligned o.position 4
  have hp := o.position_putString id
  have haligned := aligned_le_aligned (by decide : 4 ∣ 8) hroom
  cases hl : m.typeIds.lookup id with
  | some target =>
    rw [Marshaller.putTypeId_of_some hl]
    have hknown : ∀ x ∈ (place, id) :: u.typeIds, x.2 ∈ m.typeIds.map Prod.fst ∨ x.2 ∈ owed := by
      intro x hx
      rcases List.mem_cons.mp hx with rfl | hx
      · exact .inl (mem_keys_of_lookup hl)
      · exact ha.known x hx
    have hw : (m.putIndirection target).output.position = aligned m.output.position 4 + 8 :=
      position_pointer m.output target
    by_cases h3 : 3 ≤ (Utf8.encode id).length
    · exact ⟨o.putString id, owed, debt, hj ha.abreast, hknown, by omega, ha.free, by omega⟩
    · exact ⟨o.putString id, owed, debt + 1, hj ha.abreast, hknown, by omega,
        fun h => absurd (hlong h) h3, by omega⟩
  | none =>
    rw [Marshaller.putTypeId_of_none hl]
    refine ⟨o.putString id, owed, debt, hj ha.abreast, ?_, paces_putString id hroom, ha.free,
      by omega⟩
    intro x hx
    rcases List.mem_cons.mp hx with rfl | hx
    · exact .inl List.mem_cons_self
    · exact (ha.known x hx).imp_left (List.mem_cons_of_mem _)

lemma Affords.typeId (h : Affords long last 4 m u) (hr : u.run typeId = (.ok id, u'))
    (hlong : long → 3 ≤ (Utf8.encode id).length) : Affords long last 0 (m.putTypeId id) u' := by
  obtain ⟨o, owed, debt, ha⟩ := h
  rcases of_run_typeId hr with ⟨j, rfl, hj, hid⟩ | ⟨j, place, rfl, hj⟩
  · exact typeId_shared ha hj hid
  · exact typeId_new ha hj hlong

lemma Affords.head {tag : UInt32} (h : Affords long last 4 m u)
    (hr : u.run (head tag) = (.ok id, u')) (hlong : long → 3 ≤ (Utf8.encode id).length) :
    Affords long last 0 (m.putTypeId id) u' := by
  rcases of_run_head hr with hr | ⟨location, u₁, hlocation, hr⟩
  · exact h.typeId hr hlong
  · exact (h.location hlocation).typeId hr hlong

end

structure Rewrites (long : Prop) (base last : Nat) (m : Marshaller) (u : Unmarshaller) : Prop where
  written : ∀ n, n ∈ m.written ↔ base ≤ n ∧ n < u.heap.size
  instances : ∀ x ∈ u.instances, base ≤ x.2 ∧ x.2 < u.heap.size
  affords : Affords long last 0 m u

/-- What was read from `u` to `u'` is what `w` writes. It writes from a heap where the instances
that were read meanwhile are as they are at the end. -/
structure Retraced (R : Registry) (long : Prop) (base last : Nat) (hole : Option NodeId)
    (w : Heap → Marshalling Unit) (u u' : Unmarshaller) : Prop extends
    Unmarshaller.Reads R base hole u u' where
  rewrites : ∀ ⦃H : Heap⦄ ⦃m : Marshaller⦄,
    (∀ n, u.heap.size ≤ n → n < u'.heap.size → H.get? n = u'.heap.get? n) →
    Rewrites long base last m u → ∃ m', m.run (w H) = (.ok (), m') ∧ Rewrites long base last m' u'

section

variable {R : Registry} {long : Prop} {base last : Nat} {hole : Option NodeId}
variable {m : Marshaller} {u u' u'' : Unmarshaller}

lemma Rewrites.put (h : Rewrites long base last m u) {f g : Output → Output} {j : Input}
    (hj : u.input.Passes g j) (hf : Paces f g) (hg : ∀ o : Output, o.position ≤ (g o).position) :
    Rewrites long base last (m.put f) (u.seek j) :=
  ⟨h.written, h.instances, h.affords.put hj hf hg⟩

lemma Rewrites.lookup_fresh (h : Rewrites long base last m u) :
    m.instances.lookup u.heap.size = none := by
  cases hl : m.instances.lookup u.heap.size with
  | none => rfl
  | some target =>
    have hlt := ((h.written _).mp (Marshaller.mem_written_of_lookup hl)).2
    exact absurd hlt (Nat.lt_irrefl _)

lemma Rewrites.lookup_shared (h : Rewrites long base last m u) {place : Nat} {n : NodeId}
    (hn : (place, n) ∈ u.instances) : ∃ target, m.instances.lookup n = some target := by
  have hmem := (h.written n).mpr (h.instances _ hn)
  cases hl : m.instances.lookup n with
  | none => exact absurd hmem (Marshaller.notMem_written_of_lookup hl)
  | some target => exact ⟨target, rfl⟩

lemma of_run_head_heap {tag : UInt32} {id : String} (h : u.run (head tag) = (.ok id, u')) :
    u'.heap = u.heap ∧ u'.instances = u.instances ∧ u'.registry = u.registry := by
  have htype {u u' : Unmarshaller} {id : String} (h : u.run typeId = (.ok id, u')) :
      u'.heap = u.heap ∧ u'.instances = u.instances ∧ u'.registry = u.registry := by
    rcases of_run_typeId h with ⟨j, rfl, -, -⟩ | ⟨j, place, rfl, -⟩ <;> exact ⟨rfl, rfl, rfl⟩
  rcases of_run_head h with h | ⟨location, u₁, hlocation, h⟩
  · exact htype h
  · obtain ⟨hh, hi, hr⟩ := htype hlocation
    rw [← hh, ← hi, ← hr]
    exact htype h

lemma Rewrites.fresh (h : Rewrites long base last m u) (hb : base ≤ u.heap.size) {j : Input}
    (hj : u.input.Passes (·.putUInt32 ValueTag.single) j) {tag : UInt32} {id : String}
    {u₁ : Unmarshaller} (hr : (u.seek j).run (head tag) = (.ok id, u₁))
    (hlong : long → 3 ≤ (Utf8.encode id).length) (origin : Nat) (i : Instance) :
    Rewrites long base last (m.putHead u.heap.size id)
      { u₁ with
        heap := (u₁.heap.alloc i).2
        instances := (origin, u₁.heap.size) :: u₁.instances } := by
  obtain ⟨hheap, hinst, -⟩ := of_run_head_heap hr
  have hsize : (u₁.heap.alloc i).2.size = u.heap.size + 1 := by
    rw [hheap]
    exact Array.size_push _
  refine ⟨fun n => ?_, ?_, ?_⟩
  · rw [Marshaller.mem_written_putHead, h.written]
    dsimp only
    rw [hsize, Nat.lt_succ_iff_lt_or_eq]
    constructor
    · rintro (rfl | ⟨hn, hlt⟩)
      · exact ⟨hb, .inr rfl⟩
      · exact ⟨hn, .inl hlt⟩
    · rintro ⟨hn, hlt | rfl⟩
      · exact .inr ⟨hn, hlt⟩
      · exact .inl rfl
  · dsimp only
    rw [hsize, hheap, hinst]
    intro x hx
    rcases List.mem_cons.mp hx with rfl | hx
    · exact ⟨hb, Nat.lt_succ_self _⟩
    · exact ⟨(h.instances x hx).1, (h.instances x hx).2.trans (Nat.lt_succ_self _)⟩
  · -- Of the nine octets that pay for a debt four are those of the tag.
    have hput : Affords long last 4 (m.put (·.putUInt32 ValueTag.single)) (u.seek j) := by
      refine h.affords.put hj (paces_putWord (by decide) _ _) fun o => ?_
      rw [Output.putUInt32, Output.position_putWord]
      exact Nat.add_le_add_right (le_aligned _ _) 4
    have htag : Affords long last 4 (m.putTag u.heap.size) (u.seek j) :=
      hput.congr (Output.putWord_align _ 4 _) rfl rfl rfl
    exact (htag.head hr hlong).congr rfl rfl rfl rfl

namespace Retraced

lemma put {f g : Output → Output} {j : Input} (hj : u.input.Passes g j) (hf : Paces f g)
    (hg : ∀ o : Output, o.position ≤ (g o).position) :
    Retraced R long base last hole (fun _ => modify fun m => m.put f) u (u.seek j) where
  toReads := .of_heap_eq rfl rfl
  rewrites _ m _ h := ⟨m.put f, rfl, h.put hj hf hg⟩

lemma trans {w w' : Heap → Marshalling Unit} (h : Retraced R long base last hole w u u')
    (h' : Retraced R long base last hole w' u' u'') (hh : ∀ j ∈ hole, j < u.heap.size) :
    Retraced R long base last hole (fun H => do w H; w' H) u u'' where
  toReads := h.toReads.trans h'.toReads
  rewrites H m hH hm := by
    obtain ⟨m', hw, hm'⟩ := h.rewrites (fun n => h'.toReads.agrees hh hH) hm
    obtain ⟨m'', hw', hm''⟩ :=
      h'.rewrites (fun n hn => hH n (h.toReads.size_le.trans hn)) hm'
    refine ⟨m'', ?_, hm''⟩
    rw [Marshaller.run_bind, hw]
    exact hw'

lemma refl : Retraced R long base last hole (fun _ => pure ()) u u where
  toReads := .of_heap_eq rfl rfl
  rewrites _ m _ h := ⟨m, rfl, h⟩

lemma of_none {w : Heap → Marshalling Unit} (h : Retraced R long base last none w u u') :
    Retraced R long base last hole w u u' where
  toReads := h.toReads.of_none
  rewrites := h.rewrites

lemma write {w : Heap → Marshalling Unit} {n : NodeId} {i j : Instance} {index : Nat}
    {v : FieldValue} (hi : u.heap.get? n = some i) (hj : i.setAt u.heap index v = .ok j)
    (h : Retraced R long base last (some n) w { u with heap := u.heap.write n j } u') :
    Retraced R long base last (some n) w u u' where
  toReads := (Unmarshaller.Reads.write hi hj).trans h.toReads
  rewrites H m hH hm := by
    have hsize : (u.heap.write n j).size = u.heap.size := Array.size_setIfInBounds
    refine h.rewrites ?_ ⟨?_, ?_, hm.affords.congr rfl rfl rfl rfl⟩
    · dsimp only
      rwa [hsize]
    · dsimp only
      rw [hsize]
      exact hm.written
    · dsimp only
      rw [hsize]
      exact hm.instances

end Retraced

def RetracesValues (R : Registry) (long : Prop) (base last : Nat) (read : Unmarshalling (Option NodeId))
    (write : Heap → Option NodeId → Marshalling Unit) : Prop :=
  ∀ ⦃u u' : Unmarshaller⦄ ⦃n : Option NodeId⦄, u.Sound R base → base ≤ u.heap.size →
    u.run read = (.ok n, u') → Retraced R long base last none (write · n) u u'

namespace RetracesValues

variable {read : Unmarshalling (Option NodeId)} {write : Heap → Option NodeId → Marshalling Unit}

lemma many {read' : Unmarshalling FieldValue}
    (each : ∀ ⦃u u' : Unmarshaller⦄ ⦃v : FieldValue⦄, u.Sound R base → base ≤ u.heap.size →
      u.run read' = (.ok v, u') →
      Retraced R long base last none (fun H => Marshalling.field (write H) v) u u')
    {n : Nat} {vs : List FieldValue} (hs : u.Sound R base) (hb : base ≤ u.heap.size)
    (hr : u.run (Unmarshalling.many read' n) = (.ok vs, u')) :
    vs.length = n ∧
      Retraced R long base last none (fun H => Marshalling.fields (write H) vs) u u' := by
  induction n generalizing u vs with
  | zero =>
    obtain ⟨rfl, rfl⟩ := of_run_pure hr
    exact ⟨rfl, .refl⟩
  | succ n ih =>
    obtain ⟨v, u₁, hv, hr⟩ := of_run_bind hr
    obtain ⟨vs, u₂, hvs, hr⟩ := of_run_bind hr
    obtain ⟨rfl, rfl⟩ := of_run_pure hr
    have hfirst := each hs hb hv
    obtain ⟨hlength, hrest⟩ := ih (hfirst.sound hs) (hb.trans hfirst.size_le) hvs
    exact ⟨congrArg _ hlength, hfirst.trans hrest nofun⟩

lemma field (hv : RetracesValues R long base last read write) (kind : FieldKind) ⦃u u' : Unmarshaller⦄
    ⦃v : FieldValue⦄ (hs : u.Sound R base) (hb : base ≤ u.heap.size)
    (hr : u.run (Unmarshalling.field read kind) = (.ok v, u')) :
    Retraced R long base last none (fun H => Marshalling.field (write H) v) u u' := by
  induction kind generalizing u u' v with
  | scalar kind =>
    obtain ⟨s, j, hscalar, hr⟩ := of_run_stream_bind hr
    obtain ⟨rfl, rfl⟩ := of_run_pure hr
    refine .put (g := (·.putScalar s)) (fun o last ha => (ha.scalar hscalar).2) ?_ ?_
    · exact paces_putWord s.kind.width_dvd _ _
    · exact fun o => (Output.extends_putWord o _ _).position_le
  | string =>
    obtain ⟨text, j, hstring, hr⟩ := of_run_stream_bind hr
    obtain ⟨rfl, rfl⟩ := of_run_pure hr
    refine .put (g := (·.putString text)) (fun o last ha => ha.string hstring) ?_ ?_
    · exact paces_putString text
    · exact fun o => (Output.extends_putString o _).position_le
  | value declared =>
    obtain ⟨n, u₁, hn, hr⟩ := of_run_bind hr
    obtain ⟨k, u₂, hk, hrest⟩ := of_run_bind hr
    obtain ⟨rfl, rfl⟩ := of_run_assignable hk
    obtain ⟨rfl, rfl⟩ := of_run_pure hrest
    exact hv hs hb hn
  | sequence element ih =>
    obtain ⟨n, u₁, hn, hr⟩ := of_run_bind hr
    obtain ⟨items, u₂, hitems, hr⟩ := of_run_bind hr
    obtain ⟨rfl, rfl⟩ := of_run_pure hr
    obtain ⟨j, rfl, hj⟩ := of_run_sequenceLength hn
    have hlength : Retraced R long base last none
        (fun _ => modify fun m => m.put (·.putWord 4 items.length)) u (u.seek j) :=
      .put (hj items.length) (paces_putWord (by decide) _ _)
        fun o => (Output.extends_putWord o _ _).position_le
    exact hlength.trans (many ih (hlength.sound hs) hb hitems).2 nofun

/-- A node is filled while its own fields may already refer to it. What they say is written only
when it is full. -/
lemma fill (hv : RetracesValues R long base last read write) {node : NodeId} {t : ValueType}
    {fs front : List Field} {done rest : List FieldValue} (ht : t.fields = front ++ fs)
    (hd : done.length = front.length) (hl : rest.length = fs.length) (hs : u.Sound R base)
    (hb : base ≤ u.heap.size) (hi : u.heap.get? node = some ⟨t, done ++ rest⟩)
    (hr : u.run (Unmarshalling.fill read node front.length fs) = (.ok (), u')) :
    ∃ vs, u'.heap.get? node = some ⟨t, done ++ vs⟩ ∧
      Retraced R long base last (some node) (fun H => Marshalling.fields (write H) vs) u u' := by
  induction fs generalizing front done rest u with
  | nil =>
    obtain ⟨-, rfl⟩ := of_run_pure hr
    obtain rfl := List.eq_nil_of_length_eq_zero hl
    exact ⟨[], hi, .refl⟩
  | cons f fs ih =>
    obtain ⟨old, rest, rfl⟩ := List.exists_cons_of_length_eq_add_one hl
    have hlt := Heap.lt_size_of_get? hi
    obtain ⟨v, u₁, hvalue, hr⟩ := of_run_bind hr
    have hfield := hv.field f.kind hs hb hvalue
    have hi₁ := (hfield.frame node hlt nofun).trans hi
    obtain ⟨⟨⟩, u₂, hstore, hrest⟩ := of_run_bind hr
    obtain ⟨j, hset, rfl⟩ := of_run_store hi₁ hstore
    have hwrite : Unmarshaller.Reads R base (some node) u₁ _ := .write hi₁ hset
    -- The value that was stored fits, so the node is filled up to the next field.
    obtain ⟨f', hf', hfits, -⟩ := Instance.of_setAt hset
    have hf : t.fields[front.length]? = some f := by
      rw [ht, List.getElem?_append_right (Nat.le_refl _), Nat.sub_self]
      rfl
    obtain rfl : f = f' := Option.some.inj (hf.symm.trans hf')
    have hj := CopiesValues.setAt_append old v done rest ht hd hfits
    obtain rfl := Except.ok.inj (hj.symm.trans hset)
    have hindex : front.length + 1 = (front ++ [f]).length := by simp
    rw [hindex] at hrest
    obtain ⟨vs, hfull, hvs⟩ := ih (ht.trans (List.append_cons _ _ _)) (by simp [hd])
      (Nat.succ.inj hl) (hwrite.sound (hfield.sound hs))
      ((hb.trans hfield.size_le).trans hwrite.size_le) (Heap.get?_write_self hi₁) hrest
    refine ⟨v :: vs, ?_, ?_⟩
    · rw [hfull, List.append_assoc]
      rfl
    · refine hfield.of_none.trans (.write hi₁ hset hvs) ?_
      rintro _ ⟨⟩
      exact hlt

end RetracesValues

lemma retraced_start {s : Start} {levels : Nat} {n : Option NodeId} (hr : Starts u s u')
    (hn : s = .null ∧ n = none ∨ ∃ k, s = .shared k ∧ n = some k) :
    Retraced R long base last none (fun H => Marshalling.valueAt H levels n) u u' := by
  cases hr with
  | null hj =>
    obtain rfl : n = none := by simpa using hn
    refine ⟨.of_heap_eq rfl rfl, fun H m _ hm => ?_⟩
    rw [Marshalling.run_valueAt_null]
    exact ⟨_, rfl, hm.put hj (paces_putWord (by decide) _ _)
      fun o => (Output.extends_putWord o _ _).position_le⟩
  | @shared j place k hk hj =>
    obtain rfl : n = some k := by simpa using hn
    refine ⟨.of_heap_eq rfl rfl, fun H m _ hm => ?_⟩
    obtain ⟨target, ht⟩ := hm.lookup_shared hk
    rw [Marshalling.run_valueAt_shared H m levels ht]
    exact ⟨_, rfl, hm.put (f := (pointer · target)) hj (paces_pointer target 0)
      fun o => (extends_pointer o 0).position_le⟩
  | fresh origin tag hj => simp at hn

lemma retraced_fresh (hR : R.Blank)
    (hlong : long → ∀ x ∈ R.factories, 3 ≤ (Utf8.encode x.1).length) {levels : Nat}
    (hv : RetracesValues R long base last (Unmarshalling.valueAt levels)
      fun H => Marshalling.valueAt H levels)
    (hs : u.Sound R base) (hb : base ≤ u.heap.size) {j : Input}
    (hj : u.input.Passes (·.putUInt32 ValueTag.single) j) {origin : Nat} {tag : UInt32}
    {k : NodeId} {fields : List Field} {u₁ : Unmarshaller}
    (hfresh : (u.seek j).run (fresh origin tag) = (.ok (k, fields), u₁))
    (hfill : u₁.run (fill (Unmarshalling.valueAt levels) k 0 fields) = (.ok (), u')) :
    Retraced R long base last none (fun H => Marshalling.valueAt H (levels + 1) (some k)) u u' := by
  obtain ⟨id, i, u₂, hhead, hc, rfl, rfl, rfl⟩ := of_run_fresh hfresh
  obtain ⟨hheap, hinst, hreg⟩ := of_run_head_heap hhead
  have hsize : u₂.heap.size = u.heap.size := by rw [hheap]; rfl
  rw [hreg.trans hs.registry] at hc
  obtain ⟨hmem, hid⟩ := Registry.mem_of_create hc
  have hblank : i = .new i.type := hR _ hmem
  have hskip : Unmarshaller.Reads R base (some u₂.heap.size) u u₂ := .of_heap_eq hreg hheap
  have hhole : Unmarshaller.Reads R base (some u₂.heap.size) u _ :=
    hskip.trans (.alloc hR hc ((origin, u₂.heap.size) :: u₂.instances))
  have hnew : (u₂.heap.alloc i).2.get? u₂.heap.size = some ⟨i.type, [] ++ i.fields⟩ :=
    u₂.heap.get?_alloc_self i
  have hlength : i.fields.length = i.type.fields.length := by
    rw [hblank]
    exact List.length_map _
  obtain ⟨vs, hfull, hvs⟩ := hv.fill (show i.type.fields = [] ++ _ from rfl) rfl hlength
    (hhole.sound hs) (hb.trans hhole.size_le) hnew hfill
  refine ⟨(hhole.trans hvs.toReads).of_new hsize.ge, fun H m hH hm => ?_⟩
  have hlt := Heap.lt_size_of_get? hfull
  have hn : H.get? u₂.heap.size = some ⟨i.type, vs⟩ := (hH _ hsize.ge hlt).trans hfull
  have htype : H.typeId u₂.heap.size = id := by
    rw [Heap.typeId, Heap.typeOf?, hn]
    exact hid
  have hfree := hm.lookup_fresh
  have hrewrites := hm.fresh hb hj hhead (fun h => hlong h _ hmem) origin i
  rw [← hsize] at hfree hrewrites
  rw [Marshalling.run_valueAt_fresh H m levels hfree, htype, hn]
  exact hvs.rewrites (fun n hle => hH n (hhole.size_le.trans hle)) hrewrites

lemma retracesValues_valueAt (hR : R.Blank)
    (hlong : long → ∀ x ∈ R.factories, 3 ≤ (Utf8.encode x.1).length) (levels : Nat) :
    RetracesValues R long base last (Unmarshalling.valueAt levels)
      fun H => Marshalling.valueAt H levels := by
  induction levels with
  | zero =>
    intro u u' n hs hb hr
    obtain ⟨s, u₁, hstart, hr⟩ := of_run_bind hr
    have hstarts := of_run_start hstart
    cases s with
    | null =>
      obtain ⟨rfl, rfl⟩ := of_run_pure hr
      exact retraced_start hstarts (.inl ⟨rfl, rfl⟩)
    | shared k =>
      obtain ⟨rfl, rfl⟩ := of_run_pure hr
      exact retraced_start hstarts (.inr ⟨k, rfl, rfl⟩)
    | fresh origin tag => cases hr
  | succ levels ih =>
    intro u u' n hs hb hr
    obtain ⟨s, u₁, hstart, hr⟩ := of_run_bind hr
    have hstarts := of_run_start hstart
    cases s with
    | null =>
      obtain ⟨rfl, rfl⟩ := of_run_pure hr
      exact retraced_start hstarts (.inl ⟨rfl, rfl⟩)
    | shared k =>
      obtain ⟨rfl, rfl⟩ := of_run_pure hr
      exact retraced_start hstarts (.inr ⟨k, rfl, rfl⟩)
    | fresh origin tag =>
      cases hstarts with
      | fresh _ _ hj =>
        obtain ⟨⟨k, fields⟩, u₂, hfresh, hr⟩ := of_run_bind hr
        obtain ⟨⟨⟩, u₃, hfill, hr⟩ := of_run_bind hr
        obtain ⟨rfl, rfl⟩ := of_run_pure hr
        exact retraced_fresh hR hlong ih hs hb hj hfresh hfill

end

lemma rewrites_new {g : Heap} {R : Registry} {order : ByteOrder} {limit limit' : Nat}
    {home : Option Endpoint} {body : Octets} (long : Prop) :
    Rewrites long g.size body.length (Marshaller.new order limit)
      { Unmarshaller.new order body R limit' home with heap := g } where
  written _ := ⟨nofun, fun hn => absurd hn.2 hn.1.not_gt⟩
  instances := nofun
  affords := ⟨{ order }, [], 0, ⟨rfl, rfl, Nat.zero_add _⟩, nofun, Nat.le_refl _, fun _ => rfl,
    Nat.le_refl _⟩

lemma Rewrites.length_le {long : Prop} {base last : Nat} {m : Marshaller} {u : Unmarshaller}
    (h : Rewrites long base last m u) :
    m.octets.length ≤ 2 * last ∧ (long → m.octets.length ≤ last) := by
  obtain ⟨o, owed, debt, ha⟩ := h.affords
  have hlength : m.octets.length ≤ m.output.position :=
    m.output.length_octets.trans_le (Nat.le_add_left _ _)
  have hlast := ha.abreast.position_le
  have hroom := ha.room
  have hpaid := ha.paid
  refine ⟨by omega, fun hlong => ?_⟩
  have hfree := ha.free hlong
  omega

/-- What was read, whatever the octets were, can be written again, and what is written leads to a
copy of it if indirections can span it. It is not longer than what was read if type ids have at
least three octets; shorter ones may be shorter than an indirection to them, and then it is still
not twice as long. -/
theorem read_write_of_read {g g' : Heap} {R : Registry} {order : ByteOrder} {limit : Nat}
    {home : Option Endpoint} {body : Octets} {v : Option NodeId} {u : Unmarshaller} (hR : R.Blank)
    (hg : g.WellTyped)
    (hr : { Unmarshaller.new order body R limit home with heap := g }.run Unmarshalling.value =
      (.ok v, u)) :
    ∃ m, (Marshaller.new order limit).run (Marshalling.value u.heap v) = (.ok (), m) ∧
      m.octets.length ≤ 2 * body.length ∧
      ((∀ x ∈ R.factories, 3 ≤ (Utf8.encode x.1).length) → m.octets.length ≤ body.length) ∧
      (m.octets.length < 2 ^ 31 → ∃ u' f,
        { Unmarshaller.new order m.octets R limit home with heap := g' }.run Unmarshalling.value =
          (.ok (v.map f), u') ∧
        u'.input.rest = [] ∧
        Heap.Isomorphic f u.heap v.toList u'.heap (v.toList.map f)) := by
  let U := { Unmarshaller.new order body R limit home with heap := g }
  have hU : U.Sound R g.size :=
    ⟨rfl, hg, fun n i hn hi => absurd (Heap.lt_size_of_get? hi) hn.not_gt⟩
  have hretraced : Retraced R _ g.size body.length none _ U u :=
    retracesValues_valueAt hR id limit hU (Nat.le_refl _) hr
  have hsound := hretraced.sound hU
  obtain ⟨m, hw, hm⟩ := hretraced.rewrites (fun _ _ _ => rfl) (rewrites_new _)
  have hgrows := Marshalling.ends_valueAt u.heap limit v (Marshaller.new order limit)
  rw [hw] at hgrows
  refine ⟨m, hw, hm.length_le.1, hm.length_le.2, fun hspan => ?_⟩
  have hserves : ∀ n ∈ m.written, ∀ i, u.heap.get? n = some i →
      R.Serves (fun _ => False) i.type :=
    fun n hn i hi => .inl (hsound.made n i ((hm.written n).mp hn).1 hi)
  have hv : ∀ k ∈ v, (u.heap.get? k).isSome := by
    intro k hk
    have hlt := ((hm.written k).mp (hgrows.covers k (by simpa using hk))).2
    exact Option.isSome_iff_exists.mpr ⟨_, Array.getElem?_eq_getElem hlt⟩
  have hwrite : (Marshaller.new order limit).run (Marshalling.value u.heap v) = (.ok (), m) := hw
  obtain ⟨u', hu, ha⟩ := Body.exists_advance hgrows hwrite hspan fun hM =>
    Body.copies_value hM hsound.wellTyped hserves hgrows.limit.le hv
  exact ⟨u', _, hu, ha.rest_eq_nil, Body.isomorphic_of_advance hgrows ha⟩

/-- A ring of two nodes and a third one, as no marshaller writes it: the type id of the leaf stands
before that of the first node, as a code location, and an indirection leads there; the type id of
the last node is written in full again, and an octet is left over. -/
def detour : Octets :=
  let node := ({ order := .bigEndian } : Output).putUInt32 0x7fffff03
  let node := (node.putString "IDL:Leaf:1.0").putString "IDL:Node:1.0"
  let leaf := pointer (node.putUInt32 ValueTag.single) 4
  let leaf := (pointer leaf 0).putUInt32 2
  let leaf := (pointer (leaf.putUInt32 ValueTag.null) 44).putString "é"
  let last := ((leaf.putUInt32 1).putUInt32 ValueTag.single).putString "IDL:Node:1.0"
  (((last.putUInt32 ValueTag.null).putUInt32 0).append [7]).octets

theorem read_write_of_read_detour :
    ∃ u m u' f, (Unmarshaller.new .bigEndian detour Body.ringRegistry 2).run Unmarshalling.value =
        (.ok (some 0), u) ∧
      (Marshaller.new .bigEndian 2).run (Marshalling.value u.heap (some 0)) = (.ok (), m) ∧
      m.octets.length ≤ detour.length ∧
      (Unmarshaller.new .bigEndian m.octets Body.ringRegistry 2).run Unmarshalling.value =
        (.ok (some (f 0)), u') ∧
      u'.input.rest = [] ∧ Heap.Isomorphic f u.heap [0] u'.heap [f 0] := by
  have hvalue : ((Unmarshaller.new .bigEndian detour Body.ringRegistry 2).run
      Unmarshalling.value).1 = .ok (some 0) := by decide +kernel
  rcases hr : (Unmarshaller.new .bigEndian detour Body.ringRegistry 2).run
      Unmarshalling.value with ⟨result, u⟩
  rw [hr] at hvalue
  obtain rfl : result = .ok (some 0) := hvalue
  have hempty : ({} : Heap).WellTyped := fun _ _ hi => by simp [Heap.get?] at hi
  have hblank : Body.ringRegistry.Blank := by
    intro x hx
    rcases List.mem_cons.mp hx with rfl | hx
    · rfl
    · rw [List.mem_singleton.mp hx]
      rfl
  obtain ⟨m, hm, -, hlength, hread⟩ :=
    @read_write_of_read {} {} _ _ _ _ _ _ _ hblank hempty hr
  have hle := hlength (by decide +kernel)
  have hspan : detour.length < 2 ^ 31 := by decide +kernel
  obtain ⟨u', f, hu, hrest, hf⟩ := hread (hle.trans_lt hspan)
  exact ⟨u, m, u', f, rfl, hm, hle, hu, hrest, hf⟩

theorem read_write_of_read_farthest :
    let body := (Roll.spellItems (Roll.begun .bigEndian 0 Roll.farthest).output
      Roll.farthest).octets
    ∃ u m u', Roll.registry.Blank ∧ body.length < 2 ^ 31 ∧
      (Unmarshaller.new .bigEndian body Roll.registry 2).run Unmarshalling.value =
        (.ok (some 0), u) ∧
      (Marshaller.new .bigEndian 2).run (Marshalling.value u.heap (some 0)) = (.ok (), m) ∧
      (Unmarshaller.new .bigEndian m.octets Roll.registry 2).run Unmarshalling.value =
        (.error (.dangling (20 + 2 ^ 32 : Nat)), u') := by
  intro body
  have hblank : Roll.registry.Blank := by
    intro x hx
    rcases List.mem_cons.mp hx with rfl | hx
    · rfl
    · rw [List.mem_singleton.mp hx]
      rfl
  obtain ⟨k, hk⟩ : ∃ k, Roll.farthest = k + 1 := ⟨2 ^ 27 + 1, rfl⟩
  have hvalue : Roll.farthest = 2 ^ 27 + 2 := rfl
  have hshort : 12 * k + 27 < 2 ^ 31 := by omega
  obtain ⟨u, hu, hheap⟩ : ∃ u, (Unmarshaller.new .bigEndian (Roll.spellItems
      (Roll.begun .bigEndian 0 (k + 1)).output (k + 1)).octets Roll.registry 2).run
        Unmarshalling.value = (.ok (some 0), u) ∧
      u.heap = Roll.heap (List.replicate (k + 1) Roll.itemType) :=
    Roll.read_spelled 0 Roll.registry_roll Roll.registry_item hshort
  have hlength : body.length = 12 * k + 27 := by
    rw [Output.length_octets, hk]
    exact Roll.length_spellItems .bigEndian k
  have hw := Roll.run_value_replicate .bigEndian 0 Roll.farthest
  let m := Roll.putItems (Roll.begun .bigEndian 2 Roll.farthest) Roll.farthest
  obtain ⟨u', hu'⟩ : ∃ u, (Unmarshaller.new .bigEndian m.octets Roll.registry 2).run
      Unmarshalling.value = (.error (.dangling (20 + 2 ^ 32 : Nat)), u) :=
    Roll.run_value_farthest 0 Roll.registry_roll Roll.registry_item (Nat.le_refl _)
      (Nat.le_succ _) (.refl m)
  rw [← hk] at hu hheap
  refine ⟨u, m, u', hblank, ?_, hu, ?_, hu'⟩
  · omega
  · rw [hheap]
    exact hw

end ObjectBroker
