import ObjectBroker.Proofs.Stream.Position
import ObjectBroker.Proofs.Value.Unmarshal

/-! How far indirections reach. The items of a roll have one type, and all but the first tell it by
an offset to where the first tells it. A roll that is long enough has an item whose offset does not
fit its word, and what was written for it is not read. -/

namespace ObjectBroker.Roll

open Unmarshaller (run_bind_of_ok run_bind_of_error)
open Unmarshalling (run_stream)

def itemType : ValueType where
  id := "i"
  ancestors := []
  fields := [⟨"mark", .scalar .octet, "i"⟩]

def rollType : ValueType where
  id := "l"
  ancestors := []
  fields := [⟨"items", .sequence (.value "i"), "l"⟩]

def item (t : ValueType) : Instance := ⟨t, [.scalar (.octet 0)]⟩

def handles (first count : Nat) : List FieldValue :=
  (List.range' first count).map fun n => .value (some n)

def heap (types : List ValueType) : Heap where
  nodes := (⟨rollType, [.sequence (handles 1 types.length)]⟩ :: types.map item).toArray

lemma handles_succ (first count : Nat) :
    handles first (count + 1) = handles first count ++ [.value (some (first + count))] := by
  rw [handles, List.range'_concat, Nat.one_mul, List.map_append]
  rfl

lemma get?_heap_zero (types : List ValueType) :
    (heap types).get? 0 = some ⟨rollType, [.sequence (handles 1 types.length)]⟩ := by
  simp [heap, Heap.get?]

lemma get?_heap_succ (types : List ValueType) (n : Nat) :
    (heap types).get? (n + 1) = types[n]?.map item := by
  simp [heap, Heap.get?]

lemma wellTyped_heap {types : List ValueType}
    (h : ∀ t ∈ types, t.isA "i" = true ∧ t.fields = itemType.fields) :
    (heap types).WellTyped := by
  intro n i hi
  cases n with
  | zero =>
    rw [get?_heap_zero] at hi
    cases hi
    refine .cons ?_ .nil
    rw [Heap.fits, List.all_eq_true]
    intro v hv
    obtain ⟨n, hn, rfl⟩ := List.mem_map.mp hv
    obtain ⟨k, hk, rfl⟩ := List.mem_range'.mp hn
    have hget : types[k]? = some types[k] := List.getElem?_eq_getElem hk
    rw [Nat.one_mul, Nat.add_comm, Heap.fits, Heap.isA, Heap.typeOf?, get?_heap_succ, hget]
    exact (h _ (List.getElem_mem hk)).1
  | succ n =>
    rw [get?_heap_succ, Option.map_eq_some_iff] at hi
    obtain ⟨t, ht, rfl⟩ := hi
    rw [item, (h t (List.mem_of_getElem? ht)).2]
    exact .cons rfl .nil

lemma reaches_item {types : List ValueType} {n : Nat} (hn : n < types.length) :
    (heap types).Reaches [0] (n + 1) := by
  refine .field (.root (List.mem_singleton_self 0)) (get?_heap_zero types) ?_
  have hhandle : FieldValue.value (some (n + 1)) ∈ handles 1 types.length :=
    List.mem_map.mpr ⟨n + 1, List.mem_range'.mpr ⟨n, hn, by omega⟩, rfl⟩
  refine FieldValue.mem_nodesAll.mpr ⟨_, List.mem_singleton_self _, ?_⟩
  exact FieldValue.mem_nodesAll.mpr ⟨_, hhandle, List.mem_singleton_self _⟩

section Writing

variable {order : ByteOrder} {limit levels : Nat} {h : Heap} {m : Marshaller} {k n : Nat}

def begun (order : ByteOrder) (limit count : Nat) : Marshaller :=
  ((Marshaller.new order limit).putHead 0 "l").put (·.putWord 4 count)

def putItem (id : String) (m : Marshaller) (n : NodeId) : Marshaller :=
  (m.putHead n id).put (·.putScalar (.octet 0))

def putItems (m : Marshaller) : (k : Nat) → Marshaller
  | 0 => m
  | k + 1 => putItem "i" (putItems m k) (k + 1)

lemma extends_putItem (id : String) (m : Marshaller) (n : NodeId) : m.Extends (putItem id m n) :=
  (m.extends_putHead n id).trans (Marshaller.extends_put _ (Output.extends_putWord _ _ _))

lemma extends_putItems (m : Marshaller) {k n : Nat} (hk : k ≤ n) :
    (putItems m k).Extends (putItems m n) := by
  induction hk with
  | refl => exact .refl _
  | step _ ih => exact ih.trans (extends_putItem _ _ _)

lemma instances_putItem (id : String) (m : Marshaller) (n : NodeId) :
    (putItem id m n).instances = (n, (m.output.align 4).position) :: m.instances :=
  (m.putTag n).putTypeId_instances id

lemma lookup_putItems (hm : ∀ p ∈ m.instances, p.1 = 0) (k : Nat) :
    (putItems m k).instances.lookup (k + 1) = none := by
  have hle : ∀ p ∈ (putItems m k).instances, p.1 ≤ k := by
    induction k with
    | zero => exact fun p hp => (hm p hp).le
    | succ k ih =>
      intro p hp
      rw [putItems, instances_putItem] at hp
      rcases List.mem_cons.mp hp with rfl | hp
      · exact Nat.le_refl _
      · exact (ih p hp).trans (Nat.le_succ k)
  refine List.lookup_eq_none_iff.mpr fun p hp => ?_
  have hne : k + 1 ≠ p.1 := (Nat.lt_succ_of_le (hle p hp)).ne'
  simpa using hne

lemma run_field_item {t : ValueType} (hn : m.instances.lookup n = none)
    (hi : h.get? n = some (item t)) :
    m.run (Marshalling.field (Marshalling.valueAt h (levels + 1)) (.value (some n))) =
      (.ok (), putItem t.id m n) := by
  have hid : h.typeId n = t.id := by
    rw [Heap.typeId, Heap.typeOf?, hi]
    rfl
  rw [Marshalling.field, Marshalling.run_valueAt_fresh h m levels hn, hid, hi]
  rfl

lemma run_fields_append (write : Option NodeId → Marshalling Unit) (vs vs' : List FieldValue)
    (m : Marshaller) :
    m.run (Marshalling.fields write (vs ++ vs')) =
      m.run (do Marshalling.fields write vs; Marshalling.fields write vs') := by
  induction vs generalizing m with
  | nil => rfl
  | cons v vs ih =>
    rw [List.cons_append, Marshalling.fields, Marshalling.fields, bind_assoc,
      Marshaller.run_bind, Marshaller.run_bind]
    rcases m.run (Marshalling.field write v) with ⟨e | _, m'⟩
    · rfl
    · exact ih m'

lemma run_fields_succ {t : ValueType} (hm : ∀ p ∈ m.instances, p.1 = 0)
    (hitems : m.run (Marshalling.fields (Marshalling.valueAt h (levels + 1)) (handles 1 k)) =
      (.ok (), putItems m k))
    (hlast : h.get? (k + 1) = some (item t)) :
    m.run (Marshalling.fields (Marshalling.valueAt h (levels + 1)) (handles 1 (k + 1))) =
      (.ok (), putItem t.id (putItems m k) (k + 1)) := by
  rw [handles_succ, run_fields_append, Marshaller.run_bind, hitems, Nat.add_comm 1 k]
  change (putItems m k).run (do
    Marshalling.field (Marshalling.valueAt h (levels + 1)) (.value (some (k + 1)))
    pure ()) = _
  rw [Marshaller.run_bind, run_field_item (lookup_putItems hm k) hlast]
  rfl

lemma run_fields_items (hm : ∀ p ∈ m.instances, p.1 = 0)
    (hi : ∀ n, 1 ≤ n → n ≤ k → h.get? n = some (item itemType)) :
    m.run (Marshalling.fields (Marshalling.valueAt h (levels + 1)) (handles 1 k)) =
      (.ok (), putItems m k) := by
  induction k with
  | zero => rfl
  | succ k ih =>
    have hitems := ih fun n hn hk => hi n hn (hk.trans (Nat.le_succ k))
    exact run_fields_succ hm hitems (hi (k + 1) (Nat.le_add_left 1 k) le_rfl)

lemma run_value_heap (order : ByteOrder) (levels : Nat) (types : List ValueType) :
    (Marshaller.new order (levels + 2)).run (Marshalling.value (heap types) (some 0)) =
      (begun order (levels + 2) types.length).run (Marshalling.fields
        (Marshalling.valueAt (heap types) (levels + 1)) (handles 1 types.length)) := by
  have hid : (heap types).typeId 0 = "l" := by
    rw [Heap.typeId, Heap.typeOf?, get?_heap_zero]
    rfl
  have hroot : (Marshaller.new order (levels + 2)).run (Marshalling.value (heap types) (some 0)) =
      (Marshaller.new order (levels + 2)).run
        (Marshalling.valueAt (heap types) (levels + 1 + 1) (some 0)) := rfl
  rw [hroot, Marshalling.run_valueAt_fresh (heap types) _ (levels + 1) rfl, hid, get?_heap_zero,
    Option.elim_some, Marshalling.fields, Marshaller.run_bind, Marshalling.field,
    Marshaller.run_bind]
  have hcount : ((Marshaller.new order (levels + 2)).putHead 0 "l").run (modify fun m =>
      m.put (·.putWord 4 (handles 1 types.length).length)) =
      (.ok (), begun order (levels + 2) types.length) := by
    rw [handles, List.length_map, List.length_range']
    rfl
  rw [hcount]
  dsimp only
  rcases (begun order (levels + 2) types.length).run _ with ⟨e | _, m⟩ <;> rfl

lemma begun_instances {p : NodeId × Nat} {count : Nat}
    (hp : p ∈ (begun order limit count).instances) : p.1 = 0 := by
  rw [List.mem_singleton.mp hp]

lemma get?_replicate {more : List ValueType} (hn : 1 ≤ n) (hk : n ≤ k) :
    (heap (List.replicate k itemType ++ more)).get? n = some (item itemType) := by
  obtain ⟨n, rfl⟩ := Nat.exists_eq_add_of_le' hn
  have hlt : n < (List.replicate k itemType).length := by
    rw [List.length_replicate]
    omega
  rw [get?_heap_succ, List.getElem?_append_left hlt, List.getElem?_eq_getElem hlt,
    List.getElem_replicate]
  rfl

lemma run_value_replicate (order : ByteOrder) (levels k : Nat) :
    (Marshaller.new order (levels + 2)).run
        (Marshalling.value (heap (List.replicate k itemType)) (some 0)) =
      (.ok (), putItems (begun order (levels + 2) k) k) := by
  have hitems : ∀ n, 1 ≤ n → n ≤ k →
      (heap (List.replicate k itemType ++ [])).get? n = some (item itemType) :=
    fun n hn hk => get?_replicate hn hk
  rw [List.append_nil] at hitems
  rw [run_value_heap, List.length_replicate]
  exact run_fields_items (fun p => begun_instances) hitems

lemma get?_last (k : Nat) (t : ValueType) :
    (heap (List.replicate k itemType ++ [t])).get? (k + 1) = some (item t) := by
  rw [get?_heap_succ, List.getElem?_append_right (by simp), List.length_replicate, Nat.sub_self]
  rfl

lemma run_value_last (order : ByteOrder) (levels k : Nat) (t : ValueType) :
    (Marshaller.new order (levels + 2)).run
        (Marshalling.value (heap (List.replicate k itemType ++ [t])) (some 0)) =
      (.ok (), putItem t.id (putItems (begun order (levels + 2) (k + 1)) k) (k + 1)) := by
  have hm : ∀ p ∈ (begun order (levels + 2) (k + 1)).instances, p.1 = 0 := fun p => begun_instances
  have hlength : (List.replicate k itemType ++ [t]).length = k + 1 := by
    rw [List.length_append, List.length_replicate, List.length_singleton]
  rw [run_value_heap, hlength]
  refine run_fields_succ hm (run_fields_items hm ?_) (get?_last k t)
  intro n hn hk
  exact get?_replicate hn hk

lemma putHead_new {id : String} (hid : m.typeIds.lookup id = none) (n : NodeId) :
    (m.putHead n id).output = ((m.output.putUInt32 ValueTag.single).align 4).putString id ∧
      (m.putHead n id).typeIds =
        (id, ((m.output.putUInt32 ValueTag.single).align 4).position) :: m.typeIds := by
  have hnew : (m.putTag n).typeIds.lookup id = none := hid
  rw [Marshaller.putHead_eq, Marshaller.putTypeId, hnew, ← m.putTag_output n]
  exact ⟨rfl, rfl⟩

lemma putHead_shared {id : String} {target : Nat} (hid : m.typeIds.lookup id = some target)
    (n : NodeId) :
    (m.putHead n id).output =
        Unmarshalling.pointer (m.output.putUInt32 ValueTag.single) target ∧
      (m.putHead n id).typeIds = m.typeIds := by
  have hshared : (m.putTag n).typeIds.lookup id = some target := hid
  rw [Marshaller.putHead_eq, Marshaller.putTypeId, hshared, ← m.putTag_output n]
  dsimp only [Marshaller.putIndirection, Marshaller.putTag]
  exact ⟨rfl, rfl⟩

lemma aligned_four (p : Nat) : aligned p 4 = (p + 3) / 4 * 4 := by
  rw [aligned, padding]
  split_ifs <;> omega

lemma aligned_one (p : Nat) : aligned p 1 = p := rfl

structure Written (k : Nat) (m : Marshaller) : Prop where
  typeIds : m.typeIds = [("i", 20), ("l", 4)]
  place : aligned m.output.position 4 = 16 * k + 12

lemma length_id : (Utf8.encode "i").length = 1 ∧ (Utf8.encode "l").length = 1 := by decide +kernel

lemma new_lookup (order : ByteOrder) (limit : Nat) :
    (Marshaller.new order limit).typeIds.lookup "l" = none := rfl

lemma begun_position (order : ByteOrder) (limit count : Nat) :
    (begun order limit count).output.position = 16 := by
  obtain ⟨houtput, -⟩ := putHead_new (new_lookup order limit) 0
  have hempty : (Marshaller.new order limit).output.position = 0 := rfl
  change (((Marshaller.new order limit).putHead 0 "l").output.putWord 4 count).position = 16
  rw [houtput]
  simp only [Output.position_putWord, Output.position_putString, Output.position_align,
    Output.putUInt32, hempty, length_id.2, aligned_four]

lemma begun_typeIds (order : ByteOrder) (limit count : Nat) :
    (begun order limit count).typeIds = [("l", 4)] := by
  obtain ⟨-, htypeIds⟩ := putHead_new (new_lookup order limit) 0
  have hempty : (Marshaller.new order limit).output.position = 0 := rfl
  change ((Marshaller.new order limit).putHead 0 "l").typeIds = _
  rw [htypeIds, Output.position_align, Output.putUInt32, Output.position_putWord, hempty]
  rfl

lemma begun_lookup (order : ByteOrder) (limit count : Nat) :
    (begun order limit count).typeIds.lookup "i" = none := by
  rw [begun_typeIds]
  rfl

lemma written_first (order : ByteOrder) (limit count : Nat) :
    Written 1 (putItem "i" (begun order limit count) 1) := by
  obtain ⟨houtput, htypeIds⟩ := putHead_new (begun_lookup order limit count) 1
  have hposition := begun_position order limit count
  constructor
  · change ((begun order limit count).putHead 1 "i").typeIds = _
    rw [htypeIds, begun_typeIds, Output.position_align, Output.putUInt32, Output.position_putWord,
      hposition]
    rfl
  · change aligned (((begun order limit count).putHead 1 "i").output.putWord 1 0).position 4 = _
    rw [houtput]
    simp only [Output.position_putWord, Output.position_putString, Output.position_align,
      Output.putUInt32, hposition, length_id.1, aligned_one, aligned_four]

lemma Written.putItem (h : Written k m) (n : NodeId) : Written (k + 1) (putItem "i" m n) := by
  have hid : m.typeIds.lookup "i" = some 20 := by
    rw [h.typeIds]
    rfl
  obtain ⟨houtput, htypeIds⟩ := putHead_shared hid n
  have hplace := h.place
  constructor
  · exact htypeIds.trans h.typeIds
  · change aligned ((m.putHead n "i").output.putWord 1 0).position 4 = _
    rw [houtput, Output.position_putWord, aligned_one, Unmarshalling.pointer]
    simp only [Output.putUInt32, Output.position_putWord, hplace, aligned_four]
    omega

lemma written_putItems (order : ByteOrder) (limit count : Nat) (k : Nat) :
    Written (k + 1) (putItems (begun order limit count) (k + 1)) := by
  induction k with
  | zero => exact written_first order limit count
  | succ k ih => exact ih.putItem _

lemma length_putItems (order : ByteOrder) (limit count k : Nat) :
    16 * (k + 1) + 9 ≤ (putItems (begun order limit count) (k + 1)).output.length ∧
      (putItems (begun order limit count) (k + 1)).output.length ≤ 16 * (k + 1) + 12 := by
  have hplace := (written_putItems order limit count k).place
  obtain ⟨x, hx⟩ := (extends_putItems (begun order limit count) (Nat.zero_le (k + 1))).output
  rw [hx, putItems] at hplace ⊢
  have hposition : ((begun order limit count).output.append x).position =
      ((begun order limit count).output.append x).length := Nat.zero_add _
  rw [hposition, aligned_four] at hplace
  omega

end Writing

section Reading

variable {R : Registry} {body : Octets} {o o' : Output} {u u' : Unmarshaller} {m : Marshaller}
variable {k : Nat} (levels : Nat)

def readItem (levels : Nat) : Unmarshalling FieldValue :=
  Unmarshalling.field (Unmarshalling.valueAt (levels + 1)) (.value "i")

lemma write_alloc (h : Heap) (i j : Instance) : (h.alloc i).2.write h.size j = (h.alloc j).2 := by
  simp only [Heap.alloc, Heap.write, Heap.size]
  congr 1
  exact Array.ext' (by simp)

lemma run_readItem (hu : u.input = o.inBody body)
    (htag : (o.putUInt32 ValueTag.single).octets <+: body)
    (ht : (u.seek ((o.putUInt32 ValueTag.single).inBody body)).run Unmarshalling.typeId =
      (.ok "i", u'))
    (hu' : u'.input = o'.inBody body) (hp : (o'.putScalar (.octet 0)).octets <+: body)
    (hc : u'.registry.create "i" = .ok (.new itemType)) :
    u.run (readItem levels) = (.ok (.value (some u'.heap.size)),
      { u' with
        input := (o'.putScalar (.octet 0)).inBody body
        heap := (u'.heap.alloc (item itemType)).2
        instances := ((o.align 4).position, u'.heap.size) :: u'.instances }) := by
  let n := u'.heap.size
  let u₁ : Unmarshaller := { u' with
    heap := (u'.heap.alloc (.new itemType)).2
    instances := ((o.align 4).position, n) :: u'.instances }
  let u₂ := u₁.seek ((o'.putScalar (.octet 0)).inBody body)
  let u₃ := { u₂ with heap := (u'.heap.alloc (item itemType)).2 }
  have hfield : u₁.run (Unmarshalling.field (Unmarshalling.valueAt levels) (.scalar .octet)) =
      (.ok (.scalar (.octet 0)), u₂) := by
    have hscalar : u₁.run (Unmarshalling.stream (Reading.scalar .octet)) = (.ok (.octet 0), u₂) :=
      run_stream (Reading.recovers_scalar o' (.octet 0)) hu' hp
    rw [Unmarshalling.field, run_bind_of_ok hscalar]
    rfl
  have hstore : u₂.run (Unmarshalling.store n 0 (.scalar (.octet 0))) = (.ok (), u₃) := by
    rw [Unmarshalling.run_store (Heap.get?_alloc_self _ _) (j := item itemType) rfl]
    exact congrArg (fun heap => (Except.ok (), { u₂ with heap })) (write_alloc _ _ _)
  have hfill : u₁.run (Unmarshalling.fill (Unmarshalling.valueAt levels) n 0 itemType.fields) =
      (.ok (), u₃) := by
    rw [show itemType.fields = [⟨"mark", .scalar .octet, "i"⟩] from rfl, Unmarshalling.fill,
      run_bind_of_ok hfield, run_bind_of_ok hstore]
    rfl
  have hvalue : u.run (Unmarshalling.valueAt (levels + 1)) = (.ok (some n), u₃) := by
    rw [Unmarshalling.run_valueAt_fresh levels (Unmarshalling.run_start_fresh hu htag),
      run_bind_of_ok (Unmarshalling.run_fresh _ ht hc)]
    exact run_bind_of_ok hfill
  have hisA : u₃.heap.isA n "i" = true := by
    rw [Heap.isA, Heap.typeOf?, show u₃.heap.get? n = some (item itemType) from
      Heap.get?_alloc_self _ _]
    rfl
  have hassign : u₃.run (Unmarshalling.assignable "i" (some n)) = (.ok (some n), u₃) := by
    change Unmarshaller.run u₃ (if u₃.heap.isA n "i" then pure (some n) else throw _) = _
    rw [hisA]
    rfl
  rw [readItem, Unmarshalling.field, run_bind_of_ok hvalue, run_bind_of_ok hassign]
  rfl

def spellItem (o : Output) : Output :=
  (((o.putUInt32 ValueTag.single).align 4).putString "i").putScalar (.octet 0)

lemma run_readItem_spelled (hu : u.input = o.inBody body) (hp : (spellItem o).octets <+: body)
    (hl : (spellItem o).length < 2 ^ 31) (hc : u.registry.create "i" = .ok (.new itemType)) :
    u.run (readItem levels) = (.ok (.value (some u.heap.size)),
      { u with
        input := (spellItem o).inBody body
        typeIds := (((o.putUInt32 ValueTag.single).align 4).position, "i") :: u.typeIds
        heap := (u.heap.alloc (item itemType)).2
        instances := ((o.align 4).position, u.heap.size) :: u.instances }) := by
  let tagged := o.putUInt32 ValueTag.single
  have hspelled : ((tagged.align 4).putString "i").Extends (spellItem o) :=
    Output.extends_putWord _ 1 _
  have hhead := hspelled.octets_initial.trans hp
  have htag : tagged.octets <+: body :=
    ((Output.extends_align _ 4).trans (Output.extends_putString _ _)).octets_initial.trans hhead
  have htype := Unmarshalling.run_typeId_new (u := u.seek (tagged.inBody body))
    (hspelled.length_le.trans_lt hl) rfl hhead
  exact run_readItem levels hu htag htype rfl hp hc

/-- The reader has come to where `m` ends, past the first item. -/
structure Reached (R : Registry) (body : Octets) (m : Marshaller) (u : Unmarshaller) : Prop where
  input : u.input = m.output.inBody body
  typeIds : u.typeIds = [(20, "i"), (4, "l")]
  registry : u.registry = R

lemma tag_initial {id : String} {n : NodeId} (hp : (m.putHead n id).output.octets <+: body) :
    (m.output.putUInt32 ValueTag.single).octets <+: body := by
  rw [← m.putTag_output n]
  exact ((m.putTag n).extends_putTypeId id).output.octets_initial.trans hp

lemma Written.lookup (hm : Written k m) : m.typeIds.lookup "i" = some 20 := by
  rw [hm.typeIds]
  rfl

lemma Written.offset (hm : Written k m) :
    ((m.output.putUInt32 ValueTag.single).putUInt32 ValueTag.indirection).position =
      16 * k + 20 := by
  have hplace := hm.place
  simp only [Output.putUInt32, Output.position_putWord, hplace, aligned_four]
  omega

lemma pointer_initial (hm : Written k m) {n : NodeId}
    (hp : (putItem "i" m n).output.octets <+: body) :
    (m.output.putUInt32 ValueTag.single).octets <+: body ∧
      (Unmarshalling.pointer (m.output.putUInt32 ValueTag.single) 20).octets <+: body := by
  obtain ⟨houtput, -⟩ := putHead_shared hm.lookup n
  have hhead : (m.putHead n "i").output.octets <+: body :=
    (Output.extends_putWord _ 1 _).octets_initial.trans hp
  refine ⟨tag_initial hhead, ?_⟩
  rw [← houtput]
  exact hhead

lemma Reached.next (h : Reached R body m u) (hm : Written k m) (hk : 1 ≤ k)
    (hnear : 16 * k ≤ 2 ^ 31) (hR : R.create "i" = .ok (.new itemType)) {n : NodeId}
    (hp : (putItem "i" m n).output.octets <+: body) :
    ∃ v u', u.run (readItem levels) = (.ok v, u') ∧ Reached R body (putItem "i" m n) u' := by
  let tagged := m.output.putUInt32 ValueTag.single
  obtain ⟨houtput, -⟩ := putHead_shared hm.lookup n
  obtain ⟨htag, hpointer⟩ := pointer_initial hm hp
  have hoffset : (tagged.putUInt32 ValueTag.indirection).position = 16 * k + 20 := hm.offset
  have hposition : tagged.position = aligned m.output.position 4 + 4 :=
    Output.position_putWord _ 4 _
  rw [hm.place] at hposition
  have hknown : (u.seek (tagged.inBody body)).typeIds.lookup 20 = some "i" := by
    rw [show (u.seek (tagged.inBody body)).typeIds = _ from h.typeIds]
    rfl
  have htype := Unmarshalling.run_typeId_shared (o := tagged) (by omega) (by omega) rfl
    hpointer hknown
  have hcreate : u.registry.create "i" = .ok (.new itemType) := by rw [h.registry, hR]
  have hscalar : ((Unmarshalling.pointer tagged 20).putScalar (.octet 0)).octets <+: body := by
    rw [← houtput]
    exact hp
  refine ⟨_, _, run_readItem levels h.input htag htype rfl hscalar hcreate, ?_, h.typeIds, h.registry⟩
  rw [← houtput]
  rfl

lemma Reached.far (h : Reached R body m u) (hm : Written k m) (hfar : 2 ^ 31 < 16 * k)
    (hspan : 16 * k ≤ 2 ^ 32) {n : NodeId} (hp : (putItem "i" m n).output.octets <+: body) :
    ∃ u', u.run (readItem levels) = (.error (.dangling (20 + 2 ^ 32 : Nat)), u') := by
  let tagged := m.output.putUInt32 ValueTag.single
  obtain ⟨htag, hpointer⟩ := pointer_initial hm hp
  have hoffset : (tagged.putUInt32 ValueTag.indirection).position = 16 * k + 20 := hm.offset
  have hunknown : (u.seek (tagged.inBody body)).typeIds.lookup (20 + 2 ^ 32) = none := by
    rw [show (u.seek (tagged.inBody body)).typeIds = _ from h.typeIds]
    rfl
  have htype := Unmarshalling.run_typeId_far (o := tagged) (by omega) (by omega) rfl hpointer hunknown
  have hfresh : (u.seek (tagged.inBody body)).run
      (Unmarshalling.fresh (m.output.align 4).position ValueTag.single) = (.error _, _) :=
    run_bind_of_error (Unmarshalling.run_head.trans htype)
  have hvalue := Unmarshalling.run_valueAt_fresh levels
    (Unmarshalling.run_start_fresh h.input htag)
  exact ⟨_, run_bind_of_error (hvalue.trans (run_bind_of_error hfresh))⟩

lemma run_many_succ {r : Unmarshalling FieldValue} {v : FieldValue} {e : MarshalError} {n : Nat}
    {u'' : Unmarshaller} (h : u.run r = (.ok v, u'))
    (h' : u'.run (Unmarshalling.many r n) = (.error e, u'')) :
    u.run (Unmarshalling.many r (n + 1)) = (.error e, u'') := by
  rw [Unmarshalling.many, run_bind_of_ok h]
  exact run_bind_of_error h'

lemma Reached.many {last rest count : Nat} (h : Reached R body (putItems m k) u)
    (hm : ∀ k, 1 ≤ k → Written k (putItems m k)) (hk : 1 ≤ k) (hlast : k + rest = last)
    (hnear : 16 * (last - 1) ≤ 2 ^ 31) (hfar : 2 ^ 31 < 16 * last) (hcount : rest < count)
    (hR : R.create "i" = .ok (.new itemType))
    (hp : (putItems m (last + 1)).output.octets <+: body) :
    ∃ u', u.run (Unmarshalling.many (readItem levels) count) =
      (.error (.dangling (20 + 2 ^ 32 : Nat)), u') := by
  obtain ⟨count, rfl⟩ := Nat.exists_eq_add_one_of_ne_zero (Nat.ne_zero_of_lt hcount)
  have hnext : (putItem "i" (putItems m k) (k + 1)).output.octets <+: body :=
    (extends_putItems m (k := k + 1) (by omega)).output.octets_initial.trans hp
  induction rest generalizing k u count with
  | zero =>
    obtain rfl : k = last := hlast
    obtain ⟨u', hu'⟩ := h.far levels (hm k hk) hfar (by omega) hnext
    exact ⟨u', run_bind_of_error hu'⟩
  | succ rest ih =>
    obtain ⟨v, u', hu', h'⟩ := h.next levels (hm k hk) hk (by omega) hR hnext
    obtain ⟨count, rfl⟩ := Nat.exists_eq_add_one_of_ne_zero (n := count) (by omega)
    have hnext' : (putItem "i" (putItems m (k + 1)) (k + 1 + 1)).output.octets <+: body :=
      (extends_putItems m (k := k + 1 + 1) (by omega)).output.octets_initial.trans hp
    obtain ⟨u'', hu''⟩ := ih (k := k + 1) h' (by omega) (by omega) count (by omega) hnext'
    exact ⟨u'', run_many_succ hu' hu''⟩

variable {order : ByteOrder} {limit count : Nat} {home : Option Endpoint} {g : Heap}

def reader (order : ByteOrder) (body : Octets) (R : Registry) (levels : Nat)
    (home : Option Endpoint) (g : Heap) : Unmarshaller :=
  { Unmarshaller.new order body R (levels + 2) home with heap := g }

def counted (order : ByteOrder) (body : Octets) (R : Registry) (levels : Nat)
    (home : Option Endpoint) (g : Heap) (count : Nat) : Unmarshaller :=
  { reader order body R levels home g with
    input := (begun order 0 count).output.inBody body
    typeIds := [(4, "l")]
    instances := [(0, g.size)]
    heap := (g.alloc (.new rollType)).2 }

lemma run_value_roll (hR : R.create "l" = .ok (.new rollType)) (hcount : count < 2 ^ 32)
    (hp : (begun order 0 count).output.octets <+: body) (hlength : count + 16 ≤ body.length) :
    (reader order body R levels home g).run Unmarshalling.value =
      (counted order body R levels home g count).run (do
        let vs ← Unmarshalling.many (readItem levels) count
        Unmarshalling.store g.size 0 (.sequence vs)
        pure (some g.size)) := by
  let u := reader order body R levels home g
  let tagged := ({ order } : Output).putUInt32 ValueTag.single
  let headed := (tagged.align 4).putString "l"
  obtain ⟨houtput, -⟩ := putHead_new (new_lookup order 0) 0
  have hbegun : (begun order 0 count).output = headed.putWord 4 count :=
    congrArg (Output.putWord · 4 count) houtput
  rw [hbegun] at hp
  have hhead : headed.octets <+: body := (Output.extends_putWord _ 4 _).octets_initial.trans hp
  have htag : tagged.octets <+: body :=
    ((Output.extends_align _ 4).trans (Output.extends_putString _ _)).octets_initial.trans hhead
  have hplace : (tagged.align 4).position = 4 := by
    have hzero : ({ order } : Output).position = 0 := rfl
    simp only [tagged, Output.position_align, Output.putUInt32, Output.position_putWord, hzero,
      aligned_four]
  have hshort : headed.position = 10 := by
    simp only [headed, Output.position_putString, hplace, length_id.2, aligned_four]
  have hsmall : headed.length < 2 ^ 31 := by
    have hposition : headed.position = headed.length := Nat.zero_add _
    omega
  have hinput : u.input = ({ order } : Output).inBody body := rfl
  have hstart := Unmarshalling.run_start_fresh hinput htag
  have htype := Unmarshalling.run_typeId_new (u := u.seek (tagged.inBody body)) hsmall rfl hhead
  rw [hplace] at htype
  have hfresh := Unmarshalling.run_fresh ((({ order } : Output).align 4).position) htype hR
  -- The items are counted, and none of them can be missing.
  let u₁ := counted order body R levels home g count
  let u₂ : Unmarshaller := { u₁ with input := headed.inBody body }
  have hword : u₂.run (Unmarshalling.stream (Reading.word 4)) = (.ok count, u₁) := by
    rw [run_stream (Reading.recovers_word headed 4 count hcount) rfl hp, ← hbegun]
    rfl
  have hrest : ¬ u₁.input.remaining < count := by
    have hremaining : u₁.input.remaining = body.length - (begun order 0 count).output.length :=
      List.length_drop
    have hposition : (begun order 0 count).output.length = 16 :=
      (Nat.zero_add _).symm.trans (begun_position order 0 count)
    omega
  have hsequence : u₂.run Unmarshalling.sequenceLength = (.ok count, u₁) := by
    rw [Unmarshalling.sequenceLength, run_bind_of_ok hword,
      run_bind_of_ok (Unmarshaller.run_get u₁), if_neg hrest]
    rfl
  have hvalue := Unmarshalling.run_valueAt_fresh (levels + 1) hstart
  rw [run_bind_of_ok hfresh] at hvalue
  refine (show u.run Unmarshalling.value = _ from hvalue).trans ?_
  change u₂.run (do
    Unmarshalling.fill (Unmarshalling.valueAt (levels + 1)) g.size 0
      [⟨"items", .sequence (.value "i"), "l"⟩]
    pure (some g.size)) = _
  simp only [Unmarshalling.fill, Unmarshalling.field, bind_assoc, pure_bind]
  rw [run_bind_of_ok hsequence]
  rfl

lemma run_value_far {M : Marshaller} {last : Nat} (hR : R.create "l" = .ok (.new rollType))
    (hR' : R.create "i" = .ok (.new itemType)) (hnear : 16 * (last - 1) ≤ 2 ^ 31)
    (hfar : 2 ^ 31 < 16 * last) (hlast : last ≤ count) (hcount : count ≤ 2 * last)
    (hM : (putItems (begun order limit (count + 1)) (last + 1)).Extends M) :
    ∃ u, (reader order M.octets R levels home g).run Unmarshalling.value =
      (.error (.dangling (20 + 2 ^ 32 : Nat)), u) := by
  let m := begun order limit (count + 1)
  have hbegun : m.Extends M := (extends_putItems _ (Nat.zero_le (last + 1))).trans hM
  have hfirst : (putItems m 1).Extends M := (extends_putItems m (by omega)).trans hM
  obtain ⟨houtput, -⟩ := putHead_new (begun_lookup order limit (count + 1)) 1
  have hspelled : (putItems m 1).output = spellItem m.output :=
    congrArg (Output.putScalar · (.octet 0)) houtput
  have hshort : (spellItem m.output).length < 2 ^ 31 := by
    have hlength := length_putItems order limit (count + 1) 0
    rw [← hspelled]
    exact hlength.2.trans_lt (by decide)
  have hlong : count + 1 + 16 ≤ M.octets.length := by
    have hlength := length_putItems order limit (count + 1) last
    have hle := hM.output.length_le
    rw [Marshaller.octets, Output.length_octets]
    omega
  have hinput : (counted order M.octets R levels home g (count + 1)).input =
      m.output.inBody M.octets := rfl
  have hitem := run_readItem_spelled levels hinput (hspelled ▸ hfirst.output.octets_initial)
    hshort hR'
  have hplace : ((m.output.putUInt32 ValueTag.single).align 4).position = 20 := by
    have hposition : m.output.position = 16 := begun_position order limit (count + 1)
    simp only [Output.position_align, Output.putUInt32, Output.position_putWord, hposition,
      aligned_four]
  obtain ⟨u₁, hu₁, hreached⟩ : ∃ u₁, (counted order M.octets R levels home g (count + 1)).run
      (readItem levels) = (.ok _, u₁) ∧ Reached R M.octets (putItems m 1) u₁ :=
    ⟨_, hitem, congrArg (Output.inBody · M.octets) hspelled.symm,
      congrArg (fun place => [(place, "i"), (4, "l")]) hplace, rfl⟩
  have hwritten : ∀ k, 1 ≤ k → Written k (putItems m k) := by
    intro k hk
    obtain ⟨k, rfl⟩ := Nat.exists_eq_add_of_le' hk
    exact written_putItems order limit (count + 1) k
  have hlast : last - 1 < count := by omega
  obtain ⟨u, hu⟩ := hreached.many levels hwritten (Nat.le_refl 1) (by omega) hnear hfar hlast hR'
    hM.output.octets_initial
  have hinitial : (begun order 0 (count + 1)).output.octets <+: M.octets :=
    hbegun.output.octets_initial
  refine ⟨u, ?_⟩
  rw [run_value_roll levels hR (by omega) hinitial hlong, run_bind_of_error (run_many_succ hu₁ hu)]

def spellItems (o : Output) : (k : Nat) → Output
  | 0 => o
  | k + 1 => spellItem (spellItems o k)

lemma extends_spellItem (o : Output) : o.Extends (spellItem o) :=
  ((((Output.extends_putWord _ 4 _).trans (Output.extends_align _ 4)).trans
    (Output.extends_putString _ _)).trans (Output.extends_putWord _ 1 _))

lemma extends_spellItems (o : Output) {k n : Nat} (hk : k ≤ n) :
    (spellItems o k).Extends (spellItems o n) := by
  induction hk with
  | refl => exact .refl _
  | step _ ih => exact ih.trans (extends_spellItem _)

lemma position_spellItem (o : Output) :
    (spellItem o).position = aligned o.position 4 + 11 := by
  have hwidth : (Scalar.octet 0).kind.width = 1 := rfl
  simp only [spellItem, Output.putScalar, Output.position_putWord, Output.position_putString,
    Output.position_align, Output.putUInt32, length_id.1, hwidth, aligned_one, aligned_four]
  omega

lemma position_spellItems (ho : o.position = 16) (k : Nat) :
    (spellItems o (k + 1)).position = 12 * k + 27 := by
  induction k with
  | zero =>
    rw [spellItems, position_spellItem, spellItems, ho]
    rfl
  | succ k ih =>
    rw [spellItems, position_spellItem, ih, aligned_four]
    omega

lemma length_spellItems (order : ByteOrder) (k : Nat) :
    (spellItems (begun order 0 (k + 1)).output (k + 1)).length = 12 * k + 27 := by
  obtain ⟨x, hx⟩ := extends_spellItems (begun order 0 (k + 1)).output (Nat.zero_le (k + 1))
  have hposition := position_spellItems (begun_position order 0 (k + 1)) k
  rw [hx] at hposition ⊢
  exact (Nat.zero_add _).symm.trans hposition

lemma run_many_spelled (hu : u.input = (spellItems o k).inBody body)
    (hp : (spellItems o (k + count)).octets <+: body)
    (hl : (spellItems o (k + count)).length < 2 ^ 31)
    (hc : u.registry.create "i" = .ok (.new itemType)) :
    ∃ u', u.run (Unmarshalling.many (readItem levels) count) =
        (.ok (handles u.heap.size count), u') ∧
      u'.heap.nodes = u.heap.nodes ++ Array.replicate count (item itemType) := by
  induction count generalizing k u with
  | zero => exact ⟨u, rfl, by simp⟩
  | succ count ih =>
    have hnext : (spellItem (spellItems o k)).Extends (spellItems o (k + (count + 1))) :=
      extends_spellItems o (k := k + 1) (by omega)
    have hitem := run_readItem_spelled levels hu
      (hnext.octets_initial.trans hp) (hnext.length_le.trans_lt hl) hc
    rw [show k + (count + 1) = k + 1 + count by omega] at hp hl
    obtain ⟨u', hu', hnodes⟩ := ih (k := k + 1)
      (u := { u with
        input := (spellItem (spellItems o k)).inBody body
        typeIds := ((((spellItems o k).putUInt32 ValueTag.single).align 4).position, "i") ::
          u.typeIds
        heap := (u.heap.alloc (item itemType)).2
        instances := (((spellItems o k).align 4).position, u.heap.size) :: u.instances })
      rfl hp hl hc
    have hsize : (u.heap.alloc (item itemType)).2.size = u.heap.size + 1 := Array.size_push _
    refine ⟨u', ?_, hnodes.trans ?_⟩
    · rw [Unmarshalling.many, run_bind_of_ok hitem, run_bind_of_ok hu', handles, handles, hsize,
        List.range'_succ]
      rfl
    · rw [Heap.alloc, Array.push_eq_append, Array.append_assoc]
      congr 1
      exact Array.ext' (by simp [List.replicate_succ])

lemma read_spelled (hR : R.create "l" = .ok (.new rollType))
    (hR' : R.create "i" = .ok (.new itemType)) (hk : 12 * k + 27 < 2 ^ 31) :
    ∃ u, (reader order (spellItems (begun order 0 (k + 1)).output (k + 1)).octets R levels home
        {}).run Unmarshalling.value = (.ok (some 0), u) ∧
      u.heap = heap (List.replicate (k + 1) itemType) := by
  let o := (begun order 0 (k + 1)).output
  let body := (spellItems o (k + 1)).octets
  have hlength := length_spellItems order k
  have hlong : k + 1 + 16 ≤ body.length := by
    rw [Output.length_octets, hlength]
    omega
  have hinitial : o.octets <+: body := (extends_spellItems o (Nat.zero_le (k + 1))).octets_initial
  have hall : (spellItems o (0 + (k + 1))).octets <+: body := by
    simp only [Nat.zero_add, body, List.prefix_rfl]
  have hshort : (spellItems o (0 + (k + 1))).length < 2 ^ 31 := by
    rw [Nat.zero_add, hlength]
    exact hk
  obtain ⟨u, hu, hnodes⟩ := run_many_spelled levels
    (u := counted order body R levels home {} (k + 1)) rfl hall hshort hR'
  have hheap : u.heap.nodes =
      (.new rollType :: List.replicate (k + 1) (item itemType)).toArray :=
    hnodes.trans (Array.ext' (by simp [counted, Heap.alloc]))
  have hroll : u.heap.get? 0 = some (.new rollType) := by
    rw [Heap.get?, hheap]
    rfl
  have hfits : u.heap.fits (.sequence (.value "i")) (.sequence (handles 1 (k + 1))) = true := by
    rw [Heap.fits, List.all_eq_true]
    intro v hv
    obtain ⟨n, hn, rfl⟩ := List.mem_map.mp hv
    obtain ⟨j, hj, rfl⟩ := List.mem_range'.mp hn
    have hget : u.heap.get? (1 + 1 * j) = some (item itemType) := by
      rw [Heap.get?, hheap, show 1 + 1 * j = j + 1 by omega, List.getElem?_toArray,
        List.getElem?_cons_succ, List.getElem?_replicate_of_lt hj]
    rw [Heap.fits, Heap.isA, Heap.typeOf?, hget]
    rfl
  have hset : (Instance.new rollType).setAt u.heap 0 (.sequence (handles 1 (k + 1))) =
      .ok ⟨rollType, [.sequence (handles 1 (k + 1))]⟩ := by
    rw [Instance.setAt, show (Instance.new rollType).type.fields[0]? =
      some ⟨"items", .sequence (.value "i"), "l"⟩ from rfl]
    dsimp only
    rw [if_pos hfits]
    rfl
  have hstore : u.run (Unmarshalling.store 0 0 (.sequence (handles 1 (k + 1)))) =
      (.ok (), { u with heap := u.heap.write 0 ⟨rollType, [.sequence (handles 1 (k + 1))]⟩ }) :=
    Unmarshalling.run_store hroll hset
  refine ⟨{ u with heap := u.heap.write 0 ⟨rollType, [.sequence (handles 1 (k + 1))]⟩ }, ?_, ?_⟩
  · rw [run_value_roll levels hR (by omega) hinitial hlong, run_bind_of_ok hu]
    exact run_bind_of_ok hstore
  · rw [heap, List.length_replicate, Heap.write, hheap]
    simp [List.map_replicate]

def farthest : Nat := 2 ^ 27 + 2

lemma run_value_farthest {M : Marshaller} (hR : R.create "l" = .ok (.new rollType))
    (hR' : R.create "i" = .ok (.new itemType)) (hcount : farthest ≤ count)
    (hcount' : count ≤ farthest + 1)
    (hM : (putItems (begun order limit count) farthest).Extends M) :
    ∃ u, (reader order M.octets R levels home g).run Unmarshalling.value =
      (.error (.dangling (20 + 2 ^ 32 : Nat)), u) := by
  obtain ⟨last, hlast⟩ : ∃ last, farthest = last + 1 := ⟨2 ^ 27 + 1, rfl⟩
  have hvalue : farthest = 2 ^ 27 + 2 := rfl
  obtain ⟨count, rfl⟩ := Nat.exists_eq_add_one_of_ne_zero (n := count) (by omega)
  rw [hlast] at hM
  exact run_value_far levels hR hR' (by omega) (by omega) (by omega) (by omega) hM

end Reading

def registry : Registry where
  factories := [("l", .new rollType), ("i", .new itemType)]

lemma registry_roll : registry.create "l" = .ok (.new rollType) := rfl

lemma registry_item : registry.create "i" = .ok (.new itemType) := rfl

lemma type_of_get? {types : List ValueType} {n : NodeId} {i : Instance}
    (hi : (heap types).get? n = some i) : i.type = rollType ∨ i.type ∈ types := by
  cases n with
  | zero =>
    rw [get?_heap_zero] at hi
    cases hi
    exact .inl rfl
  | succ n =>
    rw [get?_heap_succ, Option.map_eq_some_iff] at hi
    obtain ⟨t, ht, rfl⟩ := hi
    exact .inr (List.mem_of_getElem? ht)

end ObjectBroker.Roll
