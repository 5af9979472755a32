import ObjectBroker.Proofs.Value.Marshal
import ObjectBroker.Value.Unmarshal

/-! How an unmarshaller takes what a marshaller puts: tags, type ids and indirections. -/

namespace ObjectBroker

lemma toInt_ofInt (x : Int) : (UInt32.ofInt x).toInt32.toInt = x.bmod (2 ^ 32) := by
  have hx : (UInt32.ofInt x).toInt32.toInt = ((UInt32.ofInt x).toNat : Int).bmod (2 ^ 32) :=
    BitVec.toInt_eq_toNat_bmod _
  have hn : ((UInt32.ofInt x).toNat : Int) = x % 0x100000000 := by
    rw [UInt32.ofInt, UInt32.toNat_ofNat']
    omega
  rw [hx, hn]
  simp only [Int.bmod]
  omega

namespace Unmarshaller

variable {α β : Type}

lemma run_bind (u : Unmarshaller) (r : Unmarshalling α) (f : α → Unmarshalling β) :
    u.run (r >>= f) =
      match u.run r with
      | (.ok a, u') => u'.run (f a)
      | (.error e, u') => (.error e, u') := by
  rw [show u.run (r >>= f) = _ from stateful_bind r f u]
  rcases h : u.run r with ⟨e | a, u'⟩
  · rw [show StateT.run (ExceptT.run r) u = _ from h]
  · rw [show StateT.run (ExceptT.run r) u = _ from h]
    rfl

lemma run_bind_of_ok {u u' : Unmarshaller} {r : Unmarshalling α} {f : α → Unmarshalling β} {a : α}
    (h : u.run r = (.ok a, u')) : u.run (r >>= f) = u'.run (f a) := by
  rw [run_bind, h]

lemma run_bind_of_error {u u' : Unmarshaller} {r : Unmarshalling α} {f : α → Unmarshalling β}
    {e : MarshalError} (h : u.run r = (.error e, u')) : u.run (r >>= f) = (.error e, u') := by
  rw [run_bind, h]

lemma run_get (u : Unmarshaller) : u.run get = (.ok u, u) := rfl

def seek (u : Unmarshaller) (input : Input) : Unmarshaller :=
  { u with input }

end Unmarshaller

namespace Unmarshalling

open Unmarshaller

variable {α β : Type} {u : Unmarshaller} {o o' : Output} {body : Octets}

lemma run_ofReading {r : Reading MarshalError α} {a : α} {i : Input}
    (h : r.run u.input = (.ok a, i)) : u.run (ofReading r) = (.ok a, u.seek i) := by
  rw [ofReading, run_bind_of_ok (run_get u), h]
  rfl

lemma run_stream {r : Reading StreamError α} {a : α} (h : r.Recovers o o' a)
    (hu : u.input = o.inBody body) (hp : o'.octets <+: body) :
    u.run (stream r) = (.ok a, u.seek (o'.inBody body)) := by
  apply run_ofReading
  rw [hu]
  exact (h.adapt MarshalError.stream).run_inBody hp

lemma run_position (u : Unmarshaller) : u.run position = (.ok u.input.position, u) := rfl

lemma run_tag {tag : UInt32} (f : Nat → UInt32 → Unmarshalling β) (hu : u.input = o.inBody body)
    (hp : (o.putUInt32 tag).octets <+: body) :
    u.run (do
      stream (Reading.align 4)
      let origin ← position
      let tag ← stream Reading.uint32
      f origin tag) =
    (u.seek ((o.putUInt32 tag).inBody body)).run (f (o.align 4).position tag) := by
  have ha : (o.align 4).octets <+: body :=
    ((Output.extends_append (o.align 4) _).octets_initial).trans hp
  have hr := Reading.recovers_uint32 (o.align 4) tag
  rw [Output.putUInt32, Output.putWord_align] at hr
  rw [run_bind_of_ok (run_stream (Reading.recovers_align o 4) hu ha),
    run_bind_of_ok (run_position _), run_bind_of_ok (run_stream hr rfl hp)]
  rfl

/-- Where an offset to `target` leads that stands at `origin`. What is too far behind is looked for
ahead. -/
lemma run_indirection {target reached : Nat} (h4 : 4 ∣ o.position)
    (hreached : (o.position : Int) + (target - o.position : Int).bmod (2 ^ 32) = reached)
    (hu : u.input = o.inBody body)
    (hp : (o.putUInt32 (UInt32.ofInt (target - o.position))).octets <+: body) :
    u.run indirection = (.ok reached, u.seek
      ((o.putUInt32 (UInt32.ofInt (target - o.position))).inBody body)) := by
  rw [indirection, run_tag _ hu hp, o.align_eq_self 4 h4, toInt_ofInt]
  dsimp only
  rw [hreached, if_neg (by omega)]
  rfl

lemma reached_near {target position : Nat} (ht : target ≤ position)
    (hspan : position ≤ target + 2 ^ 31) :
    (position : Int) + (target - position : Int).bmod (2 ^ 32) = target := by
  simp only [Int.bmod]
  omega

lemma reached_far {target position : Nat} (hfar : target + 2 ^ 31 < position)
    (hspan : position ≤ target + 2 ^ 32) :
    (position : Int) + (target - position : Int).bmod (2 ^ 32) = (target + 2 ^ 32 : Nat) := by
  simp only [Int.bmod]
  omega

lemma run_peek {n : Nat} (hn : n < 2 ^ 32) (hu : u.input = o.inBody body)
    (hp : (o.putWord 4 n).octets <+: body) :
    u.run (stream (Reading.peekWord 4)) = (.ok n, u.seek ((o.align 4).inBody body)) := by
  apply run_ofReading
  rw [hu, Reading.run_adapt, Reading.run_peekWord o hn hp]
  rfl

def pointer (o : Output) (target : Nat) : Output :=
  let o := o.putUInt32 ValueTag.indirection
  o.putUInt32 (UInt32.ofInt (target - o.position))

lemma run_pointer {target reached : Nat} {f : Nat → Unmarshalling β}
    (hreached : ((o.putUInt32 ValueTag.indirection).position : Int) +
      (target - (o.putUInt32 ValueTag.indirection).position : Int).bmod (2 ^ 32) = reached)
    (hp : (pointer o target).octets <+: body)
    (hu : u.input = (o.putUInt32 ValueTag.indirection).inBody body) :
    u.run (indirection >>= f) = (u.seek ((pointer o target).inBody body)).run (f reached) :=
  run_bind_of_ok (run_indirection (o.dvd_position_putWord 4 _ (by decide)) hreached hu hp)

lemma run_typeId_pointer {target reached : Nat}
    (hreached : ((o.putUInt32 ValueTag.indirection).position : Int) +
      (target - (o.putUInt32 ValueTag.indirection).position : Int).bmod (2 ^ 32) = reached)
    (hu : u.input = o.inBody body) (hp : (pointer o target).octets <+: body) :
    u.run typeId = (u.seek ((pointer o target).inBody body)).run
      (match u.typeIds.lookup reached with
        | some id => pure id
        | none => throw (.dangling reached)) := by
  have he : (o.putUInt32 ValueTag.indirection).Extends (pointer o target) :=
    Output.extends_putWord _ 4 _
  have hw := Reading.recovers_word (o.align 4) 4 ValueTag.indirection.toNat (by decide)
  rw [Output.putWord_align] at hw
  rw [typeId, run_bind_of_ok (run_peek (by decide) hu (he.octets_initial.trans hp)), if_pos rfl,
    run_bind_of_ok (run_stream hw rfl (he.octets_initial.trans hp)), run_pointer hreached hp rfl,
    run_bind_of_ok (run_get _)]
  rfl

lemma run_typeId_shared {target : Nat} {id : String} (ht : target ≤ o.position)
    (hspan : (o.putUInt32 ValueTag.indirection).position ≤ target + 2 ^ 31)
    (hu : u.input = o.inBody body) (hp : (pointer o target).octets <+: body)
    (hid : u.typeIds.lookup target = some id) :
    u.run typeId = (.ok id, u.seek ((pointer o target).inBody body)) := by
  have hle : target ≤ (o.putUInt32 ValueTag.indirection).position :=
    ht.trans (Output.extends_putWord o 4 _).position_le
  rw [run_typeId_pointer (reached_near hle hspan) hu hp, hid]
  rfl

lemma run_typeId_far {target : Nat}
    (hfar : target + 2 ^ 31 < (o.putUInt32 ValueTag.indirection).position)
    (hspan : (o.putUInt32 ValueTag.indirection).position ≤ target + 2 ^ 32)
    (hu : u.input = o.inBody body) (hp : (pointer o target).octets <+: body)
    (hid : u.typeIds.lookup (target + 2 ^ 32) = none) :
    u.run typeId = (.error (.dangling (target + 2 ^ 32 : Nat)),
      u.seek ((pointer o target).inBody body)) := by
  rw [run_typeId_pointer (reached_far hfar hspan) hu hp, hid]
  rfl

lemma run_typeId_new {id : String} (hl : ((o.align 4).putString id).length < 2 ^ 31)
    (hu : u.input = o.inBody body) (hp : ((o.align 4).putString id).octets <+: body) :
    u.run typeId = (.ok id, { u.seek (((o.align 4).putString id).inBody body) with
      typeIds := ((o.align 4).position, id) :: u.typeIds }) := by
  have hlen := (o.align 4).length_le_putString id
  have hs := Reading.recovers_string (o.align 4) id (by omega)
  have hw : (o.putWord 4 ((Utf8.encode id).length + 1)).octets <+: body := by
    refine List.IsPrefix.trans ?_ hp
    rw [Output.putString, Output.putWord_align]
    exact (Output.extends_append _ _).octets_initial
  have hn : (Utf8.encode id).length + 1 ≠ ValueTag.indirection.toNat := by
    have : ValueTag.indirection.toNat = 2 ^ 32 - 1 := rfl
    omega
  rw [typeId, run_bind_of_ok (run_peek (by omega) hu hw), if_neg hn,
    run_bind_of_ok (run_position _), run_bind_of_ok (run_stream hs rfl hp)]
  rfl

lemma run_start_null (hu : u.input = o.inBody body)
    (hp : (o.putUInt32 ValueTag.null).octets <+: body) :
    u.run start = (.ok .null, u.seek ((o.putUInt32 ValueTag.null).inBody body)) := by
  rw [start, run_tag _ hu hp, if_pos rfl]
  rfl

lemma run_start_shared {target : Nat} {n : NodeId} (ht : target ≤ o.position)
    (hspan : (o.putUInt32 ValueTag.indirection).position ≤ target + 2 ^ 31)
    (hu : u.input = o.inBody body) (hp : (pointer o target).octets <+: body)
    (hn : u.instances.lookup target = some n) :
    u.run start = (.ok (.shared n), u.seek ((pointer o target).inBody body)) := by
  have he : (o.putUInt32 ValueTag.indirection).Extends (pointer o target) :=
    Output.extends_putWord _ 4 _
  have hle : target ≤ (o.putUInt32 ValueTag.indirection).position :=
    ht.trans (Output.extends_putWord o 4 _).position_le
  rw [start, run_tag _ hu (he.octets_initial.trans hp), if_neg (by decide), if_pos rfl,
    run_pointer (reached_near hle hspan) hp rfl, run_bind_of_ok (run_get _)]
  dsimp only [seek]
  rw [hn]
  rfl

lemma run_start_fresh (hu : u.input = o.inBody body)
    (hp : (o.putUInt32 ValueTag.single).octets <+: body) :
    u.run start = (.ok (.fresh (o.align 4).position ValueTag.single),
      u.seek ((o.putUInt32 ValueTag.single).inBody body)) := by
  rw [start, run_tag _ hu hp, if_neg (by decide), if_neg (by decide), if_pos (by decide)]
  rfl

lemma run_create {id : String} {i : Instance} (h : u.registry.create id = .ok i) :
    u.run (create id) = (.ok u.heap.size, { u with heap := (u.heap.alloc i).2 }) := by
  rw [create, run_bind_of_ok (run_get u), h]
  rfl

lemma run_create_error {id : String} {e : MarshalError} (h : u.registry.create id = .error e) :
    u.run (create id) = (.error e, u) := by
  rw [create, run_bind_of_ok (run_get u), h]
  rfl

lemma run_head : u.run (head ValueTag.single) = u.run typeId := by
  rw [head, if_neg (by decide)]

lemma run_fresh (origin : Nat) {id : String} {i : Instance} {u' : Unmarshaller}
    (ht : u.run typeId = (.ok id, u')) (hc : u'.registry.create id = .ok i) :
    u.run (fresh origin ValueTag.single) = (.ok (u'.heap.size, i.type.fields),
      { u' with
        heap := (u'.heap.alloc i).2
        instances := (origin, u'.heap.size) :: u'.instances }) := by
  have ht' : (u'.heap.alloc i).2.typeOf? u'.heap.size = some i.type := by
    rw [Heap.typeOf?, show u'.heap.size = (u'.heap.alloc i).1 from rfl, Heap.get?_alloc_self]
    rfl
  rw [fresh, run_bind_of_ok (run_head.trans ht), run_bind_of_ok (run_create hc)]
  change (Except.ok (u'.heap.size,
    ((u'.heap.alloc i).2.typeOf? u'.heap.size).elim [] (·.fields)), _) = _
  rw [ht']
  rfl

lemma run_fresh_error (origin : Nat) {id : String} {e : MarshalError} {u' : Unmarshaller}
    (ht : u.run typeId = (.ok id, u')) (hc : u'.registry.create id = .error e) :
    u.run (fresh origin ValueTag.single) = (.error e, u') := by
  rw [fresh, run_bind_of_ok (run_head.trans ht), run_bind_of_error (run_create_error hc)]

lemma run_valueAt_null {u' : Unmarshaller} (levels : Nat) (h : u.run start = (.ok .null, u')) :
    u.run (valueAt levels) = (.ok none, u') := by
  cases levels <;> (rw [valueAt, run_bind_of_ok h]; rfl)

lemma run_valueAt_shared {u' : Unmarshaller} {n : NodeId} (levels : Nat)
    (h : u.run start = (.ok (.shared n), u')) : u.run (valueAt levels) = (.ok (some n), u') := by
  cases levels <;> (rw [valueAt, run_bind_of_ok h]; rfl)

lemma run_valueAt_fresh {u' : Unmarshaller} {origin : Nat} {tag : UInt32} (levels : Nat)
    (h : u.run start = (.ok (.fresh origin tag), u')) :
    u.run (valueAt (levels + 1)) = u'.run (do
      let (n, fields) ← fresh origin tag
      fill (valueAt levels) n 0 fields
      pure (some n)) := by
  rw [valueAt, run_bind_of_ok h]

lemma run_store {n : NodeId} {index : Nat} {v : FieldValue} {i j : Instance}
    (hi : u.heap.get? n = some i) (hj : i.setAt u.heap index v = .ok j) :
    u.run (store n index v) = (.ok (), { u with heap := u.heap.write n j }) := by
  rw [store, run_bind_of_ok (run_get u), hi]
  dsimp only
  rw [hj]
  rfl

end Unmarshalling

end ObjectBroker
