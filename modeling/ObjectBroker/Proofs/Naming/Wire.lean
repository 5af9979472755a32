import Mathlib.Algebra.Order.BigOperators.Group.List
import Mathlib.Algebra.Order.Group.Nat
import ObjectBroker.Proofs.Message.Size
import ObjectBroker.Proofs.Naming.Map
import ObjectBroker.Proofs.Reference
import ObjectBroker.Proofs.Value.Unmarshal

/-!
Names, bindings and refusals on the wire: they read back as they were written, and take little more
than the octets of their texts.
-/

namespace ObjectBroker

namespace NameComponent

def size (c : NameComponent) : Nat :=
  (Utf8.encode c.id).length + (Utf8.encode c.kind).length

lemma length_put (o : Output) (c : NameComponent) :
    o.length + Name.componentSize + c.size ≤ (put o c).length ∧
      (put o c).length ≤ o.length + 16 + c.size := by
  have hid := o.length_le_putString c.id
  have hkind := (o.putString c.id).length_le_putString c.kind
  have hid' := o.length_putString_le c.id
  have hkind' := (o.putString c.id).length_putString_le c.kind
  rw [put, size, Name.componentSize]
  omega

lemma recovers_read_put (o : Output) (c : NameComponent) (h : c.size + 1 < 2 ^ 32) :
    read.Recovers o (put o c) c := by
  rw [size] at h
  have hid := (Reading.recovers_string o c.id (by omega)).adapt MarshalError.stream
  have hkind := (Reading.recovers_string (o.putString c.id) c.kind (by omega)).adapt
    MarshalError.stream
  exact hid.bind (hkind.bind (.pure _ c))

end NameComponent

namespace Name

def size (n : Name) : Nat :=
  (n.map NameComponent.size).sum

lemma length_foldl_put (o : Output) (n : Name) :
    o.length + componentSize * n.length + n.size ≤ (n.foldl NameComponent.put o).length ∧
      (n.foldl NameComponent.put o).length ≤ o.length + 16 * n.length + n.size := by
  induction n generalizing o with
  | nil => exact ⟨Nat.le_refl _, Nat.le_refl _⟩
  | cons c n ih =>
    have hfirst := NameComponent.length_put o c
    have hrest := ih (NameComponent.put o c)
    rw [size] at hrest
    rw [List.foldl_cons, size, List.map_cons, List.sum_cons, List.length_cons, Nat.mul_succ,
      Nat.mul_succ]
    omega

lemma length_put_le (o : Output) (n : Name) :
    (put o n).length ≤ o.length + 7 + 16 * n.length + n.size := by
  have hword := o.length_putWord_le 4 n.length
  have hfold := (length_foldl_put (o.putWord 4 n.length) n).2
  rw [put]
  omega

lemma size_le_of_mem {n : Name} {c : NameComponent} (h : c ∈ n) : c.size ≤ n.size :=
  List.single_le_sum (fun _ _ => Nat.zero_le _) _ (List.mem_map_of_mem h)

lemma recovers_read_put (o : Output) (n : Name) (h : (put o n).length < 2 ^ 32) :
    read.Recovers o (put o n) n := by
  have hword := o.length_le_putWord 4 n.length
  have hlength := (length_foldl_put (o.putWord 4 n.length) n).1
  have htotal : (n.foldl NameComponent.put (o.putWord 4 n.length)).length < 2 ^ 32 := h
  rw [componentSize] at hlength
  have hcount : n.length < 256 ^ 4 := by omega
  refine ((Reading.recovers_word o 4 n.length hcount).adapt MarshalError.stream).bind ?_
  obtain ⟨octets, hoctets, hmany⟩ := Reading.Recovers.many n (o.putWord 4 n.length)
    fun c hc o => NameComponent.recovers_read_put o c (by have := size_le_of_mem hc; omega)
  refine ⟨octets, hoctets, fun rest => ?_⟩
  rw [hoctets, Output.length_append] at hlength
  have hroom : ¬ (octets ++ rest).length / componentSize < n.length := by
    rw [List.length_append, componentSize, Nat.not_lt, Nat.le_div_iff_mul_le (by decide)]
    omega
  rw [Reading.run_bind]
  change Reading.run (if (octets ++ rest).length / componentSize < n.length then _ else _) _ = _
  rw [if_neg hroom]
  exact hmany rest

lemma extends_put (o : Output) (n : Name) : o.Extends (put o n) := by
  refine (o.extends_putWord 4 n.length).trans (Output.extends_foldl (fun o c => ?_) n _)
  exact (Output.extends_putString o c.id).trans (Output.extends_putString _ c.kind)

end Name

namespace Reference

def size (r : Reference) : Nat :=
  (Utf8.encode r.typeId).length + (Utf8.encode r.endpoint.host).length + r.key.length

lemma size_seen (home : Endpoint) (r : Reference) : (r.seen home).size = r.size := by
  rw [seen]
  split <;> rfl

lemma length_profile_le (r : Reference) (order : ByteOrder) :
    (r.profile order).length ≤ 28 + (Utf8.encode r.endpoint.host).length + r.key.length := by
  let o₁ := (Output.encapsulation order).append [1, r.minor]
  let o₂ := o₁.putString r.endpoint.host
  let o₃ := o₂.putUInt16 r.endpoint.port
  have h₁ : o₁.length = 3 := Output.length_append _ _
  have h₂ : o₂.length ≤ o₁.length + 8 + (Utf8.encode r.endpoint.host).length :=
    o₁.length_putString_le _
  have h₃ : o₃.length ≤ o₂.length + 1 + 2 := o₂.length_putWord_le 2 _
  have h₄ : (r.profileFront order).length ≤ o₃.length + 7 + r.key.length :=
    o₃.length_putOctets_le r.key
  have h₅ := r.length_profile_le_front order
  omega

lemma length_put_le (o : Output) (r : Reference) : (put o r).length ≤ o.length + 57 + r.size := by
  let o₁ := o.putString r.typeId
  let o₂ := o₁.putUInt32 1
  let o₃ := o₂.putUInt32 internetTag
  have h₁ : o₁.length ≤ o.length + 8 + (Utf8.encode r.typeId).length := o.length_putString_le _
  have h₂ : o₂.length ≤ o₁.length + 3 + 4 := o₁.length_putWord_le 4 _
  have h₃ : o₃.length ≤ o₂.length + 3 + 4 := o₂.length_putWord_le 4 _
  have h₄ : (put o r).length ≤ o₃.length + 7 + (r.profile o₃.order).octets.length :=
    o₃.length_putOctets_le _
  have h₅ := r.length_profile_le o₃.order
  rw [Output.length_octets] at h₄
  rw [size]
  omega

end Reference

namespace UserException

lemma length_put_le (o : Output) (x : UserException) : (put o x).length ≤
    o.length + 16 + (Utf8.encode x.id).length + (Utf8.encode x.message).length := by
  have hid := o.length_putString_le x.id
  have hmessage := (o.putString x.id).length_putString_le x.message
  rw [put]
  omega

lemma extends_put (o : Output) (x : UserException) : o.Extends (put o x) :=
  (o.extends_putString x.id).trans (Output.extends_putString _ x.message)

lemma recovers_read_put (o : Output) (x : UserException) (h : (put o x).length < 2 ^ 32) :
    read.Recovers o (put o x) x := by
  have hid := o.length_le_putString x.id
  have hmessage := (o.putString x.id).length_le_putString x.message
  rw [put] at h
  refine (Reading.recovers_string o x.id (by omega)).bind ?_
  exact (Reading.recovers_string _ x.message (by omega)).bind (.pure _ x)

end UserException

namespace Unmarshalling

variable {α β : Type} {home : Endpoint} {o o' o'' : Output}

/-- In a body of usual length, `r` reads back as `a` what leads from `o` to `o'`, for a broker at
`home`. -/
structure Recovers (home : Endpoint) (r : Unmarshalling α) (o o' : Output) (a : α) : Prop where
  extends_output : o.Extends o'
  run : ∀ (u : Unmarshaller) (body : Octets), u.home = some home → u.input = o.inBody body →
    o'.octets <+: body → body.length < 2 ^ 32 → u.run r = (.ok a, u.seek (o'.inBody body))

namespace Recovers

lemma pure (o : Output) (a : α) : Recovers home (Pure.pure a) o o a where
  extends_output := .refl o
  run u body _ hu _ _ := by
    rw [Unmarshaller.seek, ← hu]
    rfl

lemma bind {r : Unmarshalling α} {f : α → Unmarshalling β} {a : α} {b : β}
    (h : Recovers home r o o' a) (hf : Recovers home (f a) o' o'' b) :
    Recovers home (r >>= f) o o'' b where
  extends_output := h.extends_output.trans hf.extends_output
  run u body hh hu hp hl := by
    have hr := h.run u body hh hu (hf.extends_output.octets_initial.trans hp) hl
    rw [Unmarshaller.run_bind_of_ok hr]
    exact hf.run _ body hh rfl hp hl

lemma ofReading {r : Reading MarshalError α} {a : α} (he : o.Extends o')
    (h : o'.length < 2 ^ 32 → r.Recovers o o' a) :
    Recovers home (Unmarshalling.ofReading r) o o' a where
  extends_output := he
  run u body _ hu hp hl := by
    have hlength := hp.length_le
    rw [Output.length_octets] at hlength
    apply Unmarshalling.run_ofReading
    rw [hu]
    exact (h (Nat.lt_of_le_of_lt hlength hl)).run_inBody hp

lemma many {r : Unmarshalling α} {put : Output → β → Output} {f : β → α} (bs : List β) (o : Output)
    (h : ∀ b ∈ bs, ∀ o, Recovers home r o (put o b) (f b)) :
    Recovers home (many r bs.length) o (bs.foldl put o) (bs.map f) := by
  induction bs generalizing o with
  | nil => exact .pure o []
  | cons b bs ih =>
    have hrest := ih (put o b) fun b' hb' => h b' (List.mem_cons_of_mem b hb')
    exact (h b List.mem_cons_self o).bind (hrest.bind (.pure _ _))

end Recovers

end Unmarshalling

namespace NamingContext

variable {home : Endpoint}

lemma extends_put (o : Output) (x : Name × Reference) : o.Extends (put o x) :=
  (Name.extends_put o x.1).trans (Reference.extends_put _ x.2)

end NamingContext

end ObjectBroker
