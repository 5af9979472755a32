import ObjectBroker.Proofs.Value.Log

/-!
Instances hold what their types say. A heap only grows, and its instances keep their types, so a
value that fits a field goes on to fit it; a reader therefore never fails to store what it has read,
and at each point of the way the heap is well typed.
-/
namespace ObjectBroker

namespace Heap

/-- What the kinds of fields say of values. A nested value is of the declared type or of one derived
from it. -/
inductive Fits (h : Heap) : FieldKind → FieldValue → Prop
  | scalar (s : Scalar) : Fits h (.scalar s.kind) (.scalar s)
  | string (text : String) : Fits h .string (.string text)
  | null (declared : String) : Fits h (.value declared) (.value none)
  | value {declared : String} {n : NodeId} {t : ValueType} : h.typeOf? n = some t →
      t.id = declared ∨ declared ∈ t.ancestors → Fits h (.value declared) (.value (some n))
  | sequence {element : FieldKind} {items : List FieldValue} : (∀ v ∈ items, Fits h element v) →
      Fits h (.sequence element) (.sequence items)

variable {h h' h'' : Heap} {kind : FieldKind} {v : FieldValue}

lemma isA_iff {n : NodeId} {declared : String} : h.isA n declared = true ↔
    ∃ t, h.typeOf? n = some t ∧ (t.id = declared ∨ declared ∈ t.ancestors) := by
  rw [isA]
  cases h.typeOf? n with
  | none => simp
  | some t => simp [ValueType.isA]

lemma fits_iff : h.fits kind v = true ↔ h.Fits kind v := by
  induction kind generalizing v with
  | scalar kind =>
    constructor
    · intro hf
      cases v with
      | scalar s =>
        obtain rfl : s.kind = kind := beq_iff_eq.mp hf
        exact .scalar s
      | _ => cases hf
    · rintro ⟨⟩
      exact beq_self_eq_true _
  | string =>
    constructor
    · intro hf
      cases v with
      | string text => exact .string text
      | _ => cases hf
    · rintro ⟨⟩
      rfl
  | value declared =>
    constructor
    · intro hf
      cases v with
      | value n =>
        cases n with
        | none => exact .null declared
        | some n =>
          obtain ⟨t, ht, hid⟩ := isA_iff.mp hf
          exact .value ht hid
      | _ => cases hf
    · rintro (_ | _)
      · rfl
      · next ht hid => exact isA_iff.mpr ⟨_, ht, hid⟩
  | sequence element ih =>
    constructor
    · intro hf
      cases v with
      | sequence items =>
        rw [fits, List.all_eq_true] at hf
        exact .sequence fun v hv => ih.mp (hf v hv)
      | _ => cases hf
    · rintro ⟨⟩
      next hitems =>
        rw [fits, List.all_eq_true]
        exact fun v hv => ih.mpr (hitems v hv)

def Extends (h h' : Heap) : Prop :=
  ∀ n t, h.typeOf? n = some t → h'.typeOf? n = some t

lemma Extends.refl (h : Heap) : h.Extends h :=
  fun _ _ ht => ht

lemma Extends.trans (hh : h.Extends h') (hh' : h'.Extends h'') : h.Extends h'' :=
  fun n t ht => hh' n t (hh n t ht)

lemma extends_alloc (h : Heap) (i : Instance) : h.Extends (h.alloc i).2 := by
  intro n t ht
  obtain ⟨j, hj, -⟩ := Option.map_eq_some_iff.mp ht
  rw [typeOf?, get?_alloc_of_lt h i (lt_size_of_get? hj)]
  exact ht

lemma typeOf?_alloc_self (h : Heap) (i : Instance) :
    (h.alloc i).2.typeOf? h.size = some i.type :=
  congrArg (Option.map _) (h.get?_alloc_self i)

lemma extends_write {n : NodeId} {i j : Instance} (hi : h.get? n = some i) (ht : j.type = i.type) :
    h.Extends (h.write n j) :=
  fun k _ hk => (typeOf?_write hi ht k).trans hk

lemma Fits.mono (hv : h.Fits kind v) (hh : h.Extends h') : h'.Fits kind v := by
  induction hv with
  | scalar s => exact .scalar s
  | string text => exact .string text
  | null declared => exact .null declared
  | value ht hid => exact .value (hh _ _ ht) hid
  | sequence _ ih => exact .sequence ih

end Heap

def Instance.Typed (h : Heap) (i : Instance) : Prop :=
  List.Forall₂ (fun field v => h.Fits field.kind v) i.type.fields i.fields

namespace Instance

variable {h h' : Heap} {i j : Instance} {index : Nat} {v : FieldValue}

lemma typed_iff : i.Typed h ↔
    List.Forall₂ (fun field v => h.fits field.kind v = true) i.type.fields i.fields := by
  simp only [Heap.fits_iff, Typed]

lemma typed_new (h : Heap) (t : ValueType) : (Instance.new t).Typed h :=
  typed_iff.mpr (Heap.forall₂_fits_new h t)

lemma Typed.mono (hi : i.Typed h) (hh : h.Extends h') : i.Typed h' :=
  hi.imp fun _ _ hv => hv.mono hh

lemma type_of_setAt (hj : i.setAt h index v = .ok j) : j.type = i.type := by
  obtain ⟨f, -, -, rfl⟩ := of_setAt hj
  rfl

lemma Typed.setAt (hi : i.Typed h) (hj : i.setAt h index v = .ok j) : j.Typed h := by
  obtain ⟨f, hf, hv, rfl⟩ := of_setAt hj
  exact Heap.forall₂_set hi hf (Heap.fits_iff.mp hv)

lemma exists_setAt {f : Field} (hf : i.type.fields[index]? = some f) (hv : h.Fits f.kind v) :
    ∃ j, i.setAt h index v = .ok j := by
  rw [Instance.setAt, hf]
  dsimp only
  rw [if_pos (Heap.fits_iff.mpr hv)]
  exact ⟨_, rfl⟩

lemma of_set {name : String} (hj : i.set h name v = .ok j) :
    ∃ index, i.setAt h index v = .ok j := by
  rw [set] at hj
  cases hx : i.indexOf name with
  | error e =>
    rw [hx] at hj
    cases hj
  | ok index =>
    rw [hx] at hj
    exact ⟨index, hj⟩

end Instance

namespace Heap

lemma wellTyped_iff {h : Heap} : h.WellTyped ↔ ∀ n i, h.get? n = some i → i.Typed h := by
  simp only [WellTyped, Instance.typed_iff]

end Heap

def Registry.Typed (h : Heap) (R : Registry) : Prop :=
  ∀ x ∈ R.factories, x.2.Typed h

lemma Registry.Typed.mono {R : Registry} {h h' : Heap} (hR : R.Typed h) (hh : h.Extends h') :
    R.Typed h' :=
  fun x hx => (hR x hx).mono hh

/-- The heap is well typed, and with what the factories make it will be. -/
structure Unmarshaller.Typed (u : Unmarshaller) : Prop where
  heap : u.heap.WellTyped
  registry : u.registry.Typed u.heap

namespace Note

def Stored : Note → Prop
  | .stored _ _ result _ => result = .ok ()
  | _ => True

def heap? : Note → Option Heap
  | .made _ h => some h
  | .stored _ _ _ h => some h
  | _ => none

def WellTyped (note : Note) : Prop :=
  ∀ h ∈ note.heap?, h.WellTyped

end Note

namespace Logging

open Unmarshalling (Scans)

variable {α β : Type} {p : Logging α} {f : α → Logging β} {P F : Heap → Prop}
  {Q : α → Heap → Prop} {S : β → Heap → Prop}

structure Kept (Q : α → Heap → Prop) (u : Unmarshaller) (l : Log α) : Prop where
  registry : l.reader.registry = u.registry
  extends_heap : u.heap.Extends l.reader.heap
  stored : ∀ note ∈ l.notes, note.Stored
  typed : u.Typed → l.reader.heap.WellTyped ∧ ∀ note ∈ l.notes, note.WellTyped
  result : ∀ a, l.result = .ok a → Q a l.reader.heap

def Yields (P : Heap → Prop) (p : Logging α) (Q : α → Heap → Prop) : Prop :=
  ∀ u : Unmarshaller, P u.heap → Kept Q u (p.run u)

lemma Kept.reader_typed {u : Unmarshaller} {l : Log α} (hl : Kept Q u l) (hu : u.Typed) :
    l.reader.Typed where
  heap := (hl.typed hu).1
  registry := by
    rw [hl.registry]
    exact hu.registry.mono hl.extends_heap

lemma Yields.pure {a : α} (ha : ∀ h, P h → Q a h) : Yields P (pure a) Q :=
  fun u hu => ⟨rfl, .refl _, fun _ h => (by cases h),
    fun ht => ⟨ht.heap, fun _ h => by cases h⟩, fun _ h => by cases h; exact ha u.heap hu⟩

lemma Yields.lift {E : MarshalError → Prop} {k : Nat} {r : Unmarshalling α} (hr : Scans E k r)
    (ha : ∀ (u : Unmarshaller) a, P u.heap → (u.run r).1 = .ok a → Q a u.heap) :
    Yields P (lift r) Q := by
  intro u hu
  have hheap : ((Logging.lift r).run u).reader.heap = u.heap := (hr u).heap
  refine ⟨(hr u).registry, by rw [hheap]; exact .refl _, fun _ h => (by cases h),
    fun ht => ⟨by rw [hheap]; exact ht.heap, fun _ h => by cases h⟩, fun a h => ?_⟩
  rw [hheap]
  exact ha u a hu h

lemma Yields.imp {P' : Heap → Prop} {Q' : α → Heap → Prop} (hp : Yields P p Q)
    (hP : ∀ h, P' h → P h) (hQ : ∀ a h, Q a h → Q' a h) : Yields P' p Q' :=
  fun u hu => { hp u (hP _ hu) with
    result := fun a ha => hQ a _ ((hp u (hP _ hu)).result a ha) }

lemma Yields.bind (hp : Yields P p Q) (hf : ∀ a, Yields (Q a) (f a) S) :
    Yields P (p >>= f) S := by
  intro u hu
  have hl := hp u hu
  refine bind_cases (Q := Kept S u) (fun e _ => ?_) (fun a ha => ?_)
  · exact ⟨hl.registry, hl.extends_heap, hl.stored, hl.typed, fun _ h => by cases h⟩
  · have hl' := hf a _ (hl.result a ha)
    refine ⟨hl'.registry.trans hl.registry, hl.extends_heap.trans hl'.extends_heap, ?_,
      fun ht => ⟨(hl'.typed (hl.reader_typed ht)).1, ?_⟩, hl'.result⟩
    · exact List.forall_mem_append.mpr ⟨hl.stored, hl'.stored⟩
    · exact List.forall_mem_append.mpr ⟨(hl.typed ht).2, (hl'.typed (hl.reader_typed ht)).2⟩

lemma Yields.frame (hp : Yields P p Q) (hF : ∀ h h' : Heap, h.Extends h' → F h → F h') :
    Yields (fun h => P h ∧ F h) p (fun a h => Q a h ∧ F h) :=
  fun u hu => { hp u hu.1 with
    result := fun a ha =>
      ⟨(hp u hu.1).result a ha, hF _ _ (hp u hu.1).extends_heap hu.2⟩ }

lemma Yields.noting (hp : Yields P p Q) {note : α → Unmarshaller → Note}
    (hstored : ∀ a u, (note a u).Stored) (hheap : ∀ a u, (note a u).heap? = none) :
    Yields P (noting note p) Q := by
  intro u hu
  have hl := hp u hu
  cases hr : (p.run u).result with
  | error e =>
    rw [run_noting_of_error hr]
    exact hl
  | ok a =>
    rw [run_noting_of_ok hr]
    refine { hl with stored := ?_, typed := fun ht => ⟨(hl.typed ht).1, ?_⟩ }
    · refine List.forall_mem_append.mpr ⟨hl.stored, fun x hx => ?_⟩
      rw [List.mem_singleton.mp hx]
      exact hstored a _
    · refine List.forall_mem_append.mpr ⟨(hl.typed ht).2, fun x hx h hh => ?_⟩
      rw [List.mem_singleton.mp hx, hheap] at hh
      cases hh

def Anywhere (_ : Heap) : Prop :=
  True

lemma yields_many (hp : Yields Anywhere p Q)
    (hQ : ∀ a (h h' : Heap), h.Extends h' → Q a h → Q a h') (n : Nat) :
    Yields Anywhere (many p n) (fun as h => ∀ a ∈ as, Q a h) := by
  induction n with
  | zero => exact .pure fun _ _ _ ha => by cases ha
  | succ n ih =>
    refine .bind hp fun a => .bind ((ih.frame (hQ a)).imp (fun _ ha => ⟨trivial, ha⟩)
      fun _ _ hrest => hrest) fun rest => .pure fun h hh => ?_
    exact List.forall_mem_cons.mpr ⟨hh.2, hh.1⟩

lemma kind_of_run_scalar {kind : ScalarKind} {u : Unmarshaller} {s : Scalar}
    (h : (u.run (Unmarshalling.stream (Reading.scalar kind))).1 = .ok s) : s.kind = kind := by
  obtain ⟨j, hj, -⟩ := Unmarshalling.of_run_stream (Prod.ext h rfl)
  obtain ⟨bits, k, -, hbits⟩ := Reading.of_run_bind hj
  cases hs : kind.ofBits? bits with
  | none =>
    rw [hs] at hbits
    cases hbits
  | some s' =>
    rw [hs] at hbits
    cases hbits
    exact ScalarKind.kind_of_ofBits? hs

lemma fits_of_run_assignable {declared : String} {u : Unmarshaller} {n k : Option NodeId}
    (h : (u.run (Unmarshalling.assignable declared n)).1 = .ok k) :
    u.heap.Fits (.value declared) (.value k) := by
  cases n with
  | none =>
    cases h
    exact .null declared
  | some n =>
    rw [Unmarshalling.assignable, Unmarshaller.run_bind_of_ok (Unmarshaller.run_get u)] at h
    dsimp only at h
    split at h
    · next hn =>
      cases h
      exact Heap.fits_iff.mp hn
    · cases h

def Awaits (n : NodeId) (index : Nat) (fs : List Field) (h : Heap) : Prop :=
  ∃ t, h.typeOf? n = some t ∧ t.fields.drop index = fs

lemma Awaits.mono {n : NodeId} {index : Nat} {fs : List Field} (h h' : Heap) (hh : h.Extends h') :
    Awaits n index fs h → Awaits n index fs h' :=
  fun ⟨t, ht, hfs⟩ => ⟨t, hh n t ht, hfs⟩

lemma yields_store (n : NodeId) (index : Nat) (v : FieldValue) (f : Field) (fs : List Field) :
    Yields (fun h => h.Fits f.kind v ∧ Awaits n index (f :: fs) h) (store n index v)
      (fun _ => Awaits n (index + 1) fs) := by
  rintro u ⟨hv, t, ht, hfs⟩
  obtain ⟨i, hi, rfl⟩ := Option.map_eq_some_iff.mp ht
  have hf : i.type.fields[index]? = some f := by
    rw [← List.head?_drop, hfs]
    rfl
  obtain ⟨j, hj⟩ := Instance.exists_setAt hf hv
  have hrun : (store n index v).run u =
      { result := .ok ()
        reader := { u with heap := u.heap.write n j }
        notes := [.stored n index (.ok ()) (u.heap.write n j)] } := by
    rw [Logging.run, store, Logging.run, lift, Unmarshalling.run_store hi hj]
  have hextends := Heap.extends_write hi (Instance.type_of_setAt hj)
  rw [hrun]
  refine ⟨rfl, hextends, ?_, fun hu => ⟨hu.heap.write hi hj, ?_⟩, fun _ _ => ?_⟩
  · exact List.forall_mem_singleton.mpr rfl
  · refine List.forall_mem_singleton.mpr fun h hh => ?_
    cases hh
    exact hu.heap.write hi hj
  · refine ⟨i.type, hextends n _ ht, ?_⟩
    rw [← List.drop_drop, hfs]
    rfl

lemma yields_enter (origin : Nat) (id : String) :
    Yields Anywhere (enter origin id) (fun made => Awaits made.1 0 made.2) := by
  intro u _
  refine enter_cases (Q := Kept _ u) (fun i hi => ?_) (fun e _ => ?_)
  · have htyped (hu : u.Typed) : (u.heap.alloc i).2.WellTyped :=
      hu.heap.alloc_of_fits (Instance.typed_iff.mp (hu.registry _ (Registry.mem_of_create hi).1))
    refine ⟨rfl, u.heap.extends_alloc i, ?_, fun hu => ⟨htyped hu, ?_⟩, fun made hmade => ?_⟩
    · exact List.forall_mem_singleton.mpr trivial
    · refine List.forall_mem_singleton.mpr fun h hh => ?_
      cases hh
      exact htyped hu
    · cases hmade
      exact ⟨i.type, u.heap.typeOf?_alloc_self i, rfl⟩
  · exact ⟨rfl, .refl _, fun _ h => (by cases h), fun hu => ⟨hu.heap, fun _ h => by cases h⟩,
      fun _ h => by cases h⟩

lemma yields_start : Yields Anywhere start (fun _ => Anywhere) := by
  intro u _
  have hu := Unmarshalling.scans_start u
  have hheap : (start.run u).reader.heap = u.heap := hu.heap
  refine ⟨hu.registry, by rw [hheap]; exact .refl _, fun note hn => ?_,
    fun ht => ⟨by rw [hheap]; exact ht.heap, fun note hn h hh => ?_⟩, fun _ _ => trivial⟩
  · obtain ⟨tag, rfl⟩ := exists_tag_of_mem_start hn
    trivial
  · obtain ⟨tag, rfl⟩ := exists_tag_of_mem_start hn
    cases hh

lemma yields_fresh (origin : Nat) (tag : UInt32) :
    Yields Anywhere (fresh origin tag) (fun made => Awaits made.1 0 made.2) :=
  .bind (.noting (.lift (Unmarshalling.scans_head tag) fun _ _ _ _ => trivial)
    (fun _ _ => trivial) fun _ _ => rfl) fun id => yields_enter origin id

section

variable {read : Logging (Option NodeId)} (hr : Yields Anywhere read (fun _ => Anywhere))
include hr

lemma yields_field (kind : FieldKind) :
    Yields Anywhere (field read kind) (fun v h => h.Fits kind v) := by
  induction kind with
  | scalar kind =>
    refine .bind (.lift (Q := fun s _ => s.kind = kind)
      (Unmarshalling.scans_stream (Reading.takes_scalar kind)) fun _ _ _ => kind_of_run_scalar)
      fun s => .pure ?_
    rintro h rfl
    exact .scalar s
  | string =>
    exact .bind (.lift (Q := fun _ => Anywhere) (Unmarshalling.scans_stream Reading.takes_string)
      fun _ _ _ _ => trivial) fun text => .pure fun _ _ => .string text
  | value declared =>
    exact .bind hr fun n => .bind (.lift (Q := fun k h => h.Fits (.value declared) (.value k))
      (Unmarshalling.scans_assignable declared n) fun _ _ _ => fits_of_run_assignable)
      fun k => .pure fun _ hk => hk
  | sequence element ih =>
    have hitem : Yields Anywhere (noting (fun v _ => .element v) (field read element))
        (fun v h => h.Fits element v) := .noting ih (fun _ _ => trivial) fun _ _ => rfl
    refine .bind (.lift (Q := fun _ => Anywhere) Unmarshalling.scans_sequenceLength
      fun _ _ _ _ => trivial) fun count => ?_
    exact .bind (yields_many hitem (fun _ _ _ hh hv => hv.mono hh) count) fun items =>
      .pure fun _ hitems => .sequence hitems

lemma yields_fill (n : NodeId) (index : Nat) (fs : List Field) :
    Yields (Awaits n index fs) (fill read n index fs) (fun _ => Anywhere) := by
  induction fs generalizing index with
  | nil => exact .pure fun _ _ => trivial
  | cons f fs ih =>
    -- Reading the field may make instances and fill them, but this one keeps its type.
    refine .bind (((yields_field hr f.kind).frame Awaits.mono).imp (fun _ hn => ⟨trivial, hn⟩)
      fun _ _ hv => hv) fun v => ?_
    exact .bind (yields_store n index v f fs) fun _ => ih (index + 1)

end

lemma yields_valueAt (levels : Nat) : Yields Anywhere (valueAt levels) (fun _ => Anywhere) := by
  induction levels with
  | zero =>
    refine .bind yields_start fun s => ?_
    cases s with
    | null => exact .pure fun _ _ => trivial
    | shared n => exact .pure fun _ _ => trivial
    | fresh origin tag =>
      exact .lift (E := fun _ => True) (.bind (k := 0) .get fun _ => .throw 0 trivial)
        fun _ _ _ _ => trivial
  | succ levels ih =>
    refine .bind yields_start fun s => ?_
    cases s with
    | null => exact .pure fun _ _ => trivial
    | shared n => exact .pure fun _ _ => trivial
    | fresh origin tag =>
      exact .bind (yields_fresh origin tag) fun made =>
        .bind (yields_fill ih made.1 0 made.2) fun _ => .pure fun _ _ => trivial

lemma yields_value : Yields Anywhere value (fun _ => Anywhere) :=
  fun u hu => yields_valueAt u.limit u hu

lemma yields_valueAs (declared : String) :
    Yields Anywhere (valueAs declared) (fun n h => h.Fits (.value declared) (.value n)) :=
  .bind yields_value fun n => .lift (Unmarshalling.scans_assignable declared n)
    fun _ _ _ => fits_of_run_assignable

end Logging

end ObjectBroker
