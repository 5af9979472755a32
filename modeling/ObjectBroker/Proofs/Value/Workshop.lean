import ObjectBroker.Proofs.InPlace
import ObjectBroker.Proofs.Value.Typing

/-!
All that can be done with instances, one thing after the other. Instances are made blank or by a
factory, they are set while nobody shares them and afterwards, and readers add those that they find
in any octets, to the end or up to a failure. A field is set in place.
-/

namespace ObjectBroker

namespace Unmarshalling

def read : Option String → Unmarshalling (Option NodeId)
  | none => value
  | some declared => valueAs declared

end Unmarshalling

namespace Logging

def read : Option String → Logging (Option NodeId)
  | none => value
  | some declared => valueAs declared

lemma tells_read (declared : Option String) :
    Tells (read declared) (Unmarshalling.read declared) := by
  cases declared with
  | none => exact tells_value
  | some declared => exact tells_valueAs declared

lemma yields_read (declared : Option String) :
    Yields Anywhere (read declared) (fun _ => Anywhere) := by
  cases declared with
  | none => exact yields_value
  | some declared => exact (yields_valueAs declared).imp (fun _ h => h) fun _ _ _ => trivial

end Logging

abbrev Setting := InPlace MarshalError Instance

namespace Setting

def setAt (h : Heap) (index : Nat) (v : FieldValue) : Setting Unit := do
  let i ← get
  match i.type.fields[index]? with
  | none => throw (.unknownField i.typeId s!"#{index}")
  | some f =>
    if h.fits f.kind v then modify fun i => { i with fields := i.fields.set index v }
    else throw (Instance.misfit h f v)

def set (h : Heap) (name : String) (v : FieldValue) : Setting Unit := do
  let index ← InPlace.lift ((← get).indexOf name)
  setAt h index v

lemma run_setAt (h : Heap) (index : Nat) (v : FieldValue) (i : Instance) :
    (setAt h index v).run i = InPlace.settled i ((i.setAt h index v).map ((), ·)) := by
  rw [setAt, InPlace.run_get_bind, Instance.setAt]
  cases i.type.fields[index]? with
  | none => rfl
  | some f =>
    dsimp only
    split
    · rfl
    · rfl

lemma run_set (h : Heap) (name : String) (v : FieldValue) (i : Instance) :
    (set h name v).run i = InPlace.settled i ((i.set h name v).map ((), ·)) := by
  rw [set, InPlace.run_get_bind, Instance.set]
  cases i.indexOf name with
  | error e => rfl
  | ok index => exact run_setAt h index v i

end Setting

/-- The heap with what works on it. -/
structure Workshop where
  heap : Heap := {}
  /-- Instances that are not shared yet. -/
  loose : List Instance := []
  registry : Registry := {}
  readers : List Unmarshaller := []

namespace Workshop

inductive Act where
  | make (type : ValueType)
  | set (place : Nat) (name : String) (value : FieldValue)
  | setShared (node : NodeId) (name : String) (value : FieldValue)
  | share (place : Nat)
  /-- From now on a factory makes copies of a loose instance. -/
  | register (id : String) (place : Nat) (policy : RegistrationPolicy)
  | unregister (id : String)
  | create (id : String)
  | receive (order : ByteOrder) (body : Octets) (limit : Nat) (home : Option Endpoint)
  | read (place : Nat) (declared : Option String)

variable (w : Workshop)

def equip (u : Unmarshaller) : Unmarshaller :=
  { u with heap := w.heap, registry := w.registry }

def after (place : Nat) (u : Unmarshaller) : Workshop :=
  { w with heap := u.heap, readers := w.readers.set place u }

def step : Act → Except MarshalError (Option NodeId) × Workshop
  | .make type => (.ok none, { w with loose := w.loose ++ [.new type] })
  | .set place name v =>
    match w.loose[place]? with
    | none => (.ok none, w)
    | some i =>
      let (result, j) := (Setting.set w.heap name v).run i
      (result.map fun _ => none, { w with loose := w.loose.set place j })
  | .setShared n name v =>
    match w.heap.get? n with
    | none => (.ok none, w)
    | some i =>
      let (result, j) := (Setting.set w.heap name v).run i
      (result.map fun _ => none, { w with heap := w.heap.write n j })
  | .share place =>
    match w.loose[place]? with
    | none => (.ok none, w)
    | some i =>
      let (n, heap) := w.heap.alloc i
      (.ok (some n), { w with heap, loose := w.loose.eraseIdx place })
  | .register id place policy =>
    match w.loose[place]? with
    | none => (.ok none, w)
    | some i =>
      match w.registry.registerWith id i policy with
      | .error e => (.error e, w)
      | .ok (_, registry) => (.ok none, { w with registry })
  | .unregister id => (.ok none, { w with registry := w.registry.remove id })
  | .create id =>
    match w.registry.create id with
    | .error e => (.error e, w)
    | .ok i => (.ok none, { w with loose := w.loose ++ [i] })
  | .receive order body limit home =>
    (.ok none, { w with readers := w.readers ++ [.new order body w.registry limit home] })
  | .read place declared =>
    match w.readers[place]? with
    | none => (.ok none, w)
    | some u =>
      let (result, u') := (w.equip u).run (Unmarshalling.read declared)
      (result, w.after place u')

def run (acts : List Act) : Workshop :=
  acts.foldl (fun w act => (w.step act).2) w

/-- Every instance that there is, shared or not, is typed; so is what the factories make. -/
structure Typed : Prop where
  heap : w.heap.WellTyped
  loose : ∀ i ∈ w.loose, i.Typed w.heap
  registry : w.registry.Typed w.heap

variable {w}

lemma typed_empty : Typed {} where
  heap n i hi := by cases hi
  loose i hi := by cases hi
  registry x hx := by cases hx

lemma Typed.equip (hw : w.Typed) (u : Unmarshaller) : (w.equip u).Typed :=
  ⟨hw.heap, hw.registry⟩

lemma Typed.extend (hw : w.Typed) {heap : Heap} (hheap : heap.WellTyped)
    (he : w.heap.Extends heap) (readers : List Unmarshaller) :
    Typed { w with heap, readers } where
  heap := hheap
  loose i hi := (hw.loose i hi).mono he
  registry := hw.registry.mono he

lemma Typed.add (hw : w.Typed) {i : Instance} (hi : i.Typed w.heap) :
    Typed { w with loose := w.loose ++ [i] } :=
  { hw with loose := List.forall_mem_append.mpr ⟨hw.loose, List.forall_mem_singleton.mpr hi⟩ }

lemma step_set {place : Nat} {i : Instance} (hi : w.loose[place]? = some i) (name : String)
    (v : FieldValue) : w.step (.set place name v) = InPlace.settled w
      ((i.set w.heap name v).map fun j => (none, { w with loose := w.loose.set place j })) := by
  rw [step, hi]
  dsimp only
  rw [Setting.run_set]
  cases i.set w.heap name v with
  | ok j => rfl
  | error e =>
    have hsame : w.loose.set place i = w.loose := by
      obtain ⟨hlt, rfl⟩ := List.getElem?_eq_some_iff.mp hi
      exact List.set_getElem_self hlt
    change (Except.error e, { w with loose := w.loose.set place i }) = _
    rw [hsame]
    rfl

lemma step_setShared (w : Workshop) (n : NodeId) (name : String) (v : FieldValue) :
    w.step (.setShared n name v) = InPlace.settled w
      ((w.heap.set n name v).map fun heap => (none, { w with heap })) := by
  rw [step, Heap.set]
  cases hi : w.heap.get? n with
  | none => rfl
  | some i =>
    dsimp only
    rw [Setting.run_set]
    cases i.set w.heap name v with
    | ok j => rfl
    | error e =>
      have hsame : w.heap.write n i = w.heap := by
        obtain ⟨hlt, rfl⟩ := Array.getElem?_eq_some_iff.mp hi
        rw [Heap.write, Array.setIfInBounds_def, dif_pos hlt, Array.set_getElem_self]
      change (Except.error e, { w with heap := w.heap.write n i }) = _
      rw [hsame]
      rfl

lemma of_heap_set {h h' : Heap} {n : NodeId} {name : String} {v : FieldValue}
    (hh : h.set n name v = .ok h') :
    h' = h ∨ ∃ i j index, h.get? n = some i ∧ i.setAt h index v = .ok j ∧ h' = h.write n j := by
  rw [Heap.set] at hh
  cases hi : h.get? n with
  | none =>
    rw [hi] at hh
    cases hh
    exact .inl rfl
  | some i =>
    rw [hi] at hh
    dsimp only at hh
    cases hj : i.set h name v with
    | error e =>
      rw [hj] at hh
      cases hh
    | ok j =>
      rw [hj] at hh
      cases hh
      obtain ⟨index, hset⟩ := Instance.of_set hj
      exact .inr ⟨i, j, index, rfl, hset, rfl⟩

lemma Typed.setShared (hw : w.Typed) {heap : Heap} {n : NodeId} {name : String} {v : FieldValue}
    (hh : w.heap.set n name v = .ok heap) : Typed { w with heap } := by
  rcases of_heap_set hh with rfl | ⟨i, j, index, hi, hj, rfl⟩
  · exact hw
  · exact hw.extend (hw.heap.write hi hj)
      (Heap.extends_write hi (Instance.type_of_setAt hj)) w.readers

lemma typed_registerWith {R R' : Registry} {h : Heap} (hR : R.Typed h) {id : String} {i : Instance}
    (hi : i.Typed h) {policy : RegistrationPolicy} {old : Option Instance}
    (hr : R.registerWith id i policy = .ok (old, R')) : R'.Typed h := by
  rw [Registry.registerWith] at hr
  split at hr
  · cases hr
  · cases hr
    exact List.forall_mem_cons.mpr ⟨hi, fun x hx => hR x (List.mem_of_mem_filter hx)⟩

lemma step_read {place : Nat} {u : Unmarshaller} (hu : w.readers[place]? = some u)
    (declared : Option String) :
    let l := (Logging.read declared).run (w.equip u)
    w.step (.read place declared) = (l.result, w.after place l.reader) := by
  rw [step, hu]
  dsimp only
  rw [← Logging.tells_read declared (w.equip u)]

lemma Typed.step (hw : w.Typed) (act : Act) : (w.step act).2.Typed := by
  cases act with
  | make type => exact hw.add (Instance.typed_new w.heap type)
  | set place name v =>
    cases hi : w.loose[place]? with
    | none =>
      rw [Workshop.step, hi]
      exact hw
    | some i =>
      rw [step_set hi]
      cases hj : i.set w.heap name v with
      | error e => exact hw
      | ok j =>
        obtain ⟨index, hset⟩ := Instance.of_set hj
        have hj' := (hw.loose i (List.mem_of_getElem? hi)).setAt hset
        exact { hw with
          loose := fun k hk => (List.mem_or_eq_of_mem_set hk).elim (hw.loose k) (· ▸ hj') }
  | setShared n name v =>
    rw [step_setShared]
    cases hh : w.heap.set n name v with
    | error e => exact hw
    | ok heap => exact hw.setShared hh
  | share place =>
    rw [Workshop.step]
    split
    · exact hw
    next i hi =>
    have hi' := hw.loose i (List.mem_of_getElem? hi)
    have hshared := hw.extend (hw.heap.alloc_of_fits (Instance.typed_iff.mp hi'))
      (w.heap.extends_alloc i) w.readers
    exact { hshared with loose := fun k hk => hshared.loose k (List.mem_of_mem_eraseIdx hk) }
  | register id place policy =>
    rw [Workshop.step]
    split
    · exact hw
    next i hi =>
    split
    · exact hw
    next registry hr =>
    exact { hw with
      registry := typed_registerWith hw.registry (hw.loose i (List.mem_of_getElem? hi)) hr }
  | unregister id =>
    exact { hw with registry := fun x hx => hw.registry x (List.mem_of_mem_filter hx) }
  | create id =>
    rw [Workshop.step]
    split
    · exact hw
    next i hi => exact hw.add (hw.registry _ (Registry.mem_of_create hi).1)
  | receive order body limit home => exact { hw with }
  | read place declared =>
    cases hu : w.readers[place]? with
    | none =>
      rw [Workshop.step, hu]
      exact hw
    | some u =>
      have hkept := Logging.yields_read declared (w.equip u) trivial
      rw [step_read hu]
      exact hw.extend (hkept.typed (hw.equip u)).1 hkept.extends_heap _

lemma step_set_of_error {place : Nat} {name : String} {v : FieldValue} {e : MarshalError}
    (he : (w.step (.set place name v)).1 = .error e) : (w.step (.set place name v)).2 = w := by
  cases hi : w.loose[place]? with
  | none => rw [step, hi]
  | some i =>
    rw [step_set hi] at he ⊢
    exact InPlace.settled_of_error he

lemma step_setShared_of_error {n : NodeId} {name : String} {v : FieldValue} {e : MarshalError}
    (he : (w.step (.setShared n name v)).1 = .error e) :
    (w.step (.setShared n name v)).2 = w := by
  rw [step_setShared] at he ⊢
  exact InPlace.settled_of_error he

lemma Typed.run (hw : w.Typed) (acts : List Act) : (w.run acts).Typed := by
  induction acts generalizing w with
  | nil => exact hw
  | cons act acts ih => exact ih (hw.step act)

/-- Whatever was done before, all instances are typed. Setting a field leaves everything as it is
when it fails. A reader stores each field that it has read, and after each of its steps the
instances are typed, also those that it is still reading. -/
theorem run_typed (acts : List Act) :
    let w := Workshop.run {} acts
    (∀ n i, w.heap.get? n = some i → i.Typed w.heap) ∧
    (∀ i ∈ w.loose, i.Typed w.heap) ∧
    (∀ place name v e, (w.step (.set place name v)).1 = .error e →
      (w.step (.set place name v)).2 = w) ∧
    (∀ n name v e, (w.step (.setShared n name v)).1 = .error e →
      (w.step (.setShared n name v)).2 = w) ∧
    ∀ place u declared, w.readers[place]? = some u →
      let l := (Logging.read declared).run (w.equip u)
      w.step (.read place declared) = (l.result, w.after place l.reader) ∧
      (∀ n index result h, .stored n index result h ∈ l.notes → result = .ok ()) ∧
      ∀ note ∈ l.notes, ∀ h ∈ note.heap?, ∀ n i, h.get? n = some i → i.Typed h := by
  intro w
  have hw : w.Typed := typed_empty.run acts
  refine ⟨Heap.wellTyped_iff.mp hw.heap, hw.loose, fun _ _ _ _ => step_set_of_error,
    fun _ _ _ _ => step_setShared_of_error, fun place u declared hu => ?_⟩
  have hkept := Logging.yields_read declared (w.equip u) trivial
  exact ⟨step_read hu declared, fun n index result h hnote => hkept.stored _ hnote,
    fun note hnote h hh => Heap.wellTyped_iff.mp ((hkept.typed (hw.equip u)).2 note hnote h hh)⟩

section

def link : ValueType where
  id := "N"
  ancestors := []
  fields := [{ owner := "N", name := "next", kind := .value "N" }]

def loop : Octets :=
  [0x7f, 0xff, 0xff, 2, 0, 0, 0, 2, 0x4e, 0, 0, 0, 0xff, 0xff, 0xff, 0xff, 0xff, 0xff, 0xff, 0xf0]

def linkActs : List Act :=
  [.make link, .register "N" 0 .reject, .receive .bigEndian loop 512 none, .read 0 (some "N"),
    .receive .bigEndian (loop.take 14) 512 none, .read 1 none]

theorem run_typed_loop :
    let w := Workshop.run {} linkActs
    w.heap.size = 2 ∧
    (w.heap.get? 0).map (fun i => FieldValue.nodesAll i.fields) = some [0] ∧
    (w.heap.get? 1).map (fun i => FieldValue.nodesAll i.fields) = some [] ∧
    (∀ n i, w.heap.get? n = some i → i.Typed w.heap) ∧
    (w.step (.setShared 0 "next" (.string ""))).1 = .error (.typeMismatch "next" "value N") ∧
    (w.step (.setShared 0 "next" (.string ""))).2 = w := by
  have herror : ((Workshop.run {} linkActs).step (.setShared 0 "next" (.string ""))).1 =
      .error (.typeMismatch "next" "value N") := by decide +kernel
  obtain ⟨htyped, -, -, hset, -⟩ := run_typed linkActs
  exact ⟨by decide +kernel, by decide +kernel, by decide +kernel, htyped, herror,
    hset 0 "next" (.string "") _ herror⟩

end

end Workshop

end ObjectBroker
