import ObjectBroker.Proofs.Value.Accepted

/-!
What the parts of a reader of values do, whether they succeed or fail, whatever octets they are
given. Most of them only move along; an instance is made in one place and changed in another.
-/
namespace ObjectBroker

namespace Reading

variable {ε α β : Type} {k l : Nat} {r : Reading ε α} {f : α → Reading ε β}

def Takes (k : Nat) (r : Reading ε α) : Prop :=
  ∀ i, (r.run i).2.remaining ≤ i.remaining ∧
    ∀ a, (r.run i).1 = .ok a → k + (r.run i).2.remaining ≤ i.remaining

lemma Takes.pure (a : α) : Takes 0 (pure a : Reading ε α) :=
  fun _ => ⟨Nat.le_refl _, fun _ _ => (Nat.zero_add _).le⟩

lemma Takes.throw (k : Nat) (e : ε) : Takes k (throw e : Reading ε α) :=
  fun _ => ⟨Nat.le_refl _, fun _ h => by cases h⟩

lemma Takes.throw_bind (k : Nat) (e : ε) (f : α → Reading ε β) :
    Takes k ((MonadExcept.throw e : Reading ε α) >>= f) :=
  fun _ => ⟨Nat.le_refl _, fun _ h => by cases h⟩

lemma Takes.get : Takes 0 (get : Reading ε Input) :=
  fun _ => ⟨Nat.le_refl _, fun _ _ => (Nat.zero_add _).le⟩

lemma Takes.mono (h : Takes k r) (hl : l ≤ k) : Takes l r :=
  fun i => ⟨(h i).1, fun a ha => (Nat.add_le_add_right hl _).trans ((h i).2 a ha)⟩

lemma Takes.bind (hr : Takes k r) (hf : ∀ a, Takes l (f a)) : Takes (k + l) (r >>= f) := by
  intro i
  obtain ⟨hle, htakes⟩ := hr i
  rw [run_bind]
  rcases h : r.run i with ⟨e | a, j⟩
  · rw [h] at hle
    exact ⟨hle, fun _ h => by cases h⟩
  · rw [h] at hle htakes
    obtain ⟨hle', htakes'⟩ := hf a j
    refine ⟨hle'.trans hle, fun b hb => ?_⟩
    have hj := htakes a rfl
    have hb := htakes' b hb
    dsimp only at hj hb ⊢
    omega

lemma takes_peek (n : Nat) : Takes 0 (peek n) := by
  refine .bind (l := 0) .get fun i => ?_
  cases Octets.split? n i.rest with
  | none => exact .throw 0 _
  | some parts => exact .pure _

lemma takes_raw (n : Nat) : Takes n (raw n) := by
  intro i
  rcases h : (raw n).run i with ⟨e | x, j⟩
  · refine ⟨?_, fun _ h => by cases h⟩
    rw [raw, run_bind] at h
    have hpeek := (takes_peek n i).1
    rcases hp : (peek n).run i with ⟨e' | y, j'⟩
    · rw [hp] at h hpeek
      cases h
      exact hpeek
    · rw [hp] at h
      cases h
  · obtain ⟨-, hle, rfl⟩ := of_run_raw h
    have hdrop : n + (i.rest.drop n).length = i.rest.length := by
      rw [List.length_drop]
      exact Nat.add_sub_cancel' hle
    exact ⟨(Nat.le_add_left _ _).trans hdrop.le, fun _ _ => hdrop.le⟩

lemma takes_align (n : Nat) : Takes 0 (align n) :=
  .bind (l := 0) .get fun _ => .bind (l := 0) ((takes_raw _).mono (Nat.zero_le _)) fun _ => .pure _

lemma takes_word (width : Nat) : Takes width (word width) := by
  rw [← Nat.zero_add width]
  refine .bind ?_ fun _ => .bind (l := 0) ?_ fun _ => .bind (l := 0) .get fun _ => .pure _
  · rw [Nat.zero_add]
    exact takes_align width
  · rw [Nat.zero_add]
    exact takes_raw width

lemma takes_peekWord (width : Nat) : Takes 0 (peekWord width) :=
  .bind (l := 0) (takes_align width) fun _ => .bind (l := 0) (takes_peek width) fun _ =>
    .bind (l := 0) .get fun _ => .pure _

lemma takes_uint32 : Takes 4 uint32 :=
  .bind (l := 0) (takes_word 4) fun _ => .pure _

lemma takes_scalar (kind : ScalarKind) : Takes 1 (scalar kind) := by
  have hwidth : 1 ≤ kind.width := by cases kind <;> decide
  refine .mono (.bind (l := 0) (takes_word kind.width) fun bits => ?_) hwidth
  cases kind.ofBits? bits with
  | none => exact .throw 0 _
  | some s => exact .pure s

lemma takes_string : Takes 5 string := by
  refine .bind (k := 4) (l := 1) (takes_word 4) fun n => ?_
  dsimp only
  split
  · exact .throw_bind 1 _ _
  next hn =>
  refine .bind (k := 0) (l := 1) (takes_peek n) fun octets => ?_
  split
  · exact .throw_bind 1 _ _
  cases Utf8.decode octets.dropLast with
  | error fault => exact .throw 1 _
  | ok text =>
    exact .bind (k := 1) (l := 0) ((takes_raw n).mono (Nat.pos_of_ne_zero hn)) fun _ => .pure _

end Reading

namespace Unmarshalling

variable {α β : Type}

/-- What a reading that only moves along did from `u`. It has passed `k` octets or more unless it
failed, and then the error is one of `E`. -/
structure Scan (E : MarshalError → Prop) (k : Nat) (u : Unmarshaller)
    (outcome : Except MarshalError α × Unmarshaller) : Prop where
  heap : outcome.2.heap = u.heap
  registry : outcome.2.registry = u.registry
  remaining_le : outcome.2.input.remaining ≤ u.input.remaining
  takes : ∀ a, outcome.1 = .ok a → k + outcome.2.input.remaining ≤ u.input.remaining
  fails : ∀ e, outcome.1 = .error e → E e

def Scans (E : MarshalError → Prop) (k : Nat) (r : Unmarshalling α) : Prop :=
  ∀ u, Scan E k u (u.run r)

def NoTag (e : MarshalError) : Prop :=
  ∀ tag, e ≠ .badTag tag

section

variable {E : MarshalError → Prop} {k l : Nat} {r : Unmarshalling α} {f : α → Unmarshalling β}

lemma Scans.pure (a : α) : Scans E 0 (pure a) :=
  fun _ => ⟨rfl, rfl, Nat.le_refl _, fun _ _ => (Nat.zero_add _).le, fun _ h => by cases h⟩

lemma Scans.get : Scans E 0 get :=
  fun _ => ⟨rfl, rfl, Nat.le_refl _, fun _ _ => (Nat.zero_add _).le, fun _ h => by cases h⟩

lemma Scans.throw (k : Nat) {e : MarshalError} (he : E e) : Scans E k (throw e : Unmarshalling α) :=
  fun _ => ⟨rfl, rfl, Nat.le_refl _, fun _ h => (by cases h), fun _ h => by cases h; exact he⟩

lemma Scans.throw_bind (k : Nat) {e : MarshalError} (he : E e) (f : α → Unmarshalling β) :
    Scans E k ((MonadExcept.throw e : Unmarshalling α) >>= f) :=
  fun _ => ⟨rfl, rfl, Nat.le_refl _, fun _ h => (by cases h), fun _ h => by cases h; exact he⟩

lemma Scans.note (g : Unmarshaller → List (Nat × String)) :
    Scans E 0 (modify fun u => { u with typeIds := g u }) :=
  fun _ => ⟨rfl, rfl, Nat.le_refl _, fun _ _ => (Nat.zero_add _).le, fun _ h => by cases h⟩

lemma Scans.mono (h : Scans E k r) (hl : l ≤ k) : Scans E l r :=
  fun u => { h u with takes := fun a ha => (Nat.add_le_add_right hl _).trans ((h u).takes a ha) }

lemma Scans.imp {E' : MarshalError → Prop} (h : Scans E k r) (hE : ∀ e, E e → E' e) :
    Scans E' k r :=
  fun u => { h u with fails := fun e he => hE e ((h u).fails e he) }

lemma Scans.bind (hr : Scans E k r) (hf : ∀ a, Scans E l (f a)) : Scans E (k + l) (r >>= f) := by
  intro u
  have hu := hr u
  rcases h : u.run r with ⟨e | a, u'⟩
  · rw [h] at hu
    rw [Unmarshaller.run_bind_of_error h]
    exact ⟨hu.heap, hu.registry, hu.remaining_le, fun _ h => (by cases h),
      fun _ h => by cases h; exact hu.fails e rfl⟩
  · rw [h] at hu
    rw [Unmarshaller.run_bind_of_ok h]
    have hu' := hf a u'
    refine ⟨hu'.heap.trans hu.heap, hu'.registry.trans hu.registry,
      hu'.remaining_le.trans hu.remaining_le, fun b hb => ?_, hu'.fails⟩
    have ha := hu.takes a rfl
    have hb := hu'.takes b hb
    dsimp only at ha
    omega

end

lemma scans_stream {k : Nat} {r : Reading StreamError α} (hr : r.Takes k) :
    Scans NoTag k (stream r) := by
  intro u
  obtain ⟨hle, htakes⟩ := hr u.input
  rw [stream, ofReading, Unmarshaller.run_bind_of_ok (Unmarshaller.run_get u), Reading.run_adapt]
  rcases h : r.run u.input with ⟨e | a, i⟩
  · rw [h] at hle
    exact ⟨rfl, rfl, hle, fun _ h => (by cases h), fun _ h => by cases h; exact fun _ => by simp⟩
  · rw [h] at hle htakes
    exact ⟨rfl, rfl, hle, fun _ _ => htakes a rfl, fun _ h => by cases h⟩

lemma scans_position {E : MarshalError → Prop} : Scans E 0 position :=
  .bind (k := 0) (l := 0) .get fun _ => .pure _

lemma scans_indirection : Scans NoTag 4 indirection := by
  refine .bind (k := 0) (l := 4) (scans_stream (Reading.takes_align 4)) fun _ =>
    .bind (k := 0) (l := 4) scans_position fun origin =>
    .bind (k := 4) (l := 0) (scans_stream Reading.takes_uint32) fun offset => ?_
  dsimp only
  split
  · exact .throw_bind 0 (fun _ => by simp) _
  · exact .pure _

lemma scans_typeId : Scans NoTag 5 typeId := by
  refine .bind (k := 0) (l := 5) (scans_stream (Reading.takes_peekWord 4)) fun tag => ?_
  split
  · refine .mono (k := 8) (.bind (k := 4) (l := 4) (scans_stream (Reading.takes_word 4)) fun _ =>
      .bind (k := 4) (l := 0) scans_indirection fun target =>
      .bind (k := 0) (l := 0) .get fun u => ?_) (by decide)
    cases u.typeIds.lookup target with
    | none => exact .throw 0 fun _ => by simp
    | some id => exact .pure id
  · exact .bind (k := 0) (l := 5) scans_position fun start =>
      .bind (k := 5) (l := 0) (scans_stream Reading.takes_string) fun id =>
      .bind (k := 0) (l := 0) (.note fun u => (start, id) :: u.typeIds) fun _ => .pure _

lemma scans_head (tag : UInt32) : Scans NoTag 5 (head tag) := by
  unfold head
  split
  · exact .mono (.bind scans_typeId fun _ => scans_typeId) (by decide)
  · exact scans_typeId

lemma scans_assignable (declared : String) (n : Option NodeId) :
    Scans NoTag 0 (assignable declared n) := by
  cases n with
  | none => exact .pure none
  | some n =>
    refine .bind (k := 0) (l := 0) .get fun u => ?_
    dsimp only
    split
    · exact .pure _
    · exact .throw 0 fun _ => by simp

lemma scans_sequenceLength : Scans NoTag 4 sequenceLength := by
  refine .bind (k := 4) (l := 0) (scans_stream (Reading.takes_word 4)) fun count =>
    .bind (k := 0) (l := 0) .get fun u => ?_
  split
  · exact .throw_bind 0 (fun _ => by simp) _
  · exact .pure _

lemma scans_start : Scans (fun _ => True) 4 start := by
  have hT {α : Type} {k : Nat} {r : Unmarshalling α} (hr : Scans NoTag k r) :
      Scans (fun _ => True) k r := hr.imp fun _ _ => trivial
  refine .bind (k := 0) (l := 4) (hT (scans_stream (Reading.takes_align 4))) fun _ =>
    .bind (k := 0) (l := 4) scans_position fun origin =>
    .bind (k := 4) (l := 0) (hT (scans_stream Reading.takes_uint32)) fun tag => ?_
  split
  · exact .pure _
  split
  · refine .mono (k := 4) (.bind (k := 4) (l := 0) (hT scans_indirection) fun target =>
      .bind (k := 0) (l := 0) .get fun u => ?_) (by decide)
    cases u.instances.lookup target with
    | none => exact .throw 0 trivial
    | some n => exact .pure _
  split
  · exact .pure _
  · exact .throw 0 trivial

def enter (origin : Nat) (id : String) : Unmarshalling (NodeId × List Field) := do
  let n ← create id
  modify fun u => { u with instances := (origin, n) :: u.instances }
  return (n, ((← get).heap.typeOf? n).elim [] (·.fields))

lemma fresh_eq (origin : Nat) (tag : UInt32) : fresh origin tag = head tag >>= enter origin := rfl

inductive Enters (u : Unmarshaller) (origin : Nat) (id : String) :
    Except MarshalError (NodeId × List Field) × Unmarshaller → Prop
  | made {i : Instance} : u.registry.create id = .ok i →
      Enters u origin id (.ok (u.heap.size, i.type.fields), { u with
        heap := (u.heap.alloc i).2
        instances := (origin, u.heap.size) :: u.instances })
  | refused {e : MarshalError} : u.registry.create id = .error e →
      Enters u origin id (.error e, u)

lemma enters_enter (origin : Nat) (id : String) (u : Unmarshaller) :
    Enters u origin id (u.run (enter origin id)) := by
  cases hc : u.registry.create id with
  | error e =>
    rw [enter, Unmarshaller.run_bind_of_error (run_create_error hc)]
    exact .refused hc
  | ok i =>
    have ht : (u.heap.alloc i).2.typeOf? u.heap.size = some i.type :=
      congrArg (Option.map _) (u.heap.get?_alloc_self i)
    rw [enter, Unmarshaller.run_bind_of_ok (run_create hc)]
    change Enters u origin id (.ok (u.heap.size,
      ((u.heap.alloc i).2.typeOf? u.heap.size).elim [] (·.fields)), _)
    rw [ht]
    exact .made hc

lemma Enters.input {u : Unmarshaller} {origin : Nat} {id : String}
    {outcome : Except MarshalError (NodeId × List Field) × Unmarshaller}
    (h : Enters u origin id outcome) : outcome.2.input = u.input := by
  cases h <;> rfl

lemma fresh_takes (origin : Nat) (tag : UInt32) (u : Unmarshaller) :
    (u.run (fresh origin tag)).2.input.remaining ≤ u.input.remaining ∧
    ∀ made, (u.run (fresh origin tag)).1 = .ok made →
      5 + (u.run (fresh origin tag)).2.input.remaining ≤ u.input.remaining := by
  have hhead := scans_head tag u
  rw [fresh_eq]
  rcases h : u.run (head tag) with ⟨e | id, u'⟩
  · rw [h] at hhead
    rw [Unmarshaller.run_bind_of_error h]
    exact ⟨hhead.remaining_le, fun _ h => by cases h⟩
  · rw [h] at hhead
    rw [Unmarshaller.run_bind_of_ok h, (enters_enter origin id u').input]
    exact ⟨hhead.remaining_le, fun _ _ => hhead.takes id rfl⟩

lemma noTag_of_create {R : Registry} {id : String} {e : MarshalError}
    (h : R.create id = .error e) : NoTag e := by
  rw [Registry.create] at h
  cases hl : R.lookup? id with
  | none =>
    rw [hl] at h
    cases h
    exact fun _ => by simp
  | some i =>
    rw [hl] at h
    dsimp only at h
    split at h
    · cases h
    · cases h
      exact fun _ => by simp

inductive Stores (u : Unmarshaller) (n : NodeId) (index : Nat) (v : FieldValue) :
    Except MarshalError Unit × Unmarshaller → Prop
  | absent : u.heap.get? n = none → Stores u n index v (.ok (), u)
  | taken {i j : Instance} : u.heap.get? n = some i → i.setAt u.heap index v = .ok j →
      Stores u n index v (.ok (), { u with heap := u.heap.write n j })
  | refused {i : Instance} {e : MarshalError} : u.heap.get? n = some i →
      i.setAt u.heap index v = .error e → Stores u n index v (.error e, u)

namespace Stores

variable {u : Unmarshaller} {n : NodeId} {index : Nat} {v : FieldValue}
  {outcome : Except MarshalError Unit × Unmarshaller}

lemma input (h : Stores u n index v outcome) : outcome.2.input = u.input := by
  cases h <;> rfl

lemma size (h : Stores u n index v outcome) : outcome.2.heap.size = u.heap.size := by
  cases h with
  | absent => rfl
  | taken => exact Array.size_setIfInBounds
  | refused => rfl

end Stores

lemma stores_store (n : NodeId) (index : Nat) (v : FieldValue) (u : Unmarshaller) :
    Stores u n index v (u.run (store n index v)) := by
  cases hi : u.heap.get? n with
  | none =>
    rw [store, Unmarshaller.run_bind_of_ok (Unmarshaller.run_get u), hi]
    exact .absent hi
  | some i =>
    cases hj : i.setAt u.heap index v with
    | ok j =>
      rw [run_store hi hj]
      exact .taken hi hj
    | error e =>
      rw [store, Unmarshaller.run_bind_of_ok (Unmarshaller.run_get u), hi]
      dsimp only
      rw [hj]
      exact .refused hi hj

lemma noTag_of_setAt {h : Heap} {i : Instance} {index : Nat} {v : FieldValue} {e : MarshalError}
    (he : i.setAt h index v = .error e) : NoTag e := by
  rw [Instance.setAt] at he
  cases hf : i.type.fields[index]? with
  | none =>
    rw [hf] at he
    cases he
    exact fun _ => by simp
  | some f =>
    rw [hf] at he
    dsimp only at he
    split at he
    · cases he
    · cases he
      unfold Instance.misfit
      split <;> exact fun _ => by simp

end Unmarshalling

end ObjectBroker
