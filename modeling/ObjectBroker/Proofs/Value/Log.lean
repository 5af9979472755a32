import ObjectBroker.Proofs.Value.Scan

/-!
What happens while a value is read. A reader that takes notes says of every value, also of one
inside of another or inside of a sequence, with which tag it starts; of every type id, that an
instance was asked for; of every instance, that it was made; of every element of a sequence, that it
was read; and of every field, how storing it went. It does what the plain reader does.
-/
namespace ObjectBroker

inductive Note where
  | tag (tag : UInt32)
  | asked (id : String)
  | made (node : NodeId) (heap : Heap)
  | element (value : FieldValue)
  | stored (node : NodeId) (index : Nat) (result : Except MarshalError Unit) (heap : Heap)

namespace Note

def tag? : Note → Option UInt32
  | .tag t => some t
  | _ => none

def isAsked : Note → Bool
  | .asked _ => true
  | _ => false

def isMade : Note → Bool
  | .made _ _ => true
  | _ => false

def isElement : Note → Bool
  | .element _ => true
  | _ => false

end Note

structure Log (α : Type) where
  result : Except MarshalError α
  reader : Unmarshaller
  notes : List Note

def Logging (α : Type) : Type :=
  Unmarshaller → Log α

def Logging.run {α : Type} (p : Logging α) (u : Unmarshaller) : Log α :=
  p u

namespace Log

variable {α β : Type}

def after (notes : List Note) (l : Log α) : Log α :=
  { l with notes := notes ++ l.notes }

def failed (l : Log α) (e : MarshalError) : Log β :=
  { result := .error e, reader := l.reader, notes := l.notes }

def noted (l : Log α) (note : Note) : Log α :=
  { l with notes := l.notes ++ [note] }

@[simp]
lemma reader_noted (l : Log α) (note : Note) : (l.noted note).reader = l.reader := rfl

@[simp]
lemma reader_after (notes : List Note) (l : Log α) : (l.after notes).reader = l.reader := rfl

def noteResult (l : Log α) (note : α → Unmarshaller → Note) : Log α :=
  match l.result with
  | .ok a => l.noted (note a l.reader)
  | .error _ => l

def andThen (l : Log α) (f : α → Logging β) : Log β :=
  match l.result with
  | .ok a => ((f a).run l.reader).after l.notes
  | .error e => l.failed e

def tags (l : Log α) : List UInt32 :=
  l.notes.filterMap Note.tag?

def asked (l : Log α) : Nat :=
  l.notes.countP Note.isAsked

def made (l : Log α) : Nat :=
  l.notes.countP Note.isMade

def elements (l : Log α) : Nat :=
  l.notes.countP Note.isElement

end Log

namespace Logging

variable {α β : Type}

instance : Monad Logging where
  pure a u := { result := .ok a, reader := u, notes := [] }
  bind p f u := (p.run u).andThen f

def lift (r : Unmarshalling α) : Logging α := fun u =>
  { result := (u.run r).1, reader := (u.run r).2, notes := [] }

def noting (note : α → Unmarshaller → Note) (p : Logging α) : Logging α := fun u =>
  (p.run u).noteResult note

def nextTag : Unmarshalling UInt32 := do
  Unmarshalling.stream (Reading.align 4)
  Unmarshalling.stream Reading.uint32

def start : Logging Unmarshalling.Start := fun u =>
  { (lift Unmarshalling.start).run u with notes := ((u.run nextTag).1.toOption.map .tag).toList }

def enter (origin : Nat) (id : String) : Logging (NodeId × List Field) :=
  noting (fun made u => .made made.1 u.heap) (lift (Unmarshalling.enter origin id))

def fresh (origin : Nat) (tag : UInt32) : Logging (NodeId × List Field) := do
  enter origin (← noting (fun id _ => .asked id) (lift (Unmarshalling.head tag)))

def store (n : NodeId) (index : Nat) (v : FieldValue) : Logging Unit := fun u =>
  let l := (lift (Unmarshalling.store n index v)).run u
  { l with notes := [.stored n index l.result l.reader.heap] }

def many (p : Logging α) : Nat → Logging (List α)
  | 0 => pure []
  | n + 1 => do
    let a ← p
    let rest ← many p n
    pure (a :: rest)

def field (readValue : Logging (Option NodeId)) : FieldKind → Logging FieldValue
  | .scalar kind => do return .scalar (← lift (Unmarshalling.stream (Reading.scalar kind)))
  | .string => do return .string (← lift (Unmarshalling.stream Reading.string))
  | .value declared => do
    return .value (← lift (Unmarshalling.assignable declared (← readValue)))
  | .sequence element => do
    let count ← lift Unmarshalling.sequenceLength
    return .sequence (← many (noting (fun v _ => .element v) (field readValue element)) count)

def fill (readValue : Logging (Option NodeId)) (n : NodeId) :
    (index : Nat) → List Field → Logging Unit
  | _, [] => pure ()
  | index, f :: fs => do
    store n index (← field readValue f.kind)
    fill readValue n (index + 1) fs

def valueAt : (levels : Nat) → Logging (Option NodeId)
  | 0 => do
    match ← start with
    | .null => pure none
    | .shared n => pure (some n)
    | .fresh _ _ => lift do throw (.tooDeep (← get).limit)
  | levels + 1 => do
    match ← start with
    | .null => pure none
    | .shared n => pure (some n)
    | .fresh origin tag =>
      let (n, fields) ← fresh origin tag
      fill (valueAt levels) n 0 fields
      pure (some n)

def value : Logging (Option NodeId) := fun u =>
  (valueAt u.limit).run u

def valueAs (declared : String) : Logging (Option NodeId) := do
  lift (Unmarshalling.assignable declared (← value))

variable {p : Logging α} {f : α → Logging β} {u : Unmarshaller}

lemma bind_of_ok {a : α} (h : (p.run u).result = .ok a) :
    (p >>= f).run u = ((f a).run (p.run u).reader).after (p.run u).notes := by
  change (p.run u).andThen f = _
  rw [Log.andThen, h]

lemma bind_of_error {e : MarshalError} (h : (p.run u).result = .error e) :
    (p >>= f).run u = (p.run u).failed e := by
  change (p.run u).andThen f = _
  rw [Log.andThen, h]

lemma run_noting_of_ok {note : α → Unmarshaller → Note} {a : α} (h : (p.run u).result = .ok a) :
    (noting note p).run u = (p.run u).noted (note a (p.run u).reader) := by
  change (p.run u).noteResult note = _
  rw [Log.noteResult, h]

lemma run_noting_of_error {note : α → Unmarshaller → Note} {e : MarshalError}
    (h : (p.run u).result = .error e) : (noting note p).run u = p.run u := by
  change (p.run u).noteResult note = _
  rw [Log.noteResult, h]

@[simp]
lemma result_noting (note : α → Unmarshaller → Note) :
    ((noting note p).run u).result = (p.run u).result := by
  cases h : (p.run u).result with
  | error e => rw [run_noting_of_error h, h]
  | ok a => rw [run_noting_of_ok h, Log.noted, h]

@[simp]
lemma reader_noting (note : α → Unmarshaller → Note) :
    ((noting note p).run u).reader = (p.run u).reader := by
  cases h : (p.run u).result with
  | error e => rw [run_noting_of_error h]
  | ok a => rw [run_noting_of_ok h, Log.noted]

lemma bind_cases {Q : Log β → Prop}
    (herror : ∀ e, (p.run u).result = .error e → Q ((p.run u).failed e))
    (hok : ∀ a, (p.run u).result = .ok a → Q (((f a).run (p.run u).reader).after (p.run u).notes)) :
    Q ((p >>= f).run u) := by
  cases h : (p.run u).result with
  | error e =>
    rw [bind_of_error h]
    exact herror e h
  | ok a =>
    rw [bind_of_ok h]
    exact hok a h

lemma exists_tag_of_mem_start {note : Note} (h : note ∈ (start.run u).notes) :
    ∃ tag, note = .tag tag := by
  obtain ⟨tag, -, rfl⟩ := Option.map_eq_some_iff.mp (Option.mem_toList.mp h)
  exact ⟨tag, rfl⟩

lemma enter_cases {origin : Nat} {id : String} {Q : Log (NodeId × List Field) → Prop}
    (hmade : ∀ i, u.registry.create id = .ok i → Q {
      result := .ok (u.heap.size, i.type.fields)
      reader := { u with
        heap := (u.heap.alloc i).2
        instances := (origin, u.heap.size) :: u.instances }
      notes := [.made u.heap.size (u.heap.alloc i).2] })
    (hrefused : ∀ e, u.registry.create id = .error e →
      Q { result := .error e, reader := u, notes := [] }) :
    Q ((enter origin id).run u) := by
  have hs := Unmarshalling.enters_enter origin id u
  have hrun : (enter origin id).run u = Log.noteResult
      { result := (u.run (Unmarshalling.enter origin id)).1
        reader := (u.run (Unmarshalling.enter origin id)).2
        notes := [] } fun made u => .made made.1 u.heap := rfl
  rw [hrun]
  generalize u.run (Unmarshalling.enter origin id) = outcome at hs
  cases hs with
  | made hc => exact hmade _ hc
  | refused hc => exact hrefused _ hc

def Tells (p : Logging α) (r : Unmarshalling α) : Prop :=
  ∀ u, ((p.run u).result, (p.run u).reader) = u.run r

lemma Tells.lift (r : Unmarshalling α) : Tells (lift r) r :=
  fun _ => rfl

lemma Tells.pure (a : α) : Tells (pure a) (pure a) :=
  fun _ => rfl

lemma Tells.noting {r : Unmarshalling α} (h : Tells p r) (note : α → Unmarshaller → Note) :
    Tells (noting note p) r := by
  intro u
  rw [result_noting, reader_noting]
  exact h u

lemma Tells.bind {r : Unmarshalling α} {g : α → Unmarshalling β} (h : Tells p r)
    (hf : ∀ a, Tells (f a) (g a)) : Tells (p >>= f) (r >>= g) := by
  intro u
  have hu := (h u).symm
  cases hr : (p.run u).result with
  | error e =>
    rw [hr] at hu
    rw [bind_of_error hr, Unmarshaller.run_bind_of_error hu]
    rfl
  | ok a =>
    rw [hr] at hu
    rw [bind_of_ok hr, Unmarshaller.run_bind_of_ok hu]
    exact hf a _

lemma tells_start : Tells start Unmarshalling.start :=
  fun _ => rfl

lemma tells_fresh (origin : Nat) (tag : UInt32) :
    Tells (fresh origin tag) (Unmarshalling.fresh origin tag) :=
  .bind (.noting (.lift _) _) fun _ => .noting (.lift _) _

lemma tells_store (n : NodeId) (index : Nat) (v : FieldValue) :
    Tells (store n index v) (Unmarshalling.store n index v) :=
  fun _ => rfl

lemma tells_many {r : Unmarshalling α} (h : Tells p r) (n : Nat) :
    Tells (many p n) (Unmarshalling.many r n) := by
  induction n with
  | zero => exact .pure []
  | succ n ih => exact .bind h fun _ => .bind ih fun _ => .pure _

section

variable {read : Logging (Option NodeId)} {read' : Unmarshalling (Option NodeId)}
  (h : Tells read read')
include h

lemma tells_field (kind : FieldKind) :
    Tells (field read kind) (Unmarshalling.field read' kind) := by
  induction kind with
  | scalar kind => exact .bind (.lift _) fun _ => .pure _
  | string => exact .bind (.lift _) fun _ => .pure _
  | value declared => exact .bind h fun _ => .bind (.lift _) fun _ => .pure _
  | sequence element ih =>
    exact .bind (.lift _) fun count => .bind (tells_many (.noting ih _) count) fun _ => .pure _

lemma tells_fill (n : NodeId) (index : Nat) (fs : List Field) :
    Tells (fill read n index fs) (Unmarshalling.fill read' n index fs) := by
  induction fs generalizing index with
  | nil => exact .pure ()
  | cons f fs ih =>
    exact .bind (tells_field h f.kind) fun v => .bind (tells_store n index v) fun _ => ih _

end

lemma tells_valueAt (levels : Nat) : Tells (valueAt levels) (Unmarshalling.valueAt levels) := by
  induction levels with
  | zero =>
    refine .bind tells_start fun s => ?_
    cases s with
    | null => exact .pure none
    | shared n => exact .pure (some n)
    | fresh origin tag => exact .lift _
  | succ levels ih =>
    refine .bind tells_start fun s => ?_
    cases s with
    | null => exact .pure none
    | shared n => exact .pure (some n)
    | fresh origin tag =>
      exact .bind (tells_fresh origin tag) fun made =>
        .bind (tells_fill ih made.1 0 made.2) fun _ => .pure _

lemma tells_value : Tells value Unmarshalling.value := by
  intro u
  have hvalue : u.run Unmarshalling.value = u.run (Unmarshalling.valueAt u.limit) :=
    Unmarshaller.run_bind_of_ok (Unmarshaller.run_get u)
  rw [hvalue]
  exact tells_valueAt u.limit u

lemma tells_valueAs (declared : String) :
    Tells (valueAs declared) (Unmarshalling.valueAs declared) :=
  .bind tells_value fun _ => .lift _

end Logging

end ObjectBroker
