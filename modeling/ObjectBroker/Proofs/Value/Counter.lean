import ObjectBroker.Proofs.Value.Accepted

/-!
Counting levels. Instead of handing down the levels that are left, a writer or reader may keep a
counter of the values that it is inside of, compare it with the limit where an instance starts, and
step it up and down around the fields. Such programs do the same, and leave the counter as it was.
-/
namespace ObjectBroker

abbrev Counting (σ : Type) := ExceptT MarshalError (StateT (σ × Nat) Option)

namespace Counting

variable {σ α β : Type}

def run (p : Counting σ α) (s : σ) (depth : Nat) : Option (Except MarshalError α × σ × Nat) :=
  StateT.run (ExceptT.run p) (s, depth)

def outcome (w : ExceptT MarshalError (StateM σ) α) (s : σ) (depth : Nat) :
    Except MarshalError α × σ × Nat :=
  let r := StateT.run (ExceptT.run w) s
  (r.1, r.2, depth)

def lift (w : ExceptT MarshalError (StateM σ) α) : Counting σ α :=
  ExceptT.mk fun s => some (outcome w s.1 s.2)

def exhausted : Counting σ α :=
  ExceptT.mk fun _ => none

def nested (p : Counting σ α) : Counting σ α :=
  ExceptT.mk do
    modify fun s => (s.1, s.2 + 1)
    let result ← ExceptT.run p
    modify fun s => (s.1, s.2 - 1)
    return result

def checkDepth (limit : σ → Nat) : Counting σ Unit := do
  let (s, depth) ← get
  if limit s ≤ depth then
    throw (.tooDeep (limit s))

mutual

def putField (writeValue : Option NodeId → Counting Marshaller Unit) :
    FieldValue → Counting Marshaller Unit
  | .scalar s => lift (modify fun m => m.put (·.putScalar s))
  | .string text => lift (modify fun m => m.put (·.putString text))
  | .value n => writeValue n
  | .sequence items => do
    lift (modify fun m => m.put (·.putWord 4 items.length))
    putFields writeValue items

def putFields (writeValue : Option NodeId → Counting Marshaller Unit) :
    List FieldValue → Counting Marshaller Unit
  | [] => pure ()
  | v :: vs => do
    putField writeValue v
    putFields writeValue vs

end

def writeValue (h : Heap) : (calls : Nat) → Option NodeId → Counting Marshaller Unit
  | 0, _ => exhausted
  | calls + 1, n => do
    if !(← lift (Marshalling.known n)) then
      checkDepth Marshaller.limit
      match n with
      | none => pure ()
      | some n => do
        let fields ← lift (Marshalling.fresh h n)
        nested (putFields (writeValue h calls) fields)

def many (p : Counting Unmarshaller α) : Nat → Counting Unmarshaller (List α)
  | 0 => pure []
  | n + 1 => do
    let a ← p
    let rest ← many p n
    pure (a :: rest)

def getField (readValue : Counting Unmarshaller (Option NodeId)) :
    FieldKind → Counting Unmarshaller FieldValue
  | .scalar kind => do return .scalar (← lift (Unmarshalling.stream (Reading.scalar kind)))
  | .string => do return .string (← lift (Unmarshalling.stream Reading.string))
  | .value declared => do
    return .value (← lift (Unmarshalling.assignable declared (← readValue)))
  | .sequence element => do
    return .sequence (← many (getField readValue element) (← lift Unmarshalling.sequenceLength))

def getFields (readValue : Counting Unmarshaller (Option NodeId)) (n : NodeId) :
    (index : Nat) → List Field → Counting Unmarshaller Unit
  | _, [] => pure ()
  | index, f :: fs => do
    lift (Unmarshalling.store n index (← getField readValue f.kind))
    getFields readValue n (index + 1) fs

def readValue : (calls : Nat) → Counting Unmarshaller (Option NodeId)
  | 0 => exhausted
  | calls + 1 => do
    match ← lift Unmarshalling.start with
    | .null => pure none
    | .shared n => pure (some n)
    | .fresh origin tag =>
      checkDepth Unmarshaller.limit
      let (n, fields) ← lift (Unmarshalling.fresh origin tag)
      nested (getFields (readValue calls) n 0 fields)
      pure (some n)

def Counts (limit : σ → Nat) (d depth : Nat) (p : Counting σ α)
    (w : ExceptT MarshalError (StateM σ) α) : Prop :=
  ∀ s, limit s = d → p.run s depth = some (outcome w s depth) ∧ limit (outcome w s depth).2.1 = d

variable {limit : σ → Nat} {d depth : Nat}

lemma Counts.pure (a : α) : Counts limit d depth (pure a) (pure a) :=
  fun _ hs => ⟨rfl, hs⟩

lemma Counts.bind {p : Counting σ α} {w : ExceptT MarshalError (StateM σ) α}
    {f : α → Counting σ β} {g : α → ExceptT MarshalError (StateM σ) β}
    (hp : Counts limit d depth p w) (hf : ∀ a, Counts limit d depth (f a) (g a)) :
    Counts limit d depth (p >>= f) (w >>= g) := by
  intro s hs
  obtain ⟨hrun, hlimit⟩ := hp s hs
  have hbind : (p >>= f).run s depth = (p.run s depth).bind fun x =>
      StateT.run (ExceptT.bindCont f x.1) x.2 := rfl
  have hbind' : outcome (w >>= g) s depth =
      outcome (ExceptT.mk (ExceptT.bindCont g (outcome w s depth).1)) (outcome w s depth).2.1
        depth := rfl
  rw [hbind, hrun, hbind']
  rcases hw : outcome w s depth with ⟨e | a, s', depth'⟩
  · rw [hw] at hlimit
    have hdepth : depth = depth' := congrArg (·.2.2) hw
    subst hdepth
    exact ⟨rfl, hlimit⟩
  · rw [hw] at hlimit
    have hdepth : depth = depth' := congrArg (·.2.2) hw
    subst hdepth
    exact hf a s' hlimit

lemma Counts.nested {p : Counting σ α} {w : ExceptT MarshalError (StateM σ) α}
    (hp : Counts limit d (depth + 1) p w) : Counts limit d depth (nested p) w := by
  intro s hs
  obtain ⟨hrun, hlimit⟩ := hp s hs
  have hbind : (Counting.nested p).run s depth = (p.run s (depth + 1)).bind fun x =>
      some (x.1, x.2.1, x.2.2 - 1) := rfl
  rw [hbind, hrun]
  exact ⟨rfl, hlimit⟩

lemma run_checkDepth_bind (f : Unit → Counting σ α) (s : σ) :
    (checkDepth limit >>= f).run s depth =
      ((if limit s ≤ depth then throw (.tooDeep (limit s)) else Pure.pure ()) >>= f).run s depth :=
  rfl

lemma Counts.check_below (hd : depth < d) {f : Unit → Counting σ α}
    {w : ExceptT MarshalError (StateM σ) α} (hf : Counts limit d depth (f ()) w) :
    Counts limit d depth (checkDepth limit >>= f) w := by
  intro s hs
  rw [run_checkDepth_bind, hs, if_neg (Nat.not_le.2 hd)]
  exact hf s hs

lemma Counts.check_at (hd : d ≤ depth) (f : Unit → Counting σ α) :
    Counts limit d depth (checkDepth limit >>= f)
      (get >>= fun s => throw (.tooDeep (limit s))) := by
  intro s hs
  rw [run_checkDepth_bind, if_pos (hs.trans_le hd)]
  exact ⟨rfl, hs⟩

def Keeps (limit : σ → Nat) (w : ExceptT MarshalError (StateM σ) α) : Prop :=
  ∀ s, limit (StateT.run (ExceptT.run w) s).2 = limit s

lemma Keeps.counts {w : ExceptT MarshalError (StateM σ) α} (hw : Keeps limit w) :
    Counts limit d depth (lift w) w :=
  fun s hs => ⟨rfl, (hw s).trans hs⟩

section Keeps

variable {w : ExceptT MarshalError (StateM σ) α} {f : α → ExceptT MarshalError (StateM σ) β}

lemma Keeps.pure (a : α) : Keeps limit (pure a) := fun _ => rfl

lemma Keeps.throw (e : MarshalError) : Keeps (α := α) limit (throw e) := fun _ => rfl

lemma Keeps.get : Keeps limit get := fun _ => rfl

lemma Keeps.modify {g : σ → σ} (hg : ∀ s, limit (g s) = limit s) : Keeps limit (modify g) := hg

lemma Keeps.bind (hw : Keeps limit w) (hf : ∀ a, Keeps limit (f a)) : Keeps limit (w >>= f) := by
  intro s
  have hbind : StateT.run (ExceptT.run (w >>= f)) s =
      StateT.run (ExceptT.bindCont f (StateT.run (ExceptT.run w) s).1)
        (StateT.run (ExceptT.run w) s).2 := rfl
  rw [hbind, ← hw s]
  rcases StateT.run (ExceptT.run w) s with ⟨e | a, s'⟩
  · rfl
  · exact hf a s'

lemma Keeps.get_bind {f : σ → ExceptT MarshalError (StateM σ) β}
    (hf : ∀ s, limit (StateT.run (ExceptT.run (f s)) s).2 = limit s) :
    Keeps limit (MonadState.get >>= f) := hf

end Keeps

lemma keeps_known (n : Option NodeId) : Keeps Marshaller.limit (Marshalling.known n) := by
  cases n with
  | none => exact .bind (.modify fun _ => rfl) fun _ => .pure true
  | some n =>
    refine .get_bind fun m => ?_
    cases hn : m.instances.lookup n with
    | none => rfl
    | some target => rfl

lemma keeps_fresh (h : Heap) (n : NodeId) : Keeps Marshaller.limit (Marshalling.fresh h n) :=
  .bind (.modify fun m => (m.extends_putHead n _).limit) fun _ => .pure _

lemma keeps_ofReading (r : Reading MarshalError α) :
    Keeps Unmarshaller.limit (Unmarshalling.ofReading r) := by
  refine .get_bind fun u => ?_
  rcases Reading.run r u.input with ⟨e | a, i⟩ <;> rfl

lemma keeps_stream (r : Reading StreamError α) :
    Keeps Unmarshaller.limit (Unmarshalling.stream r) :=
  keeps_ofReading _

lemma keeps_position : Keeps Unmarshaller.limit Unmarshalling.position :=
  fun _ => rfl

lemma keeps_indirection : Keeps Unmarshaller.limit Unmarshalling.indirection := by
  refine .bind (keeps_stream _) fun _ => .bind keeps_position fun origin =>
    .bind (keeps_stream _) fun offset => ?_
  by_cases ht : (origin : Int) + offset.toInt32.toInt < 0
  · rw [if_pos ht]
    exact .bind (.throw _) fun _ => .pure _
  · rw [if_neg ht]
    exact .pure _

lemma keeps_typeId : Keeps Unmarshaller.limit Unmarshalling.typeId := by
  refine .bind (keeps_stream _) fun tag => ?_
  by_cases ht : tag = ValueTag.indirection.toNat
  · rw [if_pos ht]
    refine .bind (keeps_stream _) fun _ => .bind keeps_indirection fun target =>
      .get_bind fun u => ?_
    cases u.typeIds.lookup target <;> rfl
  · rw [if_neg ht]
    exact .bind keeps_position fun _ => .bind (keeps_stream _) fun _ =>
      .bind (.modify fun _ => rfl) fun _ => .pure _

lemma keeps_assignable (declared : String) (n : Option NodeId) :
    Keeps Unmarshaller.limit (Unmarshalling.assignable declared n) := by
  cases n with
  | none => exact .pure none
  | some n =>
    refine .bind .get fun u => ?_
    dsimp only
    split
    · exact .pure _
    · exact .throw _

lemma keeps_sequenceLength : Keeps Unmarshaller.limit Unmarshalling.sequenceLength := by
  refine .bind (keeps_stream _) fun count => .bind .get fun u => ?_
  split
  · exact .bind (.throw _) fun _ => .pure _
  · exact .pure _

lemma keeps_store (n : NodeId) (index : Nat) (v : FieldValue) :
    Keeps Unmarshaller.limit (Unmarshalling.store n index v) := by
  refine .get_bind fun u => ?_
  cases u.heap.get? n with
  | none => rfl
  | some i => cases hi : i.setAt u.heap index v <;> simp only [hi] <;> rfl

lemma keeps_start : Keeps Unmarshaller.limit Unmarshalling.start := by
  refine .bind (keeps_stream _) fun _ => .bind keeps_position fun origin =>
    .bind (keeps_stream _) fun tag => ?_
  split
  · exact .pure _
  split
  · refine .bind keeps_indirection fun target => .get_bind fun u => ?_
    cases u.instances.lookup target <;> rfl
  split
  · exact .pure _
  · exact .throw _

lemma keeps_head (tag : UInt32) : Keeps Unmarshaller.limit (Unmarshalling.head tag) := by
  unfold Unmarshalling.head
  split
  · exact .bind keeps_typeId fun _ => keeps_typeId
  · exact keeps_typeId

lemma keeps_create (id : String) : Keeps Unmarshaller.limit (Unmarshalling.create id) := by
  refine .get_bind fun u => ?_
  cases u.registry.create id <;> rfl

lemma keeps_made (origin : Nat) (tag : UInt32) :
    Keeps Unmarshaller.limit (Unmarshalling.fresh origin tag) :=
  .bind (keeps_head tag) fun id => .bind (keeps_create id) fun _ =>
    .bind (.modify fun _ => rfl) fun _ => .bind .get fun _ => .pure _

section Write

variable {write : Option NodeId → Counting Marshaller Unit}
variable {write' : Option NodeId → Marshalling Unit}

mutual

lemma counts_putField (hw : ∀ n, Counts Marshaller.limit d depth (write n) (write' n))
    (v : FieldValue) :
    Counts Marshaller.limit d depth (putField write v) (Marshalling.field write' v) := by
  cases v with
  | scalar s =>
    rw [putField, Marshalling.field]
    exact Keeps.counts (.modify fun _ => rfl)
  | string text =>
    rw [putField, Marshalling.field]
    exact Keeps.counts (.modify fun _ => rfl)
  | value n =>
    rw [putField, Marshalling.field]
    exact hw n
  | sequence items =>
    rw [putField, Marshalling.field]
    exact .bind (Keeps.counts (.modify fun _ => rfl)) fun _ => counts_putFields hw items

lemma counts_putFields (hw : ∀ n, Counts Marshaller.limit d depth (write n) (write' n))
    (vs : List FieldValue) :
    Counts Marshaller.limit d depth (putFields write vs) (Marshalling.fields write' vs) := by
  cases vs with
  | nil =>
    rw [putFields, Marshalling.fields]
    exact .pure ()
  | cons v vs =>
    rw [putFields, Marshalling.fields]
    exact .bind (counts_putField hw v) fun _ => counts_putFields hw vs

end

end Write

lemma counts_writeValue (h : Heap) {calls : Nat} (hc : d - depth < calls) (n : Option NodeId) :
    Counts Marshaller.limit d depth (writeValue h calls n)
      (Marshalling.valueAt h (d - depth) n) := by
  induction calls generalizing depth n with
  | zero => exact absurd hc (Nat.not_lt_zero _)
  | succ calls ih =>
    by_cases hd : depth < d
    · obtain ⟨levels, hl⟩ : ∃ levels, d - depth = levels + 1 := ⟨d - depth - 1, by omega⟩
      have hnested : d - (depth + 1) = levels := by omega
      rw [hl]
      refine .bind (keeps_known n).counts fun known => ?_
      cases known with
      | true => exact .pure ()
      | false =>
        refine .check_below hd ?_
        cases n with
        | none => exact .pure ()
        | some n =>
          refine .bind (keeps_fresh h n).counts fun fields => .nested ?_
          exact counts_putFields (fun k => hnested ▸ ih (by omega) k) fields
    · rw [Nat.sub_eq_zero_of_le (Nat.not_lt.1 hd), Marshalling.valueAt]
      refine .bind (keeps_known n).counts fun known => ?_
      cases known with
      | true => exact .pure ()
      | false => exact .check_at (Nat.not_lt.1 hd) _

section Read

variable {read : Counting Unmarshaller (Option NodeId)}
variable {read' : Unmarshalling (Option NodeId)}

lemma counts_many {p : Counting Unmarshaller α} {r : Unmarshalling α}
    (hp : Counts Unmarshaller.limit d depth p r) (count : Nat) :
    Counts Unmarshaller.limit d depth (many p count) (Unmarshalling.many r count) := by
  induction count with
  | zero => exact .pure []
  | succ count ih => exact .bind hp fun _ => .bind ih fun _ => .pure _

lemma counts_getField (hr : Counts Unmarshaller.limit d depth read read') (kind : FieldKind) :
    Counts Unmarshaller.limit d depth (getField read kind) (Unmarshalling.field read' kind) := by
  induction kind with
  | scalar kind => exact .bind (keeps_stream _).counts fun _ => .pure _
  | string => exact .bind (keeps_stream _).counts fun _ => .pure _
  | value declared =>
    exact .bind hr fun n => .bind (keeps_assignable declared n).counts fun _ => .pure _
  | sequence element ih =>
    exact .bind keeps_sequenceLength.counts fun count => .bind (counts_many ih count) fun _ => .pure _

lemma counts_getFields (hr : Counts Unmarshaller.limit d depth read read') (n : NodeId)
    (index : Nat) (fs : List Field) :
    Counts Unmarshaller.limit d depth (getFields read n index fs)
      (Unmarshalling.fill read' n index fs) := by
  induction fs generalizing index with
  | nil => exact .pure ()
  | cons f fs ih =>
    exact .bind (counts_getField hr f.kind) fun v =>
      .bind (keeps_store n index v).counts fun _ => ih (index + 1)

lemma counts_readValue {calls : Nat} (hc : d - depth < calls) :
    Counts Unmarshaller.limit d depth (readValue calls) (Unmarshalling.valueAt (d - depth)) := by
  induction calls generalizing depth with
  | zero => exact absurd hc (Nat.not_lt_zero _)
  | succ calls ih =>
    by_cases hd : depth < d
    · obtain ⟨levels, hl⟩ : ∃ levels, d - depth = levels + 1 := ⟨d - depth - 1, by omega⟩
      have hnested : d - (depth + 1) = levels := by omega
      rw [hl, readValue, Unmarshalling.valueAt]
      refine .bind keeps_start.counts fun start => ?_
      cases start with
      | null => exact .pure none
      | shared n => exact .pure (some n)
      | fresh origin tag =>
        refine .check_below hd (.bind (keeps_made origin tag).counts fun made => ?_)
        refine .bind (.nested ?_) fun _ => .pure _
        exact counts_getFields (hnested ▸ ih (by omega)) made.1 0 made.2
    · rw [Nat.sub_eq_zero_of_le (Nat.not_lt.1 hd), readValue, Unmarshalling.valueAt]
      refine .bind keeps_start.counts fun start => ?_
      cases start with
      | null => exact .pure none
      | shared n => exact .pure (some n)
      | fresh origin tag => exact .check_at (Nat.not_lt.1 hd) _

end Read

end Counting
end ObjectBroker
