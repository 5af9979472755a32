import ObjectBroker.Proofs.Stream.Recovery
import ObjectBroker.Proofs.Value.Graph
import ObjectBroker.Value.Marshal

/-! What writing a value does to a marshaller. It only adds octets and entries to the table of
instances; when it succeeds, the table holds everything that can be reached from the value, and it
fails only for values that are nested too deeply. -/

namespace ObjectBroker

namespace Marshaller

variable {α β : Type}

lemma run_bind (m : Marshaller) (w : Marshalling α) (f : α → Marshalling β) :
    m.run (w >>= f) =
      match m.run w with
      | (.ok a, m') => m'.run (f a)
      | (.error e, m') => (.error e, m') := by
  rw [show m.run (w >>= f) = _ from stateful_bind w f m]
  rcases h : m.run w with ⟨e | a, m'⟩
  · rw [show StateT.run (ExceptT.run w) m = _ from h]
  · rw [show StateT.run (ExceptT.run w) m = _ from h]
    rfl

lemma run_bind_ok {m m'' : Marshaller} {w : Marshalling α} {f : α → Marshalling β} {b : β}
    (h : m.run (w >>= f) = (.ok b, m'')) :
    ∃ a m', m.run w = (.ok a, m') ∧ m'.run (f a) = (.ok b, m'') := by
  rw [run_bind] at h
  rcases hw : m.run w with ⟨e | a, m'⟩
  · rw [hw] at h
    cases h
  · rw [hw] at h
    exact ⟨a, m', rfl, h⟩

def written (m : Marshaller) : List NodeId :=
  (m.instances.map Prod.fst).reverse

lemma mem_written {m : Marshaller} {n : NodeId} : n ∈ m.written ↔ ∃ p ∈ m.instances, p.1 = n := by
  simp [written]

lemma mem_of_lookup {α β : Type} [BEq α] [LawfulBEq α] {l : List (α × β)} {a : α} {b : β}
    (h : l.lookup a = some b) : (a, b) ∈ l := by
  obtain ⟨l₁, l₂, rfl, -⟩ := List.lookup_eq_some_iff.mp h
  exact List.mem_append_right l₁ List.mem_cons_self

lemma mem_written_of_lookup {m : Marshaller} {n : NodeId} {target : Nat}
    (h : m.instances.lookup n = some target) : n ∈ m.written :=
  mem_written.mpr ⟨(n, target), mem_of_lookup h, rfl⟩

structure Extends (m m' : Marshaller) : Prop where
  output : m.output.Extends m'.output
  instances : m.instances <:+ m'.instances
  limit : m'.limit = m.limit

namespace Extends

lemma refl (m : Marshaller) : m.Extends m := ⟨.refl _, List.suffix_rfl, rfl⟩

lemma trans {m m' m'' : Marshaller} (h : m.Extends m') (h' : m'.Extends m'') : m.Extends m'' :=
  ⟨h.output.trans h'.output, h.instances.trans h'.instances, h'.limit.trans h.limit⟩

lemma mem_written {m m' : Marshaller} (h : m.Extends m') {n : NodeId} (hn : n ∈ m.written) :
    n ∈ m'.written := by
  obtain ⟨p, hp, rfl⟩ := Marshaller.mem_written.mp hn
  exact Marshaller.mem_written.mpr ⟨p, h.instances.subset hp, rfl⟩

end Extends

lemma extends_put (m : Marshaller) {f : Output → Output} (h : m.output.Extends (f m.output)) :
    m.Extends (m.put f) :=
  ⟨h, List.suffix_rfl, rfl⟩

lemma extends_putIndirection (m : Marshaller) (target : Nat) :
    m.Extends (m.putIndirection target) :=
  ⟨(Output.extends_putWord _ 4 _).trans (Output.extends_putWord _ 4 _), List.suffix_rfl, rfl⟩

lemma extends_putTypeId (m : Marshaller) (id : String) : m.Extends (m.putTypeId id) := by
  unfold putTypeId
  split
  · exact m.extends_putIndirection _
  · exact ⟨(Output.extends_align _ 4).trans (Output.extends_putString _ id), List.suffix_rfl, rfl⟩

def putTag (m : Marshaller) (n : NodeId) : Marshaller :=
  { m with
    output := (m.output.align 4).putUInt32 ValueTag.single
    instances := (n, (m.output.align 4).position) :: m.instances }

lemma putTag_output (m : Marshaller) (n : NodeId) :
    (m.putTag n).output = m.output.putUInt32 ValueTag.single :=
  Output.putWord_align _ 4 _

lemma putHead_eq (m : Marshaller) (n : NodeId) (id : String) :
    m.putHead n id = (m.putTag n).putTypeId id := rfl

lemma putTypeId_instances (m : Marshaller) (id : String) :
    (m.putTypeId id).instances = m.instances := by
  unfold putTypeId
  split <;> rfl

lemma extends_putTag (m : Marshaller) (n : NodeId) : m.Extends (m.putTag n) :=
  ⟨(Output.extends_align _ 4).trans (Output.extends_putWord _ 4 _), List.suffix_cons _ _, rfl⟩

lemma extends_putHead (m : Marshaller) (n : NodeId) (id : String) : m.Extends (m.putHead n id) :=
  (m.extends_putTag n).trans (extends_putTypeId _ id)

lemma mem_written_putHead {m : Marshaller} {n k : NodeId} {id : String} :
    k ∈ (m.putHead n id).written ↔ k = n ∨ k ∈ m.written := by
  rw [mem_written, putHead_eq, putTypeId_instances, mem_written]
  constructor
  · rintro ⟨p, hp, rfl⟩
    rcases List.mem_cons.mp hp with rfl | hp
    · exact .inl rfl
    · exact .inr ⟨p, hp, rfl⟩
  · rintro (rfl | ⟨p, hp, rfl⟩)
    · exact ⟨_, List.mem_cons_self, rfl⟩
    · exact ⟨p, List.mem_cons_of_mem _ hp, rfl⟩

structure Grows (h : Heap) (nodes : List NodeId) (m m' : Marshaller) : Prop extends
    m.Extends m' where
  covers : ∀ n ∈ nodes, n ∈ m'.written
  closed : ∀ n ∈ m'.written, n ∈ m.written ∨ h.Reaches nodes n ∧
    ∀ i, h.get? n = some i → ∀ k ∈ FieldValue.nodesAll i.fields, k ∈ m'.written

namespace Grows

lemma of_extends {h : Heap} {nodes : List NodeId} {m m' : Marshaller} (he : m.Extends m')
    (hi : m'.instances = m.instances) (hn : ∀ n ∈ nodes, n ∈ m.written) : Grows h nodes m m' where
  toExtends := he
  covers n hm := he.mem_written (hn n hm)
  closed n hm := .inl (by rwa [mem_written, hi, ← mem_written] at hm)

lemma append {h : Heap} {xs ys : List NodeId} {m m' m'' : Marshaller} (hx : Grows h xs m m')
    (hy : Grows h ys m' m'') : Grows h (xs ++ ys) m m'' where
  toExtends := hx.toExtends.trans hy.toExtends
  covers n hn := by
    rcases List.mem_append.mp hn with hn | hn
    · exact hy.mem_written (hx.covers n hn)
    · exact hy.covers n hn
  closed n hn := by
    rcases hy.closed n hn with hm | ⟨hr, hc⟩
    · rcases hx.closed n hm with hm | ⟨hr, hc⟩
      · exact .inl hm
      · refine .inr ⟨hr.mono fun k hk => .root (List.mem_append_left ys hk), ?_⟩
        exact fun i hi k hk => hy.mem_written (hc i hi k hk)
    · exact .inr ⟨hr.mono fun k hk => .root (List.mem_append_right xs hk), hc⟩

lemma fresh {h : Heap} {n : NodeId} {id : String} {m m' : Marshaller}
    (hg : Grows h (FieldValue.nodesAll ((h.get? n).elim [] (·.fields))) (m.putHead n id) m') :
    Grows h [n] m m' where
  toExtends := (m.extends_putHead n id).trans hg.toExtends
  covers k hk := by
    rw [List.mem_singleton.mp hk]
    exact hg.mem_written (mem_written_putHead.mpr (.inl rfl))
  closed k hk := by
    have hfield {i : Instance} (hi : h.get? n = some i) :
        (h.get? n).elim [] (·.fields) = i.fields := by rw [hi]; rfl
    rcases hg.closed k hk with hm | ⟨hr, hc⟩
    · rcases mem_written_putHead.mp hm with rfl | hm
      · refine .inr ⟨.root List.mem_cons_self, fun i hi c hc => hg.covers c ?_⟩
        rwa [hfield hi]
      · exact .inl hm
    · refine .inr ⟨hr.mono fun c hc => ?_, hc⟩
      cases hi : h.get? n with
      | none => simp [hi, FieldValue.nodesAll] at hc
      | some i => exact .field (.root List.mem_cons_self) hi (by rwa [hfield hi] at hc)

end Grows

def withLimit (m : Marshaller) (limit : Nat) : Marshaller :=
  { m with limit }

lemma putTypeId_withLimit (m : Marshaller) (limit : Nat) (id : String) :
    (m.withLimit limit).putTypeId id = (m.putTypeId id).withLimit limit := by
  simp only [putTypeId, withLimit]
  split <;> rfl

lemma putHead_withLimit (m : Marshaller) (limit : Nat) (n : NodeId) (id : String) :
    (m.withLimit limit).putHead n id = (m.putHead n id).withLimit limit :=
  putTypeId_withLimit (m.putTag n) limit id

end Marshaller

namespace Marshalling

open Marshaller

variable (h : Heap) (write : Option NodeId → Marshalling Unit) (m : Marshaller)

lemma run_valueAt_null (levels : Nat) :
    m.run (valueAt h levels none) = (.ok (), m.put (·.putUInt32 ValueTag.null)) := by
  cases levels <;> rfl

lemma run_known_some (n : NodeId) :
    m.run (known (some n)) = match m.instances.lookup n with
      | some target => (.ok true, m.putIndirection target)
      | none => (.ok false, m) := by
  change m.run (match m.instances.lookup n with
    | some target => do set (m.putIndirection target); pure true
    | none => pure false) = _
  cases m.instances.lookup n <;> rfl

lemma run_valueAt_shared (levels : Nat) {n : NodeId} {target : Nat}
    (hn : m.instances.lookup n = some target) :
    m.run (valueAt h levels (some n)) = (.ok (), m.putIndirection target) := by
  cases levels <;> rw [valueAt, run_bind, run_known_some, hn] <;> rfl

lemma run_valueAt_zero {n : NodeId} (hn : m.instances.lookup n = none) :
    m.run (valueAt h 0 (some n)) = (.error (.tooDeep m.limit), m) := by
  rw [valueAt, run_bind, run_known_some, hn]
  rfl

lemma run_valueAt_fresh (levels : Nat) {n : NodeId} (hn : m.instances.lookup n = none) :
    m.run (valueAt h (levels + 1) (some n)) =
      (m.putHead n (h.typeId n)).run
        (fields (valueAt h levels) ((h.get? n).elim [] (·.fields))) := by
  rw [valueAt, run_bind, run_known_some, hn]
  rfl

def Ends (h : Heap) (nodes : List NodeId) (m : Marshaller) :
    Except MarshalError Unit × Marshaller → Prop
  | (.ok _, m') => m.Grows h nodes m'
  | (.error e, _) => e = .tooDeep m.limit

variable {h write}

lemma Ends.bind {xs ys : List NodeId} {m : Marshaller} {w w' : Marshalling Unit}
    (hx : Ends h xs m (m.run w)) (hy : ∀ m', Ends h ys m' (m'.run w')) :
    Ends h (xs ++ ys) m (m.run (do w; w')) := by
  rw [run_bind]
  rcases hw : m.run w with ⟨e | a, m'⟩
  · rwa [hw] at hx
  · rw [hw] at hx
    have hm := hy m'
    dsimp only
    rcases hw' : m'.run w' with ⟨e | a, m''⟩
    · rw [hw'] at hm
      exact hm.trans (congrArg _ hx.limit)
    · rw [hw'] at hm
      exact hx.append hm

lemma ends_put (m : Marshaller) {f : Output → Output} (hf : m.output.Extends (f m.output)) :
    Ends h [] m (m.run (modify fun m => m.put f)) :=
  .of_extends (m.extends_put hf) rfl (by simp)

mutual

lemma ends_field (hw : ∀ n m, Ends h n.toList m (m.run (write n))) (v : FieldValue)
    (m : Marshaller) : Ends h v.nodes m (m.run (field write v)) := by
  cases v with
  | scalar s => exact ends_put m (Output.extends_putWord _ _ _)
  | string text => exact ends_put m (Output.extends_putString _ _)
  | value n =>
    have hn : (FieldValue.value n).nodes = n.toList := by cases n <;> rfl
    rw [hn]
    exact hw n m
  | sequence items =>
    exact (ends_put m (Output.extends_putWord _ 4 _)).bind fun m' => ends_fields hw items m'

lemma ends_fields (hw : ∀ n m, Ends h n.toList m (m.run (write n))) (vs : List FieldValue)
    (m : Marshaller) : Ends h (FieldValue.nodesAll vs) m (m.run (fields write vs)) := by
  cases vs with
  | nil => exact .of_extends (.refl m) rfl (by simp [FieldValue.nodesAll])
  | cons v vs =>
    exact (ends_field hw v m).bind fun m' => ends_fields hw vs m'

end

lemma ends_valueAt (h : Heap) (levels : Nat) (n : Option NodeId) (m : Marshaller) :
    Ends h n.toList m (m.run (valueAt h levels n)) := by
  induction levels generalizing n m with
  | zero =>
    cases n with
    | none => exact ends_put m (Output.extends_putWord _ 4 _)
    | some n =>
      cases hn : m.instances.lookup n with
      | none =>
        rw [run_valueAt_zero h m hn]
        rfl
      | some target =>
        rw [run_valueAt_shared h m 0 hn]
        exact .of_extends (m.extends_putIndirection target) rfl
          (by simpa using mem_written_of_lookup hn)
  | succ levels ih =>
    cases n with
    | none => exact ends_put m (Output.extends_putWord _ 4 _)
    | some n =>
      cases hn : m.instances.lookup n with
      | none =>
        rw [run_valueAt_fresh h m levels hn]
        -- The node is known from its head on: its own fields may lead back to it.
        have hf := ends_fields ih ((h.get? n).elim [] (·.fields)) (m.putHead n (h.typeId n))
        rcases hr : (m.putHead n (h.typeId n)).run _ with ⟨e | a, m'⟩
        · rw [hr] at hf
          exact hf.trans (congrArg _ (m.extends_putHead n _).limit)
        · rw [hr] at hf
          exact hf.fresh
      | some target =>
        rw [run_valueAt_shared h m (levels + 1) hn]
        exact .of_extends (m.extends_putIndirection target) rfl
          (by simpa using mem_written_of_lookup hn)

section

variable {write : Option NodeId → Marshalling Unit}

mutual

lemma length_field
    (hw : ∀ n (m m' : Marshaller), m.run (write n) = (.ok (), m') →
      m.output.length < m'.output.length)
    (v : FieldValue) {m m' : Marshaller} (hr : m.run (field write v) = (.ok (), m')) :
    m.output.length < m'.output.length := by
  cases v with
  | scalar s =>
    cases hr
    have hs := m.output.length_le_putWord s.kind.width s.bits
    have hk : 0 < s.kind.width := by cases s.kind <;> decide
    exact Nat.lt_of_lt_of_le (by omega) hs
  | string text =>
    cases hr
    have hs := m.output.length_le_putString text
    exact Nat.lt_of_lt_of_le (by omega) hs
  | value n => exact hw n m m' hr
  | sequence items =>
    have hi := length_fields hw items hr
    have hs := m.output.length_le_putWord 4 items.length
    have hl : (m.put (·.putWord 4 items.length)).output = m.output.putWord 4 items.length := rfl
    rw [hl] at hi
    omega

lemma length_fields
    (hw : ∀ n (m m' : Marshaller), m.run (write n) = (.ok (), m') →
      m.output.length < m'.output.length)
    (vs : List FieldValue) {m m' : Marshaller} (hr : m.run (fields write vs) = (.ok (), m')) :
    m.output.length + vs.length ≤ m'.output.length := by
  cases vs with
  | nil =>
    cases hr
    exact Nat.le_refl _
  | cons v vs =>
    obtain ⟨⟨⟩, m₁, hv, hvs⟩ := run_bind_ok hr
    have h₁ := length_field hw v hv
    have h₂ := length_fields hw vs hvs
    rw [List.length_cons]
    omega

end

end

lemma length_valueAt (h : Heap) (levels : Nat) (n : Option NodeId) {m m' : Marshaller}
    (hr : m.run (valueAt h levels n) = (.ok (), m')) : m.output.length < m'.output.length := by
  cases n with
  | none =>
    rw [run_valueAt_null] at hr
    cases hr
    exact Nat.lt_of_lt_of_le (by omega) (m.output.length_le_putWord 4 _)
  | some n =>
    cases hn : m.instances.lookup n with
    | some target =>
      rw [run_valueAt_shared h m _ hn] at hr
      cases hr
      have h₁ := m.output.length_le_putWord 4 ValueTag.indirection.toNat
      have h₂ := (m.extends_putIndirection target).output.length_le
      have h₃ : (m.output.putUInt32 ValueTag.indirection).Extends
          (m.putIndirection target).output := Output.extends_putWord _ 4 _
      exact Nat.lt_of_lt_of_le (by omega) (h₁.trans h₃.length_le)
    | none =>
      cases levels with
      | zero =>
        rw [run_valueAt_zero h m hn] at hr
        cases hr
      | succ levels =>
        rw [run_valueAt_fresh h m _ hn] at hr
        have hf := ends_fields (ends_valueAt h levels) ((h.get? n).elim [] (·.fields))
          (m.putHead n (h.typeId n))
        rw [hr] at hf
        have h₁ := (m.output.align 4).length_le_putWord 4 ValueTag.single.toNat
        have h₂ := m.output.length_le_align 4
        have h₃ := ((m.putTag n).extends_putTypeId (h.typeId n)).output.length_le
        have h₄ := hf.output.length_le
        exact Nat.lt_of_lt_of_le (by omega) (h₁.trans (h₃.trans h₄))

section

variable {write write' : Option NodeId → Marshalling Unit} {limit : Nat}

mutual

lemma field_withLimit
    (hw : ∀ n (m m' : Marshaller), m.run (write n) = (.ok (), m') →
      (m.withLimit limit).run (write' n) = (.ok (), m'.withLimit limit))
    (v : FieldValue) {m m' : Marshaller} (hr : m.run (field write v) = (.ok (), m')) :
    (m.withLimit limit).run (field write' v) = (.ok (), m'.withLimit limit) := by
  cases v with
  | scalar s => cases hr; rfl
  | string text => cases hr; rfl
  | value n => exact hw n m m' hr
  | sequence items => exact fields_withLimit hw items hr

lemma fields_withLimit
    (hw : ∀ n (m m' : Marshaller), m.run (write n) = (.ok (), m') →
      (m.withLimit limit).run (write' n) = (.ok (), m'.withLimit limit))
    (vs : List FieldValue) {m m' : Marshaller} (hr : m.run (fields write vs) = (.ok (), m')) :
    (m.withLimit limit).run (fields write' vs) = (.ok (), m'.withLimit limit) := by
  cases vs with
  | nil => cases hr; rfl
  | cons v vs =>
    obtain ⟨⟨⟩, m₁, hv, hvs⟩ := run_bind_ok hr
    rw [fields, run_bind, field_withLimit hw v hv]
    exact fields_withLimit hw vs hvs

end

end

lemma valueAt_withLimit (h : Heap) (limit : Nat) {levels levels' : Nat} (hl : levels ≤ levels')
    (n : Option NodeId) {m m' : Marshaller} (hr : m.run (valueAt h levels n) = (.ok (), m')) :
    (m.withLimit limit).run (valueAt h levels' n) = (.ok (), m'.withLimit limit) := by
  -- The limit shows only in an error, and one that came through had levels enough.
  induction levels generalizing levels' n m m' with
  | zero =>
    cases n with
    | none =>
      rw [run_valueAt_null] at hr ⊢
      cases hr
      rfl
    | some n =>
      cases hn : m.instances.lookup n with
      | none =>
        rw [run_valueAt_zero h m hn] at hr
        cases hr
      | some target =>
        rw [run_valueAt_shared h m _ hn] at hr
        rw [run_valueAt_shared h (m.withLimit limit) _ hn]
        cases hr
        rfl
  | succ levels ih =>
    obtain ⟨levels', rfl⟩ : ∃ k, levels' = k + 1 := ⟨levels' - 1, by omega⟩
    cases n with
    | none =>
      rw [run_valueAt_null] at hr ⊢
      cases hr
      rfl
    | some n =>
      cases hn : m.instances.lookup n with
      | none =>
        rw [run_valueAt_fresh h m _ hn] at hr
        rw [run_valueAt_fresh h (m.withLimit limit) _ hn]
        rw [putHead_withLimit]
        exact fields_withLimit (fun n m m' => ih (by omega) n) _ hr
      | some target =>
        rw [run_valueAt_shared h m _ hn] at hr
        rw [run_valueAt_shared h (m.withLimit limit) _ hn]
        cases hr
        rfl

end Marshalling

end ObjectBroker
