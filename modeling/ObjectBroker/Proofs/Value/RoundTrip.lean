import ObjectBroker.Proofs.Reference
import ObjectBroker.Proofs.Value.Copy

/-! Bodies. Whatever is written into one body, values with their sharing and their cycles
included, is read back by the matching reads, and nothing is left over. -/

namespace ObjectBroker.Body

inductive Entry where
  | value (node : Option NodeId)
  | object (reference : Option Reference)
  | scalar (s : Scalar)
  | string (text : String)
  | octets (data : Octets)
  | raw (data : Octets)
  | align (n : Nat)

/-- How a reader asks for an entry. -/
inductive Slot where
  | value (declared : Option String)
  | object
  | scalar (kind : ScalarKind)
  | string
  | octets
  | raw (count : Nat)
  | align (n : Nat)

namespace Entry

def write (h : Heap) : Entry → Marshalling Unit
  | .value n => Marshalling.value h n
  | .object r => modify fun m => m.putObject r
  | .scalar s => modify fun m => m.put (·.putScalar s)
  | .string text => modify fun m => m.put (·.putString text)
  | .octets data => modify fun m => m.put (·.putOctets data)
  | .raw data => modify fun m => m.put (·.append data)
  | .align n => modify fun m => m.put (·.align n)

def nodes : Entry → List NodeId
  | .value n => n.toList
  | _ => []

/-- What becomes of an entry: handles go where `f` says, and a reference is local if it leads to
the reader's own endpoint. -/
def carried (f : NodeId → NodeId) (home : Option Endpoint) : Entry → Entry
  | .value n => .value (n.map f)
  | .object r => .object (r.map fun r => { r with isLocal := decide (home = some r.endpoint) })
  | e => e

end Entry

def Slot.read : Slot → Unmarshalling Entry
  | .value none => do return .value (← Unmarshalling.value)
  | .value (some declared) => do return .value (← Unmarshalling.valueAs declared)
  | .object => do return .object (← Unmarshalling.object)
  | .scalar kind => do return .scalar (← Unmarshalling.stream (Reading.scalar kind))
  | .string => do return .string (← Unmarshalling.stream Reading.string)
  | .octets => do return .octets (← Unmarshalling.stream Reading.octets)
  | .raw count => do return .raw (← Unmarshalling.stream (Reading.raw count))
  | .align n => do
    Unmarshalling.stream (Reading.align n)
    return .align n

/-- Slots that ask for just what an entry is. A value stands for an instance of the heap, of the
declared type if there is one. -/
inductive Slot.Takes (h : Heap) : Slot → Entry → Prop
  | value {n : Option NodeId} : (∀ k ∈ n, (h.get? k).isSome) → Takes h (.value none) (.value n)
  | valueAs {n : Option NodeId} {id : String} : (∀ k ∈ n, h.isA k id = true) →
      Takes h (.value (some id)) (.value n)
  | object (reference : Option Reference) : Takes h .object (.object reference)
  | scalar (s : Scalar) : Takes h (.scalar s.kind) (.scalar s)
  | string (text : String) : Takes h .string (.string text)
  | octets (data : Octets) : Takes h .octets (.octets data)
  | raw (data : Octets) : Takes h (.raw data.length) (.raw data)
  | align (n : Nat) : Takes h (.align n) (.align n)

def writeAll (h : Heap) : List Entry → Marshalling Unit
  | [] => pure ()
  | e :: es => do
    e.write h
    writeAll h es

def readAll : List Slot → Unmarshalling (List Entry)
  | [] => pure []
  | s :: ss => do
    let e ← s.read
    let es ← readAll ss
    pure (e :: es)

def roots (entries : List Entry) : List NodeId :=
  entries.flatMap Entry.nodes

lemma extends_putOption (o : Output) (r : Option Reference) :
    o.Extends (Reference.putOption o r) := by
  cases r with
  | none => exact (Output.extends_putString _ _).trans (Output.extends_putWord _ 4 _)
  | some r => exact Reference.extends_put o r

lemma run_value (h : Heap) (n : Option NodeId) (m : Marshaller) :
    m.run (Marshalling.value h n) = m.run (Marshalling.valueAt h m.limit n) := rfl

lemma ends_write (h : Heap) (e : Entry) (m : Marshaller) :
    Marshalling.Ends h e.nodes m (m.run (e.write h)) := by
  cases e with
  | value n => exact Marshalling.ends_valueAt h m.limit n m
  | object r => exact Marshalling.ends_put m (extends_putOption _ r)
  | scalar s => exact Marshalling.ends_put m (Output.extends_putWord _ _ _)
  | string text => exact Marshalling.ends_put m (Output.extends_putString _ _)
  | octets data => exact Marshalling.ends_put m (Output.extends_putOctets _ _)
  | raw data => exact Marshalling.ends_put m (Output.extends_append _ _)
  | align n => exact Marshalling.ends_put m (Output.extends_align _ n)

lemma ends_writeAll (h : Heap) (es : List Entry) (m : Marshaller) :
    Marshalling.Ends h (roots es) m (m.run (writeAll h es)) := by
  induction es generalizing m with
  | nil => exact .of_extends (.refl m) rfl (by simp [roots])
  | cons e es ih => exact (ends_write h e m).bind ih

lemma write_withLimit (h : Heap) (e : Entry) {limit : Nat} {m m' : Marshaller}
    (hl : m.limit ≤ limit) (hr : m.run (e.write h) = (.ok (), m')) :
    (m.withLimit limit).run (e.write h) = (.ok (), m'.withLimit limit) := by
  cases e with
  | value n => exact Marshalling.valueAt_withLimit h limit hl n hr
  | _ => cases hr; rfl

lemma writeAll_withLimit (h : Heap) (es : List Entry) {limit : Nat} {m m' : Marshaller}
    (hl : m.limit ≤ limit) (hr : m.run (writeAll h es) = (.ok (), m')) :
    (m.withLimit limit).run (writeAll h es) = (.ok (), m'.withLimit limit) := by
  induction es generalizing m with
  | nil => cases hr; rfl
  | cons e es ih =>
    obtain ⟨⟨⟩, m₁, he, hes⟩ := Marshaller.run_bind_ok hr
    have hg := ends_write h e m
    rw [he] at hg
    rw [writeAll, Marshaller.run_bind, write_withLimit h e hl he]
    exact ih (hg.limit.trans_le hl) hes

section

variable {h : Heap} {M : Marshaller} {U : Unmarshaller} {fault : MarshalError → Prop}

lemma copies_value (hM : M.Bounded) (hh : h.WellTyped)
    (hR : ∀ n ∈ M.written, ∀ i, h.get? n = some i → U.registry.Serves fault i.type)
    (hl : M.limit ≤ U.limit) {n : Option NodeId} (hn : ∀ k ∈ n, (h.get? k).isSome) :
    Copies h M U fault (Marshalling.value h n) Unmarshalling.value (n.map (U.copyOf M)) := by
  intro m m' u hs hr hm
  have hv : u.run Unmarshalling.value = u.run (Unmarshalling.valueAt u.limit) := rfl
  rw [run_value, ← hs.begun.limit] at hr
  rw [hv, hs.limit]
  exact (copies_valueAt hM hh hR hl).copies n hn hs hr hm

lemma copies_valueAs (hM : M.Bounded) (hh : h.WellTyped)
    (hR : ∀ n ∈ M.written, ∀ i, h.get? n = some i → U.registry.Serves fault i.type)
    (hl : M.limit ≤ U.limit) {n : Option NodeId} {declared : String}
    (hd : ∀ k ∈ n, h.isA k declared = true) :
    Copies h M U fault (Marshalling.value h n) (Unmarshalling.valueAs declared)
      (n.map (U.copyOf M)) := by
  have hf : h.fits (.value declared) (.value n) = true := by
    cases n with
    | none => rfl
    | some n =>
      rw [Heap.fits]
      exact hd n rfl
  have hn : ∀ k ∈ n, (h.get? k).isSome := by
    rintro k rfl
    exact Heap.isSome_of_fits hf
  refine (copies_value hM hh hR hl hn).andThen fun {m m' u} hr hs => ?_
  have hg := Marshalling.ends_valueAt h m.limit n m
  rw [← run_value, hr] at hg
  exact run_assignable hs hf fun k hk => hg.covers k (by simpa using hk)

lemma copies_object (hM : M.Bounded) (reference : Option Reference) :
    Copies h M U fault (modify fun m => m.putObject reference) Unmarshalling.object
      (reference.map fun r => { r with isLocal := decide (U.home = some r.endpoint) }) := by
  have hread : Copies h M U fault (modify fun m => m.putObject reference)
      (Unmarshalling.ofReading Reference.read)
      (reference.map fun r => { r with isLocal := false }) := by
    refine copies_ofReading hM fun o ho => ?_
    cases reference with
    | none => exact Reference.recovers_read_putNil o
    | some r => exact Reference.recovers_read_put o r (ho.trans (by decide))
  intro m m' u hs hr hm
  have hobject : u.run Unmarshalling.object = u.run (do
      let r ← Unmarshalling.ofReading Reference.read
      return r.map fun r =>
        if u.home = some r.endpoint then { r with isLocal := true } else r) := rfl
  rw [hobject, hs.home]
  refine hread.andThen (fun _ _ => ?_) hs hr hm
  cases reference with
  | none => rfl
  | some r =>
    by_cases hhome : U.home = some r.endpoint
    · simp [hhome]
      rfl
    · simp [hhome]
      rfl

lemma copies_read (hM : M.Bounded) (hh : h.WellTyped)
    (hR : ∀ n ∈ M.written, ∀ i, h.get? n = some i → U.registry.Serves fault i.type)
    (hl : M.limit ≤ U.limit) {s : Slot} {e : Entry} (ht : s.Takes h e) :
    Copies h M U fault (e.write h) s.read (e.carried (U.copyOf M) U.home) := by
  cases ht with
  | value hn => exact (copies_value hM hh hR hl hn).andThen fun _ _ => rfl
  | valueAs hd => exact (copies_valueAs hM hh hR hl hd).andThen fun _ _ => rfl
  | object reference => exact (copies_object hM reference).andThen fun _ _ => rfl
  | scalar s =>
    exact (copies_put hM fun o _ => Reading.recovers_scalar o s).andThen fun _ _ => rfl
  | string text =>
    refine (copies_put hM fun o ho => ?_).andThen fun _ _ => rfl
    have hlen := o.length_le_putString text
    exact Reading.recovers_string o text (by omega)
  | octets data =>
    refine (copies_put hM fun o ho => ?_).andThen fun _ _ => rfl
    have hlen := o.length_le_putOctets data
    exact Reading.recovers_octets o data (by omega)
  | raw data =>
    exact (copies_put hM fun o _ => Reading.recovers_raw o data).andThen fun _ _ => rfl
  | align n =>
    exact (copies_put hM fun o _ => Reading.recovers_align o n).andThen fun _ _ => rfl

lemma copies_readAll (hM : M.Bounded) (hh : h.WellTyped)
    (hR : ∀ n ∈ M.written, ∀ i, h.get? n = some i → U.registry.Serves fault i.type)
    (hl : M.limit ≤ U.limit) {slots : List Slot} {entries : List Entry}
    (ht : List.Forall₂ (Slot.Takes h) slots entries) :
    Copies h M U fault (writeAll h entries) (readAll slots)
      (entries.map (Entry.carried (U.copyOf M) U.home)) := by
  induction ht with
  | nil => exact .pure _
  | @cons s e ss es ht _ ih =>
    refine (copies_read hM hh hR hl ht).bind (ih.andThen fun _ _ => rfl) fun {m m'} hr => ?_
    have hg := ends_writeAll h es m
    rw [hr] at hg
    exact hg.toExtends

end

lemma octets_eq_of_limits {w : Marshalling Unit} {order : ByteOrder} {limit limit' : Nat}
    {M M' : Marshaller} (hmore : ∀ {limit : Nat} {m m' : Marshaller}, m.limit ≤ limit →
      m.run w = (.ok (), m') → (m.withLimit limit).run w = (.ok (), m'.withLimit limit))
    (hw : (Marshaller.new order limit).run w = (.ok (), M))
    (hw' : (Marshaller.new order limit').run w = (.ok (), M')) : M'.octets = M.octets := by
  let most := max limit limit'
  have hM : (Marshaller.new order most).run w = (.ok (), M.withLimit most) :=
    hmore (m := Marshaller.new order limit) (le_max_left _ _) hw
  have hM' : (Marshaller.new order most).run w = (.ok (), M'.withLimit most) :=
    hmore (m := Marshaller.new order limit') (le_max_right _ _) hw'
  rw [hM] at hM'
  exact congrArg (·.2.octets) hM'.symm

lemma inStep_new {h g : Heap} {R : Registry} {order : ByteOrder} {limit limit' : Nat}
    {home : Option Endpoint} {M : Marshaller} (hM : (Marshaller.new order limit).Extends M) :
    let U := { Unmarshaller.new order M.octets R limit' home with heap := g }
    InStep h M U (Marshaller.new order limit) U where
  begun := hM
  input := rfl
  registry := rfl
  limit := rfl
  home := rfl
  instances := rfl
  typeIds := rfl
  size := rfl
  types := nofun
  nodes := ⟨.nil, nofun⟩
  ids := ⟨.nil, nofun⟩

lemma bounded_of_extends_new {order : ByteOrder} {limit : Nat} {M : Marshaller}
    (hM : (Marshaller.new order limit).Extends M) (hl : M.octets.length < 2 ^ 31) : M.Bounded := by
  refine ⟨?_, ?_⟩
  · obtain ⟨x, hx⟩ := hM.output
    rw [hx]
    rfl
  · rw [← M.output.length_octets]
    exact hl

lemma copyOf_inj {M : Marshaller} {U : Unmarshaller} {n k : NodeId} (hn : n ∈ M.written)
    (he : U.copyOf M n = U.copyOf M k) : n = k :=
  (List.idxOf_inj hn).mp (Nat.add_left_cancel he)

lemma closed_of_grows_new {h : Heap} {order : ByteOrder} {limit : Nat} {nodes : List NodeId}
    {M : Marshaller} (hg : (Marshaller.new order limit).Grows h nodes M) {n : NodeId}
    (hn : n ∈ M.written) {i : Instance} (hi : h.get? n = some i) :
    ∀ k ∈ FieldValue.nodesAll i.fields, k ∈ M.written := by
  rcases hg.closed n hn with hn | ⟨-, hc⟩
  · cases hn
  · exact hc i hi

lemma isomorphic_of_covered {h : Heap} {order : ByteOrder} {limit : Nat} {nodes roots : List NodeId}
    {M : Marshaller} {U u : Unmarshaller} (hg : (Marshaller.new order limit).Grows h nodes M)
    (ha : Advance h M U none (Marshaller.new order limit) U M u) (hr : ∀ n ∈ roots, n ∈ nodes) :
    Heap.Isomorphic (U.copyOf M) h roots u.heap (roots.map (U.copyOf M)) := by
  refine Heap.isomorphic_of_closed (fun n hn => hg.covers n (hr n hn))
    (fun n hn i hi => closed_of_grows_new hg hn hi) (fun n hn k _ => copyOf_inj hn) fun n hn => ?_
  rcases ha.copied n hn with hn | hc
  · cases hn
  · exact hc

lemma isomorphic_of_advance {h : Heap} {order : ByteOrder} {limit : Nat} {nodes : List NodeId}
    {M : Marshaller} {U u : Unmarshaller} (hg : (Marshaller.new order limit).Grows h nodes M)
    (ha : Advance h M U none (Marshaller.new order limit) U M u) :
    Heap.Isomorphic (U.copyOf M) h nodes u.heap (nodes.map (U.copyOf M)) :=
  isomorphic_of_covered hg ha fun _ hn => hn

lemma serves_of_reaches {h : Heap} {R : Registry} {order : ByteOrder} {limit : Nat}
    {nodes : List NodeId} {M : Marshaller} (hg : (Marshaller.new order limit).Grows h nodes M)
    (hR : ∀ n i, h.Reaches nodes n → h.get? n = some i → R.Makes i.type) :
    ∀ n ∈ M.written, ∀ i, h.get? n = some i → R.Serves (fun _ => False) i.type := by
  intro n hn i hi
  rcases hg.closed n hn with hn | ⟨hr, -⟩
  · cases hn
  · exact .inl (hR n i hr hi)

/-- A reader at the start of a body follows the writer of the whole of it to its end. -/
lemma exists_advance {α : Type} {h g : Heap} {R : Registry} {order : ByteOrder} {limit limit' : Nat}
    {home : Option Endpoint} {nodes : List NodeId} {M : Marshaller} {w : Marshalling Unit}
    {r : Unmarshalling α} {a : α} (hg : (Marshaller.new order limit).Grows h nodes M)
    (hw : (Marshaller.new order limit).run w = (.ok (), M)) (hl : M.octets.length < 2 ^ 31)
    (hc : M.Bounded → Copies h M { Unmarshaller.new order M.octets R limit' home with heap := g }
      (fun _ => False) w r a) :
    ∃ u, { Unmarshaller.new order M.octets R limit' home with heap := g }.run r = (.ok a, u) ∧
      Advance h M { Unmarshaller.new order M.octets R limit' home with heap := g } none
        (Marshaller.new order limit)
        { Unmarshaller.new order M.octets R limit' home with heap := g } M u := by
  rcases hc (bounded_of_extends_new hg.toExtends hl) (inStep_new hg.toExtends) hw (.refl M) with
    hu | ⟨_, _, _, hf⟩
  · exact hu
  · exact hf.elim

/-- Whatever is written into one body is read back by the matching reads. The reader may have
other instances in its heap, `g`, and they stay as they are; what it adds is a copy of all that
can be reached from the values that were written. -/
theorem readAll_writeAll {h g : Heap} {R : Registry} {order : ByteOrder} {limit limit' : Nat}
    {home : Option Endpoint} {entries : List Entry} {slots : List Slot} (hh : h.WellTyped)
    (ht : List.Forall₂ (Slot.Takes h) slots entries)
    (hR : ∀ n i, h.Reaches (roots entries) n → h.get? n = some i → R.Makes i.type)
    (hd : ((Marshaller.new order (min limit limit')).run (writeAll h entries)).1 ≠
      .error (.tooDeep (min limit limit')))
    (hl : ((Marshaller.new order limit).run (writeAll h entries)).2.octets.length < 2 ^ 31) :
    ∃ m u f, (Marshaller.new order limit).run (writeAll h entries) = (.ok (), m) ∧
      { Unmarshaller.new order m.octets R limit' home with heap := g }.run (readAll slots) =
        (.ok (entries.map (Entry.carried f home)), u) ∧
      u.input.rest = [] ∧
      Heap.Isomorphic f h (roots entries) u.heap ((roots entries).map f) ∧
      ∀ j < g.size, u.heap.get? j = g.get? j := by
  rcases hw : (Marshaller.new order (min limit limit')).run (writeAll h entries) with ⟨e | ⟨⟩, M⟩
  · have he := ends_writeAll h entries (Marshaller.new order (min limit limit'))
    rw [hw] at he hd
    exact absurd (congrArg Except.error he) hd
  have hg := ends_writeAll h entries (Marshaller.new order (min limit limit'))
  rw [hw] at hg
  -- The writer's own limit gives the same body as the smaller of the two.
  have hw' : (Marshaller.new order limit).run (writeAll h entries) = (.ok (), M.withLimit limit) :=
    writeAll_withLimit h entries (Nat.min_le_left limit limit') hw
  rw [hw'] at hl
  have hlimit := hg.limit.trans_le (Nat.min_le_right limit limit')
  obtain ⟨u, hu, ha⟩ := exists_advance hg hw hl fun hM =>
    copies_readAll hM hh (serves_of_reaches hg hR) hlimit ht
  exact ⟨_, u, _, hw', hu, ha.rest_eq_nil, isomorphic_of_advance hg ha,
    fun j hj => ha.frame j hj nofun⟩

section

/-! Two instances that hold each other, one of a derived type. -/

def nodeType : ValueType where
  id := "IDL:Node:1.0"
  ancestors := []
  fields := [⟨"next", .value "IDL:Node:1.0", "IDL:Node:1.0"⟩,
    ⟨"all", .sequence (.value "IDL:Node:1.0"), "IDL:Node:1.0"⟩]

def leafType : ValueType where
  id := "IDL:Leaf:1.0"
  ancestors := ["IDL:Node:1.0"]
  fields := nodeType.fields ++ [⟨"name", .string, "IDL:Leaf:1.0"⟩]

def ring : Heap where
  nodes := #[
    ⟨nodeType, [.value (some 1), .sequence [.value (some 1), .value none, .value (some 0)]]⟩,
    ⟨leafType, [.value (some 0), .sequence [], .string "é"]⟩]

def ringEntries : List Entry :=
  [.scalar (.octet 7), .value (some 1),
    .object (some ⟨"IDL:Ring:1.0", ⟨"a", 1⟩, [3], 2, true⟩),
    .value (some 0), .value none]

def ringSlots : List Slot :=
  [.scalar .octet, .value (some "IDL:Node:1.0"), .object, .value none, .value none]

def ringRegistry : Registry where
  factories := [("IDL:Leaf:1.0", .new leafType), ("IDL:Node:1.0", .new nodeType)]

lemma ring_get? {n : NodeId} {i : Instance} (hi : ring.get? n = some i) :
    i.type = nodeType ∧ i.fields = [.value (some 1),
      .sequence [.value (some 1), .value none, .value (some 0)]] ∨
    i.type = leafType ∧ i.fields = [.value (some 0), .sequence [], .string "é"] := by
  obtain ⟨hn, rfl⟩ := Array.getElem?_eq_some_iff.mp hi
  match n, hn with
  | 0, _ => exact .inl ⟨rfl, rfl⟩
  | 1, _ => exact .inr ⟨rfl, rfl⟩

lemma ring_wellTyped : ring.WellTyped := by
  intro n i hi
  rcases ring_get? hi with ⟨ht, hf⟩ | ⟨ht, hf⟩
  · rw [ht, hf]
    exact .cons (by decide) (.cons (by decide) .nil)
  · rw [ht, hf]
    exact .cons (by decide) (.cons (by decide) (.cons (by decide) .nil))

lemma ringSlots_take : List.Forall₂ (Slot.Takes ring) ringSlots ringEntries := by
  refine .cons (.scalar (.octet 7)) (.cons (.valueAs ?_) (.cons (.object _)
    (.cons (.value ?_) (.cons (.value nofun) .nil))))
  · rintro k ⟨⟩
    decide
  · rintro k ⟨⟩
    rfl

lemma ringRegistry_makes {n : NodeId} {i : Instance} (hi : ring.get? n = some i) :
    ringRegistry.Makes i.type := by
  rcases ring_get? hi with ⟨ht, -⟩ | ⟨ht, -⟩
  · rw [ht]
    exact ⟨.new nodeType, rfl, rfl, rfl⟩
  · rw [ht]
    exact ⟨.new leafType, rfl, rfl, rfl⟩

theorem readAll_writeAll_ring :
    ∃ m u f, (Marshaller.new .littleEndian 2).run (writeAll ring ringEntries) = (.ok (), m) ∧
      { Unmarshaller.new .littleEndian m.octets ringRegistry 3 (some ⟨"a", 1⟩) with
        heap := ring }.run (readAll ringSlots) =
        (.ok (ringEntries.map (Entry.carried f (some ⟨"a", 1⟩))), u) ∧
      u.input.rest = [] ∧
      Heap.Isomorphic f ring [1, 0] u.heap [f 1, f 0] ∧
      ∀ j < ring.size, u.heap.get? j = ring.get? j :=
  readAll_writeAll ring_wellTyped ringSlots_take (fun _ _ _ hi => ringRegistry_makes hi)
    (by decide +kernel) (by decide +kernel)

end

end ObjectBroker.Body
