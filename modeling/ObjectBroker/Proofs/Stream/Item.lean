import ObjectBroker.Proofs.Stream.Recovery
import ObjectBroker.Stream.Item

/-! Streams of items, encapsulations within encapsulations included, read back by the queries that
ask for them. -/

namespace ObjectBroker

namespace Item

mutual

def query : Item → Query
  | .scalar s => .scalar s.kind
  | .string _ => .string
  | .octets _ => .octets
  | .raw data => .raw data.length
  | .align n => .align n
  | .patch _ _ => .align 1
  | .encapsulation items => .encapsulation (queries items)

def queries : List Item → List Query
  | [] => []
  | item :: items => item.query :: queries items

end

mutual

/-- The answer that holds just an item. Each item of an encapsulation comes with the position that
its writer had after it and with what is left of the octets. -/
def answer (order : ByteOrder) : Item → Answer
  | .scalar s => .scalar s
  | .string text => .text text
  | .octets data => .octets data
  | .raw data => .octets data
  | .align _ => .nothing
  | .patch _ _ => .nothing
  | .encapsulation items =>
    .nested order
      (answers (.encapsulation order) (putAll items (.encapsulation order)).position items)

def answers (o : Output) (last : Nat) :
    List Item → List (Except StreamError Answer × Nat × Nat)
  | [] => []
  | item :: items =>
    (.ok (item.answer o.order), (item.put o).position, last - (item.put o).position) ::
      answers (item.put o) last items

end

mutual

def Fits (order : ByteOrder) : Item → Prop
  | .string text => (Utf8.encode text).length < 2 ^ 32 - 1
  | .octets data => data.length < 2 ^ 32 - 1
  | .encapsulation items =>
    FitAll order items ∧ (putAll items (.encapsulation order)).length < 2 ^ 32 - 1
  | .patch _ _ => False
  | _ => True

def FitAll (order : ByteOrder) : List Item → Prop
  | [] => True
  | item :: items => item.Fits order ∧ FitAll order items

end

mutual

def decideFits (order : ByteOrder) : (item : Item) → Decidable (item.Fits order)
  | .scalar _ | .raw _ | .align _ => .isTrue trivial
  | .string text => inferInstanceAs (Decidable ((Utf8.encode text).length < 2 ^ 32 - 1))
  | .octets data => inferInstanceAs (Decidable (data.length < 2 ^ 32 - 1))
  | .patch _ _ => .isFalse id
  | .encapsulation items =>
    haveI := decideFitAll order items
    inferInstanceAs (Decidable (FitAll order items ∧
      (putAll items (.encapsulation order)).length < 2 ^ 32 - 1))

def decideFitAll (order : ByteOrder) : (items : List Item) → Decidable (FitAll order items)
  | [] => .isTrue trivial
  | item :: items =>
    haveI := decideFits order item
    haveI := decideFitAll order items
    inferInstanceAs (Decidable (item.Fits order ∧ FitAll order items))

end

instance (order : ByteOrder) (items : List Item) : Decidable (FitAll order items) :=
  decideFitAll order items

end Item

namespace Query

def Recovers (q : Query) (o o' : Output) (a : Answer) : Prop :=
  ∃ octets, o' = o.append octets ∧
    ∀ rest, q.run (o.input (octets ++ rest)) = (.ok a, o'.input rest)

def RecoverAll (qs : List Query) (o o' : Output) (items : List Item) : Prop :=
  ∃ octets, o' = o.append octets ∧ ∀ rest, Query.runAll qs (o.input (octets ++ rest)) =
    (Item.answers o (o'.position + rest.length) items, o'.input rest)

lemma Recovers.ofReading {α : Type} {r : Reading StreamError α} {o o' : Output} {a : α} {q : Query}
    (f : α → Answer) (hq : ∀ i, q.run i = (f <$> r).run i) (h : r.Recovers o o' a) :
    q.Recovers o o' (f a) := by
  obtain ⟨x, hx, hr⟩ := h.map f
  exact ⟨x, hx, fun rest => (hq _).trans (hr rest)⟩

lemma Recovers.encapsulation {qs : List Query} {items : List Item} {o : Output}
    (h : RecoverAll qs (.encapsulation o.order) (Item.putAll items (.encapsulation o.order)) items)
    (hl : (Item.putAll items (.encapsulation o.order)).length < 2 ^ 32) :
    (Query.encapsulation qs).Recovers o ((Item.encapsulation items).put o)
      ((Item.encapsulation items).answer o.order) := by
  obtain ⟨x, hx, hall⟩ := h
  rw [← Output.length_octets] at hl
  obtain ⟨y, hy, hread⟩ := Reading.recovers_octets o _ hl
  refine ⟨y, hy, fun rest => ?_⟩
  have hinner := hall []
  rw [List.append_nil, List.length_nil, Nat.add_zero] at hinner
  have hopen := Input.encapsulation_append o.order x
  rw [← hx] at hopen
  rw [Query.run, hread]
  dsimp only
  rw [hopen]
  dsimp only
  rw [hinner]
  rfl

mutual

theorem recovers_put (item : Item) (o : Output) (h : item.Fits o.order) :
    item.query.Recovers o (item.put o) (item.answer o.order) := by
  cases item with
  | scalar s => exact .ofReading .scalar (fun _ => rfl) (Reading.recovers_scalar o s)
  | string text =>
    exact .ofReading .text (fun _ => rfl) (Reading.recovers_string o text (Nat.add_lt_of_lt_sub h))
  | octets data =>
    exact .ofReading .octets (fun _ => rfl) (Reading.recovers_octets o data (Nat.lt_of_lt_pred h))
  | raw data => exact .ofReading .octets (fun _ => rfl) (Reading.recovers_raw o data)
  | align n => exact .ofReading (fun _ => .nothing) (fun _ => rfl) (Reading.recovers_align o n)
  | patch offset n => exact h.elim
  | encapsulation items =>
    exact .encapsulation (recoverAll_putAll items _ h.1) (Nat.lt_of_lt_pred h.2)

theorem recoverAll_putAll (items : List Item) (o : Output) (h : Item.FitAll o.order items) :
    RecoverAll (Item.queries items) o (Item.putAll items o) items := by
  cases items with
  | nil => exact ⟨[], o.append_nil.symm, fun _ => rfl⟩
  | cons item items =>
    obtain ⟨x, hx, hfirst⟩ := recovers_put item o h.1
    have ho : (item.put o).order = o.order := by rw [hx]; rfl
    obtain ⟨y, hy, hrest⟩ := recoverAll_putAll items (item.put o) (ho ▸ h.2)
    refine ⟨x ++ y, ?_, fun rest => ?_⟩
    · rw [Item.putAll, hy, hx, Output.append_append]
    · have hleft : (Item.putAll items (item.put o)).position + rest.length -
          (item.put o).position = (y ++ rest).length := by
        rw [hy, Output.position_append, List.length_append]
        omega
      rw [List.append_assoc, Item.queries, Query.runAll, hfirst]
      dsimp only
      rw [hrest, Item.answers, Item.putAll, hleft]
      rfl

end

lemma RecoverAll.runAll {qs : List Query} {items : List Item} {order : ByteOrder} {origin : Nat}
    {written : Output} (h : RecoverAll qs { order, origin } written items) (rest : Octets) :
    Query.runAll qs { order, position := origin, rest := written.octets ++ rest } =
      (Item.answers { order, origin } (written.position + rest.length) items,
        { order, position := written.position, rest }) := by
  obtain ⟨x, rfl, hrun⟩ := h
  rw [Output.octets_start_append]
  exact hrun rest

/-- Items that were written from any origin are read back from there one by one. After each, the
reader stands where the writer stood, and in the end just what follows the items is left. -/
theorem runAll_putAll (items : List Item) (order : ByteOrder) (origin : Nat) (rest : Octets)
    (h : Item.FitAll order items) :
    let written := Item.putAll items { order, origin }
    Query.runAll (Item.queries items)
        { order, position := origin, rest := written.octets ++ rest } =
      (Item.answers { order, origin } (written.position + rest.length) items,
        { order, position := written.position, rest }) :=
  (recoverAll_putAll items { order, origin } h).runAll rest

/-! Every kind of item, with an encapsulation in another one, at an odd origin. -/

def mixed : List Item :=
  [.scalar (.boolean true), .scalar (.float64 0xbff8000000000000), .string "hé",
    .encapsulation [.scalar (.octet 1), .encapsulation [.scalar (.uint64 5), .align 16], .raw [9]],
    .octets [1, 2, 3], .align 8, .scalar (.int16 (-7)), .string ""]

theorem runAll_putAll_mixed :
    let written := Item.putAll mixed { order := .littleEndian, origin := 13 }
    written.position = 81 ∧ Query.runAll (Item.queries mixed)
        { order := .littleEndian, position := 13, rest := written.octets ++ [0xaa, 0xbb] } =
      (Item.answers { order := .littleEndian, origin := 13 } 83 mixed,
        { order := .littleEndian, position := 81, rest := [0xaa, 0xbb] }) := by
  intro written
  have hposition : written.position = 81 := by decide +kernel
  have hrun := runAll_putAll mixed .littleEndian 13 [0xaa, 0xbb] (by decide +kernel)
  dsimp only at hrun
  rw [show (Item.putAll mixed { order := .littleEndian, origin := 13 }).position = 81 from
    hposition] at hrun
  exact ⟨hposition, hrun⟩

end Query

end ObjectBroker
