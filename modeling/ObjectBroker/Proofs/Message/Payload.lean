import ObjectBroker.Proofs.Message.Canonical
import ObjectBroker.Proofs.Stream.Item
import ObjectBroker.Proofs.Stream.Moved
import ObjectBroker.Proofs.Value.RoundTrip

/-! Payloads. The arguments of a request and the result of a reply are written as streams of their
own, from origin zero, and go into the message at a multiple of eight. -/

namespace ObjectBroker

namespace Body

/-- Arguments in the body of `M`, short and shallow enough for a reader with `limit'` levels, and of
types that its registry makes. -/
structure Sent (h : Heap) (R : Registry) (order : ByteOrder) (limit limit' : Nat)
    (entries : List Entry) (slots : List Slot) (M : Marshaller) : Prop where
  typed : h.WellTyped
  taken : List.Forall₂ (Slot.Takes h) slots entries
  made : ∀ n i, h.Reaches (roots entries) n → h.get? n = some i → R.Makes i.type
  written : (Marshaller.new order limit).run (writeAll h entries) = (.ok (), M)
  shallow : ((Marshaller.new order limit').run (writeAll h entries)).1 = .ok ()
  short : M.octets.length < 2 ^ 31

def Returns (h g : Heap) (R : Registry) (order : ByteOrder) (limit : Nat) (home : Option Endpoint)
    (entries : List Entry) (slots : List Slot) (body : Octets) : Prop :=
  ∃ u f, { Unmarshaller.new order body R limit home with heap := g }.run (readAll slots) =
      (.ok (entries.map (Entry.carried f home)), u) ∧
    u.input.rest = [] ∧ Heap.Isomorphic f h (roots entries) u.heap ((roots entries).map f)

variable {h : Heap} {R : Registry} {order : ByteOrder} {limit limit' : Nat} {entries : List Entry}
  {slots : List Slot} {M : Marshaller}

lemma Sent.returns (hs : Sent h R order limit limit' entries slots M) (g : Heap)
    (home : Option Endpoint) : Returns h g R order limit' home entries slots M.octets := by
  have hshallow := hs.shallow
  -- The reader follows a writer that has its own limit.
  rcases hw : (Marshaller.new order limit').run (writeAll h entries) with ⟨e | _, M'⟩
  · rw [hw] at hshallow
    cases hshallow
  have hg := ends_writeAll h entries (Marshaller.new order limit')
  rw [hw] at hg
  have hshort := hs.short
  rw [← octets_eq_of_limits (writeAll_withLimit h entries) hs.written hw] at hshort ⊢
  obtain ⟨u, hu, ha⟩ := exists_advance hg hw hshort fun hM =>
    copies_readAll hM hs.typed (serves_of_reaches hg hs.made) hg.limit.le hs.taken
  exact ⟨u, _, hu, ha.rest_eq_nil, isomorphic_of_advance hg ha⟩

end Body

namespace Message

def payload? : Message → Option Octets
  | .request r => some r.body
  | .reply r => some r.body
  | _ => none

lemma body_eq_putPayload {m : Message} {payload : Octets} (h : m.payload? = some payload)
    (order : ByteOrder) :
    ∃ x, m.body order =
      (putPayload (Output.append { order, origin := Header.size } x) payload).octets := by
  let o : Output := { order, origin := Header.size }
  have hfront (o' : Output) (he : o.Extends o') (contexts : List ServiceContext) :
      ∃ x, putContexts o' contexts = o.append x :=
    he.trans (extends_putContexts o' contexts)
  cases m with
  | request r =>
    cases h
    obtain ⟨x, hx⟩ := hfront _ ((((Output.extends_putWord _ 4 _).trans
      (Output.extends_append _ _)).trans (Output.extends_putWord _ 2 _)).trans
      ((Output.extends_putOctets _ _).trans (Output.extends_putString _ _))) r.contexts
    exact ⟨x, congrArg (fun o => (putPayload o r.body).octets) hx⟩
  | reply r =>
    cases h
    obtain ⟨x, hx⟩ := hfront _ ((Output.extends_putWord _ 4 _).trans
      (Output.extends_putWord _ 4 _)) r.contexts
    exact ⟨x, congrArg (fun o => (putPayload o r.body).octets) hx⟩
  | _ => cases h

lemma payload_aligned {m : Message} {payload : Octets} (h : m.payload? = some payload)
    (hne : payload ≠ []) (order : ByteOrder) :
    ∃ front : Octets, 8 ∣ Header.size + front.length ∧ m.body order = front ++ payload := by
  obtain ⟨x, hx⟩ := body_eq_putPayload h order
  let o := Output.append { order, origin := Header.size } x
  have hd : 8 ∣ Header.size + (o.align 8).length := o.dvd_position_align 8 (by decide)
  refine ⟨(o.align 8).octets, ?_, ?_⟩
  · rwa [Output.length_octets]
  · rw [hx, putPayload, if_neg (by simpa using hne), Output.append_octets]

lemma runAll_of_body {items : List Item} {order : ByteOrder} (h : Item.FitAll order items) :
    let body := (Item.putAll items { order }).octets
    Query.runAll (Item.queries items) { order, rest := body } =
      (Item.answers { order } body.length items,
        { order, position := body.length, rest := [] }) := by
  intro body
  have hrun := (Query.recoverAll_putAll items { order } h).runAll []
  obtain ⟨x, hx, -⟩ := Query.recoverAll_putAll items { order } h
  have hposition : (Item.putAll items { order }).position = body.length := by
    simp only [body, hx, Output.position_append, Output.append_octets, List.length_append]
    rfl
  rw [List.append_nil, List.length_nil, Nat.add_zero, hposition] at hrun
  exact hrun

/-- A stream can be cut out and put in at multiples of eight: it has the same octets there and gives
the same answers. So what was written from origin zero and sent in a message is what is read from
origin zero out of the message that arrives. -/
theorem payload_spliced :
    (∀ (items : List Item) (order : ByteOrder) (a b : Nat),
      (∀ n, .align n ∈ items → n ∣ 8) → a ≡ b [MOD 8] →
      (Item.putAll items { order, origin := a }).octets =
        (Item.putAll items { order, origin := b }).octets) ∧
    (∀ (queries : List Query) (order : ByteOrder) (data : Octets) (a b : Nat),
      (∀ n, .align n ∈ queries → n ∣ 8) → a ≡ b [MOD 8] →
      Query.Parallel a b (Query.runAll queries { order, position := a, rest := data })
        (Query.runAll queries { order, position := b, rest := data })) ∧
    ∀ (m : Message) (order : ByteOrder) (sent t : Octets),
      m.payload? = some sent → (m.body order).length < 2 ^ 32 →
      ∃ m' n received, decode (m.encode order ++ t) = .ok (.complete m' order n) ∧
        m'.payload? = some received ∧
        (received ≠ [] → ∃ front : Octets, 8 ∣ Header.size + front.length ∧
          m.body order = front ++ received) ∧
        (∀ items, Item.FitAll order items → sent = (Item.putAll items { order }).octets →
          Query.runAll (Item.queries items) { order, rest := received } =
            (Item.answers { order } sent.length items,
              { order, position := sent.length, rest := [] })) ∧
        ∀ h g R limit limit' home entries slots M,
          Body.Sent h R order limit limit' entries slots M → sent = M.octets →
          Body.Returns h g R order limit' home entries slots received := by
  refine ⟨fun items order a b h hab => Item.octets_putAll_congr items h order hab,
    fun queries order data a b h hab => Query.parallel_runAll queries h order data hab,
    fun m order sent t hm hl => ?_⟩
  refine ⟨m, _, sent, decode_encode_append m order hl t, hm,
    fun hne => payload_aligned hm hne order, ?_, ?_⟩
  · rintro items hfit rfl
    exact runAll_of_body hfit
  · rintro h g R limit limit' home entries slots M hs rfl
    exact hs.returns g home

/-! The ring of two instances as the argument of a request, and mixed items at two odd origins. -/

def ringMarshaller : Marshaller :=
  ((Marshaller.new .littleEndian 2).run (Body.writeAll Body.ring Body.ringEntries)).2

def requestWith (body : Octets) : Message :=
  .request { id := 7, key := [0x6b], operation := "op", contexts := [⟨5, [1]⟩], body }

lemma payload?_requestWith (body : Octets) : (requestWith body).payload? = some body := rfl

lemma ring_sent : Body.Sent Body.ring Body.ringRegistry .littleEndian 2 3 Body.ringEntries
    Body.ringSlots ringMarshaller where
  typed := Body.ring_wellTyped
  taken := Body.ringSlots_take
  made := fun _ _ _ hi => Body.ringRegistry_makes hi
  written := Prod.ext (by decide +kernel) rfl
  shallow := by decide +kernel
  short := by decide +kernel

lemma dvd_of_mem_mixed {n : Nat} (h : .align n ∈ Query.mixed) : n ∣ 8 := by
  have hn : n = 8 := by simpa [Query.mixed] using h
  rw [hn]

lemma dvd_of_mem_queries_mixed {n : Nat} (h : .align n ∈ Item.queries Query.mixed) : n ∣ 8 := by
  have hn : n = 8 := by simpa [Query.mixed, Item.queries, Item.query] using h
  rw [hn]

theorem payload_spliced_ring :
    (Item.putAll Query.mixed { order := .bigEndian, origin := 13 }).octets =
        (Item.putAll Query.mixed { order := .bigEndian, origin := 21 }).octets ∧
      Query.Parallel 13 21
        (Query.runAll (Item.queries Query.mixed)
          { order := .bigEndian, position := 13, rest := List.replicate 40 1 })
        (Query.runAll (Item.queries Query.mixed)
          { order := .bigEndian, position := 21, rest := List.replicate 40 1 }) ∧
      ∃ m' n received,
        decode ((requestWith ringMarshaller.octets).encode .littleEndian ++ [1]) =
          .ok (.complete m' .littleEndian n) ∧
        m'.payload? = some received ∧
        Body.Returns Body.ring Body.ring Body.ringRegistry .littleEndian 3 (some ⟨"a", 1⟩)
          Body.ringEntries Body.ringSlots received := by
  obtain ⟨hput, hget, hsend⟩ := payload_spliced
  obtain ⟨m', n, received, hdecode, hpayload, -, -, hreturns⟩ :=
    hsend _ .littleEndian _ [1] (payload?_requestWith ringMarshaller.octets) (by decide +kernel)
  exact ⟨hput _ _ _ _ (fun _ => dvd_of_mem_mixed) (by decide),
    hget _ _ _ _ _ (fun _ => dvd_of_mem_queries_mixed) (by decide), m', n, received, hdecode,
    hpayload, hreturns _ _ _ _ _ _ _ _ _ ring_sent rfl⟩

end Message

end ObjectBroker
