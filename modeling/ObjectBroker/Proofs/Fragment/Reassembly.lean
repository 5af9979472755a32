import Mathlib.Data.List.Basic
import ObjectBroker.Proofs.Fragment.Split

/-! Putting fragments together again, whatever comes in between. -/

namespace ObjectBroker

namespace Reassembler

lemma get?_erase_self (r : Reassembler) (id : UInt32) : (r.erase id).get? id = none := by
  rw [get?, erase, List.lookup_eq_none_iff]
  intro p hp
  have hne := (List.mem_filter.mp hp).2
  rw [bne_iff_ne] at hne
  exact bne_iff_ne.mpr hne.symm

lemma get?_erase_ne (r : Reassembler) {id id' : UInt32} (h : id' ≠ id) :
    (r.erase id).get? id' = r.get? id' := by
  rw [get?, get?, erase]
  induction r.pending with
  | nil => rfl
  | cons p pending ih =>
    by_cases hp : p.1 = id
    · have hne : (id' == p.1) = false := by simpa [hp] using h
      rw [List.filter_cons_of_neg (by simp [hp]), ih, List.lookup_cons, hne]
    · rw [List.filter_cons_of_pos (by simp [hp]), List.lookup_cons, List.lookup_cons, ih]

lemma get?_insert_self (r : Reassembler) (id : UInt32) (a : Assembly) :
    (r.insert id a).get? id = some a :=
  List.lookup_cons_self

lemma get?_insert_ne (r : Reassembler) (a : Assembly) {id id' : UInt32} (h : id' ≠ id) :
    (r.insert id a).get? id' = r.get? id' := by
  have hne : (id' == id) = false := by simpa using h
  rw [← r.get?_erase_ne h, get?, insert, List.lookup_cons, hne]
  rfl

lemma inProgress_eq_zero {r : Reassembler} (h : ∀ id, r.get? id = none) : r.inProgress = 0 := by
  rw [inProgress, List.length_eq_zero_iff, List.eq_nil_iff_forall_not_mem]
  intro p hp
  have := List.lookup_eq_none_iff.mp (h p.1) p hp
  simp at this

def take (r : Reassembler) (frame : Octets) :
    Except WireError (Option (Header × Octets) × Reassembler) := do
  let h ← Header.decode frame
  r.push h (frame.drop Header.size)

def takeAll (r : Reassembler) :
    List Octets → Except WireError (List (Option (Header × Octets)) × Reassembler)
  | [] => .ok ([], r)
  | frame :: frames => do
    let (out, r) ← r.take frame
    let (outs, r) ← r.takeAll frames
    return (out :: outs, r)

lemma take_encode (r : Reassembler) (h : Header) (body : Octets) :
    r.take (h.encode ++ body) = r.push h body := by
  rw [take, Header.decode_encode_append]
  exact congrArg (r.push h) (Fragment.drop_encode h body)

lemma push_whole (r : Reassembler) {h : Header} (body : Octets) (hk : h.kind ≠ .fragment)
    (hm : h.more = false) : r.push h body = .ok (some (h, body), r) := by
  rw [push, if_neg hk, hm]
  rfl

lemma append_eq_ok {limit : Nat} {a : Assembly} {data : Octets}
    (h : Header.size + a.body.length + data.length ≤ limit) :
    ∃ a', a.append limit data = .ok a' ∧ a'.header = a.header ∧ a'.body = a.body ++ data :=
  ⟨{ a with buffer := a.buffer ++ data, pieces := a.pieces + 1 }, if_neg (Nat.not_lt.mpr h), rfl,
    Array.toList_appendList⟩

lemma push_first (r : Reassembler) {h : Header} {body : Octets} {id : UInt32}
    (hk : h.kind.isFragmentable = true) (hm : h.more = true)
    (hid : Fragment.leadingId h body = .ok id) (hl : Header.size + body.length ≤ r.limit)
    (hn : r.get? id = none) :
    ∃ a, a.header = h ∧ a.body = body ∧ r.push h body = .ok (none, r.insert id a) := by
  have hne : h.kind ≠ .fragment := by
    intro hf
    rw [hf] at hk
    cases hk
  obtain ⟨a, ha, hh, hb⟩ := @append_eq_ok r.limit { header := h } body hl
  refine ⟨a, hh, hb, ?_⟩
  rw [push, if_neg hne, if_pos hm, pushFirst, hk, hid]
  dsimp only [bind, Except.bind, Bool.not_true]
  rw [hn, Assembly.start, ha]
  rfl

lemma push_fragment (r : Reassembler) {h : Header} {body : Octets} {id : UInt32} {a : Assembly}
    (hk : h.kind = .fragment) (hid : Fragment.leadingId h body = .ok id) (ha : r.get? id = some a)
    (ho : a.header.order = h.order)
    (hl : Header.size + a.body.length + (body.drop 4).length ≤ r.limit) :
    ∃ a', a'.header = a.header ∧ a'.body = a.body ++ body.drop 4 ∧ r.push h body = .ok
      (if h.more then (none, r.insert id a') else (some a'.finish, r.erase id)) := by
  obtain ⟨a', ha', hh, hb⟩ := append_eq_ok hl
  refine ⟨a', hh, hb, ?_⟩
  rw [push, if_pos hk, pushFragment, hid]
  dsimp only [bind, Except.bind]
  rw [ha]
  dsimp only
  rw [if_neg (not_not_intro ho), ha']
  cases h.more <;> rfl

end Reassembler

namespace Fragment

lemma body_fragment (id : UInt32) (more : Bool) (data : Octets) (order : ByteOrder) :
    (Message.fragment id more data).body order = order.word 4 id.toNat ++ data := by
  let o : Output := { order, origin := Header.size }
  have ha : o.align 4 = o := o.align_eq_self 4 ⟨3, rfl⟩
  change ((o.putWord 4 id.toNat).append data).octets = _
  rw [Output.putWord, ha, Output.append_octets, Output.append_octets]
  rfl

lemma leadingId_fragment (id : UInt32) (more : Bool) (data : Octets) (order : ByteOrder) :
    leadingId ((Message.fragment id more data).header order)
      ((Message.fragment id more data).body order) = .ok id := by
  have hl : (order.word 4 id.toNat).length = 4 := order.length_word 4 _
  have hlt : id.toNat < 256 ^ 4 := Nat.lt_of_lt_of_eq id.toNat_lt (by decide)
  rw [leadingId_of_le (by rw [body_fragment, List.length_append, hl]; omega), body_fragment,
    Message.header_order, List.take_left' hl, ByteOrder.ofWord_word, Nat.mod_eq_of_lt hlt,
    UInt32.ofNat_toNat]

lemma continuations_ne_nil (order : ByteOrder) (id : UInt32) {rest : List Octets} (h : rest ≠ []) :
    continuations order id rest ≠ [] := by
  match rest, h with
  | [_], _ => exact List.cons_ne_nil _ _
  | _ :: _ :: _, _ => exact List.cons_ne_nil _ _

/-- How much of a frame has come: the frames that are still to come and what is kept of those that
came. -/
inductive Progress (s : Source) : List Octets → Option Assembly → Prop
  | fresh {frames : List Octets} : Cut s frames → Progress s frames none
  | begun {frames rest : List Octets} {a : Assembly} : rest ≠ [] → 8 ≤ a.body.length →
      frames = continuations s.header.order s.id rest → a.header.order = s.header.order →
      (a.header.withMore false).withBody s.body = s.header → a.body ++ rest.flatten = s.body →
      Progress s frames (some a)
  | done : Progress s [] none

lemma withBody_self (s : Source) : s.header.withBody s.body = s.header := by
  rw [Header.withBody, ← s.sized, UInt32.ofNat_toNat]

lemma Progress.step_fresh {s : Source} {frame : Octets} {frames : List Octets} {r : Reassembler}
    (hc : Cut s (frame :: frames)) (hn : r.get? s.id = none) (hl : s.frame.length ≤ r.limit) :
    ∃ r', r.take frame = .ok (if frames = [] then some (s.header, s.body) else none, r') ∧
      Progress s frames (r'.get? s.id) ∧ (∀ id ≠ s.id, r'.get? id = r.get? id) ∧
      r'.limit = r.limit := by
  rw [s.length_frame] at hl
  cases hc with
  | whole =>
    refine ⟨r, ?_, by rw [hn]; exact .done, fun _ _ => rfl, rfl⟩
    rw [Source.frame, r.take_encode, r.push_whole s.body s.kind_ne s.whole]
    rfl
  | @pieces first rest hf hr hb =>
    let h := (s.header.withMore true).withBody first
    have ho : h.order = s.header.order := s.header.order_withMore true
    have hid : leadingId h first = .ok s.id := by
      rw [leadingId_of_le (by omega), ho, Source.id, ← hb, List.take_append_of_le_length (by omega)]
    have hlen := congrArg List.length hb
    rw [List.length_append] at hlen
    obtain ⟨a, hh, ha, hpush⟩ := r.push_first (h := h) s.fragmentable
      (s.header.more_withMore true) hid (by omega) hn
    refine ⟨r.insert s.id a, ?_, ?_, fun id hne => r.get?_insert_ne a hne, rfl⟩
    · rw [r.take_encode, hpush, if_neg (continuations_ne_nil _ _ hr)]
    · rw [r.get?_insert_self]
      refine .begun hr (by rw [ha]; exact hf) rfl (by rw [hh, ho]) ?_ (by rw [ha, hb])
      rw [hh]
      change ((s.header.withMore true).withMore false).withBody s.body = s.header
      rw [Header.withMore_of_not_more s.whole, withBody_self]

lemma Progress.step_begun {s : Source} {a : Assembly} {chunk : Octets} {rest : List Octets}
    {r : Reassembler} (ha : r.get? s.id = some a) (h8 : 8 ≤ a.body.length)
    (ho : a.header.order = s.header.order)
    (hh : (a.header.withMore false).withBody s.body = s.header)
    (hb : a.body ++ (chunk :: rest).flatten = s.body) (hl : s.frame.length ≤ r.limit) :
    ∃ r', r.take ((Message.fragment s.id (!rest.isEmpty) chunk).encode s.header.order) =
        .ok (if rest = [] then some (s.header, s.body) else none, r') ∧
      Progress s (continuations s.header.order s.id rest) (r'.get? s.id) ∧
      (∀ id ≠ s.id, r'.get? id = r.get? id) ∧ r'.limit = r.limit := by
  let m := Message.fragment s.id (!rest.isEmpty) chunk
  rw [s.length_frame] at hl
  rw [List.flatten_cons, ← List.append_assoc] at hb
  have hlen := congrArg List.length hb
  rw [List.length_append, List.length_append] at hlen
  have hdata : (m.body s.header.order).drop 4 = chunk := by
    rw [body_fragment, List.drop_left' (s.header.order.length_word 4 _)]
  obtain ⟨a', hh', hb', hpush⟩ := r.push_fragment (Message.header_kind m s.header.order)
    (leadingId_fragment s.id _ chunk _) ha (by rw [ho, Message.header_order])
    (by rw [hdata]; omega)
  rw [hdata] at hb'
  rw [Message.header_more] at hpush
  rw [Message.encode, r.take_encode, hpush]
  cases rest with
  | nil =>
    refine ⟨r.erase s.id, ?_, ?_, fun id hne => r.get?_erase_ne hne, rfl⟩
    · -- The flag that the first frame had set goes, and the size is that of the whole.
      have hbody : a'.body = s.body := by rw [hb', ← hb]; simp
      change Except.ok (some ((a'.header.withMore false).withBody a'.body, a'.body), _) = _
      rw [hbody, hh', hh]
      rfl
    · rw [r.get?_erase_self]
      exact .done
  | cons chunk' rest =>
    refine ⟨r.insert s.id a', rfl, ?_, fun id hne => r.get?_insert_ne a' hne, rfl⟩
    rw [r.get?_insert_self]
    have h8' : 8 ≤ a'.body.length := by
      rw [hb', List.length_append]
      omega
    exact .begun (List.cons_ne_nil _ _) h8' rfl (by rw [hh', ho]) (by rw [hh', hh])
      (by rw [hb', hb])

lemma continuations_cons (order : ByteOrder) (id : UInt32) (chunk : Octets) (rest : List Octets) :
    continuations order id (chunk :: rest) =
      (Message.fragment id (!rest.isEmpty) chunk).encode order :: continuations order id rest := by
  cases rest <;> rfl

lemma Progress.step {s : Source} {frame : Octets} {frames : List Octets} {r : Reassembler}
    (hp : Progress s (frame :: frames) (r.get? s.id)) (hl : s.frame.length ≤ r.limit) :
    ∃ r', r.take frame = .ok (if frames = [] then some (s.header, s.body) else none, r') ∧
      Progress s frames (r'.get? s.id) ∧ (∀ id ≠ s.id, r'.get? id = r.get? id) ∧
      r'.limit = r.limit := by
  generalize hx : r.get? s.id = x at hp
  generalize hf : frame :: frames = all at hp
  cases hp with
  | fresh hc =>
    rw [← hf] at hc
    exact step_fresh hc hx hl
  | @begun _ rest a hr h8 hc ho hh hb =>
    obtain ⟨chunk, rest, rfl⟩ := List.exists_cons_of_ne_nil hr
    rw [hc, continuations_cons] at hf
    obtain ⟨rfl, rfl⟩ := List.cons.inj hf
    have hnil : continuations s.header.order s.id rest = [] ↔ rest = [] := by
      cases rest with
      | nil => exact ⟨fun _ => rfl, fun _ => rfl⟩
      | cons c cs => simp [continuations_cons]
    simp only [hnil]
    exact step_begun hx h8 ho hh hb hl
  | done => cases hf

lemma Progress.eq_none {s : Source} {x : Option Assembly} (hp : Progress s [] x) : x = none := by
  generalize hf : ([] : List Octets) = frames at hp
  cases hp with
  | fresh _ => rfl
  | begun hr _ hc => exact absurd (hf.trans hc).symm (continuations_ne_nil _ _ hr)
  | done => rfl

lemma Progress.framed {s : Source} {frame : Octets} {frames : List Octets} {x : Option Assembly}
    (hp : Progress s (frame :: frames) x) :
    ∃ (h : Header) (body : Octets), frame = h.encode ++ body ∧ h.bodySize.toNat = body.length ∧
      h.order = s.header.order ∧ body.length ≤ s.body.length := by
  have hsize : s.body.length < UInt32.size := s.sized ▸ s.header.bodySize.toNat_lt_size
  generalize hf : frame :: frames = all at hp
  cases hp with
  | fresh hc =>
    rw [← hf] at hc
    cases hc with
    | whole => exact ⟨s.header, s.body, rfl, s.sized, rfl, Nat.le_refl _⟩
    | @pieces first rest _ _ hb =>
      have hlen := congrArg List.length hb
      rw [List.length_append] at hlen
      refine ⟨(s.header.withMore true).withBody first, first, rfl, ?_,
        s.header.order_withMore true, by omega⟩
      exact UInt32.toNat_ofNat_of_lt' (by omega)
  | @begun _ rest a hr h8 hc ho hh hb =>
    obtain ⟨chunk, rest, rfl⟩ := List.exists_cons_of_ne_nil hr
    rw [hc, continuations_cons] at hf
    obtain ⟨rfl, rfl⟩ := List.cons.inj hf
    have hlen := congrArg List.length hb
    rw [List.flatten_cons, List.length_append, List.length_append] at hlen
    let m := Message.fragment s.id (!rest.isEmpty) chunk
    have hm : (m.body s.header.order).length = 4 + chunk.length := by
      rw [body_fragment, List.length_append, ByteOrder.length_word]
    refine ⟨m.header s.header.order, m.body s.header.order, rfl, ?_,
      Message.header_order _ _, by omega⟩
    exact UInt32.toNat_ofNat_of_lt' (by omega)
  | done => cases hf

/-- A frame that arrives: one of those that source `i` was cut into, or another that is whole. -/
inductive Arrival (ι : Type) where
  | piece (i : ι) (frame : Octets)
  | other (header : Header) (body : Octets)

def Arrival.octets {ι : Type} : Arrival ι → Octets
  | .piece _ frame => frame
  | .other header body => header.encode ++ body

section

variable {ι : Type} [DecidableEq ι]

def piecesOf (i : ι) : List (Arrival ι) → List Octets
  | [] => []
  | .piece j frame :: rest => if i = j then frame :: piecesOf i rest else piecesOf i rest
  | .other _ _ :: rest => piecesOf i rest

/-- What each arrival should give: a whole frame gives itself, and a piece gives its source if no
other piece of that source is to come. -/
def given (sources : ι → Source) : List (Arrival ι) → List (Option (Header × Octets))
  | [] => []
  | .piece i _ :: rest =>
    (if piecesOf i rest = [] then some ((sources i).header, (sources i).body) else none) ::
      given sources rest
  | .other header body :: rest => some (header, body) :: given sources rest

structure Tracks (sources : ι → Source) (limit : Nat) (r : Reassembler)
    (arrivals : List (Arrival ι)) : Prop where
  progress : ∀ i, Progress (sources i) (piecesOf i arrivals) (r.get? (sources i).id)
  unknown : ∀ id, (∀ i, id ≠ (sources i).id) → r.get? id = none
  limit : r.limit = limit

variable {sources : ι → Source} {limit : Nat} {r : Reassembler} {arrivals : List (Arrival ι)}

lemma Tracks.piece (hids : Function.Injective fun i => (sources i).id)
    (hlimit : ∀ i, (sources i).frame.length ≤ limit) {i : ι} {frame : Octets}
    (ht : Tracks sources limit r (.piece i frame :: arrivals)) :
    ∃ r', r.take frame = .ok (if piecesOf i arrivals = [] then
        some ((sources i).header, (sources i).body) else none, r') ∧
      Tracks sources limit r' arrivals := by
  have hp := ht.progress i
  rw [piecesOf, if_pos rfl] at hp
  obtain ⟨r', hr, hi, hother, hl⟩ := hp.step (by rw [ht.limit]; exact hlimit i)
  refine ⟨r', hr, ⟨fun j => ?_, fun id hid => ?_, hl.trans ht.limit⟩⟩
  · -- The ids are distinct, so the entry of every other source is as it was.
    by_cases hj : j = i
    · rw [hj]
      exact hi
    · have hp := ht.progress j
      rw [piecesOf, if_neg hj] at hp
      rw [hother _ fun he => hj (hids he)]
      exact hp
  · rw [hother id (hid i)]
    exact ht.unknown id hid

lemma Tracks.other {header : Header} {body : Octets}
    (ht : Tracks sources limit r (.other header body :: arrivals)) :
    Tracks sources limit r arrivals :=
  ⟨ht.progress, ht.unknown, ht.limit⟩

lemma Tracks.inProgress (ht : Tracks sources limit r []) : r.inProgress = 0 := by
  apply Reassembler.inProgress_eq_zero
  intro id
  by_cases hid : ∃ i, id = (sources i).id
  · obtain ⟨i, rfl⟩ := hid
    exact (ht.progress i).eq_none
  · exact ht.unknown id fun i hi => hid ⟨i, hi⟩

lemma Tracks.takeAll (hids : Function.Injective fun i => (sources i).id)
    (hlimit : ∀ i, (sources i).frame.length ≤ limit)
    (hothers : ∀ h b, .other h b ∈ arrivals → h.kind ≠ .fragment ∧ h.more = false)
    (ht : Tracks sources limit r arrivals) :
    ∃ r', r.takeAll (arrivals.map Arrival.octets) = .ok (given sources arrivals, r') ∧
      Tracks sources limit r' [] := by
  induction arrivals generalizing r with
  | nil => exact ⟨r, rfl, ht⟩
  | cons a arrivals ih =>
    have hrest : ∀ h b, .other h b ∈ arrivals → h.kind ≠ .fragment ∧ h.more = false :=
      fun h b hm => hothers h b (List.mem_cons_of_mem a hm)
    cases a with
    | piece i frame =>
      obtain ⟨r₁, hr₁, ht₁⟩ := ht.piece hids hlimit
      obtain ⟨r₂, hr₂, ht₂⟩ := ih hrest ht₁
      refine ⟨r₂, ?_, ht₂⟩
      rw [List.map_cons, Reassembler.takeAll, Arrival.octets, hr₁]
      dsimp only [bind, Except.bind]
      rw [hr₂]
      rfl
    | other header body =>
      obtain ⟨hk, hm⟩ := hothers header body List.mem_cons_self
      obtain ⟨r₂, hr₂, ht₂⟩ := ih hrest ht.other
      refine ⟨r₂, ?_, ht₂⟩
      rw [List.map_cons, Reassembler.takeAll, Arrival.octets, r.take_encode,
        r.push_whole body hk hm]
      dsimp only [bind, Except.bind]
      rw [hr₂]
      rfl

/-- Frames that were cut, each with a limit of its own, come together again however their pieces
are interleaved and whatever whole frames come in between. -/
theorem takeAll_interleaved (sources : ι → Source) (limits : ι → Nat) (limit : Nat)
    (hlimits : ∀ i, 24 ≤ limits i) (hids : Function.Injective fun i => (sources i).id)
    (hlimit : ∀ i, (sources i).frame.length ≤ limit) :
    ∃ frames : ι → List Octets, (∀ i, split (limits i) (sources i).frame = .ok (frames i)) ∧
      ∀ arrivals : List (Arrival ι), (∀ i, piecesOf i arrivals = frames i) →
        (∀ h b, .other h b ∈ arrivals → h.kind ≠ .fragment ∧ h.more = false) →
        ∃ r, ({ limit } : Reassembler).takeAll (arrivals.map Arrival.octets) =
            .ok (given sources arrivals, r) ∧ r.inProgress = 0 := by
  choose frames hsplit hcut using fun i => split_frame (sources i) (hlimits i)
  refine ⟨frames, hsplit, fun arrivals hp hothers => ?_⟩
  have hstart : Tracks sources limit { limit } arrivals := by
    refine ⟨fun i => ?_, fun _ _ => rfl, rfl⟩
    rw [hp i]
    exact .fresh (hcut i)
  obtain ⟨r, hr, ht⟩ := hstart.takeAll hids hlimit hothers
  exact ⟨r, hr, ht.inProgress⟩

end

/-! A request of three frames and a reply of two, in different byte orders. -/

def longRequest : Source where
  header := .make .request .littleEndian 20
  body := [7, 0, 0, 0] ++ List.replicate 16 1
  fragmentable := rfl
  whole := by simp
  sized := rfl
  leads := by decide

def longReply : Source where
  header := .make .reply .bigEndian 13
  body := [0, 0, 0, 9] ++ List.replicate 9 2
  fragmentable := rfl
  whole := by simp
  sized := rfl
  leads := by decide

def requestFrames : List Octets :=
  [((longRequest.header.withMore true).withBody [7, 0, 0, 0, 1, 1, 1, 1]).encode ++
      [7, 0, 0, 0, 1, 1, 1, 1],
    (Message.fragment 7 true (List.replicate 8 1)).encode .littleEndian,
    (Message.fragment 7 false (List.replicate 4 1)).encode .littleEndian]

def replyFrames : List Octets :=
  [((longReply.header.withMore true).withBody [0, 0, 0, 9, 2, 2, 2, 2]).encode ++
      [0, 0, 0, 9, 2, 2, 2, 2],
    (Message.fragment 9 false (List.replicate 5 2)).encode .bigEndian]

def crossing : List (Arrival Bool) :=
  [.piece true (requestFrames.getD 0 []), .piece false (replyFrames.getD 0 []),
    .other (.make .closeConnection .bigEndian 0) [], .piece true (requestFrames.getD 1 []),
    .piece true (requestFrames.getD 2 []), .piece false (replyFrames.getD 1 [])]

theorem takeAll_interleaved_crossing :
    ∃ r, ({ limit := 32 } : Reassembler).takeAll (crossing.map Arrival.octets) =
      .ok ([none, none, some (.make .closeConnection .bigEndian 0, []), none,
        some (longRequest.header, longRequest.body), some (longReply.header, longReply.body)], r) ∧
      r.inProgress = 0 := by
  have hids : Function.Injective fun b => (cond b longRequest longReply).id := by
    have hne : longRequest.id ≠ longReply.id := by decide
    rintro (_ | _) (_ | _) h
    · rfl
    · exact absurd h.symm hne
    · exact absurd h hne
    · rfl
  obtain ⟨frames, hsplit, hrun⟩ := takeAll_interleaved (fun b => cond b longRequest longReply)
    (fun _ => 24) 32 (by decide) hids (by decide)
  refine hrun crossing ?_ ?_
  · rintro (_ | _)
    · exact Except.ok.inj (Eq.trans (by decide +kernel) (hsplit false))
    · exact Except.ok.inj (Eq.trans (by decide +kernel) (hsplit true))
  · intro h b hm
    obtain ⟨rfl, rfl⟩ : h = .make .closeConnection .bigEndian 0 ∧ b = [] := by
      simpa [crossing] using hm
    exact ⟨by decide, Header.more_make _ _ _⟩

end Fragment

end ObjectBroker
