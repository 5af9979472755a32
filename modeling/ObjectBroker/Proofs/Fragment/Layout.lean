import ObjectBroker.Proofs.Fragment.Pending

/-! How the frames look that a long frame is cut into: which of them carries what, and how much. -/

namespace ObjectBroker.Fragment

section Chunks

variable {n : Nat}

lemma length_le_of_mem_chunks {body chunk : Octets} (hc : chunk ∈ chunks n body) :
    chunk.length ≤ n := by
  fun_induction chunks n body with
  | case1 => cases hc
  | case2 body _ ih =>
    rcases List.mem_cons.mp hc with rfl | hc
    · exact List.length_take_le _ _
    · exact ih hc

lemma length_of_mem_dropLast_chunks {body chunk : Octets} (hc : chunk ∈ (chunks n body).dropLast) :
    chunk.length = n := by
  fun_induction chunks n body with
  | case1 => cases hc
  | case2 body hne ih =>
    by_cases hrest : chunks n (body.drop n) = []
    · rw [hrest] at hc
      cases hc
    · rw [List.dropLast_cons_of_ne_nil hrest] at hc
      rcases List.mem_cons.mp hc with rfl | hc
      · have hlong : body.drop n ≠ [] := fun hnil => hrest (by rw [hnil, chunks, if_pos (.inr rfl)])
        have hlt : n < body.length := by simpa using hlong
        exact List.length_take_of_le (Nat.le_of_lt hlt)
      · exact ih hc

end Chunks

lemma getElem?_continuations (order : ByteOrder) (id : UInt32) (rest : List Octets) (i : Nat) :
    (continuations order id rest)[i]? = rest[i]?.map fun chunk =>
      (Message.fragment id (decide (i + 1 < rest.length)) chunk).encode order := by
  induction rest generalizing i with
  | nil => rfl
  | cons chunk rest ih =>
    rw [continuations_cons]
    cases i with
    | zero => cases rest <;> simp
    | succ i => simp [ih]

/-- The frame at place `i` of `count` that a frame with header `h` is cut into, with the chunk of
the body that it carries. -/
structure Carries (limit : Nat) (h : Header) (id : UInt32) (count i : Nat) (frame chunk : Octets)
    (head : Header) : Prop where
  decodes : Header.decode frame = .ok head
  fits : frame.length ≤ limit
  sized : head.frameLength = frame.length
  order : head.order = h.order
  more : head.more = decide (i + 1 < count)
  first : i = 0 → head.kind = h.kind ∧ frame.drop Header.size = chunk
  later : 0 < i → head.kind = .fragment ∧
    leadingId head (frame.drop Header.size) = .ok id ∧ frame.drop overhead = chunk

/-- How the body of a frame is spread over the frames that it is cut into. -/
structure Layout (limit : Nat) (h : Header) (body : Octets) (frames chunks : List Octets) : Prop where
  several : 2 ≤ frames.length
  count : chunks.length = frames.length
  whole : chunks.flatten = body
  full : ∀ chunk ∈ chunks.dropLast, chunk.length = chunkSize limit
  positive : 0 < chunkSize limit
  aligned : 8 ∣ chunkSize limit
  carries : ∃ id, leadingId h body = .ok id ∧ ∀ (i : Nat) (frame : Octets), frames[i]? = some frame →
    ∃ chunk head, chunks[i]? = some chunk ∧ Carries limit h id frames.length i frame chunk head

section Frames

variable {limit : Nat} {h : Header} {id : UInt32} {count i : Nat} {chunk : Octets}

lemma Carries.head (hl : Header.size + chunk.length ≤ limit) (hs : chunk.length < 2 ^ 32)
    (hc : 1 < count) :
    Carries limit h id count 0 (((h.withMore true).withBody chunk).encode ++ chunk) chunk
      ((h.withMore true).withBody chunk) where
  decodes := Header.decode_encode_append _ _
  fits := by
    rw [List.length_append, Header.length_encode]
    exact hl
  sized := by
    have hsize : ((h.withMore true).withBody chunk).bodySize.toNat = chunk.length :=
      UInt32.toNat_ofNat_of_lt' hs
    rw [List.length_append, Header.length_encode, Header.frameLength, hsize]
  order := h.order_withMore true
  more := by
    rw [decide_eq_true hc]
    exact h.more_withMore true
  first _ := ⟨rfl, drop_encode _ _⟩
  later hi := absurd hi (Nat.lt_irrefl 0)

lemma length_body_fragment (id : UInt32) (more : Bool) (chunk : Octets) (order : ByteOrder) :
    ((Message.fragment id more chunk).body order).length = 4 + chunk.length := by
  rw [body_fragment, List.length_append, ByteOrder.length_word]

lemma drop_body_fragment (id : UInt32) (more : Bool) (chunk : Octets) (order : ByteOrder) :
    ((Message.fragment id more chunk).body order).drop 4 = chunk := by
  rw [body_fragment, List.drop_left' (order.length_word 4 _)]

lemma length_fragment (id : UInt32) (more : Bool) (chunk : Octets) (order : ByteOrder) :
    ((Message.fragment id more chunk).encode order).length = overhead + chunk.length := by
  rw [Message.length_encode, length_body_fragment, overhead, Nat.add_assoc]

lemma drop_fragment (id : UInt32) (more : Bool) (chunk : Octets) (order : ByteOrder) :
    ((Message.fragment id more chunk).encode order).drop overhead = chunk := by
  rw [overhead, ← List.drop_drop, Message.encode, drop_encode, drop_body_fragment]

lemma Carries.tail (hl : overhead + chunk.length ≤ limit) (hs : overhead + chunk.length < 2 ^ 32) :
    Carries limit h id count (i + 1)
      ((Message.fragment id (decide (i + 2 < count)) chunk).encode h.order) chunk
      ((Message.fragment id (decide (i + 2 < count)) chunk).header h.order) where
  decodes := Header.decode_encode_append _ _
  fits := by
    rw [length_fragment]
    exact hl
  sized := by
    rw [Header.frameLength, Message.bodySize_header _ _ (by rw [length_fragment]; exact hs),
      Message.length_encode]
  order := Message.header_order _ _
  more := Message.header_more _ _
  first hi := absurd hi (Nat.succ_ne_zero i)
  later _ := by
    refine ⟨Message.header_kind _ _, ?_, drop_fragment _ _ _ _⟩
    rw [Message.encode, drop_encode]
    exact leadingId_fragment _ _ _ _

lemma carries_frames {first : Octets} {rest : List Octets} (hr : rest ≠ [])
    (hl : ∀ chunk ∈ first :: rest, overhead + chunk.length ≤ limit)
    (hs : ∀ chunk ∈ first :: rest, overhead + chunk.length < 2 ^ 32) {frame : Octets}
    (hf : (frames h id (first :: rest))[i]? = some frame) :
    ∃ chunk head, (first :: rest)[i]? = some chunk ∧
      Carries limit h id (rest.length + 1) i frame chunk head := by
  have hmore : (!rest.isEmpty) = true := by simpa using hr
  have hpos : 0 < rest.length := List.length_pos_iff.mpr hr
  rw [frames, hmore] at hf
  cases i with
  | zero =>
    cases hf
    have hlimit := hl first List.mem_cons_self
    have hsize := hs first List.mem_cons_self
    rw [overhead] at hlimit hsize
    exact ⟨first, _, rfl, .head (by omega) (by omega) (by omega)⟩
  | succ i =>
    rw [List.getElem?_cons_succ, getElem?_continuations] at hf
    obtain ⟨chunk, hchunk, rfl⟩ := Option.map_eq_some_iff.mp hf
    have hmem := List.mem_cons_of_mem first (List.mem_of_getElem? hchunk)
    have hsame : decide (i + 1 < rest.length) = decide (i + 2 < rest.length + 1) :=
      decide_eq_decide.mpr (by omega)
    rw [hsame]
    exact ⟨chunk, _, hchunk, .tail (hl chunk hmem) (hs chunk hmem)⟩

lemma length_continuations_eq (order : ByteOrder) (id : UInt32) (rest : List Octets) :
    (continuations order id rest).length = rest.length := by
  induction rest with
  | nil => rfl
  | cons chunk rest ih => rw [continuations_cons, List.length_cons, List.length_cons, ih]

lemma length_frames (h : Header) (id : UInt32) (chunks : List Octets) :
    (frames h id chunks).length = chunks.length := by
  cases chunks with
  | nil => rfl
  | cons first rest =>
    rw [frames, List.length_cons, List.length_cons, length_continuations_eq]

end Frames

section Split

variable {limit : Nat} {frame : Octets} {h : Header} (hl : limit < frame.length)
  (hd : Header.decode frame = .ok h)
include hl hd

lemma fragmentable_of_split {frames : List Octets} (hs : split limit frame = .ok frames) :
    h.kind.isFragmentable = true ∧ 24 ≤ limit := by
  rw [split, if_neg (Nat.not_le.mpr hl), hd] at hs
  obtain ⟨h', hh, hs⟩ := of_bind_eq_ok hs
  cases hh
  obtain ⟨hk, hs⟩ := of_ite_throw_eq_ok hs
  obtain ⟨hroom, -⟩ := of_ite_throw_eq_ok hs
  refine ⟨by simpa using hk, ?_⟩
  rw [chunkSize, overhead, Header.size] at hroom
  split_ifs at hroom <;> omega

lemma split_of_fragmentable (hk : h.kind.isFragmentable = true) (hs : 24 ≤ limit) :
    ∃ id, leadingId h (frame.drop Header.size) = .ok id ∧ split limit frame =
      .ok (frames h id (chunks (chunkSize limit) (frame.drop Header.size))) := by
  have hsize := chunkSize_eq hs
  have hbody : 4 ≤ (frame.drop Header.size).length := by
    rw [List.length_drop, Header.size]
    omega
  have hid := leadingId_of_le (h := h) hbody
  refine ⟨_, hid, ?_⟩
  rw [split, if_neg (Nat.not_le.mpr hl), hd]
  dsimp only [bind, Except.bind]
  rw [if_neg (by simp [hk]), if_neg (by omega), hid]
  rfl

end Split

lemma chunks_of_long {limit : Nat} {body : Octets} (hs : 24 ≤ limit)
    (hl : limit < Header.size + body.length) :
    ∃ first rest, rest ≠ [] ∧ chunks (chunkSize limit) body = first :: rest := by
  have hsize := chunkSize_eq hs
  rw [Header.size] at hl
  have hlt : chunkSize limit < body.length := by omega
  have hrest : body.drop (chunkSize limit) ≠ [] := by simpa using hlt
  have hn : chunkSize limit ≠ 0 := by omega
  refine ⟨_, _, ?_, chunks_of_ne_nil hn (List.ne_nil_of_length_pos (by omega))⟩
  rw [chunks_of_ne_nil hn hrest]
  exact List.cons_ne_nil _ _

lemma layout_split {limit : Nat} {frame : Octets} {h : Header} (hlen : frame.length < 2 ^ 32)
    (hl : limit < frame.length) (hd : Header.decode frame = .ok h)
    (hk : h.kind.isFragmentable = true) (hs : 24 ≤ limit) :
    ∃ frames chunks, split limit frame = .ok frames ∧
      Layout limit h (frame.drop Header.size) frames chunks := by
  obtain ⟨id, hid, hsplit⟩ := split_of_fragmentable hl hd hk hs
  have hsize := chunkSize_eq hs
  have hover : overhead = 16 := rfl
  have hbody : limit < Header.size + (frame.drop Header.size).length := by
    rw [List.length_drop]
    omega
  obtain ⟨first, rest, hrest, hchunks⟩ := chunks_of_long hs hbody
  have hfits : ∀ chunk ∈ first :: rest, overhead + chunk.length ≤ limit := by
    intro chunk hchunk
    have hle := length_le_of_mem_chunks (hchunks ▸ hchunk)
    omega
  have hpos := List.length_pos_iff.mpr hrest
  refine ⟨_, chunks (chunkSize limit) (frame.drop Header.size), hsplit, ?_⟩
  have hcount := length_frames h id (first :: rest)
  rw [hchunks]
  refine ⟨?_, hcount.symm, ?_, ?_, ?_, ?_, id, hid, fun i f hf => ?_⟩
  · rw [hcount, List.length_cons]
    omega
  · rw [← hchunks]
    exact flatten_chunks (by omega) _
  · rw [← hchunks]
    exact fun chunk => length_of_mem_dropLast_chunks
  · omega
  · rw [hsize]
    exact Nat.dvd_mul_left 8 _
  · rw [hcount]
    refine carries_frames hrest hfits (fun chunk hchunk => ?_) hf
    exact Nat.lt_of_le_of_lt (hfits chunk hchunk) (Nat.lt_trans hl hlen)

/-- A frame that fits is left alone. One that does not is cut just when its kind allows it and there
is room for eight octets in a frame, and then its body is spread over at least two frames: the first
keeps the kind, the others are fragments with the request id, all fit and tell their size and order,
all but the last tell that more follow and carry a full chunk, and the chunks together are the
body. -/
theorem split_layout {frame : Octets} {h : Header} (hlen : frame.length < 2 ^ 32)
    (hd : Header.decode frame = .ok h) (limit : Nat) :
    (frame.length ≤ limit → split limit frame = .ok [frame]) ∧
    (limit < frame.length →
      ((∃ frames, split limit frame = .ok frames) ↔
        h.kind.isFragmentable = true ∧ 24 ≤ limit) ∧
      ∀ frames, split limit frame = .ok frames →
        ∃ chunks, Layout limit h (frame.drop Header.size) frames chunks) := by
  refine ⟨fun hl => if_pos hl, fun hl => ⟨⟨?_, ?_⟩, fun frames hs => ?_⟩⟩
  · rintro ⟨frames, hs⟩
    exact fragmentable_of_split hl hd hs
  · rintro ⟨hk, hs⟩
    obtain ⟨id, -, hsplit⟩ := split_of_fragmentable hl hd hk hs
    exact ⟨_, hsplit⟩
  · obtain ⟨hk, hlimit⟩ := fragmentable_of_split hl hd hs
    obtain ⟨frames', chunks, hsplit, hlayout⟩ := layout_split hlen hl hd hk hlimit
    obtain rfl : frames' = frames := Except.ok.inj (hsplit.symm.trans hs)
    exact ⟨chunks, hlayout⟩

theorem split_layout_longRequest :
    split 32 longRequest.frame = .ok [longRequest.frame] ∧
    (split 31 longRequest.frame = .ok requestFrames ∧
      ∃ chunks, Layout 31 longRequest.header longRequest.body requestFrames chunks) ∧
    ¬ ∃ frames, split 23 longRequest.frame = .ok frames := by
  have hlen : longRequest.frame.length < 2 ^ 32 := by decide
  have hd : Header.decode longRequest.frame = .ok longRequest.header :=
    Header.decode_encode_append _ _
  have hsplit : split 31 longRequest.frame = .ok requestFrames := by decide +kernel
  refine ⟨(split_layout hlen hd 32).1 (by decide), ⟨hsplit, ?_⟩, fun hs => ?_⟩
  · obtain ⟨chunks, hlayout⟩ := ((split_layout hlen hd 31).2 (by decide)).2 _ hsplit
    rw [Source.frame, drop_encode] at hlayout
    exact ⟨chunks, hlayout⟩
  · have hroom := (((split_layout hlen hd 23).2 (by decide)).1.mp hs).2
    exact absurd hroom (by decide)

end ObjectBroker.Fragment
