import ObjectBroker.Proofs.Fragment.Reassembly
import ObjectBroker.Transport.Reader
import ObjectBroker.Transport.Writer

/-! The stream from writer to reader: what is written comes out message by message, however the
octets are cut on their way. -/

namespace ObjectBroker

namespace Reader

lemma fill_append (need : Nat) (buffer : Octets) (chunks : List Octets) :
    (fill need buffer chunks).1 ++ (fill need buffer chunks).2.flatten =
      buffer ++ chunks.flatten := by
  fun_induction fill need buffer chunks with
  | case1 buffer => rfl
  | case2 buffer chunk chunks h => rfl
  | case3 buffer chunk chunks h ih => rw [ih, List.flatten_cons, List.append_assoc]

lemma fill_enough (need : Nat) (buffer : Octets) (chunks : List Octets) :
    need ≤ (fill need buffer chunks).1.length ∨ (fill need buffer chunks).2 = [] := by
  fun_induction fill need buffer chunks with
  | case1 buffer => exact .inr rfl
  | case2 buffer chunk chunks h => exact .inl h
  | case3 buffer chunk chunks h ih => exact ih

lemma fill_nil {need : Nat} {buffer : Octets} {chunks : List Octets}
    (h : buffer ++ chunks.flatten = []) (hn : 0 < need) : fill need buffer chunks = ([], []) := by
  have hc := fill_append need buffer chunks
  rw [h, List.append_eq_nil_iff] at hc
  rcases fill_enough need buffer chunks with henough | hrest
  · rw [hc.1] at henough
    exact absurd henough (Nat.not_le.mpr hn)
  · exact Prod.ext hc.1 hrest

lemma fill_front {need : Nat} {buffer front rest : Octets} {chunks : List Octets}
    (hc : buffer ++ chunks.flatten = front ++ rest) (hn : front.length = need) :
    ∃ back, (fill need buffer chunks).1 = front ++ back ∧
      back ++ (fill need buffer chunks).2.flatten = rest := by
  have ha := fill_append need buffer chunks
  rw [hc] at ha
  have hl : front.length ≤ (fill need buffer chunks).1.length := by
    rcases fill_enough need buffer chunks with h | h
    · omega
    · rw [h, List.flatten_nil, List.append_nil] at ha
      rw [ha, List.length_append]
      exact Nat.le_add_right _ _
  have hp : front <+: (fill need buffer chunks).1 :=
    List.prefix_of_prefix_length_le (List.prefix_append front rest)
      (ha ▸ List.prefix_append _ _) hl
  obtain ⟨back, hb⟩ := hp
  refine ⟨back, hb.symm, ?_⟩
  rw [← hb, List.append_assoc] at ha
  exact List.append_cancel_left ha

structure At (r : Reader) (source : Inlet) (order : ByteOrder) (limit : Nat) (rest : Octets) :
    Prop where
  rest : r.buffer ++ source.chunks.flatten = rest
  ended : source.ended = true
  order : ∀ known ∈ r.peerOrder, known = order
  limit : r.limit = limit

lemma readFrame_encode {r : Reader} {source : Inlet} {order : ByteOrder} {limit : Nat}
    {h : Header} {body rest : Octets} (ha : r.At source order limit (h.encode ++ body ++ rest))
    (hs : h.bodySize.toNat = body.length) (hl : h.frameLength ≤ limit) :
    ∃ buffer source', r.readFrame source = (.done (h, body), { r with buffer }, source') ∧
      { r with buffer }.At source' order limit rest := by
  have hframe : h.frameLength = (h.encode ++ body).length := by
    rw [List.length_append, h.length_encode, Header.frameLength, hs]
  have hrest := ha.rest
  rw [List.append_assoc] at hrest
  obtain ⟨b₁, hb₁, hr₁⟩ := fill_front hrest h.length_encode
  have hrest₁ : (h.encode ++ b₁) ++ (fill Header.size r.buffer source.chunks).2.flatten =
      (h.encode ++ body) ++ rest := by
    rw [List.append_assoc, hr₁, List.append_assoc]
  obtain ⟨b₂, hb₂, hr₂⟩ := fill_front hrest₁ hframe.symm
  refine ⟨b₂, { source with chunks := (fill h.frameLength (h.encode ++ b₁)
    (fill Header.size r.buffer source.chunks).2).2 }, ?_, ⟨hr₂, ha.ended, ha.order, ha.limit⟩⟩
  have hsize : ¬ (h.encode ++ b₁).length < Header.size := by
    rw [List.length_append, h.length_encode]
    omega
  have hlimit : ¬ r.limit < h.frameLength := by
    rw [ha.limit]
    omega
  rw [readFrame]
  dsimp only
  rw [hb₁, if_neg hsize, Header.decode_encode_append]
  dsimp only
  rw [if_neg hlimit, hb₂, hframe, Octets.split?_append]
  dsimp only
  rw [Fragment.drop_encode]

lemma readFrame_end {r : Reader} {source : Inlet} {order : ByteOrder} {limit : Nat}
    (ha : r.At source order limit []) :
    r.readFrame source = (.failed .closed, { r with buffer := [] }, ⟨[], true⟩) := by
  rw [readFrame, fill_nil ha.rest (by decide)]
  dsimp only
  rw [ha.ended]
  rfl

lemma checkOrder_of_known {r : Reader} {order : ByteOrder}
    (h : ∀ known ∈ r.peerOrder, known = order) :
    r.checkOrder order = .ok { r with peerOrder := some order } := by
  rw [checkOrder]
  cases hk : r.peerOrder with
  | none => rfl
  | some known =>
    obtain rfl := h known hk
    dsimp only
    rw [if_pos rfl, ← hk]

lemma readFrames_succ {r : Reader} {source : Inlet} {order : ByteOrder} {limit : Nat}
    {h : Header} {body rest : Octets} {out : Option (Header × Octets)} {R : Reassembler}
    (fuel : Nat) (ha : r.At source order limit (h.encode ++ body ++ rest))
    (hs : h.bodySize.toNat = body.length) (ho : h.order = order) (hl : h.frameLength ≤ limit)
    (hp : r.reassembler.push h body = .ok (out, R)) :
    ∃ r' source', r'.At source' order limit rest ∧ r'.reassembler = R ∧
      r.readFrames source (fuel + 1) = match out with
        | none => r'.readFrames source' fuel
        | some (h', body') => match Message.decodeBody h' body' with
          | .ok m => (.done (m, h'.order), r', source')
          | .error e => (.failed e, r', source') := by
  obtain ⟨buffer, source', hr, ha'⟩ := readFrame_encode ha hs hl
  have hcheck := checkOrder_of_known ha'.order
  rw [← ho] at hcheck
  refine ⟨{ r with buffer, peerOrder := some h.order, reassembler := R }, source',
    ⟨ha'.rest, ha'.ended, by simp [ho], ha'.limit⟩, rfl, ?_⟩
  rw [readFrames, hr]
  dsimp only
  rw [accept, hcheck]
  dsimp only
  rw [hp]
  cases out with
  | none => rfl
  | some whole =>
    dsimp only
    cases Message.decodeBody whole.1 whole.2 <;> rfl

open Fragment in
lemma readFrames_progress {s : Source} {m : Message} {limit : Nat} {rest : Octets}
    (hm : Message.decodeBody s.header s.body = .ok m) (hl : s.frame.length ≤ limit)
    {frames : List Octets} (hne : frames ≠ []) {r : Reader} {source : Inlet} {fuel : Nat}
    (hp : Progress s frames (r.reassembler.get? s.id)) (hr : r.reassembler.limit = limit)
    (ha : r.At source s.header.order limit (frames.flatten ++ rest)) (hf : frames.length ≤ fuel) :
    ∃ r' source', r.readFrames source fuel = (.done (m, s.header.order), r', source') ∧
      r'.At source' s.header.order limit rest ∧ r'.reassembler.get? s.id = none ∧
      (∀ id ≠ s.id, r'.reassembler.get? id = r.reassembler.get? id) ∧
      r'.reassembler.limit = limit := by
  induction frames generalizing r source fuel with
  | nil => exact absurd rfl hne
  | cons frame frames ih =>
    obtain ⟨fuel, rfl⟩ : ∃ k, fuel = k + 1 := ⟨fuel - 1, by rw [List.length_cons] at hf; omega⟩
    obtain ⟨h, body, rfl, hs, ho, hb⟩ := hp.framed
    obtain ⟨R, htake, hR, hother, hRl⟩ := hp.step (by rw [hr]; exact hl)
    rw [Reassembler.take_encode] at htake
    rw [List.flatten_cons, List.append_assoc] at ha
    have hframe : h.frameLength ≤ limit := by
      rw [s.length_frame] at hl
      rw [Header.frameLength, hs]
      omega
    obtain ⟨r', source', ha', rfl, hread⟩ := readFrames_succ fuel ha hs ho hframe htake
    rw [hread]
    -- The frame is complete just when none of its pieces is left.
    by_cases hlast : frames = []
    · subst hlast
      refine ⟨r', source', ?_, ha', hR.eq_none, hother, hRl.trans hr⟩
      rw [if_pos rfl]
      dsimp only
      rw [hm]
    · rw [if_neg hlast]
      obtain ⟨r'', source'', hr'', ha'', hn, hother', hl'⟩ := ih hlast hR (hRl.trans hr) ha'
        (Nat.le_of_succ_le_succ hf)
      exact ⟨r'', source'', hr'', ha'', hn,
        fun id hid => (hother' id hid).trans (hother id hid), hl'⟩

end Reader

namespace Message

def source (m : Message) (order : ByteOrder) (hk : m.kind.isFragmentable = true)
    (hl : (m.encode order).length < 2 ^ 32) : Fragment.Source where
  header := m.header order
  body := m.body order
  fragmentable := by rw [header_kind]; exact hk
  whole := by
    rw [header_more]
    cases m <;> first | rfl | cases hk
  sized := m.bodySize_header order hl
  leads := m.length_body_of_fragmentable order hk

end Message

namespace Reader

structure Idle (r : Reader) (limit : Nat) : Prop where
  pending : ∀ id, r.reassembler.get? id = none
  limit : r.reassembler.limit = limit

lemma available_eq {r : Reader} {source : Inlet} {order : ByteOrder} {limit : Nat} {rest : Octets}
    (ha : r.At source order limit rest) : r.available source = rest.length := by
  rw [available, Octets.total_eq, ← List.length_append, ha.rest]

lemma readMessage_whole {m : Message} {order : ByteOrder} {limit : Nat} {rest : Octets}
    {r : Reader} {source : Inlet} (hk : m.kind ≠ .fragment)
    (hlen : (m.encode order).length < 2 ^ 32) (hl : (m.encode order).length ≤ limit)
    (ha : r.At source order limit (m.encode order ++ rest)) (hi : r.Idle limit) :
    ∃ r' source', r.readMessage source = (.done (m, order), r', source') ∧
      r'.At source' order limit rest ∧ r'.Idle limit := by
  have hm : (m.header order).more = false := by
    rw [Message.header_more]
    cases m <;> first | rfl | exact absurd rfl hk
  have hbody : (m.body order).length < 2 ^ 32 := by
    rw [Message.length_encode] at hlen
    exact Nat.lt_of_le_of_lt (Nat.le_add_left _ _) hlen
  have hsize := m.bodySize_header order hlen
  have hframe : (m.header order).frameLength ≤ limit := by
    rw [Header.frameLength, hsize, ← Message.length_encode]
    exact hl
  obtain ⟨r', source', ha', hr, hread⟩ := readFrames_succ (r.available source) ha hsize
    (m.header_order order) hframe
    (r.reassembler.push_whole (m.body order) (by rw [m.header_kind]; exact hk) hm)
  refine ⟨r', source', ?_, ha', ⟨by rw [hr]; exact hi.pending, by rw [hr]; exact hi.limit⟩⟩
  rw [readMessage, hread]
  dsimp only
  rw [Message.decodeBody_body m order hbody, m.header_order]

lemma readMessage_cut {m : Message} {order : ByteOrder} {limit : Nat} {rest : Octets}
    {r : Reader} {source : Inlet} {frames : List Octets} (hk : m.kind.isFragmentable = true)
    (hlen : (m.encode order).length < 2 ^ 32) (hl : (m.encode order).length ≤ limit)
    (hc : Fragment.Cut (m.source order hk hlen) frames)
    (ha : r.At source order limit (frames.flatten ++ rest)) (hi : r.Idle limit) :
    ∃ r' source', r.readMessage source = (.done (m, order), r', source') ∧
      r'.At source' order limit rest ∧ r'.Idle limit := by
  have hbody : (m.body order).length < 2 ^ 32 := by
    rw [Message.length_encode] at hlen
    exact Nat.lt_of_le_of_lt (Nat.le_add_left _ _) hlen
  let s := m.source order hk hlen
  have ho : s.header.order = order := m.header_order order
  have hdecode : Message.decodeBody s.header s.body = .ok m := m.decodeBody_body order hbody
  have hframe : s.frame.length ≤ limit := hl
  obtain ⟨hne, hcount⟩ := hc.length_le
  have hp : Fragment.Progress s frames (r.reassembler.get? s.id) := by
    rw [hi.pending]
    exact .fresh hc
  -- No frame is empty, so there are no more of them than octets.
  have hfuel : frames.length ≤ r.available source + 1 := by
    rw [available_eq ha, List.length_append]
    omega
  rw [← ho] at ha
  obtain ⟨r', source', hr, ha', hn, hother, hlimit⟩ :=
    readFrames_progress hdecode hframe hne hp hi.limit ha hfuel
  rw [ho] at hr ha'
  refine ⟨r', source', hr, ha', ⟨fun id => ?_, hlimit⟩⟩
  by_cases hid : id = s.id
  · rw [hid, hn]
  · rw [hother id hid, hi.pending]

lemma readMessage_written {m : Message} {order : ByteOrder} {limit limit' : Nat}
    (hs : 24 ≤ limit) (hk : m.kind ≠ .fragment) (hlen : (m.encode order).length < 2 ^ 32)
    (hl : (m.encode order).length ≤ limit') :
    ∃ octets, Writer.octets limit m order = .ok octets ∧
      ∀ {r : Reader} {source : Inlet} {rest : Octets},
        r.At source order limit' (octets ++ rest) → r.Idle limit' →
        ∃ r' source', r.readMessage source = (.done (m, order), r', source') ∧
          r'.At source' order limit' rest ∧ r'.Idle limit' := by
  cases hf : m.kind.isFragmentable with
  | true =>
    obtain ⟨frames, hsplit, hc⟩ := Fragment.split_frame (m.source order hf hlen) hs
    refine ⟨frames.flatten, ?_, fun ha hi => readMessage_cut hf hlen hl hc ha hi⟩
    rw [Writer.octets, show Writer.frames limit m order = .ok frames from hsplit]
    rfl
  | false =>
    have hshort := m.length_encode_of_not_fragmentable order hk hf
    refine ⟨m.encode order, ?_, fun ha hi => readMessage_whole hk hlen hl ha hi⟩
    rw [Writer.octets, Writer.frames, Fragment.split, if_pos (Nat.le_trans hshort hs)]
    exact congrArg Except.ok List.flatten_singleton

section Ended

variable {r r' : Reader} {source source' : Inlet}

lemma readFrame_ended {frame : Header × Octets} (h : r.readFrame source = (.done frame, r', source'))
    (ended : Bool) :
    r.readFrame { source with ended } = (.done frame, r', { source' with ended }) := by
  rw [readFrame] at h ⊢
  dsimp only at h ⊢
  by_cases hsize : (fill Header.size r.buffer source.chunks).1.length < Header.size
  · rw [if_pos hsize] at h
    split at h
    · cases h
    · split at h <;> cases h
  · rw [if_neg hsize] at h ⊢
    cases hheader : Header.decode (fill Header.size r.buffer source.chunks).1 with
    | error e =>
      rw [hheader] at h
      cases h
    | ok header =>
      rw [hheader] at h
      dsimp only at h ⊢
      by_cases hlimit : r.limit < header.frameLength
      · rw [if_pos hlimit] at h
        cases h
      · rw [if_neg hlimit] at h ⊢
        split at h
        · cases h
          rfl
        · split at h <;> cases h

lemma readFrames_ended {m : Message × ByteOrder} {fuel : Nat}
    (h : r.readFrames source fuel = (.done m, r', source')) (ended : Bool) :
    r.readFrames { source with ended } fuel = (.done m, r', { source' with ended }) := by
  induction fuel generalizing r source with
  | zero => cases h
  | succ fuel ih =>
    rw [readFrames] at h ⊢
    rcases hf : r.readFrame source with ⟨result, r₁, source₁⟩
    rw [hf] at h
    cases result with
    | waiting | failed => cases h
    | done frame =>
      rw [readFrame_ended hf]
      dsimp only at h ⊢
      rcases ha : r₁.accept frame.1 frame.2 with ⟨taken, r₂⟩
      rw [ha] at h
      cases taken with
      | error e => cases h
      | ok whole =>
        cases whole with
        | none => exact ih h
        | some m' =>
          cases h
          rfl

end Ended

def readMany (r : Reader) (source : Inlet) :
    Nat → List (Read (Message × ByteOrder)) × Reader × Inlet
  | 0 => ([], r, source)
  | n + 1 =>
    let (result, r, source) := r.readMessage source
    let (results, last) := r.readMany source n
    (result :: results, last)

lemma readMany_messages {order : ByteOrder} {limit limit' : Nat} (hs : 24 ≤ limit)
    {messages : List Message} (hm : ∀ m ∈ messages, m.kind ≠ .fragment ∧
      (m.encode order).length < 2 ^ 32 ∧ (m.encode order).length ≤ limit') :
    ∃ written, messages.mapM (Writer.octets limit · order) = .ok written ∧
      ∀ {r : Reader} {source : Inlet} {rest : Octets} (more : Nat),
        r.At source order limit' (written.flatten ++ rest) → r.Idle limit' →
        ∃ (r' : Reader) (source' : Inlet), r'.At source' order limit' rest ∧ r'.Idle limit' ∧
          r.readMany source (messages.length + more) =
            (messages.map (fun m => .done (m, order)) ++ (r'.readMany source' more).1,
              (r'.readMany source' more).2) := by
  induction messages with
  | nil =>
    refine ⟨[], rfl, fun {r source rest} more ha hi => ⟨r, source, ha, hi, ?_⟩⟩
    rw [List.length_nil, Nat.zero_add]
    rfl
  | cons m messages ih =>
    obtain ⟨hk, hlen, hl⟩ := hm m List.mem_cons_self
    obtain ⟨octets, hw, hread⟩ := readMessage_written hs hk hlen hl
    obtain ⟨written, hws, hreads⟩ := ih fun m hmem => hm m (List.mem_cons_of_mem _ hmem)
    refine ⟨octets :: written, ?_, fun {r source rest} more ha hi => ?_⟩
    · rw [List.mapM_cons, hw, hws]
      rfl
    · rw [List.flatten_cons, List.append_assoc] at ha
      obtain ⟨r₁, source₁, hr₁, ha₁, hi₁⟩ := hread ha hi
      obtain ⟨r₂, source₂, ha₂, hi₂, hr₂⟩ := hreads more ha₁ hi₁
      refine ⟨r₂, source₂, ha₂, hi₂, ?_⟩
      rw [List.length_cons, Nat.add_right_comm, readMany, hr₁]
      dsimp only
      rw [hr₂]
      rfl

/-- Messages come out of the stream as they went in, in whatever chunks the octets arrive, and then
the stream is closed with nothing left in it. -/
theorem readMany_written {order : ByteOrder} {limit limit' : Nat} (hs : 24 ≤ limit)
    {messages : List Message} (hm : ∀ m ∈ messages, m.kind ≠ .fragment ∧
      (m.encode order).length < 2 ^ 32 ∧ (m.encode order).length ≤ limit') :
    ∃ written, messages.mapM (Writer.octets limit · order) = .ok written ∧
      ∀ chunks : List Octets, chunks.flatten = written.flatten →
        ∃ r, (Reader.new limit').readMany ⟨chunks, true⟩ (messages.length + 1) =
            (messages.map (fun m => .done (m, order)) ++ [.failed .closed], r, ⟨[], true⟩) ∧
          r.buffer = [] ∧ r.reassembler.inProgress = 0 := by
  obtain ⟨written, hw, hread⟩ := readMany_messages hs hm
  refine ⟨written, hw, fun chunks hc => ?_⟩
  have ha : (Reader.new limit').At ⟨chunks, true⟩ order limit' (written.flatten ++ []) := by
    refine ⟨?_, rfl, nofun, rfl⟩
    rw [List.append_nil]
    exact hc
  obtain ⟨r, source, ha', hi, hr⟩ := hread 1 ha ⟨fun _ => rfl, rfl⟩
  have hend : r.readMessage source = (.failed .closed, { r with buffer := [] }, ⟨[], true⟩) := by
    rw [readMessage, readFrames, readFrame_end ha']
  refine ⟨{ r with buffer := [] }, ?_, rfl, Reassembler.inProgress_eq_zero hi.pending⟩
  rw [hr, readMany, hend]
  rfl

def conversation : List Message :=
  [.request { id := 5, key := [1, 2, 3], operation := "add", body := List.replicate 20 9 },
    .cancelRequest 5,
    .reply { id := 5, status := .noException, contexts := [⟨1, [4]⟩], body := [8] }]

theorem readMany_written_conversation :
    ∃ written, conversation.mapM (Writer.octets 24 · .bigEndian) = .ok written ∧
      ∃ r, (Reader.new 80).readMany ⟨written.flatten.map ([·]), true⟩ 4 =
          (conversation.map (fun m => .done (m, .bigEndian)) ++ [.failed .closed], r, ⟨[], true⟩) ∧
        r.buffer = [] ∧ r.reassembler.inProgress = 0 := by
  obtain ⟨written, hw, hread⟩ := @readMany_written .bigEndian 24 80 (by decide) conversation
    (by decide +kernel)
  refine ⟨written, hw, hread _ ?_⟩
  rw [← List.flatMap_def]
  exact List.flatMap_singleton' _

end Reader

end ObjectBroker
