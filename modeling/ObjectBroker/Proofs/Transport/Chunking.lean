import ObjectBroker.Proofs.Fragment.Pending
import ObjectBroker.Proofs.Transport.Incremental

/-! Reading from a stream that arrives in pieces. Every reading goes as if all that will ever arrive
were in the buffer from the start, so that only the octets matter and not where they are cut. -/

namespace ObjectBroker

namespace Inlet

def drained (source : Inlet) : Inlet :=
  { source with chunks := [] }

end Inlet

namespace Reader

def gathered (r : Reader) (source : Inlet) : Reader :=
  { r with buffer := r.buffer ++ source.chunks.flatten }

def gather {α : Type} (x : α × Reader × Inlet) : α × Reader × Inlet :=
  (x.1, x.2.1.gathered x.2.2, x.2.2.drained)

lemma fill_cases (need : Nat) (buffer : Octets) (chunks : List Octets) :
    ∃ b cs, fill need buffer chunks = (b, cs) ∧ b ++ cs.flatten = buffer ++ chunks.flatten ∧
      (need ≤ b.length ∨ cs = []) :=
  ⟨_, _, rfl, fill_append need buffer chunks, fill_enough need buffer chunks⟩

lemma readFrame_gathered (r : Reader) (source : Inlet) :
    (r.gathered source).readFrame source.drained = gather (r.readFrame source) := by
  obtain ⟨b, cs, hfill, hall, henough⟩ := fill_cases Header.size r.buffer source.chunks
  rw [readFrame, readFrame, hfill]
  simp only [gathered, Inlet.drained, fill, ← hall]
  by_cases hsize : b.length < Header.size
  · obtain rfl := henough.resolve_left (Nat.not_le.mpr hsize)
    simp only [List.flatten_nil, List.append_nil, if_pos hsize]
    split_ifs <;> simp [gather, gathered, Inlet.drained]
  · have hsize' : ¬ (b ++ cs.flatten).length < Header.size := by simp; omega
    rw [if_neg hsize, if_neg hsize', Header.decode_append (Nat.le_of_not_lt hsize)]
    cases Header.decode b with
    | error e => simp [gather, gathered, Inlet.drained]
    | ok h =>
      dsimp only
      by_cases hlimit : r.limit < h.frameLength
      · simp [gather, gathered, Inlet.drained, hlimit]
      · rw [if_neg hlimit, if_neg hlimit]
        obtain ⟨b', cs', hfill', hall', henough'⟩ := fill_cases h.frameLength b cs
        rw [hfill', ← hall']
        dsimp only
        by_cases hwhole : h.frameLength ≤ b'.length
        · rw [Octets.split?_of_le hwhole, Octets.split?_of_le (by simp; omega),
            List.take_append_of_le_length hwhole, List.drop_append_of_le_length hwhole]
          rfl
        · obtain rfl := henough'.resolve_left hwhole
          have hsplit : Octets.split? h.frameLength b' = none :=
            Octets.split?_eq_none_iff.mpr (Nat.lt_of_not_le hwhole)
          rw [List.flatten_nil, List.append_nil, hsplit]
          dsimp only
          split_ifs <;> simp [gather, gathered, Inlet.drained]

lemma checkOrder_cases (r : Reader) (order : ByteOrder) :
    (r.checkOrder order = .ok { r with peerOrder := some order } ∧
      ∀ known, r.peerOrder = some known → known = order) ∨
    r.checkOrder order = .error .byteOrderChanged := by
  rcases r with ⟨limit, buffer, _ | known, R⟩
  · exact .inl ⟨rfl, fun _ hk => by cases hk⟩
  · rw [checkOrder]
    dsimp only
    by_cases ho : known = order
    · rw [if_pos ho, ho]
      exact .inl ⟨rfl, fun _ hk => (Option.some.inj hk).symm⟩
    · exact .inr (if_neg ho)

lemma accept_gathered (r : Reader) (source : Inlet) (h : Header) (body : Octets) :
    (r.gathered source).accept h body =
      ((r.accept h body).1, (r.accept h body).2.gathered source) := by
  have hcheck : (r.gathered source).checkOrder h.order =
      (r.checkOrder h.order).map (gathered · source) := by
    rcases r with ⟨limit, buffer, _ | known, R⟩
    · rfl
    · simp only [gathered, checkOrder]
      split_ifs <;> rfl
  rw [accept, accept, hcheck]
  cases r.checkOrder h.order with
  | error e => rfl
  | ok r₁ =>
    rcases hpush : r₁.reassembler.push h body with e | ⟨_ | whole, R⟩ <;>
      simp [Except.map, gathered, hpush]

lemma readFrames_gathered (r : Reader) (source : Inlet) (fuel : Nat) :
    (r.gathered source).readFrames source.drained fuel = gather (r.readFrames source fuel) := by
  induction fuel generalizing r source with
  | zero => rfl
  | succ fuel ih =>
    rw [readFrames, readFrames, readFrame_gathered]
    rcases r.readFrame source with ⟨⟨h, body⟩ | e | _, r₁, source₁⟩
    · simp only [gather, accept_gathered]
      rcases r₁.accept h body with ⟨e | _ | m, r₂⟩
      · rfl
      · exact ih r₂ source₁
      · rfl
    · rfl
    · rfl

lemma readMessage_gathered (r : Reader) (source : Inlet) :
    (r.gathered source).readMessage source.drained = gather (r.readMessage source) := by
  have havailable : (r.gathered source).available source.drained = r.available source := by
    simp [available, Octets.total_eq, gathered, Inlet.drained]
  rw [readMessage, readMessage, havailable, readFrames_gathered]

/-- How a reader can look some time later: no fragment has become a message, and the order of the
peer stays once it is known. -/
structure Becomes (r r' : Reader) : Prop where
  tidy : r.reassembler.Tidy → r'.reassembler.Tidy
  order : ∀ o, r.peerOrder = some o → r'.peerOrder = some o

lemma Becomes.trans {r r' r'' : Reader} (h : r.Becomes r') (h' : r'.Becomes r'') :
    r.Becomes r'' :=
  ⟨fun hr => h'.tidy (h.tidy hr), fun o ho => h'.order o (h.order o ho)⟩

lemma Becomes.buffer (r : Reader) (buffer : Octets) : r.Becomes { r with buffer } :=
  ⟨id, fun _ => id⟩

lemma buffer_accept (r : Reader) (h : Header) (body : Octets) :
    (r.accept h body).2.buffer = r.buffer := by
  rcases r.checkOrder_cases h.order with ⟨hcheck, -⟩ | hcheck
  · rw [accept, hcheck]
    dsimp only
    rcases r.reassembler.push h body with e | ⟨_ | whole, R⟩ <;> rfl
  · rw [accept, hcheck]

lemma accept_spec (r : Reader) (h : Header) (body : Octets) :
    r.Becomes (r.accept h body).2 ∧ ∀ m o, r.reassembler.Tidy →
      (r.accept h body).1 = .ok (some (m, o)) →
      (r.accept h body).2.peerOrder = some o ∧ m.kind ≠ .fragment := by
  rcases r.checkOrder_cases h.order with ⟨hcheck, hknown⟩ | hcheck
  · have horder : ∀ o, r.peerOrder = some o → some h.order = some o :=
      fun o ho => congrArg some (hknown o ho).symm
    rw [accept, hcheck]
    dsimp only
    rcases hpush : r.reassembler.push h body with e | ⟨_ | ⟨h', body'⟩, R⟩
    · exact ⟨⟨id, horder⟩, fun m o _ hm => by cases hm⟩
    · exact ⟨⟨fun hr => hr.pushed (Reassembler.pushed_of_push hpush), horder⟩,
        fun m o _ hm => by cases hm⟩
    · have hpushed := Reassembler.pushed_of_push hpush
      refine ⟨⟨fun hr => hr.pushed hpushed, horder⟩, fun m o hr hm => ?_⟩
      obtain ⟨hkind, hsame⟩ := hr.whole hpushed rfl
      dsimp only at hm hkind hsame ⊢
      cases hbody : Message.decodeBody h' body' with
      | error e =>
        rw [hbody] at hm
        cases hm
      | ok m' =>
        rw [hbody] at hm
        cases hm
        exact ⟨congrArg some hsame.symm, Message.kind_of_decodeBody hbody ▸ hkind⟩
  · rw [accept, hcheck]
    exact ⟨⟨id, fun _ => id⟩, fun m o _ hm => by cases hm⟩

lemma readFrame_cases (r : Reader) (source : Inlet) :
    ∃ x buffer chunks, r.readFrame source = (x, { r with buffer }, { source with chunks }) ∧
      (x = .waiting → source.ended = false) ∧
      ∀ frame, x = .done frame → buffer.length + chunks.flatten.length < r.available source := by
  have hfailed (e : WireError) (b : Octets) (cs : List Octets) :
      ∃ x buffer chunks, ((.failed e, { r with buffer := b }, { source with chunks := cs }) :
          Read (Header × Octets) × Reader × Inlet) =
            (x, { r with buffer }, { source with chunks }) ∧
        (x = .waiting → source.ended = false) ∧
        ∀ frame, x = .done frame → buffer.length + chunks.flatten.length < r.available source :=
    ⟨_, _, _, rfl, fun hx => (by cases hx), fun _ hx => by cases hx⟩
  obtain ⟨b, cs, hfill, hall, -⟩ := fill_cases Header.size r.buffer source.chunks
  rw [readFrame, hfill]
  dsimp only
  by_cases hsize : b.length < Header.size
  · rw [if_pos hsize]
    split_ifs with hended hempty
    · exact ⟨_, _, _, rfl, fun _ => by simpa using hended, fun _ hx => by cases hx⟩
    · exact hfailed _ _ _
    · exact hfailed _ _ _
  · rw [if_neg hsize]
    cases Header.decode b with
    | error e => exact hfailed _ _ _
    | ok h =>
      dsimp only
      by_cases hlimit : r.limit < h.frameLength
      · rw [if_pos hlimit]
        exact hfailed _ _ _
      · rw [if_neg hlimit]
        obtain ⟨b', cs', hfill', hall', -⟩ := fill_cases h.frameLength b cs
        rw [hfill']
        dsimp only
        cases hsplit : Octets.split? h.frameLength b' with
        | some parts =>
          refine ⟨_, _, _, rfl, fun hx => (by cases hx), fun frame _ => ?_⟩
          have hfront := Octets.length_of_split? hsplit
          have hboth := congrArg List.length (Octets.append_of_split? hsplit)
          have hlength := congrArg List.length (hall'.trans hall)
          have hpos : 0 < h.frameLength := Nat.lt_of_lt_of_le (by decide) h.size_le_frameLength
          simp only [List.length_append] at hboth hlength
          rw [available, Octets.total_eq]
          omega
        | none =>
          dsimp only
          split_ifs with hended
          · exact hfailed _ _ _
          · exact ⟨_, _, _, rfl, fun _ => by simpa using hended, fun _ hx => by cases hx⟩

lemma readFrames_spec (r : Reader) (source : Inlet) (fuel : Nat) :
    r.Becomes (r.readFrames source fuel).2.1 ∧
      (r.readFrames source fuel).2.2.ended = source.ended ∧
      (∀ m o, r.reassembler.Tidy → (r.readFrames source fuel).1 = .done (m, o) →
        (r.readFrames source fuel).2.1.peerOrder = some o ∧ m.kind ≠ .fragment) ∧
      (source.ended = true → r.available source < fuel →
        (r.readFrames source fuel).1 ≠ .waiting) := by
  induction fuel generalizing r source with
  | zero =>
    exact ⟨.buffer r r.buffer, rfl, fun m o _ hm => (by cases hm), fun _ hfuel => by omega⟩
  | succ fuel ih =>
    obtain ⟨x, buffer, chunks, hread, hwait, hless⟩ := r.readFrame_cases source
    have hbuffer := Becomes.buffer r buffer
    rw [readFrames, hread]
    cases x with
    | waiting =>
      refine ⟨hbuffer, rfl, fun m o _ hm => (by cases hm), fun hended _ => ?_⟩
      rw [hwait rfl] at hended
      cases hended
    | failed e =>
      exact ⟨hbuffer, rfl, fun m o _ hm => (by cases hm), fun _ _ hx => by cases hx⟩
    | done frame =>
      dsimp only
      obtain ⟨hbecomes, hmessage⟩ := accept_spec { r with buffer } frame.1 frame.2
      have hbuffer' := buffer_accept { r with buffer } frame.1 frame.2
      have havailable := hless frame rfl
      rcases haccept : ({ r with buffer } : Reader).accept frame.1 frame.2 with ⟨e | _ | m, r'⟩
      all_goals
        rw [haccept] at hbecomes hmessage hbuffer'
        dsimp only at hbecomes hmessage hbuffer' ⊢
      · exact ⟨hbuffer.trans hbecomes, rfl, fun m o _ hm => (by cases hm), fun _ _ hx => by cases hx⟩
      · obtain ⟨hlater, hended, hdone, hwaits⟩ := ih r' { source with chunks }
        refine ⟨hbuffer.trans (hbecomes.trans hlater), hended,
          fun m o hr => hdone m o (hbecomes.tidy hr), fun he hfuel => hwaits he ?_⟩
        rw [available, Octets.total_eq, hbuffer']
        dsimp only
        omega
      · refine ⟨hbuffer.trans hbecomes, rfl, fun m' o hr hm => ?_, fun _ _ hx => by cases hx⟩
        cases hm
        exact hmessage _ _ hr rfl

/-- What can be asked of a reader. -/
inductive Call where
  | frame
  | message

inductive Answer where
  | frame (result : Read (Header × Octets))
  | message (result : Read (Message × ByteOrder))

def call (r : Reader) (source : Inlet) : Call → Answer × Reader × Inlet
  | .frame => (.frame (r.readFrame source).1, (r.readFrame source).2)
  | .message => (.message (r.readMessage source).1, (r.readMessage source).2)

/-- The answers to calls in turn, whether or not the ones before succeeded, each with the order of
the peer as it is known afterwards. -/
def answers (r : Reader) (source : Inlet) : List Call → List (Answer × Option ByteOrder)
  | [] => []
  | c :: calls =>
    let (answer, r, source) := r.call source c
    (answer, r.peerOrder) :: r.answers source calls

lemma call_gathered (r : Reader) (source : Inlet) (c : Call) :
    (r.gathered source).call source.drained c = gather (r.call source c) := by
  cases c with
  | frame =>
    rw [call, readFrame_gathered]
    rfl
  | message =>
    rw [call, readMessage_gathered]
    rfl

lemma answers_gathered (r : Reader) (source : Inlet) (calls : List Call) :
    (r.gathered source).answers source.drained calls = r.answers source calls := by
  induction calls generalizing r source with
  | nil => rfl
  | cons c calls ih =>
    rw [answers, answers, call_gathered]
    exact congrArg (_ :: ·) (ih _ _)

lemma call_spec (r : Reader) {source : Inlet} (hended : source.ended = true) (c : Call) :
    r.Becomes (r.call source c).2.1 ∧ (r.call source c).2.2.ended = true ∧
      ((r.call source c).1 ≠ .frame .waiting ∧ (r.call source c).1 ≠ .message .waiting) ∧
      ∀ m o, r.reassembler.Tidy → (r.call source c).1 = .message (.done (m, o)) →
        (r.call source c).2.1.peerOrder = some o ∧ m.kind ≠ .fragment := by
  cases c with
  | frame =>
    obtain ⟨x, buffer, chunks, hread, hwait, -⟩ := r.readFrame_cases source
    rw [call, hread]
    refine ⟨.buffer r buffer, hended, ⟨fun hx => ?_, fun hx => by cases hx⟩,
      fun m o _ hm => by cases hm⟩
    rw [hwait (Answer.frame.inj hx)] at hended
    cases hended
  | message =>
    obtain ⟨hbecomes, hsame, hdone, hwait⟩ := r.readFrames_spec source (r.available source + 1)
    refine ⟨hbecomes, hsame.trans hended, ⟨fun hx => (by cases hx), fun hx => ?_⟩, ?_⟩
    · exact hwait hended (Nat.lt_succ_self _) (Answer.message.inj hx)
    · exact fun m o hr hm => hdone m o hr (Answer.message.inj hm)

lemma answers_spec {r : Reader} {source : Inlet} (hr : r.reassembler.Tidy)
    (hended : source.ended = true) (calls : List Call) :
    (∀ x ∈ r.answers source calls, ∀ o, r.peerOrder = some o → x.2 = some o) ∧
      (r.answers source calls).Pairwise (fun x y => ∀ o, x.2 = some o → y.2 = some o) ∧
      ∀ x ∈ r.answers source calls, (x.1 ≠ .frame .waiting ∧ x.1 ≠ .message .waiting) ∧
        ∀ m o, x.1 = .message (.done (m, o)) → x.2 = some o ∧ m.kind ≠ .fragment := by
  induction calls generalizing r source with
  | nil => simp [answers]
  | cons c calls ih =>
    obtain ⟨hbecomes, hended', hwait, hdone⟩ := r.call_spec hended c
    obtain ⟨hknown, hpairwise, hall⟩ := ih (hbecomes.tidy hr) hended'
    rw [answers]
    refine ⟨?_, List.pairwise_cons.mpr ⟨hknown, hpairwise⟩, ?_⟩
    · refine List.forall_mem_cons.mpr ⟨hbecomes.order, fun x hx o ho => ?_⟩
      exact hknown x hx o (hbecomes.order o ho)
    · exact List.forall_mem_cons.mpr ⟨⟨hwait, fun m o => hdone m o hr⟩, hall⟩

/-- Reading depends only on the octets and not on how they arrive. However the stream is cut, the
same calls get the same answers, errors included, and the order of the peer is known at the same
time. Every call is answered, an order that is known stays, every message has it, and no message is
a fragment. -/
theorem answers_of_octets (limit : Nat) (octets : Octets) (calls : List Call)
    {chunks chunks' : List Octets} (h : chunks.flatten = octets) (h' : chunks'.flatten = octets) :
    (new limit).answers ⟨chunks, true⟩ calls = (new limit).answers ⟨chunks', true⟩ calls ∧
      ((new limit).answers ⟨chunks, true⟩ calls).Pairwise
        (fun x y => ∀ o, x.2 = some o → y.2 = some o) ∧
      ∀ x ∈ (new limit).answers ⟨chunks, true⟩ calls,
        (x.1 ≠ .frame .waiting ∧ x.1 ≠ .message .waiting) ∧
        ∀ m o, x.1 = .message (.done (m, o)) → x.2 = some o ∧ m.kind ≠ .fragment := by
  have htidy : (new limit).reassembler.Tidy := fun id a hm => absurd hm List.not_mem_nil
  obtain ⟨-, hpairwise, hall⟩ := @answers_spec (new limit) ⟨chunks, true⟩ htidy rfl calls
  refine ⟨?_, hpairwise, hall⟩
  rw [← answers_gathered, ← answers_gathered _ ⟨chunks', true⟩, gathered, gathered, h, h']
  rfl

def mixed : Octets :=
  Message.messageError.encode .bigEndian ++ Message.closeConnection.encode .littleEndian ++
    Header.magic

theorem answers_of_octets_mixed :
    (new 64).answers ⟨mixed.map ([·]), true⟩ [.message, .message, .frame] =
      [(.message (.done (.messageError, .bigEndian)), some .bigEndian),
        (.message (.failed .byteOrderChanged), some .bigEndian),
        (.frame (.failed (incomplete "incomplete GIOP header")), some .bigEndian)] := by
  have hsingle : (mixed.map ([·])).flatten = mixed := by
    rw [← List.flatMap_def]
    exact List.flatMap_singleton' _
  have hsame := (answers_of_octets 64 mixed [.message, .message, .frame] hsingle
    (List.flatten_singleton (l := mixed))).1
  exact hsame.trans rfl

end Reader

end ObjectBroker
