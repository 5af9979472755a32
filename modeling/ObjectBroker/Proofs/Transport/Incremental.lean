import ObjectBroker.Proofs.Message.Canonical
import ObjectBroker.Proofs.Message.Outcome
import ObjectBroker.Proofs.Transport.Pipeline

/-! Decoding octets that are still arriving. What has been said of a message stands whatever follows
it, and a reader that finds a whole message in its buffer takes the octets that were said to be its
own. -/

namespace ObjectBroker

lemma Octets.split?_of_le {n : Nat} {octets : Octets} (h : n ≤ octets.length) :
    split? n octets = some (octets.take n, octets.drop n) :=
  if_pos ((atLeast_iff n octets).mpr h)

namespace Header

lemma decode_append {d : Octets} (hd : size ≤ d.length) (e : Octets) :
    decode (d ++ e) = decode d := by
  obtain ⟨front, rest, rfl, hfront⟩ : ∃ front rest, d = front ++ rest ∧ front.length = 12 :=
    ⟨d.take 12, d.drop 12, (List.take_append_drop 12 d).symm, List.length_take_of_le hd⟩
  match front, hfront with
  | [_, _, _, _, _, _, _, _, _, _, _, _], _ => rfl

lemma size_le_frameLength (h : Header) : size ≤ h.frameLength :=
  Nat.le_add_right _ _

end Header

namespace Message

variable {d e : Octets}

lemma decode_of_short (hd : d.length < Header.size) :
    decode d = .ok (.incomplete (Header.size - d.length)) :=
  if_pos hd

lemma decode_of_bad_header {err : WireError} (hd : Header.size ≤ d.length)
    (hh : Header.decode d = .error err) : decode d = .error err := by
  rw [decode, if_neg (Nat.not_lt.mpr hd), hh]
  rfl

section Headed

variable {h : Header} (hd : Header.size ≤ d.length) (hh : Header.decode d = .ok h)
include hd hh

lemma decode_of_header :
    decode d = if d.length < h.frameLength then .ok (.incomplete (h.frameLength - d.length))
      else (decodeBody h ((d.take h.frameLength).drop Header.size)).map fun m =>
        .complete m h.order h.frameLength := by
  rw [decode, if_neg (Nat.not_lt.mpr hd), hh]
  rfl

lemma decode_of_header_append :
    decode (d ++ e) = if (d ++ e).length < h.frameLength then
        .ok (.incomplete (h.frameLength - (d ++ e).length))
      else (decodeBody h (((d ++ e).take h.frameLength).drop Header.size)).map fun m =>
        .complete m h.order h.frameLength :=
  decode_of_header (by simp; omega) (by rw [Header.decode_append hd, hh])

lemma decode_append_of_whole (hl : h.frameLength ≤ d.length) : decode (d ++ e) = decode d := by
  rw [decode_of_header hd hh, decode_of_header_append hd hh, if_neg (by simp; omega),
    if_neg (by omega), List.take_append_of_le_length hl]

end Headed

/-- The three stages of a frame that arrives: its header is not there yet, or it is there and the
body is not, or all is said. -/
lemma decode_stages (d : Octets) :
    d.length < Header.size ∨
    (∃ h, Header.size ≤ d.length ∧ Header.decode d = .ok h ∧ d.length < h.frameLength) ∨
    ∀ e, decode (d ++ e) = decode d ∧ ∀ k, decode d ≠ .ok (.incomplete k) := by
  by_cases hd : d.length < Header.size
  · exact .inl hd
  · have hd := Nat.le_of_not_lt hd
    cases hh : Header.decode d with
    | error err =>
      refine .inr (.inr fun e => ?_)
      have happend : Header.decode (d ++ e) = .error err := by rw [Header.decode_append hd, hh]
      rw [decode_of_bad_header hd hh, decode_of_bad_header (by simp; omega) happend]
      simp
    | ok h =>
      by_cases hl : d.length < h.frameLength
      · exact .inr (.inl ⟨h, hd, rfl, hl⟩)
      · refine .inr (.inr fun e => ⟨decode_append_of_whole hd hh (Nat.le_of_not_lt hl), fun k => ?_⟩)
        rw [decode_of_header hd hh, if_neg hl]
        cases decodeBody h ((d.take h.frameLength).drop Header.size) <;> simp [Except.map]

lemma decode_append_of_said (hsaid : ∀ k, decode d ≠ .ok (.incomplete k)) (e : Octets) :
    decode (d ++ e) = decode d := by
  rcases decode_stages d with hd | ⟨h, hd, hh, hl⟩ | hsame
  · exact absurd (decode_of_short hd) (hsaid _)
  · refine absurd ?_ (hsaid (h.frameLength - d.length))
    rw [decode_of_header hd hh, if_pos hl]
  · exact (hsame e).1

section Incomplete

variable {k : Nat} (hk : decode d = .ok (.incomplete k))
include hk

lemma pos_of_incomplete : 0 < k := by
  rcases decode_stages d with hd | ⟨h, hd, hh, hl⟩ | hsame
  · rw [decode_of_short hd] at hk
    cases hk
    exact Nat.sub_pos_of_lt hd
  · rw [decode_of_header hd hh, if_pos hl] at hk
    cases hk
    exact Nat.sub_pos_of_lt hl
  · exact absurd hk ((hsame []).2 k)

lemma decode_append_of_incomplete (he : e.length < k) :
    decode (d ++ e) = .ok (.incomplete (k - e.length)) := by
  rcases decode_stages d with hd | ⟨h, hd, hh, hl⟩ | hsame
  · rw [decode_of_short hd] at hk
    cases hk
    rw [decode_of_short (by simp; omega), List.length_append, Nat.sub_add_eq]
  · rw [decode_of_header hd hh, if_pos hl] at hk
    cases hk
    rw [decode_of_header_append hd hh, if_pos (by simp; omega), List.length_append, Nat.sub_add_eq]
  · exact absurd hk ((hsame []).2 k)

lemma decode_append_of_enough (hd : Header.size ≤ d.length) (he : k ≤ e.length) (j : Nat) :
    decode (d ++ e) ≠ .ok (.incomplete j) := by
  rcases decode_stages d with hd' | ⟨h, -, hh, hl⟩ | hsame
  · omega
  · rw [decode_of_header hd hh, if_pos hl] at hk
    cases hk
    rw [decode_of_header_append hd hh, if_neg (by simp; omega)]
    cases decodeBody h (((d ++ e).take h.frameLength).drop Header.size) <;> simp [Except.map]
  · exact absurd hk ((hsame []).2 k)

end Incomplete

end Message

namespace Reader

lemma fill_of_le {need : Nat} {buffer : Octets} (h : need ≤ buffer.length) (chunks : List Octets) :
    fill need buffer chunks = (buffer, chunks) := by
  cases chunks with
  | nil => rfl
  | cons chunk chunks => exact if_pos h

lemma readFrame_of_buffered {r : Reader} {h : Header} (hh : Header.decode r.buffer = .ok h)
    (hb : h.frameLength ≤ r.buffer.length) (hl : h.frameLength ≤ r.limit) (source : Inlet) :
    r.readFrame source = (.done (h, (r.buffer.take h.frameLength).drop Header.size),
      { r with buffer := r.buffer.drop h.frameLength }, source) := by
  have hsize : Header.size ≤ r.buffer.length := Nat.le_trans h.size_le_frameLength hb
  rw [readFrame, fill_of_le hsize]
  dsimp only
  rw [if_neg (Nat.not_lt.mpr hsize), hh]
  dsimp only
  rw [if_neg (Nat.not_lt.mpr hl), fill_of_le hb]
  dsimp only
  rw [Octets.split?_of_le hb]

lemma readMessage_of_complete {r : Reader} {m : Message} {order : ByteOrder} {n : Nat}
    (hd : Message.decode r.buffer = .ok (.complete m order n)) (hk : m.kind ≠ .fragment)
    (ho : r.peerOrder = none) (hl : n ≤ r.limit) (source : Inlet) :
    r.readMessage source = (.done (m, order),
      { r with buffer := r.buffer.drop n, peerOrder := some order }, source) := by
  obtain ⟨hn, h, hh, rfl, rfl, hbody⟩ := Message.decode_eq_complete hd
  have hkind : h.kind ≠ .fragment := Message.kind_of_decodeBody hbody ▸ hk
  have hmore := Message.not_more_of_decodeBody hbody hk
  rw [readMessage, readFrames, readFrame_of_buffered hh hn hl]
  dsimp only
  rw [accept, checkOrder, ho]
  dsimp only
  rw [Reassembler.push_whole _ _ hkind hmore]
  dsimp only
  rw [hbody]
  rfl

end Reader

namespace Message

/-- Octets that follow never change what was said: a message or an error stands, the count of the
octets that are missing goes down by what arrives and is exact once the header is there. A reader
with these octets in its buffer finds the same message and leaves what comes after it. -/
theorem decode_incremental (d : Octets) :
    (∀ m order n, decode d = .ok (.complete m order n) →
      ∀ e, decode (d ++ e) = .ok (.complete m order n)) ∧
    (∀ err, decode d = .error err → ∀ e, decode (d ++ e) = .error err) ∧
    (∀ k, decode d = .ok (.incomplete k) → 0 < k ∧
      (∀ e : Octets, e.length < k → decode (d ++ e) = .ok (.incomplete (k - e.length))) ∧
      (Header.size ≤ d.length →
        ∀ e : Octets, k ≤ e.length → ∀ j, decode (d ++ e) ≠ .ok (.incomplete j))) ∧
    (∀ m order n, decode d = .ok (.complete m order n) → m.kind ≠ .fragment →
      ∀ (r : Reader) (source : Inlet), r.buffer = d → r.peerOrder = none → n ≤ r.limit →
        r.readMessage source =
          (.done (m, order), { r with buffer := d.drop n, peerOrder := some order }, source)) := by
  refine ⟨fun m order n hd e => ?_, fun err hd e => ?_, fun k hk => ?_, ?_⟩
  · rw [decode_append_of_said (by simp [hd]), hd]
  · rw [decode_append_of_said (by simp [hd]), hd]
  · exact ⟨pos_of_incomplete hk, fun e => decode_append_of_incomplete hk,
      fun hd e => decode_append_of_enough hk hd⟩
  · rintro m order n hd hk r source rfl ho hl
    exact Reader.readMessage_of_complete hd hk ho hl source

def tidied : Message :=
  .request { id := 7, key := [0x6b], operation := "op", body := [] }

theorem decode_incremental_untidy :
    (∀ e, decode (untidy ++ e) = .ok (.complete tidied .littleEndian 48)) ∧
    (∀ e, decode (untidy.set 3 0x51 ++ e) = .error (.badMagic [0x47, 0x49, 0x4f, 0x51])) ∧
    decode (untidy.take 7 ++ [1, 2]) = .ok (.incomplete 3) ∧
    (∀ e : Octets, 28 ≤ e.length → ∀ j, decode (untidy.take 20 ++ e) ≠ .ok (.incomplete j)) ∧
    ({ Reader.new 48 with buffer := untidy ++ [5, 6] } : Reader).readMessage ⟨[[7]], false⟩ =
      (.done (tidied, .littleEndian),
        { Reader.new 48 with buffer := [5, 6], peerOrder := some .littleEndian },
        ⟨[[7]], false⟩) := by
  have hread : decode untidy = .ok (.complete tidied .littleEndian 48) := rfl
  have hlonger : decode (untidy ++ [5, 6]) = .ok (.complete tidied .littleEndian 48) := rfl
  have hbad : decode (untidy.set 3 0x51) = .error (.badMagic [0x47, 0x49, 0x4f, 0x51]) := rfl
  have hheader : decode (untidy.take 7) = .ok (.incomplete 5) := rfl
  have hbody : decode (untidy.take 20) = .ok (.incomplete 28) := rfl
  refine ⟨(decode_incremental untidy).1 _ _ _ hread,
    (decode_incremental (untidy.set 3 0x51)).2.1 _ hbad,
    ((decode_incremental (untidy.take 7)).2.2.1 5 hheader).2.1 [1, 2] (by decide),
    ((decode_incremental (untidy.take 20)).2.2.1 28 hbody).2.2 (by decide), ?_⟩
  exact (decode_incremental (untidy ++ [5, 6])).2.2.2 _ _ _ hlonger (by decide) _ _ rfl rfl
    (by decide)

end Message

end ObjectBroker
