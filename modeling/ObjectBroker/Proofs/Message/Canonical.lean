import ObjectBroker.Proofs.Message.RoundTrip
import ObjectBroker.Proofs.Stream.Retrace

/-! Messages come back from their frames whatever follows, and a frame that was read in any form is
no shorter than the one its message is written in. -/

namespace ObjectBroker

namespace Message

open Reading

variable {i j : Input} {o : Output} {last : Nat}

lemma abreast_getContext (h : i.Abreast o last) {c : ServiceContext}
    (hr : getContext.run i = (.ok c, j)) : j.Abreast (putContext o c) last := by
  obtain ⟨id, k, hid, hrest⟩ := of_run_bind hr
  obtain ⟨data, k', hdata, hpure⟩ := of_run_bind hrest
  obtain ⟨rfl, rfl⟩ := of_run_pure hpure
  exact (h.uint32 (of_run_adapt hid) id).octets (of_run_adapt hdata)

lemma abreast_getContexts (h : i.Abreast o last) {cs : List ServiceContext}
    (hr : getContexts.run i = (.ok cs, j)) : j.Abreast (putContexts o cs) last := by
  obtain ⟨n, k, hcount, hrest⟩ := of_run_bind hr
  obtain ⟨i', k', hget, hmany⟩ := of_run_bind hrest
  cases hget
  dsimp only at hmany
  split at hmany
  · cases hmany
  · rw [putContexts, Input.Abreast.length_many hmany]
    exact (h.word (of_run_adapt hcount) n).many (fun h hr => abreast_getContext h hr) hmany

lemma abreast_getAddressing (h : i.Abreast o last) {u : Unit}
    (hr : getAddressing.run i = (.ok u, j)) :
    j.Abreast (o.putWord 2 keyAddressing) last := by
  obtain ⟨n, k, hword, hrest⟩ := of_run_bind hr
  split at hrest
  · cases hrest
  · obtain ⟨-, rfl⟩ := of_run_pure hrest
    exact h.word (of_run_adapt hword) _

lemma position_putPayload_le (h : i.Abreast o last) {payload : Octets}
    (hr : getPayload.run i = (.ok payload, j)) : (putPayload o payload).position ≤ last := by
  obtain ⟨i', k, hget, hrest⟩ := of_run_bind hr
  cases hget
  rw [putPayload]
  split at hrest
  · obtain ⟨rfl, -⟩ := of_run_pure hrest
    exact h.position_le
  · obtain ⟨u, k', halign, hraw⟩ := of_run_bind hrest
    have haligned := h.align (of_run_adapt halign)
    have hread := haligned.rest (of_run_adapt hraw)
    split
    · exact h.position_le
    · exact hread.position_le

lemma position_putRequest_le (h : i.Abreast o last) {r : Request}
    (hr : getRequest.run i = (.ok r, j)) : (putRequest o r).position ≤ last := by
  obtain ⟨id, k₁, hid, h₁⟩ := of_run_bind hr
  obtain ⟨flags, k₂, hflags, h₂⟩ := of_run_bind h₁
  obtain ⟨reserved, k₃, hreserved, h₃⟩ := of_run_bind h₂
  obtain ⟨u, k₄, haddress, h₄⟩ := of_run_bind h₃
  obtain ⟨key, k₅, hkey, h₅⟩ := of_run_bind h₄
  obtain ⟨operation, k₆, hoperation, h₆⟩ := of_run_bind h₅
  obtain ⟨contexts, k₇, hcontexts, h₇⟩ := of_run_bind h₆
  obtain ⟨body, k₈, hbody, h₈⟩ := of_run_bind h₇
  obtain ⟨rfl, rfl⟩ := of_run_pure h₈
  let flag : UInt8 := if decide (flags &&& 1 ≠ 0) then 3 else 0
  have hfront := (h.uint32 (of_run_adapt hid) id).octet (of_run_adapt hflags) flag
  have hfixed := hfront.raw (of_run_adapt hreserved) (y := [0, 0, 0]) rfl
  rw [Output.append_append] at hfixed
  have hnamed := ((abreast_getAddressing hfixed haddress).octets (of_run_adapt hkey)).string
    (of_run_adapt hoperation)
  exact position_putPayload_le (abreast_getContexts hnamed hcontexts) hbody

lemma position_putReply_le (h : i.Abreast o last) {r : Reply}
    (hr : getReply.run i = (.ok r, j)) : (putReply o r).position ≤ last := by
  obtain ⟨id, k₁, hid, h₁⟩ := of_run_bind hr
  obtain ⟨code, k₂, hcode, h₂⟩ := of_run_bind h₁
  cases hs : ReplyStatus.ofCode? code with
  | none =>
    rw [hs] at h₂
    cases h₂
  | some status =>
    rw [hs] at h₂
    obtain ⟨contexts, k₃, hcontexts, h₃⟩ := of_run_bind h₂
    obtain ⟨body, k₄, hbody, h₄⟩ := of_run_bind h₃
    obtain ⟨rfl, rfl⟩ := of_run_pure h₄
    have hfront := (h.uint32 (of_run_adapt hid) id).uint32 (of_run_adapt hcode) status.code
    exact position_putPayload_le (abreast_getContexts hfront hcontexts) hbody

lemma position_putBody_le (h : i.Abreast o last) {header : Header} {m : Message}
    (hr : (getBody header).run i = (.ok m, j)) : (putBody o m).position ≤ last := by
  rw [getBody] at hr
  cases hk : header.kind with
  | request =>
    rw [hk] at hr
    obtain ⟨r, hread, rfl⟩ := of_run_map hr
    exact position_putRequest_le h hread
  | reply =>
    rw [hk] at hr
    obtain ⟨r, hread, rfl⟩ := of_run_map hr
    exact position_putReply_le h hread
  | cancelRequest =>
    rw [hk] at hr
    obtain ⟨id, k, hid, hpure⟩ := of_run_bind hr
    obtain ⟨rfl, rfl⟩ := of_run_pure hpure
    exact (h.uint32 (of_run_adapt hid) id).position_le
  | locateRequest =>
    rw [hk] at hr
    obtain ⟨id, k₁, hid, h₁⟩ := of_run_bind hr
    obtain ⟨u, k₂, haddress, h₂⟩ := of_run_bind h₁
    obtain ⟨key, k₃, hkey, hpure⟩ := of_run_bind h₂
    obtain ⟨rfl, rfl⟩ := of_run_pure hpure
    have haddressed := abreast_getAddressing (h.uint32 (of_run_adapt hid) id) haddress
    exact (haddressed.octets (of_run_adapt hkey)).position_le
  | locateReply =>
    rw [hk] at hr
    obtain ⟨id, k₁, hid, h₁⟩ := of_run_bind hr
    obtain ⟨code, k₂, hcode, h₂⟩ := of_run_bind h₁
    cases hs : LocateStatus.ofCode? code with
    | none =>
      rw [hs] at h₂
      cases h₂
    | some status =>
      rw [hs] at h₂
      obtain ⟨rfl, rfl⟩ := of_run_pure h₂
      have hfront := h.uint32 (of_run_adapt hid) id
      exact (hfront.uint32 (of_run_adapt hcode) status.code).position_le
  | closeConnection =>
    rw [hk] at hr
    obtain ⟨rfl, rfl⟩ := of_run_pure hr
    exact h.position_le
  | messageError =>
    rw [hk] at hr
    obtain ⟨rfl, rfl⟩ := of_run_pure hr
    exact h.position_le
  | fragment =>
    rw [hk] at hr
    obtain ⟨id, k₁, hid, h₁⟩ := of_run_bind hr
    obtain ⟨data, k₂, hdata, hpure⟩ := of_run_bind h₁
    obtain ⟨rfl, rfl⟩ := of_run_pure hpure
    exact ((h.uint32 (of_run_adapt hid) id).rest (of_run_adapt hdata)).position_le

lemma extends_putBody (m : Message) (o : Output) : o.Extends (putBody o m) := by
  cases m with
  | request r =>
    refine .trans ?_ ((extends_putContexts _ r.contexts).trans (extends_putPayload _ r.body))
    exact ((((o.extends_putWord 4 _).trans (Output.extends_append _ _)).trans
      (Output.extends_putWord _ 2 _)).trans (Output.extends_putOctets _ _)).trans
      (Output.extends_putString _ _)
  | reply r =>
    refine .trans ?_ ((extends_putContexts _ r.contexts).trans (extends_putPayload _ r.body))
    exact (o.extends_putWord 4 _).trans (Output.extends_putWord _ 4 _)
  | cancelRequest id => exact o.extends_putWord 4 _
  | locateRequest id key =>
    exact ((o.extends_putWord 4 _).trans (Output.extends_putWord _ 2 _)).trans
      (Output.extends_putOctets _ _)
  | locateReply id status => exact (o.extends_putWord 4 _).trans (Output.extends_putWord _ 4 _)
  | closeConnection => exact .refl o
  | messageError => exact .refl o
  | fragment id more data => exact (o.extends_putWord 4 _).trans (Output.extends_append _ _)

lemma length_body_le_of_decodeBody {h : Header} {octets : Octets} {m : Message}
    (hm : decodeBody h octets = .ok m) : (m.body h.order).length ≤ octets.length := by
  rw [decodeBody] at hm
  split at hm
  · cases hm
  · let i : Input := { order := h.order, position := Header.size, rest := octets }
    let o : Output := { order := h.order, origin := Header.size }
    have habreast : i.Abreast o (Header.size + octets.length) := ⟨rfl, rfl, rfl⟩
    have hle := position_putBody_le habreast (Prod.ext hm rfl)
    have hposition : (putBody o m).position = Header.size + (m.body h.order).length := by
      obtain ⟨x, hx⟩ := extends_putBody m o
      rw [body, Output.length_octets, Output.position, hx]
      rfl
    omega

lemma decode_eq_complete {d : Octets} {m : Message} {order : ByteOrder} {n : Nat}
    (h : decode d = .ok (.complete m order n)) :
    n ≤ d.length ∧ ∃ header : Header, Header.decode d = .ok header ∧ header.order = order ∧
      header.frameLength = n ∧ decodeBody header ((d.take n).drop Header.size) = .ok m := by
  rw [decode] at h
  split at h
  · cases h
  · cases hd : Header.decode d with
    | error e =>
      rw [hd] at h
      cases h
    | ok header =>
      rw [hd] at h
      change (if _ then _ else _) = _ at h
      split at h
      · cases h
      · next hlength =>
        cases hb : decodeBody header ((d.take header.frameLength).drop Header.size) with
        | error e =>
          rw [hb] at h
          cases h
        | ok message =>
          rw [hb] at h
          cases h
          exact ⟨Nat.le_of_not_lt hlength, header, rfl, rfl, rfl, hb⟩

lemma length_body_le_of_decode {d : Octets} {m : Message} {order : ByteOrder} {n : Nat}
    (h : decode d = .ok (.complete m order n)) :
    (m.body order).length < 2 ^ 32 ∧ (m.encode order).length ≤ n := by
  obtain ⟨-, header, -, rfl, rfl, hbody⟩ := decode_eq_complete h
  have hle := length_body_le_of_decodeBody hbody
  have hsize := header.bodySize.toNat_lt
  rw [length_encode, Header.frameLength]
  rw [List.length_drop, List.length_take, Header.frameLength] at hle
  omega

lemma decode_encode_append (m : Message) (order : ByteOrder) (h : (m.body order).length < 2 ^ 32)
    (t : Octets) :
    decode (m.encode order ++ t) = .ok (.complete m order (m.encode order).length) := by
  have hframe : (m.header order).frameLength = (m.encode order).length := by
    rw [Header.frameLength, bodySize_header_of_body m order h, length_encode]
  have hbody : ((m.encode order ++ t).take (m.encode order).length).drop Header.size =
      m.body order := by
    rw [List.take_left' rfl, encode, ← Header.length_encode (m.header order)]
    exact List.drop_left
  have hlong : ¬ (m.encode order ++ t).length < (m.encode order).length := by
    rw [List.length_append]
    omega
  have hheader : ¬ (m.encode order ++ t).length < Header.size := by
    rw [List.length_append, length_encode]
    omega
  have hdecode : Header.decode (m.encode order ++ t) = .ok (m.header order) := by
    rw [encode, List.append_assoc]
    exact Header.decode_encode_append _ _
  rw [decode, if_neg hheader, hdecode]
  change (if (m.encode order ++ t).length < (m.header order).frameLength then _ else _) = _
  rw [hframe, if_neg hlong, hbody, decodeBody_body m order h, header_order]
  rfl

/-- A message is read back from its frame, whatever follows, and every frame that holds a message
holds what its own frame holds, in at least as many octets. -/
theorem encode_canonical (m : Message) (order : ByteOrder) :
    ((m.body order).length < 2 ^ 32 → ∀ t : Octets,
      decode (m.encode order ++ t) = .ok (.complete m order (m.encode order).length)) ∧
    ∀ (d : Octets) (n : Nat), decode d = .ok (.complete m order n) →
      decode (m.encode order) = .ok (.complete m order (m.encode order).length) ∧
        (m.encode order).length ≤ n ∧ n ≤ d.length := by
  refine ⟨decode_encode_append m order, fun d n h => ?_⟩
  obtain ⟨hbody, hle⟩ := length_body_le_of_decode h
  have hround := decode_encode_append m order hbody []
  rw [List.append_nil] at hround
  exact ⟨hround, hle, (decode_eq_complete h).1⟩

def untidy : Octets :=
  [0x47, 0x49, 0x4f, 0x50, 1, 2, 0x81, 0, 36, 0, 0, 0,
   7, 0, 0, 0, 0x7d, 9, 9, 9, 0, 0, 0xaa, 0xbb, 1, 0, 0, 0, 0x6b, 1, 2, 3,
   3, 0, 0, 0, 0x6f, 0x70, 0, 0xff, 0, 0, 0, 0, 4, 5, 6, 7]

theorem encode_canonical_untidy :
    let m : Message := .request
      { id := 7, responseExpected := true, key := [0x6b], operation := "op", contexts := [],
        body := [] }
    decode (m.encode .bigEndian ++ untidy) =
        .ok (.complete m .bigEndian (m.encode .bigEndian).length) ∧
      decode (untidy ++ [1, 2]) = .ok (.complete m .littleEndian 48) ∧
      decode (m.encode .littleEndian) =
        .ok (.complete m .littleEndian (m.encode .littleEndian).length) ∧
      (m.encode .littleEndian).length ≤ 48 ∧ m.encode .littleEndian ≠ untidy := by
  intro m
  have hread : decode (untidy ++ [1, 2]) = .ok (.complete m .littleEndian 48) := rfl
  obtain ⟨hround, hle, -⟩ := (encode_canonical m .littleEndian).2 _ _ hread
  exact ⟨(encode_canonical m .bigEndian).1 (by decide +kernel) _, hread, hround, hle,
    by decide +kernel⟩

end Message

end ObjectBroker
