import ObjectBroker.Proofs.Fragment.Layout
import ObjectBroker.Proofs.Transport.Chunking

/-! The limit on what is received. A frame is refused by its own length and a fragment by the length
of the message so far; together the two refuse just the messages that are too long, however they
were cut. -/

namespace ObjectBroker

lemma Header.withMore_withMore (h : Header) (more : Bool) :
    (h.withMore more).withMore false = h.withMore false := by
  have hflags : (h.withMore more).flags &&& 0xfd = h.flags &&& 0xfd := by
    cases more with
    | false => exact UInt8.and_assoc h.flags 0xfd 0xfd
    | true =>
      change (h.flags ||| 2) &&& 0xfd = _
      rw [Header.or_and]
      exact UInt8.or_zero
  change { h with flags := (h.withMore more).flags &&& 0xfd } = _
  rw [hflags]
  rfl

namespace Reassembler

lemma push_fragment_tooLarge (R : Reassembler) {h : Header} {body : Octets} {id : UInt32}
    {a : Assembly} (hk : h.kind = .fragment) (hid : Fragment.leadingId h body = .ok id)
    (ha : R.get? id = some a) (ho : a.header.order = h.order)
    (hl : R.limit < Header.size + a.body.length + (body.drop 4).length) :
    R.push h body =
      .error (.tooLarge (Header.size + a.body.length + (body.drop 4).length) R.limit) := by
  have happend : a.append R.limit (body.drop 4) =
      .error (.tooLarge (Header.size + a.body.length + (body.drop 4).length) R.limit) :=
    if_pos hl
  rw [push, if_pos hk, pushFragment, hid]
  dsimp only [bind, Except.bind]
  rw [ha]
  dsimp only
  rw [if_neg (not_not_intro ho), happend]

end Reassembler

namespace Reader

variable {r : Reader} {source : Inlet} {order : ByteOrder} {limit : Nat}

lemma readFrame_tooLarge {h : Header} {rest : Octets}
    (ha : r.At source order limit (h.encode ++ rest)) (hl : limit < h.frameLength) :
    (r.readFrame source).1 = .failed (.tooLarge h.frameLength limit) := by
  have hsize : Header.size ≤ (h.encode ++ rest).length := by
    rw [List.length_append, h.length_encode]
    exact Nat.le_add_right _ _
  have hread : (r.readFrame source).1 = ((r.gathered source).readFrame source.drained).1 := by
    rw [readFrame_gathered]
    rfl
  rw [hread, gathered, ha.rest, readFrame, fill_of_le hsize]
  dsimp only
  rw [if_neg (Nat.not_lt.mpr hsize), Header.decode_encode_append]
  dsimp only
  rw [ha.limit, if_pos hl]

lemma readFrames_tooLarge {h : Header} {rest : Octets}
    (ha : r.At source order limit (h.encode ++ rest)) (hl : limit < h.frameLength) (fuel : Nat) :
    (r.readFrames source (fuel + 1)).1 = .failed (.tooLarge h.frameLength limit) := by
  have hread := readFrame_tooLarge ha hl
  rw [readFrames]
  rcases hr : r.readFrame source with ⟨x, r', source'⟩
  rw [hr] at hread
  obtain rfl : x = _ := hread
  rfl

lemma readFrames_refused {h : Header} {body rest : Octets} {e : WireError}
    (ha : r.At source order limit (h.encode ++ body ++ rest))
    (hs : h.bodySize.toNat = body.length) (ho : h.order = order) (hl : h.frameLength ≤ limit)
    (hp : r.reassembler.push h body = .error e) (fuel : Nat) :
    (r.readFrames source (fuel + 1)).1 = .failed e := by
  obtain ⟨buffer, source', hr, ha'⟩ := readFrame_encode ha hs hl
  have hcheck := checkOrder_of_known ha'.order
  rw [← ho] at hcheck
  rw [readFrames, hr]
  dsimp only
  rw [accept, hcheck]
  dsimp only
  rw [hp]

def outcome (h : Header) (body : Octets) : Read (Message × ByteOrder) :=
  match Message.decodeBody h body with
  | .ok m => .done (m, h.order)
  | .error e => .failed e

lemma outcome_ne_tooLarge (h : Header) (body : Octets) (size limit : Nat) :
    outcome h body ≠ .failed (.tooLarge size limit) := by
  rw [outcome]
  cases hm : Message.decodeBody h body with
  | ok m => exact fun hx => by cases hx
  | error e =>
    intro hx
    exact Message.isContent_of_decodeBody hm size limit (Read.failed.inj hx)

lemma readFrames_whole {h h' : Header} {body body' rest : Octets} {R : Reassembler}
    (ha : r.At source order limit (h.encode ++ body ++ rest))
    (hs : h.bodySize.toNat = body.length) (ho : h.order = order) (hl : h.frameLength ≤ limit)
    (hp : r.reassembler.push h body = .ok (some (h', body'), R)) (fuel : Nat) :
    ∃ r' source', r'.At source' order limit rest ∧
      r.readFrames source (fuel + 1) = (outcome h' body', r', source') := by
  obtain ⟨r', source', ha', -, hread⟩ := readFrames_succ fuel ha hs ho hl hp
  refine ⟨r', source', ha', hread.trans ?_⟩
  rw [outcome]
  dsimp only
  cases Message.decodeBody h' body' <;> rfl

open Fragment

lemma sized_fragment (id : UInt32) (more : Bool) {piece : Octets} (order : ByteOrder)
    (hp : 4 + piece.length < 2 ^ 32) :
    ((Message.fragment id more piece).header order).bodySize.toNat =
        ((Message.fragment id more piece).body order).length ∧
      ((Message.fragment id more piece).header order).frameLength =
        Header.size + (4 + piece.length) := by
  have hlen := length_body_fragment id more piece order
  have hsize := (Message.fragment id more piece).bodySize_header_of_body order
    (by rw [hlen]; exact hp)
  refine ⟨hsize, ?_⟩
  rw [Header.frameLength, hsize, hlen]

/-- A reader between two frames of one message: `a` is what it keeps, and the pieces in `rest` are
to come. -/
structure Midway (r : Reader) (source : Inlet) (limit : Nat) (id : UInt32) (a : Assembly)
    (rest : List Octets) : Prop where
  here : r.At source a.header.order limit (continuations a.header.order id rest).flatten
  kept : r.reassembler.get? id = some a
  limit : r.reassembler.limit = limit
  leads : 4 ≤ a.body.length

namespace Midway

variable {id : UInt32} {a : Assembly} {piece : Octets} {rest : List Octets}

section Step

variable (hm : r.Midway source limit id a (piece :: rest)) (hp : 4 + piece.length < 2 ^ 32)
include hm

lemma next : r.At source a.header.order limit
    (((Message.fragment id (!rest.isEmpty) piece).header a.header.order).encode ++
      (Message.fragment id (!rest.isEmpty) piece).body a.header.order ++
      (continuations a.header.order id rest).flatten) := by
  have hhere := hm.here
  rwa [continuations_cons, List.flatten_cons] at hhere

include hp

lemma over_limit (hl : limit < Header.size + a.body.length + piece.length) (fuel : Nat) :
    ∃ size, limit < size ∧
      (r.readFrames source (fuel + 1)).1 = .failed (.tooLarge size limit) := by
  obtain ⟨hsize, hframe⟩ := sized_fragment id (!rest.isEmpty) a.header.order hp
  have hnext := hm.next
  by_cases hlong : limit < Header.size + (4 + piece.length)
  · rw [List.append_assoc] at hnext
    exact ⟨_, hframe ▸ hlong, readFrames_tooLarge hnext (hframe ▸ hlong) fuel⟩
  · have hpush := r.reassembler.push_fragment_tooLarge (Message.header_kind _ _)
      (leadingId_fragment id (!rest.isEmpty) piece a.header.order) hm.kept
      (Message.header_order _ _).symm (by rw [drop_body_fragment, hm.limit]; exact hl)
    rw [drop_body_fragment, hm.limit] at hpush
    exact ⟨_, hl, readFrames_refused hnext hsize (Message.header_order _ _) (by omega) hpush fuel⟩

/-- Within the limit the piece is kept: the frame repeats the request id, but that is no longer than
what has come before. -/
lemma push (hl : Header.size + a.body.length + piece.length ≤ limit) :
    ((Message.fragment id (!rest.isEmpty) piece).header a.header.order).frameLength ≤ limit ∧
      ∃ a' : Assembly, a'.header = a.header ∧ a'.body = a.body ++ piece ∧
        r.reassembler.push ((Message.fragment id (!rest.isEmpty) piece).header a.header.order)
          ((Message.fragment id (!rest.isEmpty) piece).body a.header.order) =
        .ok (if rest = [] then (some a'.finish, r.reassembler.erase id)
          else (none, r.reassembler.insert id a')) := by
  obtain ⟨-, hframe⟩ := sized_fragment id (!rest.isEmpty) a.header.order hp
  have hleads := hm.leads
  refine ⟨by omega, ?_⟩
  obtain ⟨a', hh, hb, hpush⟩ := r.reassembler.push_fragment (Message.header_kind _ _)
    (leadingId_fragment id (!rest.isEmpty) piece a.header.order) hm.kept
    (Message.header_order _ _).symm (by rw [drop_body_fragment, hm.limit]; exact hl)
  rw [drop_body_fragment] at hb
  refine ⟨a', hh, hb, hpush.trans ?_⟩
  rw [Message.header_more]
  cases rest <;> rfl

end Step

lemma readFrames (hm : r.Midway source limit id a rest) (hne : rest ≠ [])
    (hp : ∀ piece ∈ rest, 4 + piece.length < 2 ^ 32) {fuel : Nat} (hf : rest.length ≤ fuel) :
    (limit < Header.size + (a.body ++ rest.flatten).length → ∃ size, limit < size ∧
      (r.readFrames source fuel).1 = .failed (.tooLarge size limit)) ∧
    (Header.size + (a.body ++ rest.flatten).length ≤ limit →
      ∃ r' source', At r' source' a.header.order limit [] ∧ r.readFrames source fuel =
        (outcome ((a.header.withMore false).withBody (a.body ++ rest.flatten))
          (a.body ++ rest.flatten), r', source')) := by
  induction rest generalizing r source a fuel with
  | nil => exact absurd rfl hne
  | cons piece rest ih =>
    obtain ⟨fuel, rfl⟩ : ∃ k, fuel = k + 1 := ⟨fuel - 1, by rw [List.length_cons] at hf; omega⟩
    have hpiece := hp piece List.mem_cons_self
    rw [List.flatten_cons, ← List.append_assoc]
    -- A piece that goes beyond the limit ends it, and the pieces after it only add to the length.
    by_cases hl : limit < Header.size + a.body.length + piece.length
    · refine ⟨fun _ => hm.over_limit hpiece hl fuel, fun hle => ?_⟩
      rw [List.length_append, List.length_append] at hle
      omega
    · have hl := Nat.le_of_not_lt hl
      obtain ⟨hsize, -⟩ := sized_fragment id (!rest.isEmpty) a.header.order hpiece
      obtain ⟨hfits, a', hh, hb, hpush⟩ := hm.push hpiece hl
      by_cases hlast : rest = []
      · subst hlast
        obtain ⟨r', source', ha', hread⟩ := readFrames_whole hm.next hsize
          (Message.header_order _ _) hfits hpush fuel
        rw [List.flatten_nil, List.append_nil]
        refine ⟨fun hlt => ?_, fun _ => ⟨r', source', ha', ?_⟩⟩
        · rw [List.length_append] at hlt
          omega
        · rw [hread, ← hh, ← hb]
      · rw [if_neg hlast] at hpush
        obtain ⟨r', source', ha', hR, hread⟩ := readFrames_succ fuel hm.next hsize
          (Message.header_order _ _) hfits hpush
        have hleads := hm.leads
        have hm' : r'.Midway source' limit id a' rest := by
          refine ⟨by rw [hh]; exact ha', ?_, ?_, ?_⟩
          · rw [hR]
            exact r.reassembler.get?_insert_self id a'
          · rw [hR]
            exact hm.limit
          · rw [hb, List.length_append]
            omega
        have hrest := ih hm' hlast (fun piece hmem => hp piece (List.mem_cons_of_mem _ hmem))
          (Nat.le_of_succ_le_succ hf)
        rw [hh, hb] at hrest
        rw [hread]
        exact hrest

end Midway

lemma readMany_of_end (ha : r.At source order limit []) (n : Nat) :
    (r.readMany source n).1 = List.replicate n (.failed .closed) := by
  induction n generalizing r source with
  | zero => rfl
  | succ n ih =>
    have hread : r.readMessage source = (.failed .closed, { r with buffer := [] }, ⟨[], true⟩) := by
      rw [readMessage, readFrames, readFrame_end ha]
    have ha' : At { r with buffer := [] } ⟨[], true⟩ order limit [] :=
      ⟨rfl, rfl, ha.order, ha.limit⟩
    rw [readMany, hread, List.replicate_succ]
    exact congrArg (_ :: ·) (ih ha')

/-- The limit as seen from outside: octets that carry `body` fail to be read just when a frame with
this body would be too long, and are read as such a frame otherwise. -/
def Limits (limit : Nat) (h : Header) (body octets : Octets) : Prop :=
  ∀ (chunks : List Octets) (n : Nat), chunks.flatten = octets →
    (limit < Header.size + body.length → ∃ size results, limit < size ∧
      ((new limit).readMany ⟨chunks, true⟩ (n + 1)).1 =
        .failed (.tooLarge size limit) :: results) ∧
    (Header.size + body.length ≤ limit →
      ((new limit).readMany ⟨chunks, true⟩ (n + 1)).1 =
        outcome ((h.withMore false).withBody body) body :: List.replicate n (.failed .closed) ∧
      ∀ result ∈ ((new limit).readMany ⟨chunks, true⟩ (n + 1)).1, ∀ size most,
        result ≠ .failed (.tooLarge size most))

lemma limits_of_readMessage {h : Header} {body octets : Octets}
    (hlong : limit < Header.size + body.length → ∀ (source : Inlet),
      (new limit).At source h.order limit octets → ∃ size, limit < size ∧
        ((new limit).readMessage source).1 = .failed (.tooLarge size limit))
    (hfits : Header.size + body.length ≤ limit → ∀ (source : Inlet),
      (new limit).At source h.order limit octets →
        ∃ r' source', At r' source' h.order limit [] ∧ (new limit).readMessage source =
          (outcome ((h.withMore false).withBody body) body, r', source')) :
    Limits limit h body octets := by
  intro chunks n hchunks
  have ha : (new limit).At ⟨chunks, true⟩ h.order limit octets :=
    ⟨hchunks, rfl, fun _ hk => (by cases hk), rfl⟩
  rw [readMany]
  refine ⟨fun hl => ?_, fun hl => ?_⟩
  · obtain ⟨size, hsize, hread⟩ := hlong hl _ ha
    exact ⟨size, _, hsize, congrArg (· :: _) hread⟩
  · obtain ⟨r', source', ha', hread⟩ := hfits hl _ ha
    have hall : (outcome ((h.withMore false).withBody body) body ::
        (r'.readMany source' n).1) =
        outcome ((h.withMore false).withBody body) body :: List.replicate n (.failed .closed) :=
      congrArg (_ :: ·) (readMany_of_end ha' n)
    rw [hread]
    refine ⟨hall, fun result hmem size most => ?_⟩
    dsimp only at hmem
    rw [hall] at hmem
    rcases List.mem_cons.mp hmem with rfl | hmem
    · exact outcome_ne_tooLarge _ _ _ _
    · rw [List.eq_of_mem_replicate hmem]
      exact fun hx => by cases hx

lemma limits_whole {h : Header} (hk : h.kind ≠ .fragment) {body : Octets}
    (hs : body.length < 2 ^ 32) :
    Limits limit h body (((h.withMore false).withBody body).encode ++ body) := by
  have hsize : ((h.withMore false).withBody body).bodySize.toNat = body.length :=
    UInt32.toNat_ofNat_of_lt' hs
  have hframe : ((h.withMore false).withBody body).frameLength = Header.size + body.length :=
    congrArg (Header.size + ·) hsize
  refine limits_of_readMessage (fun hl source ha => ?_) fun hl source ha => ?_
  · exact ⟨_, hframe ▸ hl, readFrames_tooLarge ha (hframe ▸ hl) _⟩
  · rw [← List.append_nil (Header.encode _ ++ body)] at ha
    exact readFrames_whole ha hsize (h.order_withMore false) (hframe ▸ hl)
      (Reassembler.push_whole _ _ hk (h.more_withMore false)) _

section Cut

variable {h : Header} {first : Octets} {rest : List Octets} {id : UInt32}
  (hk : h.kind.isFragmentable = true) (hfirst : 4 ≤ first.length) (hs : first.length < 2 ^ 32)
  (hid : leadingId h first = .ok id)
include hk hfirst hs hid

lemma readMessage_first (hl : Header.size + first.length ≤ limit)
    (ha : (new limit).At source h.order limit (((h.withMore true).withBody first).encode ++ first ++
      (continuations h.order id rest).flatten)) :
    ∃ (a : Assembly) (r' : Reader) (source' : Inlet) (fuel : Nat),
      a.header = (h.withMore true).withBody first ∧ a.body = first ∧ rest.length ≤ fuel ∧
      r'.Midway source' limit id a rest ∧
      (new limit).readMessage source = r'.readFrames source' fuel := by
  let head := (h.withMore true).withBody first
  have hsize : head.bodySize.toNat = first.length := UInt32.toNat_ofNat_of_lt' hs
  have hframe : head.frameLength = Header.size + first.length := congrArg (Header.size + ·) hsize
  have ho : head.order = h.order := h.order_withMore true
  have hlead : leadingId head first = .ok id := by
    rw [leadingId_of_le hfirst, ho, ← hid, leadingId_of_le hfirst]
  obtain ⟨a, hh, hb, hpush⟩ := (new limit).reassembler.push_first (h := head) hk
    (h.more_withMore true) hlead hl rfl
  obtain ⟨r', source', ha', hR, hread⟩ := readFrames_succ ((new limit).available source) ha hsize ho
    (hframe ▸ hl) hpush
  have hcount : rest.length ≤ (continuations h.order id rest).flatten.length := by
    rw [← length_continuations_eq h.order id rest]
    exact length_continuations h.order id rest
  refine ⟨a, r', source', _, hh, hb, ?_, ⟨?_, ?_, ?_, ?_⟩, hread⟩
  · rw [available_eq ha, List.length_append]
    omega
  · rw [hh, ho]
    exact ha'
  · rw [hR]
    exact (new limit).reassembler.get?_insert_self id a
  · rw [hR]
    rfl
  · rw [hb]
    exact hfirst

lemma limits_cut (hne : rest ≠ []) (hp : ∀ piece ∈ rest, 4 + piece.length < 2 ^ 32) :
    Limits limit h (first ++ rest.flatten) (frames h id (first :: rest)).flatten := by
  have hmore : (!rest.isEmpty) = true := by simpa using hne
  have hwhole (body : Octets) : (((h.withMore true).withBody first).withMore false).withBody body =
      (h.withMore false).withBody body := by
    change ((h.withMore true).withMore false).withBody body = _
    rw [h.withMore_withMore]
  have ho : ((h.withMore true).withBody first).order = h.order := h.order_withMore true
  rw [frames, hmore, List.flatten_cons]
  refine limits_of_readMessage (fun hl source ha => ?_) fun hl source ha => ?_
  · by_cases hlong : limit < Header.size + first.length
    · have hframe : ((h.withMore true).withBody first).frameLength = Header.size + first.length :=
        congrArg (Header.size + ·) (UInt32.toNat_ofNat_of_lt' hs)
      rw [List.append_assoc] at ha
      exact ⟨_, hframe ▸ hlong, readFrames_tooLarge ha (hframe ▸ hlong) _⟩
    · obtain ⟨a, r', source', fuel, -, hb, hfuel, hm, hread⟩ :=
        readMessage_first hk hfirst hs hid (Nat.le_of_not_lt hlong) ha
      rw [hread]
      exact (hm.readFrames hne hp hfuel).1 (by rw [hb]; exact hl)
  · have hshort : Header.size + first.length ≤ limit := by
      rw [List.length_append] at hl
      omega
    obtain ⟨a, r', source', fuel, hh, hb, hfuel, hm, hread⟩ :=
      readMessage_first hk hfirst hs hid hshort ha
    have hrest := (hm.readFrames hne hp hfuel).2 (by rw [hb]; exact hl)
    rw [hh, hb, ho, hwhole] at hrest
    rw [hread]
    exact hrest

end Cut

/-- The limit does not depend on how a message was cut: a body in pieces, each in a frame of its
own and the first of them with the request id, is too long for a reader exactly when the frame with
the whole body is. -/
theorem limit_of_body (limit : Nat) {h : Header} (hk : h.kind.isFragmentable = true)
    (body : Octets) :
    (∀ (first : Octets) (rest : List Octets) (id : UInt32), first ++ rest.flatten = body →
      4 ≤ first.length → leadingId h body = .ok id → first.length < 2 ^ 32 →
      (∀ piece ∈ rest, 4 + piece.length < 2 ^ 32) →
      Limits limit h body (frames h id (first :: rest)).flatten) ∧
    (body.length < 2 ^ 32 →
      Limits limit h body (((h.withMore false).withBody body).encode ++ body)) := by
  have hkind : h.kind ≠ .fragment := fun hf => by
    rw [hf] at hk
    cases hk
  refine ⟨?_, limits_whole hkind⟩
  rintro first rest id rfl hfirst hid hs hp
  by_cases hne : rest = []
  · subst hne
    rw [List.flatten_nil, List.append_nil]
    have hframes : (frames h id [first]).flatten =
        ((h.withMore false).withBody first).encode ++ first := List.append_nil _
    rw [hframes]
    exact limits_whole hkind hs
  · refine limits_cut hk hfirst hs ?_ hne hp
    rw [← hid, leadingId_of_le hfirst, leadingId_of_le (by rw [List.length_append]; omega),
      List.take_append_of_le_length hfirst]

def crumbs : List Octets :=
  [[7, 0, 0, 0], [], [1, 0, 0], [0]]

theorem limit_of_body_crumbs :
    let h : Header := .make .locateReply .littleEndian 8
    let octets := (frames h 7 crumbs).flatten
    (∃ size results, 19 < size ∧ ((new 19).readMany ⟨[octets], true⟩ 1).1 =
      .failed (.tooLarge size 19) :: results) ∧
    ((new 20).readMany ⟨[octets], true⟩ 2).1 =
      [.done (.locateReply 7 .objectHere, .littleEndian), .failed .closed] ∧
    ∃ size results, 19 < size ∧
      ((new 19).readMany ⟨[(Message.locateReply 7 .objectHere).encode .littleEndian], true⟩ 1).1 =
        .failed (.tooLarge size 19) :: results := by
  intro h octets
  have hlimit (limit : Nat) : Limits limit h crumbs.flatten octets :=
    (limit_of_body limit (h := h) rfl crumbs.flatten).1 [7, 0, 0, 0] [[], [1, 0, 0], [0]] 7 rfl
      (by decide) (by decide +kernel) (by decide) (by decide)
  have hwhole := (limit_of_body 19 (h := h) rfl crumbs.flatten).2 (by decide)
  refine ⟨(hlimit 19 [octets] 0 List.flatten_singleton).1 (by decide), ?_,
    (hwhole [_] 0 (by decide +kernel)).1 (by decide)⟩
  exact ((hlimit 20 [octets] 1 List.flatten_singleton).2 (by decide)).1.trans
    (by with_unfolding_all rfl)

end Reader

end ObjectBroker
