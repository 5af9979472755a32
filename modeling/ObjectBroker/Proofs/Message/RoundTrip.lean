import ObjectBroker.Message.Codec
import ObjectBroker.Proofs.Stream.Recovery

/-! Headers and messages read back from their octets. -/

namespace ObjectBroker

namespace Header

lemma or_and (a b c : UInt8) : (a ||| b) &&& c = a &&& c ||| b &&& c := by
  apply UInt8.toNat_inj.mp
  rw [UInt8.toNat_and, UInt8.toNat_or, UInt8.toNat_or, UInt8.toNat_and, UInt8.toNat_and,
    Nat.and_or_distrib_right]

@[simp] lemma order_withMore (h : Header) (more : Bool) : (h.withMore more).order = h.order := by
  have hflags : (h.withMore more).flags &&& 1 = h.flags &&& 1 := by
    cases more with
    | false => exact UInt8.and_assoc h.flags 0xfd 1
    | true =>
      change (h.flags ||| 2) &&& 1 = _
      rw [or_and]
      exact UInt8.or_zero
  rw [order, order, hflags]

@[simp] lemma more_withMore (h : Header) (more : Bool) : (h.withMore more).more = more := by
  cases more with
  | false =>
    have hflags : h.flags &&& 0xfd &&& 2 = 0 := by
      rw [UInt8.and_assoc]
      exact UInt8.and_zero
    simp [withMore, Header.more, hflags]
  | true =>
    have hflags : (h.flags ||| 2) &&& 2 ≠ 0 := by
      rw [or_and]
      intro hz
      exact absurd (UInt8.or_eq_zero_iff.mp hz).2 (by decide)
    simp [withMore, Header.more, hflags]

lemma withMore_of_not_more {h : Header} (hm : h.more = false) (more : Bool) :
    (h.withMore more).withMore false = h := by
  have hbit : h.flags &&& 2 = 0 := by simpa [Header.more] using hm
  have hkeep : h.flags &&& 0xfd = h.flags := by
    have hall : h.flags &&& 0xfd ||| h.flags &&& 2 = h.flags := by
      rw [UInt8.and_comm, UInt8.and_comm h.flags 2, ← or_and, UInt8.and_comm]
      exact UInt8.and_neg_one
    rwa [hbit, UInt8.or_zero] at hall
  have hflags : (h.withMore more).flags &&& 0xfd = h.flags := by
    cases more with
    | false =>
      change h.flags &&& 0xfd &&& 0xfd = _
      rw [hkeep, hkeep]
    | true =>
      change (h.flags ||| 2) &&& 0xfd = _
      rw [or_and, hkeep]
      exact UInt8.or_zero
  change { h with flags := (h.withMore more).flags &&& 0xfd } = h
  rw [hflags]

@[simp] lemma order_make (kind : MessageKind) (order : ByteOrder) (n : Nat) :
    (make kind order n).order = order := by
  cases order <;> simp [make, Header.order, ByteOrder.flag]

@[simp] lemma more_make (kind : MessageKind) (order : ByteOrder) (n : Nat) :
    (make kind order n).more = false := by
  have hflag : order.flag &&& 2 = 0 := by cases order <;> decide
  simp [make, Header.more, hflag]

lemma length_encode (h : Header) : h.encode.length = size := by
  simp [encode, magic, size]

lemma decode_encode_append (h : Header) (rest : Octets) : decode (h.encode ++ rest) = .ok h := by
  obtain ⟨a, b, c, d, hw⟩ : ∃ a b c d, h.order.word 4 h.bodySize.toNat = [a, b, c, d] := by
    have hl := h.order.length_word 4 h.bodySize.toNat
    match h.order.word 4 h.bodySize.toNat, hl with
    | [a, b, c, d], _ => exact ⟨a, b, c, d, rfl⟩
  have hlt : h.bodySize.toNat < 256 ^ 4 := Nat.lt_of_lt_of_eq h.bodySize.toNat_lt (by decide)
  have hv : h.order.ofWord [a, b, c, d] = h.bodySize.toNat := by
    rw [← hw, ByteOrder.ofWord_word, Nat.mod_eq_of_lt hlt]
  rw [encode, hw]
  change decodeFields magic version.1 version.2 h.flags h.kind.code [a, b, c, d] = _
  rw [decodeFields, if_neg (not_not_intro rfl), if_neg (not_not_intro rfl),
    MessageKind.ofCode?_code]
  change Except.ok { h with bodySize := UInt32.ofNat (h.order.ofWord [a, b, c, d]) } = _
  rw [hv, UInt32.ofNat_toNat]

end Header

namespace Message

open Reading

lemma length_le_putContext (o : Output) (c : ServiceContext) :
    o.length + 8 + c.data.length ≤ (putContext o c).length := by
  have h₁ := o.length_le_putWord 4 c.id.toNat
  have h₂ := (o.putUInt32 c.id).length_le_putOctets c.data
  have h₃ : (o.putUInt32 c.id).length = (o.putWord 4 c.id.toNat).length := rfl
  rw [putContext]
  omega

lemma length_le_contexts (cs : List ServiceContext) (o : Output) :
    o.length + 8 * cs.length ≤ (cs.foldl putContext o).length ∧
      ∀ c ∈ cs, c.data.length ≤ (cs.foldl putContext o).length := by
  induction cs generalizing o with
  | nil => exact ⟨Nat.le_refl _, nofun⟩
  | cons c cs ih =>
    have hc := length_le_putContext o c
    obtain ⟨hl, hd⟩ := ih (putContext o c)
    rw [List.foldl_cons, List.length_cons]
    refine ⟨by omega, fun d hm => ?_⟩
    rcases List.mem_cons.mp hm with rfl | hm
    · omega
    · exact hd d hm

lemma extends_putContext (o : Output) (c : ServiceContext) : o.Extends (putContext o c) :=
  (o.extends_putWord 4 _).trans (Output.extends_putOctets _ _)

lemma extends_putContexts (o : Output) (cs : List ServiceContext) :
    o.Extends (putContexts o cs) :=
  (o.extends_putWord 4 cs.length).trans (Output.extends_foldl extends_putContext cs _)

lemma extends_putPayload (o : Output) (payload : Octets) : o.Extends (putPayload o payload) := by
  cases payload with
  | nil => exact .refl o
  | cons b payload => exact (o.extends_align 8).trans (Output.extends_append _ _)

lemma recovers_getContext (o : Output) (c : ServiceContext) (h : c.data.length < 2 ^ 32) :
    getContext.Recovers o (putContext o c) c := by
  have hid := (recovers_uint32 o c.id).adapt WireError.stream
  have hdata := (recovers_octets (o.putUInt32 c.id) c.data h).adapt WireError.stream
  exact hid.bind (hdata.bind (.pure _ c))

lemma recovers_getContexts (o : Output) (cs : List ServiceContext)
    (h : (putContexts o cs).length < 2 ^ 32) :
    getContexts.Recovers o (putContexts o cs) cs := by
  let o' := o.putWord 4 cs.length
  obtain ⟨hlen, hdata⟩ := length_le_contexts cs o'
  have hcs : (putContexts o cs).length = (cs.foldl putContext o').length := rfl
  have hcount := (recovers_word o 4 cs.length (by omega)).adapt WireError.stream
  refine hcount.bind ?_
  have hd : ∀ c ∈ cs, ∀ o, getContext.Recovers o (putContext o c) c := fun c hc o =>
    recovers_getContext o c (by have := hdata c hc; omega)
  obtain ⟨x, hx, hr⟩ := Recovers.many cs o' hd
  refine ⟨x, hx, fun rest => ?_⟩
  have hremaining : ¬ (o'.input (x ++ rest)).remaining / 8 < cs.length := by
    have hl : (cs.foldl putContext o').length = o'.length + x.length := by rw [hx]; simp
    have hi : (o'.input (x ++ rest)).remaining = x.length + rest.length := List.length_append
    omega
  rw [run_bind]
  change Reading.run (if (o'.input (x ++ rest)).remaining / 8 < cs.length then _ else _) _ = _
  rw [if_neg hremaining]
  exact hr rest

lemma finishes_getPayload (o : Output) (payload : Octets) :
    getPayload.Finishes o (putPayload o payload) payload := by
  cases payload with
  | nil => exact ⟨[], o.append_nil.symm, rfl⟩
  | cons b payload =>
    have ha := (recovers_align o 8).adapt WireError.stream
    have hr := (finishes_rest (o.align 8) (b :: payload)).adapt WireError.stream
    obtain ⟨x, hx, hrun⟩ := ha.finish (f := fun _ => ExceptT.adapt WireError.stream rest) hr
    have hne : (o.input x).isEmpty = false := by
      have hl := congrArg Output.length hx
      have ho := o.length_le_align 8
      rw [Output.length_append, Output.length_append, List.length_cons] at hl
      have hpos : 0 < x.length := by omega
      exact List.isEmpty_eq_false_iff.mpr (List.ne_nil_of_length_pos hpos)
    refine ⟨x, hx, ?_⟩
    change Reading.run (if (o.input x).isEmpty then pure [] else _) _ = _
    rw [hne]
    exact hrun

lemma recovers_getAddressing (o : Output) :
    getAddressing.Recovers o (o.putWord 2 keyAddressing) () := by
  have hword := (recovers_word o 2 keyAddressing (by decide)).adapt WireError.stream
  refine hword.bind ?_
  rw [if_neg (not_not_intro rfl)]
  exact .pure _ ()

lemma finishes_getRequest (o : Output) (r : Request) (h : (putRequest o r).length < 2 ^ 32) :
    getRequest.Finishes o (putRequest o r) r := by
  let flag : UInt8 := if r.responseExpected then 3 else 0
  let o₁ := o.putUInt32 r.id
  let o₂ := o₁.append [flag, 0, 0, 0]
  let o₃ := o₂.putWord 2 keyAddressing
  let o₄ := o₃.putOctets r.key
  let o₅ := o₄.putString r.operation
  let o₆ := putContexts o₅ r.contexts
  have hflag : decide (flag &&& 1 ≠ 0) = r.responseExpected := by
    cases hr : r.responseExpected with
    | false => simp [flag, hr]
    | true =>
      simp only [flag, hr, if_true]
      decide
  have h₆ : o₆.length ≤ (putRequest o r).length := (extends_putPayload o₆ r.body).length_le
  have h₅ : o₅.length ≤ o₆.length := (extends_putContexts o₅ r.contexts).length_le
  have h₄ : o₄.length + 5 + (Utf8.encode r.operation).length ≤ o₅.length :=
    o₄.length_le_putString r.operation
  have h₃ : o₃.length + 4 + r.key.length ≤ o₄.length := o₃.length_le_putOctets r.key
  have hid := (recovers_uint32 o r.id).adapt WireError.stream
  have hone := (recovers_octet o₁ flag).adapt WireError.stream
  have hthree := (recovers_raw (o₁.append [flag]) [0, 0, 0]).adapt WireError.stream
  rw [Output.append_append] at hthree
  have hkey := (recovers_octets o₃ r.key (by omega)).adapt WireError.stream
  have hop := (recovers_string o₄ r.operation (by omega)).adapt WireError.stream
  have hcontexts := recovers_getContexts o₅ r.contexts (Nat.lt_of_le_of_lt h₆ h)
  have hbody := (finishes_getPayload o₆ r.body).bind_pure fun body =>
    ({ r with responseExpected := decide (flag &&& 1 ≠ 0), body } : Request)
  have hr : ({ r with responseExpected := decide (flag &&& 1 ≠ 0) } : Request) = r := by rw [hflag]
  rw [hr] at hbody
  refine hid.finish (hone.finish (hthree.finish ((recovers_getAddressing o₂).finish
    (hkey.finish (hop.finish (hcontexts.finish ?_))))))
  exact hbody

lemma finishes_getReply (o : Output) (r : Reply) (h : (putReply o r).length < 2 ^ 32) :
    getReply.Finishes o (putReply o r) r := by
  let o₁ := o.putUInt32 r.id
  let o₂ := o₁.putUInt32 r.status.code
  let o₃ := putContexts o₂ r.contexts
  have h₃ : o₃.length ≤ (putReply o r).length := (extends_putPayload o₃ r.body).length_le
  have hid := (recovers_uint32 o r.id).adapt WireError.stream
  have hcode := (recovers_uint32 o₁ r.status.code).adapt WireError.stream
  have hcontexts := recovers_getContexts o₂ r.contexts (Nat.lt_of_le_of_lt h₃ h)
  have hbody := (finishes_getPayload o₃ r.body).bind_pure fun body => ({ r with body } : Reply)
  refine hid.finish (hcode.finish ?_)
  rw [ReplyStatus.ofCode?_code]
  exact hcontexts.finish hbody

lemma finishes_getLocateRequest (o : Output) (id : UInt32) (key : Octets)
    (h : (putBody o (.locateRequest id key)).length < 2 ^ 32) :
    getLocateRequest.Finishes o (putBody o (.locateRequest id key)) (.locateRequest id key) := by
  let o₂ := (o.putUInt32 id).putWord 2 keyAddressing
  have h₂ : o₂.length + 4 + key.length ≤ (putBody o (.locateRequest id key)).length :=
    o₂.length_le_putOctets key
  have hid := (recovers_uint32 o id).adapt WireError.stream
  have hkey := (recovers_octets o₂ key (by omega)).adapt WireError.stream
  have haddress := recovers_getAddressing (o.putUInt32 id)
  exact (hid.bind (haddress.bind (hkey.bind (.pure _ (locateRequest id key))))).finishes

lemma finishes_getLocateReply (o : Output) (id : UInt32) (status : LocateStatus) :
    getLocateReply.Finishes o (putBody o (.locateReply id status)) (.locateReply id status) := by
  have hid := (recovers_uint32 o id).adapt WireError.stream
  have hcode := (recovers_uint32 (o.putUInt32 id) status.code).adapt WireError.stream
  refine hid.finish (hcode.finish ?_)
  rw [LocateStatus.ofCode?_code]
  exact (Recovers.pure _ _).finishes

lemma finishes_getFragment (o : Output) (id : UInt32) (more : Bool) (data : Octets) :
    (getFragment more).Finishes o (putBody o (.fragment id more data))
      (.fragment id more data) := by
  have hid := (recovers_uint32 o id).adapt WireError.stream
  have hdata := (finishes_rest (o.putUInt32 id) data).adapt WireError.stream
  exact hid.finish (hdata.bind_pure _)

lemma header_kind (m : Message) (order : ByteOrder) : (m.header order).kind = m.kind := by
  cases m <;> rfl

lemma header_order (m : Message) (order : ByteOrder) : (m.header order).order = order := by
  cases m with
  | fragment id more data => exact (Header.order_withMore _ more).trans (Header.order_make _ _ _)
  | _ => exact Header.order_make _ _ _

lemma header_more (m : Message) (order : ByteOrder) :
    (m.header order).more = match m with
      | .fragment _ more _ => more
      | _ => false := by
  cases m with
  | fragment id more data => exact Header.more_withMore _ more
  | _ => exact Header.more_make _ _ _

lemma finishes_getBody (m : Message) (order : ByteOrder) (o : Output)
    (h : (putBody o m).length < 2 ^ 32) :
    (getBody (m.header order)).Finishes o (putBody o m) m := by
  rw [getBody, header_kind]
  cases m with
  | request r => exact (finishes_getRequest o r h).map _
  | reply r => exact (finishes_getReply o r h).map _
  | cancelRequest id =>
    have hid := (recovers_uint32 o id).adapt WireError.stream
    exact (hid.bind (.pure _ (cancelRequest id))).finishes
  | locateRequest id key => exact finishes_getLocateRequest o id key h
  | locateReply id status => exact finishes_getLocateReply o id status
  | closeConnection => exact (Recovers.pure o _).finishes
  | messageError => exact (Recovers.pure o _).finishes
  | fragment id more data =>
    rw [header_more]
    exact finishes_getFragment o id more data

lemma decodeBody_body (m : Message) (order : ByteOrder) (h : (m.body order).length < 2 ^ 32) :
    decodeBody (m.header order) (m.body order) = .ok m := by
  let o : Output := { order, origin := Header.size }
  have hl : (putBody o m).length < 2 ^ 32 := by rwa [← Output.length_octets]
  obtain ⟨x, hx, hr⟩ := finishes_getBody m order o hl
  have hbody : m.body order = x := by
    rw [body, hx, Output.append_octets]
    exact List.nil_append x
  have hwhole : ((m.header order).more && decide ((m.header order).kind ≠ .fragment)) = false := by
    rw [header_more, header_kind]
    cases m <;> simp [kind]
  rw [decodeBody, hwhole, hbody, header_order]
  exact congrArg Prod.fst hr

lemma length_body_of_fragmentable (m : Message) (order : ByteOrder)
    (h : m.kind.isFragmentable = true) : 4 ≤ (m.body order).length := by
  let o : Output := { order, origin := Header.size }
  have hid (id : UInt32) (he : (o.putUInt32 id).Extends (putBody o m)) :
      4 ≤ (m.body order).length := by
    have hw := o.length_le_putWord 4 id.toNat
    have hl : (m.body order).length = (putBody o m).length := Output.length_octets _
    have hle : (o.putWord 4 id.toNat).length ≤ (putBody o m).length := he.length_le
    omega
  cases m with
  | request r =>
    refine hid r.id ?_
    refine .trans ?_ ((extends_putContexts _ r.contexts).trans (extends_putPayload _ r.body))
    exact (((Output.extends_append _ _).trans (Output.extends_putWord _ 2 _)).trans
      (Output.extends_putOctets _ _)).trans (Output.extends_putString _ _)
  | reply r =>
    refine hid r.id (.trans (Output.extends_putWord _ 4 r.status.code.toNat) ?_)
    exact (extends_putContexts _ r.contexts).trans (extends_putPayload _ r.body)
  | locateRequest id key =>
    exact hid id ((Output.extends_putWord _ 2 _).trans (Output.extends_putOctets _ _))
  | locateReply id status => exact hid id (Output.extends_putWord _ 4 _)
  | _ => cases h

lemma length_encode (m : Message) (order : ByteOrder) :
    (m.encode order).length = Header.size + (m.body order).length := by
  rw [encode, List.length_append, Header.length_encode]

lemma length_encode_of_not_fragmentable (m : Message) (order : ByteOrder)
    (hk : m.kind ≠ .fragment) (h : m.kind.isFragmentable = false) :
    (m.encode order).length ≤ 24 := by
  have hb : (m.body order).length ≤ 4 := by
    cases m with
    | cancelRequest id => cases order <;> exact Nat.le_refl 4
    | closeConnection => exact Nat.zero_le 4
    | messageError => exact Nat.zero_le 4
    | fragment id more data => exact absurd rfl hk
    | _ => cases h
  rw [length_encode, Header.size]
  omega

lemma bodySize_header_of_body (m : Message) (order : ByteOrder)
    (h : (m.body order).length < 2 ^ 32) :
    (m.header order).bodySize.toNat = (m.body order).length := by
  have hb : (m.body order).length < UInt32.size := h
  cases m <;> exact UInt32.toNat_ofNat_of_lt' hb

lemma bodySize_header (m : Message) (order : ByteOrder) (h : (m.encode order).length < 2 ^ 32) :
    (m.header order).bodySize.toNat = (m.body order).length := by
  rw [length_encode] at h
  exact bodySize_header_of_body m order (Nat.lt_of_le_of_lt (Nat.le_add_left _ _) h)

end Message

end ObjectBroker
