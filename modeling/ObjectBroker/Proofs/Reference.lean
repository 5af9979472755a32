import ObjectBroker.Proofs.Stream.Recovery
import ObjectBroker.Reference

/-! References read back from the wire, as references to somewhere else. -/

namespace ObjectBroker.Reference

open Reading

def profileFront (r : Reference) (order : ByteOrder) : Output :=
  let o := (Output.encapsulation order).append [1, r.minor]
  ((o.putString r.endpoint.host).putUInt16 r.endpoint.port).putOctets r.key

lemma profileFront_extends (r : Reference) (order : ByteOrder) :
    (r.profileFront order).Extends (r.profile order) := by
  by_cases h : 1 ≤ r.minor
  · rw [show r.profile order = (r.profileFront order).putUInt32 0 from if_pos h]
    exact Output.extends_putWord _ 4 _
  · rw [show r.profile order = r.profileFront order from if_neg h]
    exact .refl _

lemma length_profile_le_front (r : Reference) (order : ByteOrder) :
    (r.profile order).length ≤ (r.profileFront order).length + 7 := by
  by_cases h : 1 ≤ r.minor
  · rw [show r.profile order = (r.profileFront order).putUInt32 0 from if_pos h]
    exact Output.length_putWord_le _ 4 _
  · rw [show r.profile order = r.profileFront order from if_neg h]
    exact Nat.le_add_right _ 7

lemma recovers_readInternet (r : Reference) (order : ByteOrder)
    (hl : (r.profile order).length < 2 ^ 32) :
    (readInternet r.typeId).Recovers (.encapsulation order) (r.profileFront order)
      { r with isLocal := false } := by
  let o₀ := Output.encapsulation order
  let o₁ := o₀.append [1, r.minor]
  let o₂ := o₁.putString r.endpoint.host
  let o₃ := o₂.putUInt16 r.endpoint.port
  have hf : (r.profileFront order).length ≤ (r.profile order).length :=
    (profileFront_extends r order).length_le
  have hk : o₃.length + 4 + r.key.length ≤ (r.profileFront order).length :=
    o₃.length_le_putOctets r.key
  have ho : o₂.length + 2 ≤ o₃.length := o₂.length_le_putWord 2 _
  have hs : o₁.length + 5 + (Utf8.encode r.endpoint.host).length ≤ o₂.length :=
    o₁.length_le_putString _
  have hmajor := (recovers_octet o₀ 1).adapt MarshalError.stream
  have hminor := (recovers_octet (o₀.append [1]) r.minor).adapt MarshalError.stream
  rw [Output.append_append] at hminor
  have hhost := (recovers_string o₁ r.endpoint.host (by omega)).adapt MarshalError.stream
  have hport := (recovers_uint16 o₂ r.endpoint.port).adapt MarshalError.stream
  have hkey := (recovers_octets o₃ r.key (by omega)).adapt MarshalError.stream
  refine hmajor.bind (hminor.bind ?_)
  rw [if_neg (not_not_intro rfl)]
  exact hhost.bind (hport.bind (hkey.bind (.pure _ _)))

lemma ofProfile_profile (r : Reference) (order : ByteOrder)
    (hl : (r.profile order).length < 2 ^ 32) :
    ofProfile r.typeId (r.profile order).octets = .ok { r with isLocal := false } := by
  obtain ⟨x, hx, hr⟩ := recovers_readInternet r order hl
  obtain ⟨y, hy⟩ := profileFront_extends r order
  rw [hy, hx, Output.append_append, ofProfile, Input.encapsulation_append]
  dsimp only
  rw [hr]

lemma recovers_getProfile (o : Output) (tag : UInt32) (data : Octets) (h : data.length < 2 ^ 32) :
    getProfile.Recovers o ((o.putUInt32 tag).putOctets data) (tag, data) := by
  have htag := (recovers_uint32 o tag).adapt MarshalError.stream
  have hdata := (recovers_octets (o.putUInt32 tag) data h).adapt MarshalError.stream
  exact htag.bind (hdata.bind (.pure _ (tag, data)))

lemma extends_put (o : Output) (r : Reference) : o.Extends (put o r) :=
  (((Output.extends_putString _ _).trans (Output.extends_putWord _ 4 _)).trans
    (Output.extends_putWord _ 4 _)).trans (Output.extends_putOctets _ _)

lemma order_lead (o : Output) (r : Reference) :
    (((o.putString r.typeId).putUInt32 1).putUInt32 internetTag).order = o.order :=
  (((Output.extends_putString _ _).trans (Output.extends_putWord _ 4 _)).trans
    (Output.extends_putWord _ 4 _)).order_eq

lemma recovers_read (o : Output) (r : Reference)
    (ht : (Utf8.encode r.typeId).length + 1 < 2 ^ 32) (hp : (r.profile o.order).length < 2 ^ 32) :
    read.Recovers o (put o r) (some { r with isLocal := false }) := by
  let o₁ := o.putString r.typeId
  let o₂ := o₁.putUInt32 1
  let o₃ := o₂.putUInt32 internetTag
  have ho : o₃.order = o.order := order_lead o r
  let data := (r.profile o₃.order).octets
  have hprofile : (r.profile o₃.order).length < 2 ^ 32 := by rwa [ho]
  have hdata : data.length < 2 ^ 32 := by rwa [Output.length_octets]
  have htype := (recovers_string o r.typeId ht).adapt MarshalError.stream
  have hcount := (recovers_word o₁ 4 1 (by decide)).adapt MarshalError.stream
  have hread := recovers_getProfile o₂ internetTag data hdata
  refine htype.bind (hcount.bind ?_)
  rw [if_neg (by decide)]
  refine Recovers.bind (hread.bind (.bind (.pure _ []) (.pure _ [(internetTag, data)]))) ?_
  rw [show [(internetTag, data)].find? (·.1 == internetTag) = some (internetTag, data) from rfl]
  dsimp only
  rw [ofProfile_profile r o₃.order hprofile]
  exact (Recovers.pure _ _).map some

lemma recovers_read_put (o : Output) (r : Reference) (hl : (put o r).length < 2 ^ 32) :
    read.Recovers o (put o r) (some { r with isLocal := false }) := by
  let o₁ := o.putString r.typeId
  let o₂ := o₁.putUInt32 1
  let o₃ := o₂.putUInt32 internetTag
  have ho : o₃.order = o.order := order_lead o r
  let data := (r.profile o₃.order).octets
  have hd : o₃.length + 4 + data.length ≤ (put o r).length := o₃.length_le_putOctets data
  have ht : o₂.length + 4 ≤ o₃.length := o₂.length_le_putWord 4 _
  have hc : o₁.length + 4 ≤ o₂.length := o₁.length_le_putWord 4 _
  have hs : o.length + 5 + (Utf8.encode r.typeId).length ≤ o₁.length := o.length_le_putString _
  have hdata : data.length = (r.profile o₃.order).length := Output.length_octets _
  rw [ho] at hdata
  exact recovers_read o r (by omega) (by omega)

lemma recovers_read_putNil (o : Output) : read.Recovers o (putNil o) none := by
  have htype := (recovers_string o "" (by decide)).adapt MarshalError.stream
  have hcount := (recovers_word (o.putString "") 4 0 (by decide)).adapt MarshalError.stream
  exact htype.bind (hcount.bind (.pure _ none))

end ObjectBroker.Reference
