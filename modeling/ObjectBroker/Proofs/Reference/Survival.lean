import ObjectBroker.Proofs.Reference
import ObjectBroker.Proofs.Stream.Position
import ObjectBroker.Proofs.Text.Hex

/-! References survive the wire and their text. What other brokers write is read as a reference that
this one can write again. -/

namespace ObjectBroker.Reference

open Reading

/-- The lengths of its parts can be told in words of 32 bits. -/
structure Fits (r : Reference) : Prop where
  typeId : (Utf8.encode r.typeId).length + 1 < 2 ^ 32
  profile : ∀ order, (r.profile order).length < 2 ^ 32

/-- However `r` is written, `r'` is read, and what follows is left. Letters of the text may change
their case. -/
structure ReadAs (r r' : Reference) : Prop where
  wire : ∀ (order : ByteOrder) (origin : Nat) (rest : Octets),
    let written := put { order, origin } r
    read.run { order, position := origin, rest := written.octets ++ rest } =
      (.ok (some r'), { order, position := written.position, rest })
  text : ∀ text : List Char,
    text.map Char.toLower = r.toStringified.toList.map Char.toLower → ofStringified text = .ok r'

variable {r : Reference} {i j : Input} {o : Output} {last : Nat}

section Text

lemma map_toUpper_eq_of_map_toLower_eq {s t : List Char}
    (h : s.map Char.toLower = t.map Char.toLower) : s.map Char.toUpper = t.map Char.toUpper := by
  have hupper : Char.toUpper ∘ Char.toLower = Char.toUpper := by
    funext c
    exact Char.toUpper_toLower_eq_toUpper c
  have hmap := congrArg (List.map Char.toUpper) h
  rwa [List.map_map, List.map_map, hupper] at hmap

lemma exists_mark_of_toLower {text : List Char}
    (h : text.map Char.toLower = r.toStringified.toList.map Char.toLower) :
    ∃ mark digits, text = mark ++ digits ∧ mark.length = 4 ∧
      mark.map Char.toUpper = stringMark.toList ∧
      digits.map Char.toLower = (Hex.encode (put (.encapsulation .bigEndian) r).octets).toList := by
  rw [toStringified, String.toList_append, List.map_append, Hex.map_toLower_encode] at h
  obtain ⟨mark, digits, rfl, hmark, hdigits⟩ := List.map_eq_append_iff.mp h
  have hlength := congrArg List.length hmark
  rw [List.length_map, List.length_map] at hlength
  refine ⟨mark, digits, rfl, hlength, ?_, hdigits⟩
  rw [map_toUpper_eq_of_map_toLower_eq hmark]
  decide

lemma ofStringified_append {mark digits : List Char} {octets : Octets} (hlength : mark.length = 4)
    (hmark : mark.map Char.toUpper = stringMark.toList)
    (hdigits : digits.map Char.toLower = (Hex.encode octets).toList)
    (hi : Input.encapsulation octets = .ok i) (hrun : read.run i = (.ok (some r), j)) :
    ofStringified (mark ++ digits) = .ok r := by
  have hhas : hasMark (mark ++ digits) = true := by
    rw [hasMark, ← hlength, List.take_left, hmark, beq_self_eq_true]
  rw [ofStringified, hhas, ← hlength, List.drop_left, Hex.decode_of_toLower hdigits]
  simp only [Bool.not_true, Bool.false_eq_true, if_false, hi, hrun]

lemma ofStringified_of_toLower {text : List Char} (hr : r.Fits)
    (h : text.map Char.toLower = r.toStringified.toList.map Char.toLower) :
    ofStringified text = .ok { r with isLocal := false } := by
  obtain ⟨mark, digits, rfl, hlength, hmark, hdigits⟩ := exists_mark_of_toLower h
  obtain ⟨x, hx, hrun⟩ := recovers_read (.encapsulation .bigEndian) r hr.typeId (hr.profile _)
  have hread := hrun []
  rw [List.append_nil] at hread
  rw [hx] at hdigits
  exact ofStringified_append hlength hmark hdigits (Input.encapsulation_append _ x) hread

end Text

section Foreign

def putProfile (o : Output) (p : UInt32 × Octets) : Output :=
  (o.putUInt32 p.1).putOctets p.2

lemma abreast_getProfile {p : UInt32 × Octets} (h : i.Abreast o last)
    (hr : getProfile.run i = (.ok p, j)) : j.Abreast (putProfile o p) last := by
  obtain ⟨tag, k, htag, hrest⟩ := of_run_bind hr
  obtain ⟨data, k', hdata, hpure⟩ := of_run_bind hrest
  obtain ⟨rfl, rfl⟩ := of_run_pure hpure
  exact (h.uint32 (of_run_adapt htag) tag).octets (of_run_adapt hdata)

lemma position_le_putProfile (o : Output) (p : UInt32 × Octets) :
    o.position + 8 + p.2.length ≤ (putProfile o p).position := by
  have htag := le_aligned o.position 4
  have hdata := le_aligned (o.putWord 4 p.1.toNat).position 4
  rw [Output.position_putWord] at hdata
  rw [putProfile, Output.putOctets, Output.position_append, Output.position_putWord,
    Output.putUInt32, Output.position_putWord]
  omega

lemma position_le_putProfiles (ps : List (UInt32 × Octets)) (o : Output) :
    o.position ≤ (ps.foldl putProfile o).position := by
  induction ps generalizing o with
  | nil => exact Nat.le_refl _
  | cons p ps ih =>
    have hp := position_le_putProfile o p
    have hps := ih (putProfile o p)
    rw [List.foldl_cons]
    omega

lemma position_le_of_mem {p : UInt32 × Octets} {ps : List (UInt32 × Octets)} (hp : p ∈ ps)
    (o : Output) : o.position + 8 + p.2.length ≤ (ps.foldl putProfile o).position := by
  induction ps generalizing o with
  | nil => cases hp
  | cons q ps ih =>
    have hq := position_le_putProfile o q
    rw [List.foldl_cons]
    rcases List.mem_cons.mp hp with rfl | hp
    · have hps := position_le_putProfiles ps (putProfile o p)
      omega
    · have hps := ih hp (putProfile o q)
      omega

lemma length_profileFront (r : Reference) (order order' : ByteOrder) :
    (r.profileFront order).length = (r.profileFront order').length := by
  have hposition : ∀ order, (r.profileFront order).position = (r.profileFront order).length :=
    fun order => Nat.zero_add _
  rw [← hposition, ← hposition, profileFront, profileFront]
  simp only [Output.putOctets, Output.putUInt16, Output.position_append, Output.position_putWord,
    Output.position_putString]
  rfl

lemma of_run_readInternet {typeId : String} {order : ByteOrder}
    (h : i.Abreast (.encapsulation order) last) (hr : (readInternet typeId).run i = (.ok r, j)) :
    r.typeId = typeId ∧ r.isLocal = false ∧ j.Abreast (r.profileFront order) last := by
  obtain ⟨major, i₁, hmajor, hrest⟩ := of_run_bind hr
  obtain ⟨minor, i₂, hminor, hrest⟩ := of_run_bind hrest
  have h₁ := h.octet (of_run_adapt hmajor) major
  have h₂ := h₁.octet (of_run_adapt hminor) minor
  rw [Output.append_append] at h₂
  split at hrest
  · cases hrest
  · next hv =>
    rw [not_not.mp hv] at h₂
    obtain ⟨host, i₃, hhost, hrest⟩ := of_run_bind hrest
    obtain ⟨port, i₄, hport, hrest⟩ := of_run_bind hrest
    obtain ⟨key, i₅, hkey, hpure⟩ := of_run_bind hrest
    obtain ⟨rfl, rfl⟩ := of_run_pure hpure
    have h₃ := h₂.string (of_run_adapt hhost)
    have h₄ := h₃.uint16 (of_run_adapt hport) port
    exact ⟨rfl, rfl, h₄.octets (of_run_adapt hkey)⟩

lemma of_ofProfile {typeId : String} {data : Octets} (h : ofProfile typeId data = .ok r) :
    r.typeId = typeId ∧ r.isLocal = false ∧ ∀ order,
      (r.profileFront order).length ≤ data.length := by
  rw [ofProfile] at h
  cases hdata : Input.encapsulation data with
  | error e =>
    rw [hdata] at h
    cases h
  | ok i =>
    rw [hdata] at h
    dsimp only at h
    rcases hread : (readInternet typeId).run i with ⟨result, j⟩
    rw [hread] at h
    obtain rfl : result = .ok r := h
    obtain ⟨htype, hl, hj⟩ := of_run_readInternet (.encapsulation hdata) hread
    refine ⟨htype, hl, fun order => ?_⟩
    have hposition : (r.profileFront i.order).position = (r.profileFront i.order).length :=
      Nat.zero_add _
    have hlast := hj.position_le
    have hsame := length_profileFront r order i.order
    omega

lemma length_add_le_remaining {typeId : String} {count n : Nat} {i₁ i₂ : Input}
    {profiles : List (UInt32 × Octets)} {p : UInt32 × Octets}
    (htype : string.run i = (.ok typeId, i₁)) (hcount : (word 4).run i₁ = (.ok count, i₂))
    (hprofiles : (many getProfile n).run i₂ = (.ok profiles, j)) (hp : p ∈ profiles) :
    j.remaining + p.2.length + 17 ≤ i.remaining := by
  let o : Output := { order := i.order, origin := i.position }
  have h₀ : i.Abreast o (i.position + i.remaining) := ⟨rfl, rfl, rfl⟩
  have hj := ((h₀.string htype).word hcount count).many abreast_getProfile hprofiles
  have hlast := hj.last
  rw [hj.position] at hlast
  have hdata := position_le_of_mem hp ((o.putString typeId).putWord 4 count)
  have hstring := le_aligned o.position 4
  have hword := le_aligned (o.putString typeId).position 4
  rw [Output.position_putWord] at hdata
  rw [Output.position_putString] at hdata hword
  have hposition : o.position = i.position := rfl
  omega

lemma of_run_read (h : read.run i = (.ok (some r), j)) :
    r.isLocal = false ∧ (i.remaining < j.remaining + 2 ^ 32 → r.Fits) := by
  obtain ⟨typeId, i₁, htype, hrest⟩ := of_run_bind h
  obtain ⟨count, i₂, hcount, hrest⟩ := of_run_bind hrest
  split at hrest
  · split at hrest <;> cases hrest
  · obtain ⟨profiles, i₃, hprofiles, hrest⟩ := of_run_bind hrest
    cases hfind : profiles.find? (·.1 == internetTag) with
    | none =>
      rw [hfind] at hrest
      cases hrest
    | some p =>
      rw [hfind] at hrest
      obtain ⟨r', hrun, hr'⟩ := of_run_map hrest
      obtain rfl := Option.some.inj hr'
      obtain ⟨hofProfile, rfl⟩ := of_run_ofExcept hrun
      obtain ⟨htypeId, hl, hfront⟩ := of_ofProfile hofProfile
      have hdata := length_add_le_remaining (of_run_adapt htype) (of_run_adapt hcount) hprofiles
        (List.mem_of_find?_eq_some hfind)
      refine ⟨hl, fun hi => ⟨?_, fun order => ?_⟩⟩
      · rw [htypeId]
        exact length_lt_of_run_string (of_run_adapt htype)
      · -- What is before the profile leaves room for the empty list of components that another
        -- broker may have left out.
        have hprofile := r'.length_profile_le_front order
        have hlength := hfront order
        omega

lemma length_encode_drop_le (text : List Char) (n : Nat) :
    (Utf8.encode (String.ofList (text.drop n))).length ≤
      (Utf8.encode (String.ofList text)).length := by
  have htext := congrArg (fun t => (Utf8.encode (String.ofList t)).length)
    (List.take_append_drop n text)
  simp only [Utf8.encode, String.toList_ofList, List.flatMap_append, List.length_append] at htext ⊢
  omega

lemma of_ofStringified {text : List Char} (h : ofStringified text = .ok r) :
    r.isLocal = false ∧ ((Utf8.encode (String.ofList text)).length < 2 ^ 33 → r.Fits) := by
  rw [ofStringified] at h
  split at h
  · cases h
  · split at h
    · cases h
    · next octets hdecode =>
      split at h
      · cases h
      · next i hi =>
        rcases hrun : read.run i with ⟨(e | _ | r'), j⟩ <;> rw [hrun] at h <;> cases h
        obtain ⟨hl, hfits⟩ := of_run_read hrun
        refine ⟨hl, fun ht => hfits ?_⟩
        have hdrop := length_encode_drop_le text 4
        have hoctets := Hex.length_of_decode hdecode
        have hlast := (Input.Abreast.encapsulation hi).last
        omega

end Foreign

lemma readAs (hr : r.Fits) : r.ReadAs { r with isLocal := false } where
  wire order origin rest :=
    (recovers_read { order, origin } r hr.typeId (hr.profile order)).run_octets rest
  text _ := ofStringified_of_toLower hr

lemma readAs_self (hlocal : r.isLocal = false) (hr : r.Fits) : r.ReadAs r := by
  have hself : { r with isLocal := false } = r := by
    rw [← hlocal]
  have hread := readAs hr
  rwa [hself] at hread

/-- References survive the wire and their text, and are not taken for nil, if the lengths of their
parts can be told. So does every reference that is read from octets or from text that others wrote,
and its lengths can be told if it takes less than four gigabytes there, whatever follows. -/
theorem survives_wire_and_text :
    (∀ r : Reference, r.Fits → r.ReadAs { r with isLocal := false }) ∧
    (∀ (order : ByteOrder) (origin : Nat) (rest : Octets),
      let written := putNil { order, origin }
      read.run { order, position := origin, rest := written.octets ++ rest } =
        (.ok none, { order, position := written.position, rest })) ∧
    (∀ (i j : Input) (r : Reference), read.run i = (.ok (some r), j) →
      (r.Fits → r.ReadAs r) ∧ (i.remaining < j.remaining + 2 ^ 32 → r.Fits)) ∧
    ∀ (text : List Char) (r : Reference), ofStringified text = .ok r →
      (r.Fits → r.ReadAs r) ∧ ((Utf8.encode (String.ofList text)).length < 2 ^ 33 → r.Fits) := by
  refine ⟨fun r => readAs, fun order origin rest => ?_, fun i j r hread => ?_,
    fun text r hread => ?_⟩
  · exact (recovers_read_putNil { order, origin }).run_octets rest
  · obtain ⟨hlocal, hfits⟩ := of_run_read hread
    exact ⟨readAs_self hlocal, hfits⟩
  · obtain ⟨hlocal, hfits⟩ := of_ofStringified hread
    exact ⟨readAs_self hlocal, hfits⟩

/-! A local reference without a type, and one that comes from another broker: a profile of an
unknown tag is first, a broken internet profile is last, and the one between them has its own order
and components of its own. -/

def untyped : Reference :=
  { typeId := "", endpoint := { host := "near", port := 0 }, key := [0, 0xff], minor := 0,
    isLocal := true }

def distant : Reference :=
  { typeId := "IDL:A:1.0", endpoint := { host := "far", port := 2809 }, key := [7, 0xff],
    minor := 1 }

def putForeign (o : Output) : Output :=
  let front := ((Output.encapsulation .littleEndian).append [1, 1]).putString "far"
  let components := (((front.putUInt16 2809).putOctets [7, 0xff]).putUInt32 1).putUInt32 20
  let profiles := [(1, [9, 9, 9]), (internetTag, (components.putOctets [0]).octets),
    (internetTag, [])]
  profiles.foldl putProfile ((o.putString "IDL:A:1.0").putUInt32 3)

def foreignOctets : Octets := (putForeign (.encapsulation .littleEndian)).octets

def foreignText : List Char := ['i', 'o', 'r', ':'] ++ foreignOctets.flatMap Hex.octet

lemma ofStringified_foreignText : ofStringified foreignText = .ok distant := by
  have hdigits : (foreignOctets.flatMap Hex.octet).map Char.toLower =
      (Hex.encode foreignOctets).toList := by
    rw [← Hex.map_toLower_encode, Hex.encode, String.toList_ofList]
  have hinput : Input.encapsulation foreignOctets =
      .ok { order := .littleEndian, position := 1, rest := foreignOctets.tail } := by
    decide +kernel
  have hrun : read.run { order := .littleEndian, position := 1, rest := foreignOctets.tail } =
      (.ok (some distant), { order := .littleEndian, position := 92, rest := [] }) := by
    decide +kernel
  exact ofStringified_append rfl (by decide) hdigits hinput hrun

theorem survives_wire_and_text_foreign :
    let octets := (putForeign { order := .bigEndian, origin := 5 }).octets
    let foreign : Input := { order := .bigEndian, position := 5, rest := octets ++ [0xaa] }
    untyped.ReadAs { untyped with isLocal := false } ∧
      read.run foreign =
        (.ok (some distant), { order := .bigEndian, position := 96, rest := [0xaa] }) ∧
      ofStringified foreignText = .ok distant ∧ distant.ReadAs distant := by
  intro octets foreign
  obtain ⟨hwritten, -, hread, -⟩ := survives_wire_and_text
  have huntyped : untyped.Fits :=
    ⟨by decide +kernel, fun order => by cases order <;> decide +kernel⟩
  have hrun : read.run foreign =
      (.ok (some distant), { order := .bigEndian, position := 96, rest := [0xaa] }) := by
    decide +kernel
  have hlength : foreign.remaining < 1 + 2 ^ 32 := by decide +kernel
  obtain ⟨hself, hfits⟩ := hread foreign _ distant hrun
  exact ⟨hwritten untyped huntyped, hrun, ofStringified_foreignText, hself (hfits hlength)⟩

/-! A type whose length cannot be told. -/

lemma run_read_of_error {e : StreamError} (h : string.run i = (.error e, j)) :
    read.run i = (.error (.stream e), j) := by
  have hadapt : Reading.run (liftM string : Reading MarshalError String) i =
      (.error (.stream e), j) := by
    change Reading.run (ExceptT.adapt MarshalError.stream string) i = _
    rw [run_adapt, h]
    rfl
  rw [read, run_bind, hadapt]

lemma run_read_of_length_typeId (order : ByteOrder)
    (h : (Utf8.encode r.typeId).length + 1 = 2 ^ 32) :
    ∃ j, read.run { order, rest := (put { order } r).octets } =
      (.error (.stream (.badString "zero length")), j) := by
  let front := ({ order } : Output).putWord 4 ((Utf8.encode r.typeId).length + 1)
  have hword : (word 4).Recovers { order } front 0 := by
    have hmod := recovers_word_mod { order } 4 ((Utf8.encode r.typeId).length + 1)
    have hzero : ((Utf8.encode r.typeId).length + 1) % 256 ^ 4 = 0 := by omega
    rwa [hzero] at hmod
  have hextends : front.Extends (put { order } r) :=
    (((Output.extends_append _ _).trans (Output.extends_putWord _ 4 _)).trans
      (Output.extends_putWord _ 4 _)).trans (Output.extends_putOctets _ _)
  obtain ⟨rest, hrest⟩ := hextends.octets_initial
  have hrun := hword.run_octets rest
  rw [hrest] at hrun
  refine ⟨_, run_read_of_error (j := { order, position := front.position, rest }) ?_⟩
  rw [string, run_bind, hrun]
  rfl

lemma length_encode_replicate (n : Nat) :
    (Utf8.encode (String.ofList (List.replicate n 'a'))).length = n := by
  rw [Utf8.encode, String.toList_ofList, List.length_flatMap, List.map_replicate,
    List.sum_replicate]
  exact Nat.mul_one n

def unutterable : Reference where
  typeId := String.ofList (List.replicate (2 ^ 32 - 1) 'a')
  endpoint := { host := "far", port := 2809 }
  key := []

theorem unutterable_not_read :
    ∃ j, read.run
        { order := .bigEndian, rest := (put { order := .bigEndian } unutterable).octets } =
      (.error (.stream (.badString "zero length")), j) := by
  have hlength : (Utf8.encode unutterable.typeId).length = 2 ^ 32 - 1 :=
    length_encode_replicate _
  exact run_read_of_length_typeId .bigEndian (by omega)

end ObjectBroker.Reference
