import Mathlib.Logic.Relation
import ObjectBroker.Adapter
import ObjectBroker.Proofs.Text.Split
import ObjectBroker.Proofs.Text.Utf8

/-!
Adapters and object keys. What the owner of a broker does with its adapters keeps the separator of
keys out of names and ids, so that a key can be cut where it was put together.
-/

namespace ObjectBroker

lemma Utf8.lossy_encode (text : String) : Utf8.lossy (Utf8.encode text) = text := by
  have hshown : ∀ cs : List Char,
      (Utf8.pieces (cs.flatMap String.utf8EncodeChar)).map Utf8.Piece.shown = cs := by
    intro cs
    induction cs with
    | nil => rfl
    | cons c cs ih =>
      rw [List.flatMap_cons, Utf8.pieces_encodeChar, List.map_cons, ih]
      rfl
  rw [Utf8.lossy, Utf8.encode, hshown, String.ofList_toList]

namespace Adapter

variable {a a' : Adapter} {id : String} {n : ObjectId}

inductive Upkeep : Adapter → Adapter → Prop
  | activate {a a' : Adapter} {id : String} {n : ObjectId} (h : a.activate n = .ok (id, a')) :
      Upkeep a a'
  | activateWithId {a a' : Adapter} {id : String} {n : ObjectId}
      (h : a.activateWithId id n = .ok a') : Upkeep a a'
  | deactivate {a a' : Adapter} {id : String} (h : a.deactivate id = .ok a') : Upkeep a a'
  | shutdown (a : Adapter) : Upkeep a a.shutdown

def Whole (a : Adapter) : Prop :=
  ∀ p ∈ a.servants, '/' ∉ p.1.toList

lemma not_mem_of_isPlain {text : String} (h : isPlain text = true) : '/' ∉ text.toList := by
  simpa using ((Bool.and_eq_true _ _).mp h).2

lemma not_mem_toString (n : Nat) : '/' ∉ (toString n).toList := by
  have hdigits : (toString n).toList = Nat.toDigits 10 n := by
    rw [Nat.toString_eq_repr, Nat.toList_repr]
  rw [hdigits]
  exact Numeral.not_mem_toDigits (by decide) n

lemma eq_of_insert (h : a.insert id n = .ok a') :
    a' = { a with servants := (id, n) :: a.servants } := by
  rw [insert] at h
  split at h
  · cases h
  · split at h
    · cases h
    · exact (Except.ok.inj h).symm

lemma eq_of_activate (h : a.activate n = .ok (id, a')) :
    ∃ m b, id = toString m ∧ a.insert id n = .ok b ∧ a' = { b with nextId := m + 1 } := by
  let m := if a.isRunning then a.freshFrom a.nextId a.size else a.nextId
  have hactivate : a.activate n =
      a.insert (toString m) n >>= fun b => pure (toString m, { b with nextId := m + 1 }) := rfl
  rw [hactivate] at h
  cases hb : a.insert (toString m) n with
  | error e =>
    rw [hb] at h
    cases h
  | ok b =>
    rw [hb] at h
    cases h
    exact ⟨m, b, rfl, hb, rfl⟩

lemma Whole.insert (hw : a.Whole) (hid : '/' ∉ id.toList) (h : a.insert id n = .ok a') :
    a'.Whole := by
  rw [eq_of_insert h]
  exact List.forall_mem_cons.mpr ⟨hid, hw⟩

lemma Whole.not_mem (hw : a.Whole) (h : a.servant? id = some n) : '/' ∉ id.toList := by
  obtain ⟨l₁, l₂, hservants, -⟩ := List.lookup_eq_some_iff.mp h
  exact hw (id, n) (by simp [hservants])

lemma Upkeep.keeps (h : a.Upkeep a') : a'.name = a.name ∧ (a.Whole → a'.Whole) := by
  cases h with
  | activate h =>
    obtain ⟨m, b, rfl, hb, rfl⟩ := eq_of_activate h
    have hname := congrArg name (eq_of_insert hb)
    exact ⟨hname, fun hw => (hw.insert (not_mem_toString m.toNat) hb : b.Whole)⟩
  | activateWithId h =>
    rw [Adapter.activateWithId] at h
    split at h
    · next hplain =>
      have hname := congrArg name (eq_of_insert h)
      exact ⟨hname, fun hw => hw.insert (not_mem_of_isPlain hplain) h⟩
    · cases h
  | deactivate h =>
    rw [Adapter.deactivate] at h
    split at h
    · cases h
    · cases h
      exact ⟨rfl, fun hw p hp => hw p (List.mem_filter.mp hp).1⟩
  | shutdown => exact ⟨rfl, fun _ p hp => by cases hp⟩

end Adapter

namespace Directory

variable {d d' : Directory} {a : Adapter} {id : String} {key : Octets} {t : Target}

inductive Upkeep : Directory → Directory → Prop
  | create {d d' : Directory} {name : String} {isBidirectional : Bool}
      (h : d.create name isBidirectional = .ok d') : Upkeep d d'
  | adapter {d : Directory} {a a' : Adapter} (ha : a ∈ d.adapters) (h : a.Upkeep a') :
      Upkeep d (d.put a')

def Reached : Directory → Prop :=
  Relation.ReflTransGen Upkeep {}

/-- Each adapter has a name of its own, and no separator stands in names and ids. -/
structure Sound (d : Directory) : Prop where
  distinct : (d.adapters.map Adapter.name).Nodup
  names : ∀ a ∈ d.adapters, '/' ∉ a.name.toList
  whole : ∀ a ∈ d.adapters, a.Whole

lemma sound_default : Sound {} where
  distinct := by simp
  names := by
    have hroot : '/' ∉ Adapter.rootName.toList := by decide
    simpa using hroot
  whole := by simp [Adapter.Whole]

lemma names_put (d : Directory) (a : Adapter) :
    (d.put a).adapters.map Adapter.name = d.adapters.map Adapter.name := by
  rw [put, List.map_map]
  refine List.map_congr_left fun b _ => ?_
  by_cases h : b.name = a.name <;> simp [h]

lemma get?_eq_none (h : d.get? id = none) : id ∉ d.adapters.map Adapter.name := by
  simpa [get?] using h

namespace Sound

lemma create {name : String} {isBidirectional : Bool} (hd : d.Sound)
    (h : d.create name isBidirectional = .ok d') : d'.Sound := by
  rw [Directory.create] at h
  split at h
  · cases h
  · next hplain =>
    split at h
    · cases h
    · next hget =>
      cases h
      have hnew := get?_eq_none (Option.not_isSome_iff_eq_none.mp hget)
      have hname := Adapter.not_mem_of_isPlain (by simpa using hplain)
      refine ⟨?_, ?_, ?_⟩
      · simpa [List.nodup_append] using ⟨hd.distinct, by simpa using hnew⟩
      · simpa [or_imp, forall_and] using ⟨hd.names, hname⟩
      · simpa [or_imp, forall_and, Adapter.Whole] using hd.whole

lemma put {a a' : Adapter} (hd : d.Sound) (ha : a ∈ d.adapters) (h : a.Upkeep a') :
    (d.put a').Sound := by
  obtain ⟨hname, hwhole⟩ := h.keeps
  have hmem : ∀ b ∈ (d.put a').adapters, b = a' ∨ b ∈ d.adapters := by
    intro b hb
    obtain ⟨c, hc, rfl⟩ := List.mem_map.mp hb
    by_cases hca : c.name = a'.name
    · exact .inl (if_pos hca)
    · exact .inr (by simpa [hca] using hc)
  refine ⟨by rw [names_put]; exact hd.distinct, fun b hb => ?_, fun b hb => ?_⟩
  · rcases hmem b hb with rfl | hb
    · exact hname ▸ hd.names a ha
    · exact hd.names b hb
  · rcases hmem b hb with rfl | hb
    · exact hwhole (hd.whole a ha)
    · exact hd.whole b hb

lemma upkeep (hd : d.Sound) (h : d.Upkeep d') : d'.Sound := by
  cases h with
  | create h => exact hd.create h
  | adapter ha h => exact hd.put ha h

end Sound

lemma Reached.sound (h : d.Reached) : d.Sound := by
  induction h with
  | refl => exact sound_default
  | tail _ hstep ih => exact ih.upkeep hstep

lemma Sound.get?_name (hd : d.Sound) (ha : a ∈ d.adapters) : d.get? a.name = some a := by
  obtain ⟨before, after, hsplit⟩ := List.append_of_mem ha
  have hdistinct := hd.distinct
  simp only [hsplit, List.map_append, List.map_cons, List.nodup_append] at hdistinct
  have hbefore : before.find? (·.name == a.name) = none := by
    simp only [List.find?_eq_none, beq_iff_eq]
    exact fun b hb => hdistinct.2.2 b.name (List.mem_map_of_mem hb) a.name List.mem_cons_self
  rw [get?, hsplit, List.find?_append, hbefore]
  simp

lemma keyText_of_ne (hroot : a.name ≠ Adapter.rootName) (id : String) :
    a.keyText id = a.name ++ "/" ++ id := by
  rw [Adapter.keyText, if_neg hroot]
  rfl

lemma toList_slash (front rest : String) :
    (front ++ "/" ++ rest).toList = front.toList ++ '/' :: rest.toList := by
  simp

lemma splitKey_keyText (hname : '/' ∉ a.name.toList) (hid : '/' ∉ id.toList) :
    splitKey (a.keyText id) = (a.name, id) := by
  by_cases hroot : a.name = Adapter.rootName
  · rw [Adapter.keyText, if_pos hroot, splitKey, Split.once?_of_not_mem hid, hroot]
  · rw [keyText_of_ne hroot, splitKey, toList_slash, Split.once?_append hname]
    simp

lemma eq_of_splitKey {text : String} (h : splitKey text = (a.name, id)) :
    text = a.keyText id ∨ a.name = Adapter.rootName ∧ text = Adapter.rootName ++ "/" ++ id := by
  rw [splitKey] at h
  cases hcut : Split.once? '/' text.toList with
  | none =>
    rw [hcut] at h
    obtain ⟨hname, rfl⟩ := Prod.mk.inj h
    exact .inl (if_pos hname.symm).symm
  | some parts =>
    rw [hcut] at h
    obtain ⟨hname, rfl⟩ := Prod.mk.inj h
    have htext : text = a.name ++ "/" ++ String.ofList parts.2 := by
      rw [← String.toList_inj, toList_slash, (Split.once?_eq_some hcut).1, ← hname]
      simp
    by_cases hroot : a.name = Adapter.rootName
    · exact .inr ⟨hroot, hroot ▸ htext⟩
    · exact .inl (htext.trans (keyText_of_ne hroot _).symm)

lemma route_eq_ok_iff : d.route key = .ok t ↔
    d.get? (splitKey (Utf8.lossy key)).1 = some t.adapter ∧ (splitKey (Utf8.lossy key)).2 = t.id ∧
      t.adapter.servant? t.id = some t.servant := by
  obtain ⟨a, id, n⟩ := t
  rw [route]
  generalize splitKey (Utf8.lossy key) = cut
  obtain ⟨name, i⟩ := cut
  cases hget : d.get? name with
  | none => simp [hget]
  | some b =>
    cases hn : b.servant? i with
    | none =>
      simp only [hget, hn]
      constructor
      · intro h
        cases h
      · rintro ⟨⟨rfl⟩, rfl, hm⟩
        cases hn.symm.trans hm
    | some m =>
      simp only [hget, hn]
      constructor
      · intro h
        cases h
        exact ⟨rfl, rfl, hn⟩
      · rintro ⟨⟨rfl⟩, rfl, hm⟩
        cases hn.symm.trans hm
        rfl

lemma eq_of_route_error {e : BrokerError} (h : d.route key = .error e) :
    e = .unknownObject (Utf8.lossy key) := by
  simp only [route] at h
  split at h
  · exact (Except.error.inj h).symm
  · split at h
    · exact (Except.error.inj h).symm
    · cases h

lemma Sound.route_key {n : ObjectId} (hd : d.Sound) (ha : a ∈ d.adapters)
    (hn : a.servant? id = some n) :
    d.route (a.key id) = .ok { adapter := a, id, servant := n } := by
  have hsplit : splitKey (Utf8.lossy (a.key id)) = (a.name, id) := by
    rw [Adapter.key, Utf8.lossy_encode]
    exact splitKey_keyText (hd.names a ha) ((hd.whole a ha).not_mem hn)
  rw [route_eq_ok_iff, hsplit]
  exact ⟨hd.get?_name ha, rfl, hn⟩

lemma Sound.key_inj {b : Adapter} {i j : String} (hd : d.Sound) (ha : a ∈ d.adapters)
    (hb : b ∈ d.adapters) (hi : (a.servant? i).isSome) (hj : (b.servant? j).isSome)
    (h : a.key i = b.key j) : a = b ∧ i = j := by
  obtain ⟨n, hn⟩ := Option.isSome_iff_exists.mp hi
  obtain ⟨m, hm⟩ := Option.isSome_iff_exists.mp hj
  -- One key leads to one place, and these two lead to their objects.
  have hroute := hd.route_key ha hn
  rw [h, hd.route_key hb hm] at hroute
  cases hroute
  exact ⟨rfl, rfl⟩

lemma of_route (h : d.route key = .ok t) :
    t.adapter ∈ d.adapters ∧ t.adapter.servant? t.id = some t.servant ∧
      (Utf8.lossy key = t.adapter.keyText t.id ∨
        t.adapter.name = Adapter.rootName ∧ Utf8.lossy key = Adapter.rootName ++ "/" ++ t.id) := by
  obtain ⟨hget, hid, hn⟩ := route_eq_ok_iff.mp h
  have hname : t.adapter.name = (splitKey (Utf8.lossy key)).1 := by
    simpa using List.find?_some hget
  refine ⟨List.mem_of_find?_eq_some hget, hn, eq_of_splitKey ?_⟩
  rw [hname, ← hid]

end Directory

end ObjectBroker
