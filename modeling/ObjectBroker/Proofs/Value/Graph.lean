import Mathlib.Data.List.Forall2
import Mathlib.Data.Set.Function
import ObjectBroker.Value.Heap

/-! Value graphs: what can be reached in a heap, and when a part of one heap is a copy of a part
of another. -/

namespace ObjectBroker

namespace FieldValue

mutual

lemma nodes_renumber (f : NodeId → NodeId) (v : FieldValue) :
    (v.renumber f).nodes = v.nodes.map f := by
  cases v with
  | scalar s => rfl
  | string text => rfl
  | value n => cases n <;> rfl
  | sequence items => exact nodesAll_renumberAll f items

lemma nodesAll_renumberAll (f : NodeId → NodeId) (vs : List FieldValue) :
    nodesAll (renumberAll f vs) = (nodesAll vs).map f := by
  cases vs with
  | nil => rfl
  | cons v vs =>
    rw [renumberAll, nodesAll, nodesAll, List.map_append, nodes_renumber, nodesAll_renumberAll]

end

lemma renumberAll_eq_map (f : NodeId → NodeId) (vs : List FieldValue) :
    renumberAll f vs = vs.map (renumber f) := by
  induction vs with
  | nil => rfl
  | cons v vs ih => rw [renumberAll, ih, List.map_cons]

lemma mem_nodesAll {vs : List FieldValue} {n : NodeId} :
    n ∈ nodesAll vs ↔ ∃ v ∈ vs, n ∈ v.nodes := by
  induction vs with
  | nil => simp [nodesAll]
  | cons v vs ih => simp [nodesAll, ih]

end FieldValue

def Instance.renumber (f : NodeId → NodeId) (i : Instance) : Instance :=
  { i with fields := FieldValue.renumberAll f i.fields }

namespace Heap

/-- What can be reached from some roots by following fields. -/
inductive Reaches (h : Heap) (roots : List NodeId) : NodeId → Prop
  | root {n : NodeId} : n ∈ roots → Reaches h roots n
  | field {n k : NodeId} {i : Instance} : Reaches h roots n → h.get? n = some i →
      k ∈ FieldValue.nodesAll i.fields → Reaches h roots k

def WellTyped (h : Heap) : Prop :=
  ∀ n i, h.get? n = some i →
    List.Forall₂ (fun field v => h.fits field.kind v = true) i.type.fields i.fields

/-- `f` carries what can be reached from `roots` one to one onto what can be reached from `roots'`
in the other heap. Types, scalars, texts, nulls and the lengths of sequences stay as they are, and
handles go where `f` says. -/
structure Isomorphic (f : NodeId → NodeId) (h : Heap) (roots : List NodeId) (h' : Heap)
    (roots' : List NodeId) : Prop where
  bijOn : Set.BijOn f {n | h.Reaches roots n} {n | h'.Reaches roots' n}
  image : ∀ n, h.Reaches roots n → ∃ i, h.get? n = some i ∧ h'.get? (f n) = some (i.renumber f)

lemma Reaches.mono {h : Heap} {roots roots' : List NodeId} {n : NodeId}
    (hn : h.Reaches roots n) (hr : ∀ k ∈ roots, h.Reaches roots' k) : h.Reaches roots' n := by
  induction hn with
  | root hk => exact hr _ hk
  | field _ hi hk ih => exact .field ih hi hk

lemma mem_of_reaches {h : Heap} {roots : List NodeId} {s : List NodeId}
    (hr : ∀ n ∈ roots, n ∈ s)
    (hc : ∀ n ∈ s, ∀ i, h.get? n = some i → ∀ k ∈ FieldValue.nodesAll i.fields, k ∈ s)
    {n : NodeId} (hn : h.Reaches roots n) : n ∈ s := by
  induction hn with
  | root hk => exact hr _ hk
  | field _ hi hk ih => exact hc _ ih _ hi _ hk

lemma typeId_eq {h : Heap} {n : NodeId} {i : Instance} (hi : h.get? n = some i) :
    h.typeId n = i.type.id := by
  rw [typeId, typeOf?, hi]
  rfl

lemma isSome_of_fits {h : Heap} {declared : String} {n : NodeId}
    (hf : h.fits (.value declared) (.value (some n)) = true) : (h.get? n).isSome := by
  rw [fits, isA, typeOf?] at hf
  cases hg : h.get? n with
  | none => simp [hg] at hf
  | some i => rfl

lemma isSome_of_fits_nodes {h : Heap} (kind : FieldKind) {v : FieldValue}
    (hf : h.fits kind v = true) {n : NodeId} (hn : n ∈ v.nodes) : (h.get? n).isSome := by
  induction kind generalizing v with
  | scalar kind => cases v <;> simp_all [fits, FieldValue.nodes]
  | string => cases v <;> simp_all [fits, FieldValue.nodes]
  | value declared =>
    cases v with
    | value k =>
      cases k with
      | none => simp [FieldValue.nodes] at hn
      | some k =>
        obtain rfl : n = k := by simpa [FieldValue.nodes] using hn
        exact isSome_of_fits hf
    | _ => simp [fits] at hf
  | sequence element ih =>
    cases v with
    | sequence items =>
      rw [fits, List.all_eq_true] at hf
      obtain ⟨v, hv, hk⟩ := FieldValue.mem_nodesAll.mp hn
      exact ih (hf v hv) hk
    | _ => simp [fits] at hf

lemma exists_of_reaches {h : Heap} {roots : List NodeId} (hh : h.WellTyped)
    (hr : ∀ n ∈ roots, (h.get? n).isSome) {n : NodeId} (hn : h.Reaches roots n) :
    ∃ i, h.get? n = some i := by
  apply Option.isSome_iff_exists.mp
  cases hn with
  | root hk => exact hr n hk
  | @field k n i _ hi hk =>
    obtain ⟨v, hv, hnv⟩ := FieldValue.mem_nodesAll.mp hk
    obtain ⟨index, hlt, rfl⟩ := List.getElem_of_mem hv
    have hfits := List.forall₂_iff_get.mp (hh k i hi)
    exact isSome_of_fits_nodes _ (hfits.2 index (hfits.1 ▸ hlt) hlt) hnv

lemma fits_of_types {h h' : Heap} (kind : FieldKind) {v : FieldValue}
    (hf : h.fits kind v = true) (hn : ∀ n ∈ v.nodes, h'.typeOf? n = h.typeOf? n) :
    h'.fits kind v = true := by
  induction kind generalizing v with
  | scalar kind => cases v <;> simp_all [fits]
  | string => cases v <;> simp_all [fits]
  | value declared =>
    cases v with
    | value k =>
      cases k with
      | none => simp [fits]
      | some k =>
        rw [fits, isA] at hf ⊢
        rw [hn k (by simp [FieldValue.nodes])]
        exact hf
    | _ => simp [fits] at hf
  | sequence element ih =>
    cases v with
    | sequence items =>
      rw [fits, List.all_eq_true] at hf ⊢
      intro v hv
      exact ih (hf v hv) fun n hk => hn n (FieldValue.mem_nodesAll.mpr ⟨v, hv, hk⟩)
    | _ => simp [fits] at hf

lemma isomorphic_of_closed {f : NodeId → NodeId} {h h' : Heap} {roots s : List NodeId}
    (hr : ∀ n ∈ roots, n ∈ s)
    (hc : ∀ n ∈ s, ∀ i, h.get? n = some i → ∀ k ∈ FieldValue.nodesAll i.fields, k ∈ s)
    (hf : ∀ n ∈ s, ∀ k ∈ s, f n = f k → n = k)
    (hi : ∀ n ∈ s, ∃ i, h.get? n = some i ∧ h'.get? (f n) = some (i.renumber f)) :
    Isomorphic f h roots h' (roots.map f) := by
  have hs {n : NodeId} (hn : h.Reaches roots n) : n ∈ s := mem_of_reaches hr hc hn
  refine ⟨⟨?_, ?_, ?_⟩, fun n hn => hi n (hs hn)⟩
  · intro n hn
    induction hn with
    | root hk => exact .root (List.mem_map_of_mem hk)
    | @field n k i hn hg hk ih =>
      obtain ⟨i', hg', hj⟩ := hi n (hs hn)
      obtain rfl : i = i' := Option.some.inj (hg.symm.trans hg')
      refine .field ih hj ?_
      rw [Instance.renumber, FieldValue.nodesAll_renumberAll]
      exact List.mem_map_of_mem hk
  · intro n hn k hk he
    exact hf n (hs hn) k (hs hk) he
  · intro j hj
    induction hj with
    | root hk =>
      obtain ⟨n, hn, rfl⟩ := List.mem_map.mp hk
      exact ⟨n, .root hn, rfl⟩
    | field _ hg hk ih =>
      obtain ⟨n, hn, rfl⟩ := ih
      obtain ⟨i, hi', hj⟩ := hi n (hs hn)
      obtain rfl := Option.some.inj (hg.symm.trans hj)
      rw [Instance.renumber, FieldValue.nodesAll_renumberAll] at hk
      obtain ⟨k', hk', rfl⟩ := List.mem_map.mp hk
      exact ⟨k', .field hn hi' hk', rfl⟩

end Heap

end ObjectBroker
