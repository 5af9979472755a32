import Mathlib.Data.List.Nodup
import Mathlib.Data.Set.Defs
import ObjectBroker.Value.Type

/-! Inheritance. Types that are built from each other, where an id stands for one type, have what
their ancestors have: each field once, the most basic first. -/

namespace ObjectBroker

def Field.key (f : Field) : String × String :=
  (f.owner, f.name)

namespace ValueType

inductive Built (S : Set ValueType) : ValueType → Prop
  | build {id : String} {bases : List ValueType} {own : List (String × FieldKind)}
      {t : ValueType} : (∀ b ∈ bases, b ∈ S) → (∀ b ∈ bases, Built S b) →
      build id bases own = .ok t → Built S t

/-- Types that are built from each other, where an id stands for one type. -/
structure Family (S : Set ValueType) : Prop where
  built : ∀ t ∈ S, Built S t
  unique : ∀ s ∈ S, ∀ t ∈ S, s.id = t.id → s = t

def Descends (S : Set ValueType) (a b : String) : Prop :=
  ∃ s ∈ S, s.id = a ∧ b ∈ s.ancestors

/-- What flattening promises of a type among the types of `S`. -/
structure Flat (S : Set ValueType) (t : ValueType) : Prop where
  keys_nodup : (t.fields.map Field.key).Nodup
  owner_isA : ∀ f ∈ t.fields, t.isA f.owner = true
  ancestors_nodup : t.ancestors.Nodup
  self_notMem : t.id ∉ t.ancestors
  known : ∀ a ∈ t.ancestors, ∃ s ∈ S, s.id = a
  closed : ∀ a ∈ t.ancestors, ∀ b, Descends S a b → b ∈ t.ancestors
  isA_trans : ∀ s ∈ S, t.isA s.id = true → ∀ id, s.isA id = true → t.isA id = true
  inherited : ∀ s ∈ S, s.id ∈ t.ancestors → ∀ f ∈ s.fields, t.fields.count f = 1
  /-- An ancestor comes after its own ancestors. -/
  ancestors_sorted : ∀ (i j : Nat) (a b : String), t.ancestors[i]? = some a →
    t.ancestors[j]? = some b → Descends S b a → i < j
  /-- A field comes after those that its owner inherits. -/
  fields_sorted : ∀ (i j : Nat) (f g : Field), t.fields[i]? = some f → t.fields[j]? = some g →
    Descends S g.owner f.owner → i < j

section Merge

lemma foldl_addUnless {α κ : Type} [BEq κ] [LawfulBEq κ] (key : α → κ) (add : List α → α → List α)
    (hadd : ∀ known a,
      add known a = if (known.map key).contains (key a) then known else known ++ [a])
    (known l : List α) (hl : (l.map key).Nodup) :
    l.foldl add known = known ++ l.filter fun a => !(known.map key).contains (key a) := by
  induction l generalizing known with
  | nil => exact (List.append_nil known).symm
  | cons a l ih =>
    obtain ⟨ha, hl⟩ := List.nodup_cons.mp hl
    rw [List.foldl_cons, hadd, ih _ hl]
    by_cases hk : (known.map key).contains (key a) = true
    · rw [if_pos hk, List.filter_cons_of_neg (by simpa using hk)]
    · rw [if_neg hk, List.filter_cons_of_pos (by simpa using hk), List.append_assoc,
        List.singleton_append]
      -- The key of `a` is new, but it does not come again in `l`.
      congr 2
      refine List.filter_congr fun b hb => ?_
      have hne : key b ≠ key a := fun he => ha (he ▸ List.mem_map_of_mem hb)
      simp [hne]

lemma foldl_addNew (known l : List String) (hl : l.Nodup) :
    l.foldl addNew known = known ++ l.filter fun a => !known.contains a := by
  have h := foldl_addUnless (fun a => a) addNew (fun known a => by simp [addNew]) known l
    (by simpa using hl)
  simpa using h

lemma mem_foldl_addNew {known l : List String} (hl : l.Nodup) {a : String} :
    a ∈ l.foldl addNew known ↔ a ∈ known ∨ a ∈ l := by
  rw [foldl_addNew known l hl, List.mem_append, List.mem_filter, Bool.not_eq_true',
    ← Bool.not_eq_true, List.contains_iff_mem]
  tauto

lemma declares_eq (fields : List Field) (owner name : String) :
    declares fields owner name = (fields.map Field.key).contains (owner, name) := by
  rw [Bool.eq_iff_iff]
  simp [declares, Field.key]

lemma foldl_addField (known l : List Field) (hl : (l.map Field.key).Nodup) :
    l.foldl addField known =
      known ++ l.filter fun f => !(known.map Field.key).contains f.key :=
  foldl_addUnless Field.key addField
    (fun known f => by rw [addField, declares_eq]; rfl) known l hl

end Merge

/-- Type ids and fields as they are collected: those of some types of `S`, with all that they
inherit. -/
structure Merged (S : Set ValueType) (ids : List String) (fields : List Field) : Prop where
  nodup : ids.Nodup
  known : ∀ a ∈ ids, ∃ s ∈ S, s.id = a ∧ s.ancestors ⊆ ids ∧ s.fields ⊆ fields
  sorted : ids.Pairwise fun a b => ¬ Descends S a b
  keys : (fields.map Field.key).Nodup
  owned : ∀ f ∈ fields, f.owner ∈ ids ∧ ∃ s ∈ S, s.id = f.owner ∧ f ∈ s.fields
  fieldsSorted : fields.Pairwise fun f g => ¬ Descends S f.owner g.owner

namespace Merged

variable {S : Set ValueType} {ids ids' : List String} {fields fields' : List Field}

lemma nil : Merged S [] [] where
  nodup := .nil
  known a ha := by cases ha
  sorted := .nil
  keys := .nil
  owned f hf := by cases hf
  fieldsSorted := .nil

section

variable (hS : Family S) (h : Merged S ids fields)
include hS h

lemma closed {a b : String} (ha : a ∈ ids) (hb : Descends S a b) : b ∈ ids := by
  obtain ⟨s, hs, rfl, hsub, -⟩ := h.known a ha
  obtain ⟨s', hs', hid, hb⟩ := hb
  obtain rfl := hS.unique s' hs' s hs hid
  exact hsub hb

lemma fields_subset {s : ValueType} (hs : s ∈ S) (hid : s.id ∈ ids) : s.fields ⊆ fields := by
  obtain ⟨s', hs', he, -, hsub⟩ := h.known s.id hid
  obtain rfl := hS.unique s' hs' s hs he
  exact hsub

lemma mem_of_owner {f : Field} (h' : Merged S ids' fields') (hf : f ∈ fields')
    (hid : f.owner ∈ ids) : f ∈ fields := by
  obtain ⟨-, s, hs, he, hfs⟩ := h'.owned f hf
  exact h.fields_subset hS hs (he ▸ hid) hfs

lemma mem_of_key {f : Field} (h' : Merged S ids' fields') (hf : f ∈ fields')
    (hk : f.key ∈ fields.map Field.key) : f ∈ fields := by
  obtain ⟨g, hg, hkey⟩ := List.mem_map.mp hk
  have howner : g.owner = f.owner := congrArg Prod.fst hkey
  exact h.mem_of_owner hS h' hf (howner ▸ (h.owned g hg).1)

lemma mem_fields_merge {f : Field} (h' : Merged S ids' fields') :
    f ∈ fields'.foldl addField fields ↔ f ∈ fields ∨ f ∈ fields' := by
  have hkey := h.mem_of_key hS h' (f := f)
  rw [foldl_addField fields fields' h'.keys, List.mem_append, List.mem_filter, Bool.not_eq_true',
    ← Bool.not_eq_true, List.contains_iff_mem]
  tauto

lemma merge (h' : Merged S ids' fields') :
    Merged S (ids'.foldl addNew ids) (fields'.foldl addField fields) where
  nodup := by
    rw [foldl_addNew ids ids' h'.nodup]
    refine List.nodup_append'.mpr ⟨h.nodup, h'.nodup.filter _, fun a ha hb => ?_⟩
    simpa [ha] using List.of_mem_filter hb
  known a ha := by
    have hids {l : List String} (hl : l ⊆ ids ∨ l ⊆ ids') : l ⊆ ids'.foldl addNew ids :=
      fun b hb => (mem_foldl_addNew h'.nodup).mpr (hl.imp (· hb) (· hb))
    have hfields {l : List Field} (hl : l ⊆ fields ∨ l ⊆ fields') :
        l ⊆ fields'.foldl addField fields :=
      fun f hf => (h.mem_fields_merge hS h').mpr (hl.imp (· hf) (· hf))
    rcases (mem_foldl_addNew h'.nodup).mp ha with ha | ha
    · obtain ⟨s, hs, he, hsub, hsub'⟩ := h.known a ha
      exact ⟨s, hs, he, hids (.inl hsub), hfields (.inl hsub')⟩
    · obtain ⟨s, hs, he, hsub, hsub'⟩ := h'.known a ha
      exact ⟨s, hs, he, hids (.inr hsub), hfields (.inr hsub')⟩
  sorted := by
    rw [foldl_addNew ids ids' h'.nodup]
    refine List.pairwise_append.mpr ⟨h.sorted, h'.sorted.filter _, fun a ha b hb hab => ?_⟩
    -- An ancestor of what was there before was there before as well.
    simpa [h.closed hS ha hab] using List.of_mem_filter hb
  keys := by
    rw [foldl_addField fields fields' h'.keys, List.map_append]
    refine List.nodup_append'.mpr ⟨h.keys, h'.keys.sublist (List.filter_sublist.map _), ?_⟩
    intro k hk hk'
    obtain ⟨f, hf, rfl⟩ := List.mem_map.mp hk'
    simpa [hk] using List.of_mem_filter hf
  owned f hf := by
    rcases (h.mem_fields_merge hS h').mp hf with hf | hf
    · exact ⟨(mem_foldl_addNew h'.nodup).mpr (.inl (h.owned f hf).1), (h.owned f hf).2⟩
    · exact ⟨(mem_foldl_addNew h'.nodup).mpr (.inr (h'.owned f hf).1), (h'.owned f hf).2⟩
  fieldsSorted := by
    rw [foldl_addField fields fields' h'.keys]
    refine List.pairwise_append.mpr
      ⟨h.fieldsSorted, h'.fieldsSorted.filter _, fun f hf g hg hfg => ?_⟩
    -- The owner of `g` was there before, and then `g` was there before.
    have hgf := h.mem_of_owner hS h' (List.mem_of_mem_filter hg)
      (h.closed hS (h.owned f hf).1 hfg)
    simpa [List.mem_map_of_mem hgf] using List.of_mem_filter hg

lemma extend {t : ValueType} (ht : t ∈ S) (hids : t.ancestors = ids) (hid : t.id ∉ ids)
    (hkeys : (t.fields.map Field.key).Nodup) {own : List Field} (hown : ∀ f ∈ own, f.owner = t.id)
    (hfields : t.fields = fields ++ own) : Merged S (ids ++ [t.id]) t.fields where
  nodup := List.nodup_append'.mpr ⟨h.nodup, List.nodup_singleton _, by simpa using hid⟩
  known a ha := by
    rcases List.mem_append.mp ha with ha | ha
    · obtain ⟨s, hs, he, hsub, hsub'⟩ := h.known a ha
      refine ⟨s, hs, he, List.subset_append_of_subset_left _ hsub, ?_⟩
      rw [hfields]
      exact List.subset_append_of_subset_left _ hsub'
    · refine ⟨t, ht, (List.mem_singleton.mp ha).symm, ?_, fun _ hf => hf⟩
      rw [hids]
      exact List.subset_append_left _ _
  sorted := by
    refine List.pairwise_append.mpr ⟨h.sorted, List.pairwise_singleton _ _, fun a ha b hb hab => ?_⟩
    obtain rfl := List.mem_singleton.mp hb
    exact hid (h.closed hS ha hab)
  keys := hkeys
  owned f hf := by
    rw [hfields] at hf
    rcases List.mem_append.mp hf with hf | hf
    · exact ⟨List.mem_append_left _ (h.owned f hf).1, (h.owned f hf).2⟩
    · refine ⟨by simp [hown f hf], t, ht, (hown f hf).symm, ?_⟩
      rw [hfields]
      exact List.mem_append_right _ hf
  fieldsSorted := by
    have hself (f g : Field) (hg : g ∈ own) (hf : f.owner ∈ ids ∨ f.owner = t.id) :
        ¬ Descends S f.owner g.owner := by
      rw [hown g hg]
      intro hfg
      rcases hf with hf | hf
      · exact hid (h.closed hS hf hfg)
      · obtain ⟨s, hs, he, hg⟩ := hfg
        obtain rfl := hS.unique s hs t ht (he.trans hf)
        exact hid (hids ▸ hg)
    rw [hfields]
    refine List.pairwise_append.mpr ⟨h.fieldsSorted, ?_, fun f hf g hg => ?_⟩
    · exact List.pairwise_of_forall_mem_list fun f hf g hg => hself f g hg (.inr (hown f hf))
    · exact hself f g hg (.inl (h.owned f hf).1)

end

end Merged

section Build

variable {t u : ValueType} {id : String} {bases : List ValueType} {own : List (String × FieldKind)}

lemma isA_iff {a : String} : t.isA a = true ↔ a ∈ t.ancestors ++ [t.id] := by
  rw [isA, Bool.or_eq_true, beq_iff_eq, List.contains_iff_mem, List.mem_append,
    List.mem_singleton, or_comm, eq_comm (a := a)]

lemma of_inherit {b : ValueType} (h : t.inherit b = .ok u) :
    t.id ∉ b.ancestors ++ [b.id] ∧ u = { t with
      ancestors := (b.ancestors ++ [b.id]).foldl addNew t.ancestors
      fields := b.fields.foldl addField t.fields } := by
  rw [inherit] at h
  split at h
  · cases h
  · next hb =>
    cases h
    exact ⟨fun hmem => hb (isA_iff.mpr hmem), rfl⟩

lemma of_inherit_cons {b : ValueType} (h : (b :: bases).foldlM inherit t = .ok u) :
    ∃ t', t.inherit b = .ok t' ∧ bases.foldlM inherit t' = .ok u := by
  rw [List.foldlM_cons] at h
  cases hb : t.inherit b with
  | error e =>
    rw [hb] at h
    cases h
  | ok t' =>
    rw [hb] at h
    exact ⟨t', rfl, h⟩

lemma merged_inherit {S : Set ValueType} (hS : Family S)
    (hbases : ∀ b ∈ bases, Merged S (b.ancestors ++ [b.id]) b.fields)
    (ht : Merged S t.ancestors t.fields) (hid : t.id ∉ t.ancestors)
    (h : bases.foldlM inherit t = .ok u) :
    u.id = t.id ∧ u.id ∉ u.ancestors ∧ Merged S u.ancestors u.fields ∧
      (∀ a, a ∈ u.ancestors ↔ a ∈ t.ancestors ∨ ∃ b ∈ bases, b.isA a = true) ∧
      ∀ f, f ∈ u.fields ↔ f ∈ t.fields ∨ ∃ b ∈ bases, f ∈ b.fields := by
  induction bases generalizing t with
  | nil =>
    cases h
    simp [hid, ht]
  | cons b bases ih =>
    obtain ⟨t', hb, h⟩ := of_inherit_cons h
    obtain ⟨hnot, rfl⟩ := of_inherit hb
    have hmb := hbases b List.mem_cons_self
    have hids (a : String) : a ∈ (b.ancestors ++ [b.id]).foldl addNew t.ancestors ↔ _ :=
      mem_foldl_addNew hmb.nodup
    have hfields (f : Field) := ht.mem_fields_merge hS hmb (f := f)
    obtain ⟨he, hu, hm, hanc, hfs⟩ := ih (fun c hc => hbases c (List.mem_cons_of_mem _ hc))
      (ht.merge hS hmb) (fun hmem => ((hids _).mp hmem).elim hid hnot) h
    refine ⟨he, hu, hm, fun a => ?_, fun f => ?_⟩
    · rw [hanc]
      dsimp only
      rw [hids, ← isA_iff, List.exists_mem_cons_iff, or_assoc]
    · rw [hfs]
      dsimp only
      rw [hfields, List.exists_mem_cons_iff, or_assoc]

def ownFields (id : String) (own : List (String × FieldKind)) : List Field :=
  own.map fun x => { name := x.1, kind := x.2, owner := id }

lemma of_declare {x : String × FieldKind} (h : t.declare x = .ok u) :
    (t.id, x.1) ∉ t.fields.map Field.key ∧
      u = { t with fields := t.fields ++ ownFields t.id [x] } := by
  rw [declare] at h
  split at h
  · cases h
  · next hx =>
    cases h
    rw [declares_eq] at hx
    exact ⟨fun hmem => hx (List.contains_iff_mem.mpr hmem), rfl⟩

lemma of_declareAll (h : own.foldlM declare t = .ok u) :
    u = { t with fields := t.fields ++ ownFields t.id own } ∧
      ((t.fields.map Field.key).Nodup → (u.fields.map Field.key).Nodup) := by
  induction own generalizing t with
  | nil =>
    cases h
    exact ⟨by simp [ownFields], fun hk => hk⟩
  | cons x own ih =>
    rw [List.foldlM_cons] at h
    cases hx : t.declare x with
    | error e =>
      rw [hx] at h
      cases h
    | ok t' =>
      rw [hx] at h
      obtain ⟨hnew, rfl⟩ := of_declare hx
      obtain ⟨rfl, hkeys⟩ := ih h
      refine ⟨by simp [ownFields], fun hk => hkeys ?_⟩
      rw [List.map_append]
      exact List.nodup_append'.mpr
        ⟨hk, List.nodup_singleton _, List.disjoint_singleton.mpr hnew⟩

lemma of_build (h : build id bases own = .ok t) :
    ∃ u, bases.foldlM inherit { id, ancestors := [], fields := [] } = .ok u ∧
      own.foldlM declare u = .ok t := by
  rw [build] at h
  split at h
  · cases h
  · cases hu : bases.foldlM inherit { id, ancestors := [], fields := [] } with
    | error e =>
      rw [hu] at h
      cases h
    | ok u =>
      rw [hu] at h
      exact ⟨u, rfl, h⟩

lemma merged_build {S : Set ValueType} (hS : Family S)
    (hbases : ∀ b ∈ bases, Merged S (b.ancestors ++ [b.id]) b.fields) (ht : t ∈ S)
    (h : build id bases own = .ok t) :
    Merged S (t.ancestors ++ [t.id]) t.fields ∧
      (∀ a, a ∈ t.ancestors ↔ ∃ b ∈ bases, b.isA a = true) ∧
      ∃ inherited, t.fields = inherited ++ ownFields id own ∧
        ∀ f, f ∈ inherited ↔ ∃ b ∈ bases, f ∈ b.fields := by
  obtain ⟨u, hu, hown⟩ := of_build h
  obtain ⟨hid, hnot, hm, hanc, hfs⟩ := merged_inherit hS hbases .nil (by simp) hu
  obtain ⟨rfl, hkeys⟩ := of_declareAll hown
  refine ⟨hm.extend hS ht rfl hnot (hkeys hm.keys) ?_ rfl, ?_, u.fields, ?_, ?_⟩
  · intro f hf
    obtain ⟨x, -, rfl⟩ := List.mem_map.mp hf
    rfl
  · simpa using hanc
  · rw [hid]
  · simpa using hfs

lemma Built.merged {S : Set ValueType} (hS : Family S) (h : Built S t) (ht : t ∈ S) :
    Merged S (t.ancestors ++ [t.id]) t.fields := by
  induction h with
  | build hbases _ hbuild ih =>
    exact (merged_build hS (fun b hb => ih b hb (hbases b hb)) ht hbuild).1

end Build

lemma lt_of_pairwise {α : Type} {l : List α} {R : α → α → Prop} (hl : l.Pairwise fun a b => ¬ R a b)
    {i j : Nat} {a b : α} (hi : l[i]? = some a) (hj : l[j]? = some b) (hab : R b a)
    (hirr : ∀ a ∈ l, ¬ R a a) : i < j := by
  obtain ⟨hi', rfl⟩ := List.getElem?_eq_some_iff.mp hi
  obtain ⟨hj', rfl⟩ := List.getElem?_eq_some_iff.mp hj
  rcases Nat.lt_trichotomy i j with hlt | rfl | hlt
  · exact hlt
  · exact absurd hab (hirr _ (List.getElem_mem hi'))
  · exact absurd hab (List.pairwise_iff_getElem.mp hl j i hj' hi' hlt)

lemma Merged.flat {S : Set ValueType} (hS : Family S)
    (hm : ∀ t ∈ S, Merged S (t.ancestors ++ [t.id]) t.fields) {t : ValueType} (ht : t ∈ S) :
    Flat S t := by
  have h := hm t ht
  obtain ⟨hnodup, -, hdisjoint⟩ := List.nodup_append'.mp h.nodup
  have hself {s : ValueType} (hs : s ∈ S) : s.id ∉ s.ancestors := fun hmem =>
    (List.nodup_append'.mp (hm s hs).nodup).2.2 hmem (List.mem_singleton_self _)
  have hirr (a : String) : ¬ Descends S a a := by
    rintro ⟨s, hs, rfl, hmem⟩
    exact hself hs hmem
  have hclosed {a b : String} (ha : t.isA a = true) (hab : Descends S a b) : t.isA b = true :=
    isA_iff.mpr (h.closed hS (isA_iff.mp ha) hab)
  have hsorted := (List.pairwise_append.mp h.sorted).1
  refine ⟨h.keys, fun f hf => isA_iff.mpr (h.owned f hf).1, hnodup, hself ht,
    ?_, ?_, ?_, ?_, ?_, ?_⟩
  · intro a ha
    obtain ⟨s, hs, he, -⟩ := h.known a (List.mem_append_left _ ha)
    exact ⟨s, hs, he⟩
  · intro a ha b hab
    rcases List.mem_append.mp (h.closed hS (List.mem_append_left _ ha) hab) with hb | hb
    · exact hb
    · -- An ancestor that had `t` as its ancestor would stand after it.
      obtain rfl := List.mem_singleton.mp hb
      exact absurd hab ((List.pairwise_append.mp h.sorted).2.2 a ha _ hb)
  · intro s hs hst id hid
    rcases List.mem_append.mp (isA_iff.mp hid) with hid | hid
    · exact hclosed hst ⟨s, hs, rfl, hid⟩
    · rwa [List.mem_singleton.mp hid]
  · intro s hs hid f hf
    refine List.count_eq_one_of_mem (List.Nodup.of_map _ h.keys) ?_
    exact h.fields_subset hS hs (List.mem_append_left _ hid) hf
  · intro i j a b hi hj hab
    exact lt_of_pairwise hsorted hi hj hab fun a _ => hirr a
  · intro i j f g hi hj hfg
    exact lt_of_pairwise h.fieldsSorted hi hj hfg fun f _ => hirr f.owner

/-- Flattening is sound: whatever the bases are and however often a type is met among them, a type
that is built has each field of each ancestor once, and the most basic comes first. Its ancestors
are its bases and theirs, and its fields are those of its bases and its own. -/
theorem Family.build_flat {S : Set ValueType} (hS : Family S) {id : String}
    {bases : List ValueType} {own : List (String × FieldKind)} {t : ValueType}
    (hbases : ∀ b ∈ bases, b ∈ S) (ht : t ∈ S) (h : build id bases own = .ok t) :
    Flat S t ∧ (∀ a, a ∈ t.ancestors ↔ ∃ b ∈ bases, b.isA a = true) ∧
      ∃ inherited, t.fields = inherited ++ ownFields id own ∧
        ∀ f, f ∈ inherited ↔ ∃ b ∈ bases, f ∈ b.fields := by
  have hm (s : ValueType) (hs : s ∈ S) : Merged S (s.ancestors ++ [s.id]) s.fields :=
    (hS.built s hs).merged hS hs
  exact ⟨Merged.flat hS hm ht, (merged_build hS (fun b hb => hm b (hbases b hb)) ht h).2⟩

section

def shape : ValueType where
  id := "Shape"
  ancestors := []
  fields := ownFields "Shape" [("id", .scalar .int32)]

def coloured : ValueType where
  id := "Coloured"
  ancestors := ["Shape"]
  fields := shape.fields ++ ownFields "Coloured" [("colour", .string)]

def sized : ValueType where
  id := "Sized"
  ancestors := ["Shape"]
  fields := shape.fields ++ ownFields "Sized" [("id", .scalar .float64)]

def tile : ValueType where
  id := "Tile"
  ancestors := ["Shape", "Coloured", "Sized"]
  fields := coloured.fields ++ ownFields "Sized" [("id", .scalar .float64)] ++
    ownFields "Tile" [("parts", .sequence (.value "Shape"))]

def diamond : Set ValueType :=
  {t | t ∈ [shape, coloured, sized, tile]}

lemma mem_diamond {t : ValueType} : t ∈ diamond ↔ t ∈ [shape, coloured, sized, tile] :=
  Iff.rfl

lemma build_tile :
    build "Tile" [coloured, sized, shape, sized] [("parts", .sequence (.value "Shape"))] =
      .ok tile := rfl

lemma diamond_family : Family diamond := by
  have hshape : Built diamond shape := .build (by simp) (by simp)
    (show build "Shape" [] [("id", .scalar .int32)] = .ok shape from rfl)
  have hcoloured : Built diamond coloured :=
    .build (by simp [mem_diamond]) (by simpa using hshape)
      (show build "Coloured" [shape] [("colour", .string)] = .ok coloured from rfl)
  have hsized : Built diamond sized :=
    .build (by simp [mem_diamond]) (by simpa using hshape)
      (show build "Sized" [shape] [("id", .scalar .float64)] = .ok sized from rfl)
  have htile : Built diamond tile := .build (by simp [mem_diamond]) (by simp [*]) build_tile
  refine ⟨fun t ht => ?_, ?_⟩
  · simp only [mem_diamond, List.mem_cons, List.not_mem_nil, or_false] at ht
    rcases ht with rfl | rfl | rfl | rfl <;> assumption
  · simp only [mem_diamond]
    decide

theorem Family.build_flat_diamond :
    Family diamond ∧ (∀ b ∈ [coloured, sized, shape, sized], b ∈ diamond) ∧ tile ∈ diamond ∧
    build "Tile" [coloured, sized, shape, sized] [("parts", .sequence (.value "Shape"))] =
      .ok tile ∧
    Flat diamond tile ∧ tile.fields.map Field.key =
      [("Shape", "id"), ("Coloured", "colour"), ("Sized", "id"), ("Tile", "parts")] := by
  have hbases : ∀ b ∈ [coloured, sized, shape, sized], b ∈ diamond := by simp [mem_diamond]
  have htile : tile ∈ diamond := by simp [mem_diamond]
  exact ⟨diamond_family, hbases, htile, build_tile,
    (diamond_family.build_flat hbases htile build_tile).1, rfl⟩

end

end ValueType

end ObjectBroker
