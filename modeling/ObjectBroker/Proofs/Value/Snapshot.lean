import Mathlib.Algebra.Order.BigOperators.Group.List
import Mathlib.Algebra.Order.Group.Nat
import Mathlib.Data.List.Pairwise
import ObjectBroker.Proofs.Value.RoundTrip

/-! Values that come and go between the writes into one body. A body knows an instance by its node
alone, from the moment its head is written: the node must not stand for another instance while the
body is still being written, and a write that fails leaves nodes behind whose instances are not
there. -/

namespace ObjectBroker

namespace Heap

section Agree

variable {h h' : Heap} {roots : List NodeId}
  (ha : ∀ n, h.Reaches roots n → h'.get? n = h.get? n)
include ha

lemma reaches_of_agree {n : NodeId} (hn : h.Reaches roots n) : h'.Reaches roots n := by
  induction hn with
  | root hk => exact .root hk
  | field hk hi hc ih => exact .field ih ((ha _ hk).trans hi) hc

lemma reaches_iff_of_agree {n : NodeId} : h'.Reaches roots n ↔ h.Reaches roots n := by
  refine ⟨fun hn => ?_, reaches_of_agree ha⟩
  induction hn with
  | root hk => exact .root hk
  | field _ hi hc ih => exact .field ih ((ha _ ih).symm.trans hi) hc

lemma Isomorphic.of_agree {f : NodeId → NodeId} {copy : Heap} {roots' : List NodeId}
    (hi : Isomorphic f h' roots copy roots') : Isomorphic f h roots copy roots' := by
  have hsame : {n | h'.Reaches roots n} = {n | h.Reaches roots n} :=
    Set.ext fun n => reaches_iff_of_agree ha
  refine ⟨hsame ▸ hi.bijOn, fun n hn => ?_⟩
  rw [← ha n hn]
  exact hi.image n (reaches_of_agree ha hn)

end Agree

end Heap

namespace Marshalling

open Marshaller

section

variable {write write' : Option NodeId → Marshalling Unit}

mutual

lemma run_field_congr {v : FieldValue}
    (hw : ∀ n : Option NodeId, (∀ k ∈ n, k ∈ v.nodes) → ∀ m : Marshaller,
      m.run (write n) = m.run (write' n)) (m : Marshaller) :
    m.run (field write v) = m.run (field write' v) := by
  cases v with
  | scalar s => rfl
  | string text => rfl
  | value n =>
    refine hw n ?_ m
    rintro k rfl
    simp [FieldValue.nodes]
  | sequence items =>
    rw [field, field, run_bind, run_bind]
    exact run_fields_congr hw _

lemma run_fields_congr {vs : List FieldValue}
    (hw : ∀ n : Option NodeId, (∀ k ∈ n, k ∈ FieldValue.nodesAll vs) → ∀ m : Marshaller,
      m.run (write n) = m.run (write' n)) (m : Marshaller) :
    m.run (fields write vs) = m.run (fields write' vs) := by
  cases vs with
  | nil => rfl
  | cons v vs =>
    have hv : ∀ m : Marshaller, m.run (field write v) = m.run (field write' v) :=
      run_field_congr fun n hn => hw n fun k hk => List.mem_append_left _ (hn k hk)
    have hvs : ∀ m : Marshaller, m.run (fields write vs) = m.run (fields write' vs) :=
      run_fields_congr fun n hn => hw n fun k hk => List.mem_append_right _ (hn k hk)
    rw [fields, fields, run_bind, run_bind, hv]
    rcases m.run (field write' v) with ⟨e | a, m'⟩
    · rfl
    · exact hvs m'

end

end

lemma run_valueAt_of_agree {h h' : Heap} (levels : Nat) {n : Option NodeId}
    (ha : ∀ k, h.Reaches n.toList k → h'.get? k = h.get? k) (m : Marshaller) :
    m.run (valueAt h' levels n) = m.run (valueAt h levels n) := by
  induction levels generalizing n m with
  | zero =>
    cases n with
    | none => rw [run_valueAt_null, run_valueAt_null]
    | some n =>
      cases hn : m.instances.lookup n with
      | none => rw [run_valueAt_zero h' m hn, run_valueAt_zero h m hn]
      | some target => rw [run_valueAt_shared h' m 0 hn, run_valueAt_shared h m 0 hn]
  | succ levels ih =>
    cases n with
    | none => rw [run_valueAt_null, run_valueAt_null]
    | some n =>
      cases hn : m.instances.lookup n with
      | some target => rw [run_valueAt_shared h' m _ hn, run_valueAt_shared h m _ hn]
      | none =>
        have hself : h'.get? n = h.get? n := ha n (.root (by simp))
        rw [run_valueAt_fresh h' m levels hn, run_valueAt_fresh h m levels hn, Heap.typeId,
          Heap.typeId, Heap.typeOf?, Heap.typeOf?, hself]
        refine run_fields_congr (fun k hk m => ih (fun j hj => ha j (hj.mono ?_)) m) _
        -- What the fields reach, the instance reaches.
        intro c hc
        cases hi : h.get? n with
        | none =>
          rw [hi] at hk
          simpa [FieldValue.nodesAll] using hk c (by simpa using hc)
        | some i =>
          rw [hi] at hk
          exact .field (.root (by simp)) hi (hk c (by simpa using hc))

end Marshalling

namespace Body

/-- A value at the moment when it is written: what is on the heap then, and which instance is at
which node. The node of an instance that was dropped may have been given to another. -/
structure Snapshot where
  heap : Heap
  identity : NodeId → Nat
  root : Option NodeId

namespace Snapshot

def Holds (s : Snapshot) (n : NodeId) : Prop :=
  s.heap.Reaches s.root.toList n

structure Sound (s : Snapshot) : Prop where
  wellTyped : s.heap.WellTyped
  root : ∀ n ∈ s.root, (s.heap.get? n).isSome

lemma Sound.exists_of_holds {s : Snapshot} (hs : s.Sound) {n : NodeId} (hn : s.Holds n) :
    ∃ i, s.heap.get? n = some i :=
  Heap.exists_of_reaches hs.wellTyped (fun k hk => hs.root k (by simpa using hk)) hn

def Compatible (s t : Snapshot) : Prop :=
  ∀ n, s.Holds n → t.Holds n → s.identity n = t.identity n ∧ s.heap.get? n = t.heap.get? n

lemma Compatible.symm {s t : Snapshot} (h : s.Compatible t) : t.Compatible s :=
  fun n ht hs => ⟨(h n hs ht).1.symm, (h n hs ht).2.symm⟩

lemma Compatible.refl (s : Snapshot) : s.Compatible s :=
  fun _ _ _ => ⟨rfl, rfl⟩

end Snapshot

variable {snaps : List Snapshot}

def Lasting (snaps : List Snapshot) : Prop :=
  snaps.Pairwise Snapshot.Compatible

lemma Lasting.compatible (h : Lasting snaps) {s t : Snapshot} (hs : s ∈ snaps) (ht : t ∈ snaps) :
    s.Compatible t :=
  have : Std.Symm Snapshot.Compatible := ⟨fun _ _ => .symm⟩
  List.Pairwise.forall_of_forall (fun s _ => .refl s) h hs ht

def writeEach (m : Marshaller) : List Snapshot → List (Except MarshalError Unit) × Marshaller
  | [] => ([], m)
  | s :: ss =>
    let (result, m) := m.run (Marshalling.value s.heap s.root)
    let (results, m) := writeEach m ss
    (result :: results, m)

def succeeded : List Snapshot → List (Except MarshalError Unit) → List Snapshot
  | s :: ss, .ok _ :: rs => s :: succeeded ss rs
  | _ :: ss, .error _ :: rs => succeeded ss rs
  | _, _ => []

/-- The roots in `copy` stand for the values, each with all that is part of it, and no instance of
the copy stands for two. -/
structure Restores (snaps : List Snapshot) (roots : List (Option NodeId)) (copy : Heap)
    (f : Nat → NodeId → NodeId) : Prop where
  isomorphic : ∀ k s, snaps[k]? = some s → roots[k]? = some (s.root.map (f k)) ∧
    Heap.Isomorphic (f k) s.heap s.root.toList copy (s.root.map (f k)).toList
  distinct : ∀ k l s t, snaps[k]? = some s → snaps[l]? = some t →
    ∀ a b, s.Holds a → t.Holds b → f k a = f l b → s.identity a = t.identity b

def taken (order : ByteOrder) (limit : Nat) (snaps : List Snapshot) : List Snapshot :=
  succeeded snaps (writeEach (.new order limit) snaps).1

def readBack (order : ByteOrder) (limit limit' : Nat) (R : Registry) (snaps : List Snapshot) :
    Except MarshalError (List (Option NodeId)) × Unmarshaller :=
  (Unmarshaller.new order (writeEach (.new order limit) snaps).2.octets R limit').run
    (Unmarshalling.many Unmarshalling.value (taken order limit snaps).length)

def Faithful (order : ByteOrder) (limit limit' : Nat) (R : Registry) (snaps : List Snapshot) :
    Prop :=
  ∃ roots u f, readBack order limit limit' R snaps = (.ok roots, u) ∧
    Restores (taken order limit snaps) roots u.heap f

lemma Lasting.exists_union (hl : Lasting snaps) (hs : ∀ s ∈ snaps, s.Sound) :
    ∃ h : Heap, h.WellTyped ∧ ∀ s ∈ snaps, ∀ n, s.Holds n → h.get? n = s.heap.get? n := by
  classical
  let blank : Instance := ⟨⟨"", [], []⟩, []⟩
  let pick (n : NodeId) : Instance :=
    if held : ∃ s ∈ snaps, s.Holds n then (held.choose.heap.get? n).getD blank else blank
  let size := (snaps.map (·.heap.size)).sum
  let union : Heap := ⟨Array.ofFn fun n : Fin size => pick n⟩
  have hpick : ∀ s ∈ snaps, ∀ n i, s.Holds n → s.heap.get? n = some i → pick n = i := by
    intro s hmem n i hn hi
    have held : ∃ s ∈ snaps, s.Holds n := ⟨s, hmem, hn⟩
    obtain ⟨hchosen, hholds⟩ := held.choose_spec
    have hsame := (hl.compatible hchosen hmem n hholds hn).2
    simp only [pick, dif_pos held, hsame, hi, Option.getD_some]
  have hget : ∀ s ∈ snaps, ∀ n, s.Holds n → union.get? n = s.heap.get? n := by
    intro s hmem n hn
    obtain ⟨i, hi⟩ := (hs s hmem).exists_of_holds hn
    have hlt : n < size := (Heap.lt_size_of_get? hi).trans_le
      (List.single_le_sum (fun _ _ => Nat.zero_le _) _ (List.mem_map_of_mem hmem))
    rw [hi, Heap.get?, Array.getElem?_ofFn, dif_pos hlt]
    exact congrArg some (hpick s hmem n i hn hi)
  refine ⟨union, fun n i hi => ?_, hget⟩
  have hlt : n < size := by
    have hsize := Heap.lt_size_of_get? hi
    simpa [union, Heap.size] using hsize
  rw [Heap.get?, Array.getElem?_ofFn, dif_pos hlt] at hi
  obtain rfl : pick n = i := Option.some.inj hi
  by_cases held : ∃ s ∈ snaps, s.Holds n
  · obtain ⟨s, hmem, hn⟩ := held
    obtain ⟨i, hi⟩ := (hs s hmem).exists_of_holds hn
    rw [hpick s hmem n i hn hi]
    have hfields := (hs s hmem).wellTyped n i hi
    refine List.forall₂_iff_get.mpr ⟨hfields.length_eq, fun index h₁ h₂ => ?_⟩
    refine Heap.fits_of_types _ ((List.forall₂_iff_get.mp hfields).2 index h₁ h₂) fun k hk => ?_
    refine congrArg (Option.map _) (hget s hmem k (.field hn hi ?_))
    exact FieldValue.mem_nodesAll.mpr ⟨_, List.getElem_mem _, hk⟩
  · have hblank : pick n = blank := dif_neg held
    rw [hblank]
    exact .nil

def entries (snaps : List Snapshot) : List Entry :=
  snaps.map fun s => .value s.root

lemma mem_roots_entries {s : Snapshot} (hs : s ∈ snaps) {n : NodeId} (hn : n ∈ s.root.toList) :
    n ∈ roots (entries snaps) :=
  List.mem_flatMap.mpr ⟨.value s.root, List.mem_map_of_mem hs, hn⟩

section Union

variable {h : Heap} {m m' : Marshaller}

lemma holds_of_reaches (ha : ∀ s ∈ snaps, ∀ n, s.Holds n → h.get? n = s.heap.get? n) {n : NodeId}
    (hn : h.Reaches (roots (entries snaps)) n) : ∃ s ∈ snaps, s.Holds n := by
  induction hn with
  | @root n hk =>
    obtain ⟨e, he, hn⟩ := List.mem_flatMap.mp hk
    obtain ⟨s, hs, rfl⟩ := List.mem_map.mp he
    exact ⟨s, hs, .root hn⟩
  | field _ hi hk ih =>
    obtain ⟨s, hs, hn⟩ := ih
    exact ⟨s, hs, .field hn ((ha s hs _ hn).symm.trans hi) hk⟩

lemma run_value_of_agree {s : Snapshot} (ha : ∀ n, s.Holds n → h.get? n = s.heap.get? n) :
    m.run (Marshalling.value h s.root) = m.run (Marshalling.value s.heap s.root) :=
  Marshalling.run_valueAt_of_agree m.limit ha m

lemma run_writeAll_entries (ha : ∀ s ∈ snaps, ∀ n, s.Holds n → h.get? n = s.heap.get? n)
    (hok : ∀ r ∈ (writeEach m snaps).1, r = .ok ()) :
    m.run (writeAll h (entries snaps)) = (.ok (), (writeEach m snaps).2) := by
  induction snaps generalizing m with
  | nil => rfl
  | cons s ss ih =>
    have hsplit : m.run (writeAll h (entries (s :: ss))) =
        m.run (do Marshalling.value h s.root; writeAll h (entries ss)) := rfl
    rw [writeEach] at hok ⊢
    rw [hsplit, Marshaller.run_bind, run_value_of_agree (ha s List.mem_cons_self)]
    rcases hs : m.run (Marshalling.value s.heap s.root) with ⟨result, m₁⟩
    rw [hs] at hok
    obtain rfl : result = .ok () := hok result List.mem_cons_self
    exact ih (fun t ht => ha t (List.mem_cons_of_mem s ht))
      fun r hr => hok r (List.mem_cons_of_mem _ hr)

lemma writeEach_entries (ha : ∀ s ∈ snaps, ∀ n, s.Holds n → h.get? n = s.heap.get? n)
    (hw : m.run (writeAll h (entries snaps)) = (.ok (), m')) :
    (writeEach m snaps).2 = m' ∧ (∀ r ∈ (writeEach m snaps).1, r = .ok ()) ∧
      succeeded snaps (writeEach m snaps).1 = snaps := by
  induction snaps generalizing m with
  | nil =>
    cases hw
    exact ⟨rfl, by simp [writeEach], rfl⟩
  | cons s ss ih =>
    obtain ⟨⟨⟩, m₁, hs, hss⟩ := Marshaller.run_bind_ok hw
    have hvalue : m.run (Marshalling.value s.heap s.root) = (.ok (), m₁) :=
      (run_value_of_agree (ha s List.mem_cons_self)).symm.trans hs
    obtain ⟨hlast, hok, hall⟩ := ih (fun t ht => ha t (List.mem_cons_of_mem s ht)) hss
    rw [writeEach, hvalue]
    refine ⟨hlast, fun r hr => ?_, congrArg (s :: ·) hall⟩
    rcases List.mem_cons.mp hr with rfl | hr
    · rfl
    · exact hok r hr

end Union

lemma copies_many_value {h : Heap} {M : Marshaller} {U : Unmarshaller} {fault : MarshalError → Prop}
    (hM : M.Bounded) (hh : h.WellTyped)
    (hR : ∀ n ∈ M.written, ∀ i, h.get? n = some i → U.registry.Serves fault i.type)
    (hl : M.limit ≤ U.limit) (hroots : ∀ s ∈ snaps, ∀ n ∈ s.root, (h.get? n).isSome) :
    Copies h M U fault (writeAll h (entries snaps))
      (Unmarshalling.many Unmarshalling.value snaps.length)
      (snaps.map fun s => s.root.map (U.copyOf M)) := by
  induction snaps with
  | nil => exact .pure _
  | cons s ss ih =>
    have hfirst := copies_value hM hh hR hl (hroots s List.mem_cons_self)
    have hrest := ih fun t ht => hroots t (List.mem_cons_of_mem s ht)
    have hext : ∀ {m m' : Marshaller}, m.run (writeAll h (entries ss)) = (.ok (), m') →
        m.Extends m' := by
      intro m m' hr
      have hg := ends_writeAll h (entries ss) m
      rw [hr] at hg
      exact hg.toExtends
    exact hfirst.bind (hrest.andThen fun _ _ => rfl) hext

/-- Values that last while a body is written are read back from it. -/
theorem faithful_of_lasting {order : ByteOrder} {limit limit' : Nat} {R : Registry}
    (hs : ∀ s ∈ snaps, s.Sound) (hlast : Lasting snaps)
    (hR : ∀ s ∈ snaps, ∀ n i, s.Holds n → s.heap.get? n = some i → R.Makes i.type)
    (hok : ∀ r ∈ (writeEach (.new order (min limit limit')) snaps).1, r = .ok ())
    (hl : (writeEach (.new order limit) snaps).2.octets.length < 2 ^ 31) :
    (∀ r ∈ (writeEach (.new order limit) snaps).1, r = .ok ()) ∧
      Faithful order limit limit' R snaps := by
  obtain ⟨h, hh, ha⟩ := hlast.exists_union hs
  have hw := run_writeAll_entries ha hok
  set M := (writeEach (.new order (min limit limit')) snaps).2
  have hg := ends_writeAll h (entries snaps) (.new order (min limit limit'))
  rw [hw] at hg
  -- The writer's own limit gives the same body as the smaller of the two.
  have hw' : (Marshaller.new order limit).run (writeAll h (entries snaps)) =
      (.ok (), M.withLimit limit) :=
    writeAll_withLimit h (entries snaps) (Nat.min_le_left limit limit') hw
  obtain ⟨hlast', hok', hall⟩ := writeEach_entries ha hw'
  rw [hlast'] at hl
  have hmakes : ∀ n i, h.Reaches (roots (entries snaps)) n → h.get? n = some i →
      R.Makes i.type := by
    intro n i hr hi
    obtain ⟨s, hmem, hholds⟩ := holds_of_reaches ha hr
    exact hR s hmem n i hholds ((ha s hmem n hholds).symm.trans hi)
  have hroots : ∀ s ∈ snaps, ∀ n ∈ s.root, (h.get? n).isSome := by
    intro s hmem n hn
    rw [ha s hmem n (.root (by simpa using hn))]
    exact (hs s hmem).root n hn
  let U := Unmarshaller.new order M.octets R limit'
  have hlimit := hg.limit.trans_le (Nat.min_le_right limit limit')
  obtain ⟨u, hu, hadvance⟩ := exists_advance hg hw hl fun hM =>
    copies_many_value (U := U) hM hh (serves_of_reaches hg hmakes) hlimit hroots
  refine ⟨hok', ?_⟩
  rw [Faithful, readBack, taken, hlast', hall]
  refine ⟨_, u, fun _ => U.copyOf M, hu, ?_, ?_⟩
  · intro k s hk
    have hmem := List.mem_of_getElem? hk
    have hiso := isomorphic_of_covered hg hadvance fun n => mem_roots_entries (n := n) hmem
    refine ⟨by simp [hk], ?_⟩
    rw [Option.toList_map]
    exact hiso.of_agree (ha s hmem)
  · intro k l s t hk hl a b hholds hholds' he
    have hmem := List.mem_of_getElem? hk
    have hwritten : a ∈ M.written := Heap.mem_of_reaches
      (fun n hn => hg.covers n (mem_roots_entries hmem hn))
      (fun n hn i hi => closed_of_grows_new hg hn hi) (Heap.reaches_of_agree (ha s hmem) hholds)
    obtain rfl : a = b := copyOf_inj hwritten he
    exact (hlast.compatible hmem (List.mem_of_getElem? hl) a hholds hholds').1

section

/-! Instances of one type, told apart by their names. -/

def linkType : ValueType where
  id := "IDL:Link:1.0"
  ancestors := []
  fields := [⟨"name", .string, "IDL:Link:1.0"⟩, ⟨"next", .value "IDL:Link:1.0", "IDL:Link:1.0"⟩]

def linkRegistry : Registry where
  factories := [("IDL:Link:1.0", .new linkType)]

def link (name : String) (next : Option NodeId) : Instance :=
  ⟨linkType, [.string name, .value next]⟩

def nameOf (h : Heap) (n : NodeId) : Option (Except MarshalError String) :=
  (h.get? n).map (·.getString "name")

def trio (name : String) (next : Option NodeId) : Heap where
  nodes := #[link "a" (some 1), link "b" (some 0), link name next]

def before : Snapshot where
  heap := trio "c" none
  identity n := n
  root := some 1

def after : Snapshot where
  heap := trio "d" (some 0)
  identity n := if n = 2 then 3 else n
  root := some 2

section

variable {name : String} {next : Option NodeId} {n : NodeId} {i : Instance}

lemma trio_get? (hi : (trio name next).get? n = some i) :
    n = 0 ∧ i = link "a" (some 1) ∨ n = 1 ∧ i = link "b" (some 0) ∨ n = 2 ∧ i = link name next := by
  obtain ⟨hlt, rfl⟩ := Array.getElem?_eq_some_iff.mp hi
  match n, hlt with
  | 0, _ => exact .inl ⟨rfl, rfl⟩
  | 1, _ => exact .inr (.inl ⟨rfl, rfl⟩)
  | 2, _ => exact .inr (.inr ⟨rfl, rfl⟩)

lemma link_fits {h : Heap} (hn : h.fits (.value "IDL:Link:1.0") (.value next) = true) :
    List.Forall₂ (fun field v => h.fits field.kind v = true) (link name next).type.fields
      (link name next).fields :=
  .cons rfl (.cons hn .nil)

lemma trio_wellTyped
    (hn : (trio name next).fits (.value "IDL:Link:1.0") (.value next) = true) :
    (trio name next).WellTyped := by
  intro n i hi
  rcases trio_get? hi with ⟨-, rfl⟩ | ⟨-, rfl⟩ | ⟨-, rfl⟩
  · exact link_fits rfl
  · exact link_fits rfl
  · exact link_fits hn

lemma trio_makes (hi : (trio name next).get? n = some i) : linkRegistry.Makes i.type := by
  have htype : i.type = linkType := by
    rcases trio_get? hi with ⟨-, rfl⟩ | ⟨-, rfl⟩ | ⟨-, rfl⟩ <;> rfl
  rw [htype]
  exact ⟨.new linkType, rfl, rfl, rfl⟩

end

lemma before_holds {n : NodeId} (hn : before.Holds n) : n = 0 ∨ n = 1 := by
  have hmem : n ∈ [0, 1] := by
    have hreaches : (trio "c" none).Reaches [1] n := hn
    refine Heap.mem_of_reaches (by simp) ?_ hreaches
    intro k hk i hi c hc
    rcases trio_get? hi with ⟨-, rfl⟩ | ⟨-, rfl⟩ | ⟨rfl, -⟩
    · simp_all [link, FieldValue.nodesAll, FieldValue.nodes]
    · simp_all [link, FieldValue.nodesAll, FieldValue.nodes]
    · simp at hk
  simpa using hmem

lemma before_after_lasting : Lasting [before, after] := by
  apply List.pairwise_pair.mpr
  intro n hn _
  rcases before_holds hn with rfl | rfl <;> exact ⟨rfl, rfl⟩

theorem faithful_of_lasting_trio :
    nameOf before.heap 2 = some (.ok "c") ∧ nameOf after.heap 2 = some (.ok "d") ∧
      Faithful .littleEndian 5 3 linkRegistry [before, after] := by
  have hsound : ∀ s ∈ [before, after], s.Sound := by
    intro s hs
    rcases List.mem_pair.mp hs with rfl | rfl
    · exact ⟨trio_wellTyped rfl, by rintro n ⟨⟩; rfl⟩
    · exact ⟨trio_wellTyped rfl, by rintro n ⟨⟩; rfl⟩
  have hmakes : ∀ s ∈ [before, after], ∀ n i, s.Holds n → s.heap.get? n = some i →
      linkRegistry.Makes i.type := by
    intro s hs n i _ hi
    rcases List.mem_pair.mp hs with rfl | rfl <;> exact trio_makes hi
  have hfaithful : _ ∧ Faithful .littleEndian 5 3 linkRegistry [before, after] :=
    faithful_of_lasting hsound before_after_lasting hmakes (by decide +kernel) (by decide +kernel)
  exact ⟨by decide +kernel, by decide +kernel, hfaithful.2⟩

def reused : List Snapshot :=
  [{ before with heap := trio "c" none, root := some 2 }, after]

def broken : List Snapshot :=
  let heap : Heap := ⟨#[link "a" (some 1), link "b" (some 2), link "c" none]⟩
  [⟨heap, id, some 0⟩, ⟨heap, id, some 1⟩]

lemma not_faithful_reused : ¬ Faithful .bigEndian 3 3 linkRegistry reused := by
  rintro ⟨roots, u, f, hread, hrestores⟩
  have hroots : (readBack .bigEndian 3 3 linkRegistry reused).1 = .ok [some 0, some 0] := by
    decide +kernel
  have htaken : taken .bigEndian 3 reused = reused := rfl
  rw [hread] at hroots
  obtain rfl := Except.ok.inj hroots
  rw [htaken] at hrestores
  obtain ⟨hfirst, -⟩ := hrestores.isomorphic 0 _ rfl
  obtain ⟨hsecond, -⟩ := hrestores.isomorphic 1 _ rfl
  have hzero : 0 = f 0 2 := Option.some.inj (Option.some.inj hfirst)
  have hone : 0 = f 1 2 := Option.some.inj (Option.some.inj hsecond)
  have hsame := hrestores.distinct 0 1 _ _ rfl rfl 2 2 (.root List.mem_cons_self)
    (.root List.mem_cons_self) (hzero.symm.trans hone)
  exact absurd hsame (by decide)

lemma not_faithful_broken : ¬ Faithful .bigEndian 2 2 linkRegistry broken := by
  rintro ⟨roots, u, f, hread, hrestores⟩
  have hroots : (readBack .bigEndian 2 2 linkRegistry broken).1 = .ok [some 0] := by
    decide +kernel
  have hname : nameOf (readBack .bigEndian 2 2 linkRegistry broken).2.heap 0 = some (.ok "a") := by
    decide +kernel
  have htaken : taken .bigEndian 2 broken = broken.drop 1 := rfl
  rw [hread] at hroots hname
  obtain rfl := Except.ok.inj hroots
  rw [htaken] at hrestores
  obtain ⟨hroot, hiso⟩ := hrestores.isomorphic 0 _ rfl
  have hzero : 0 = f 0 1 := Option.some.inj (Option.some.inj hroot)
  obtain ⟨i, hi, hcopy⟩ := hiso.image 1 (.root List.mem_cons_self)
  obtain rfl : link "b" (some 2) = i := Option.some.inj hi
  -- What is read back has the name of the first in the chain, not of the second.
  have hsecond : ((link "b" (some 2)).renumber (f 0)).getString "name" = .ok "b" := rfl
  rw [nameOf, hzero, hcopy, Option.map_some, hsecond] at hname
  exact absurd hname (by decide)

theorem stale_nodes_not_faithful :
    ¬ Faithful .bigEndian 3 3 linkRegistry reused ∧
      ¬ Faithful .bigEndian 2 2 linkRegistry broken :=
  ⟨not_faithful_reused, not_faithful_broken⟩

end

end Body

end ObjectBroker
