import Mathlib.Data.List.Forall2
import ObjectBroker.Value.Equality
import ObjectBroker.Proofs.Scalar

/-! Structural equality of value graphs is bisimilarity: two nodes are equal when some relation
holds between them that no two instances contradict. -/

namespace ObjectBroker

namespace FieldValue

inductive Alike (R : NodeId → NodeId → Prop) : FieldValue → FieldValue → Prop
  | scalar {a b : Scalar} : a.Equal b → Alike R (.scalar a) (.scalar b)
  | string (text : String) : Alike R (.string text) (.string text)
  | null : Alike R (.value none) (.value none)
  | value {a b : NodeId} : R a b → Alike R (.value (some a)) (.value (some b))
  | sequence {as bs : List FieldValue} : List.Forall₂ (Alike R) as bs →
      Alike R (.sequence as) (.sequence bs)

variable {R S T : NodeId → NodeId → Prop}

lemma pairsAll?_cons_eq_some {a b : FieldValue} {as bs : List FieldValue}
    {ps : List (NodeId × NodeId)} :
    pairsAll? (a :: as) (b :: bs) = some ps ↔
      ∃ here there, a.pairs? b = some here ∧ pairsAll? as bs = some there ∧ here ++ there = ps := by
  simp [pairsAll?, Option.bind_eq_some_iff]

mutual

lemma alike_iff (a b : FieldValue) :
    Alike R a b ↔ ∃ ps, a.pairs? b = some ps ∧ ∀ p ∈ ps, R p.1 p.2 := by
  constructor
  · intro h
    cases h with
    | scalar h => exact ⟨[], by simp [pairs?, (Scalar.same_iff_equal _ _).mpr h], by simp⟩
    | string text => exact ⟨[], by simp [pairs?], by simp⟩
    | null => exact ⟨[], rfl, by simp⟩
    | @value m n h => exact ⟨[(m, n)], rfl, by simpa using h⟩
    | sequence h => exact (forall₂_alike_iff _ _).mp h
  · rintro ⟨ps, hps, h⟩
    cases a with
    | scalar s =>
      cases b with
      | scalar t =>
        apply Alike.scalar
        apply (Scalar.same_iff_equal s t).mp
        by_contra hn
        simp [pairs?, hn] at hps
      | _ => simp [pairs?] at hps
    | string s =>
      cases b with
      | string t =>
        obtain rfl : s = t := by
          by_contra hn
          simp [pairs?, hn] at hps
        exact .string s
      | _ => simp [pairs?] at hps
    | value m =>
      cases b with
      | value n =>
        cases m <;> cases n <;> simp [pairs?] at hps
        · exact .null
        · subst hps
          exact .value (h _ (List.mem_singleton_self _))
      | _ => cases m <;> simp [pairs?] at hps
    | sequence as =>
      cases b with
      | sequence bs => exact .sequence ((forall₂_alike_iff as bs).mpr ⟨ps, hps, h⟩)
      | _ => simp [pairs?] at hps

lemma forall₂_alike_iff (as bs : List FieldValue) :
    List.Forall₂ (Alike R) as bs ↔ ∃ ps, pairsAll? as bs = some ps ∧ ∀ p ∈ ps, R p.1 p.2 := by
  cases as with
  | nil => cases bs <;> simp [pairsAll?]
  | cons a as =>
    cases bs with
    | nil => simp [pairsAll?]
    | cons b bs =>
      rw [List.forall₂_cons, alike_iff a b, forall₂_alike_iff as bs]
      simp only [pairsAll?_cons_eq_some]
      constructor
      · rintro ⟨⟨here, hh, hr⟩, there, ht, hrs⟩
        refine ⟨_, ⟨here, there, hh, ht, rfl⟩, ?_⟩
        intro p hp
        exact (List.mem_append.mp hp).elim (hr p) (hrs p)
      · rintro ⟨_, ⟨here, there, hh, ht, rfl⟩, h⟩
        exact ⟨⟨here, hh, fun p hp => h p (List.mem_append_left _ hp)⟩,
          there, ht, fun p hp => h p (List.mem_append_right _ hp)⟩

end

mutual

lemma Alike.symm (hs : ∀ x y, R x y → S y x) {a b : FieldValue} (h : Alike R a b) :
    Alike S b a := by
  cases h with
  | scalar h => exact .scalar (Scalar.Equal.symm h)
  | string text => exact .string text
  | null => exact .null
  | value h => exact .value (hs _ _ h)
  | sequence h => exact .sequence (forall₂_alike_symm hs h)

lemma forall₂_alike_symm (hs : ∀ x y, R x y → S y x) {as bs : List FieldValue}
    (h : List.Forall₂ (Alike R) as bs) : List.Forall₂ (Alike S) bs as := by
  cases h with
  | nil => exact .nil
  | cons h hrest => exact .cons (h.symm hs) (forall₂_alike_symm hs hrest)

end

mutual

lemma Alike.trans (ht : ∀ x y z, R x y → S y z → T x z) {a b c : FieldValue}
    (hab : Alike R a b) (hbc : Alike S b c) : Alike T a c := by
  cases hab with
  | scalar h =>
    cases hbc with
    | scalar h' => exact .scalar (Scalar.Equal.trans h h')
  | string text =>
    cases hbc with
    | string => exact .string text
  | null =>
    cases hbc with
    | null => exact .null
  | value h =>
    cases hbc with
    | value h' => exact .value (ht _ _ _ h h')
  | sequence h =>
    cases hbc with
    | sequence h' => exact .sequence (forall₂_alike_trans ht h h')

lemma forall₂_alike_trans (ht : ∀ x y z, R x y → S y z → T x z) {as bs cs : List FieldValue}
    (hab : List.Forall₂ (Alike R) as bs) (hbc : List.Forall₂ (Alike S) bs cs) :
    List.Forall₂ (Alike T) as cs := by
  cases hab with
  | nil =>
    cases hbc with
    | nil => exact .nil
  | cons h hrest =>
    cases hbc with
    | cons h' hrest' => exact .cons (h.trans ht h') (forall₂_alike_trans ht hrest hrest')

end

lemma forall₂_alike_mono (hm : ∀ x y, R x y → S x y) {as bs : List FieldValue}
    (h : List.Forall₂ (Alike R) as bs) : List.Forall₂ (Alike S) as bs := by
  obtain ⟨ps, hps, hr⟩ := (forall₂_alike_iff as bs).mp h
  exact (forall₂_alike_iff as bs).mpr ⟨ps, hps, fun p hp => hm _ _ (hr p hp)⟩

end FieldValue

def Instance.Alike (R : NodeId → NodeId → Prop) (i j : Instance) : Prop :=
  i.typeId = j.typeId ∧ List.Forall₂ (FieldValue.Alike R) i.fields j.fields

namespace Heap

def Bisimulation (h : Heap) (R : NodeId → NodeId → Prop) : Prop :=
  ∀ x y, R x y → x = y ∨ ∃ i j, h.get? x = some i ∧ h.get? y = some j ∧ i.Alike R j

variable {h : Heap} {R S : NodeId → NodeId → Prop}

lemma exists_alike_iff {x y : NodeId} :
    (∃ i j, h.get? x = some i ∧ h.get? y = some j ∧ i.Alike R j) ↔
      ∃ more, h.step? x y = some more ∧ ∀ p ∈ more, R p.1 p.2 := by
  simp only [Instance.Alike, FieldValue.forall₂_alike_iff, step?, Instance.pairs?,
    Option.bind_eq_bind, Option.bind_eq_some_iff]
  constructor
  · rintro ⟨i, j, hi, hj, ht, ps, hps, hr⟩
    exact ⟨ps, ⟨i, hi, j, hj, by simp [ht, hps]⟩, hr⟩
  · rintro ⟨ps, ⟨i, hi, j, hj, hps⟩, hr⟩
    by_cases ht : i.typeId = j.typeId
    · exact ⟨i, j, hi, hj, ht, ps, by simpa [ht] using hps, hr⟩
    · simp [ht] at hps

lemma Bisimulation.eq : h.Bisimulation Eq :=
  fun _ _ he => .inl he

lemma Bisimulation.swap (hb : h.Bisimulation R) : h.Bisimulation fun x y => R y x := by
  intro x y hr
  rcases hb y x hr with rfl | ⟨i, j, hi, hj, ht, hf⟩
  · exact .inl rfl
  · exact .inr ⟨j, i, hj, hi, ht.symm, FieldValue.forall₂_alike_symm (fun _ _ hr => hr) hf⟩

lemma Bisimulation.comp (hr : h.Bisimulation R) (hs : h.Bisimulation S) :
    h.Bisimulation fun x z => ∃ y, (x = y ∨ R x y) ∧ (y = z ∨ S y z) := by
  rintro x z ⟨y, hxy, hyz⟩
  replace hxy := hxy.elim .inl (hr x y)
  replace hyz := hyz.elim .inl (hs y z)
  rcases hxy with rfl | ⟨i, j, hi, hj, ht, hf⟩
  · rcases hyz with rfl | ⟨j, k, hj, hk, ht, hf⟩
    · exact .inl rfl
    · exact .inr ⟨j, k, hj, hk, ht,
        FieldValue.forall₂_alike_mono (fun x _ hs => ⟨x, .inl rfl, .inr hs⟩) hf⟩
  · rcases hyz with rfl | ⟨j', k, hj', hk, ht', hf'⟩
    · exact .inr ⟨i, j, hi, hj, ht,
        FieldValue.forall₂_alike_mono (fun _ y hr => ⟨y, .inr hr, .inl rfl⟩) hf⟩
    · obtain rfl : j = j' := Option.some.inj (hj.symm.trans hj')
      exact .inr ⟨i, k, hi, hk, ht.trans ht',
        FieldValue.forall₂_alike_trans (fun _ y _ hr hs => ⟨y, .inr hr, .inr hs⟩) hf hf'⟩

lemma Bisimulation.step? (hb : h.Bisimulation R) {x y : NodeId} (hr : R x y) (hne : x ≠ y) :
    ∃ more, h.step? x y = some more ∧ ∀ p ∈ more, R p.1 p.2 :=
  exists_alike_iff.mp ((hb x y hr).resolve_left hne)

lemma Bisimulation.sameAll (hb : h.Bisimulation R) (visited pending : List (NodeId × NodeId))
    (hp : ∀ p ∈ pending, R p.1 p.2) : h.sameAll visited pending = true := by
  fun_induction Heap.sameAll h visited pending with
  | case1 visited => rfl
  | case2 visited a b rest hseen ih => exact ih fun p hr => hp p (List.mem_cons_of_mem _ hr)
  | case3 visited a b rest hseen hs =>
    obtain ⟨more, hmore, -⟩ := hb.step? (hp (a, b) List.mem_cons_self) fun he => hseen (.inl he)
    cases hs.symm.trans hmore
  | case4 visited a b rest hseen more hs ih =>
    obtain ⟨more', hmore, hr⟩ :=
      hb.step? (hp (a, b) List.mem_cons_self) fun he => hseen (.inl he)
    obtain rfl : more = more' := Option.some.inj (hs.symm.trans hmore)
    apply ih
    intro p hp'
    exact (List.mem_append.mp hp').elim (hr p) fun hp' => hp p (List.mem_cons_of_mem _ hp')

def Settled (taken : List (NodeId × NodeId)) (p : NodeId × NodeId) : Prop :=
  p.1 = p.2 ∨ p ∈ taken

def Closed (h : Heap) (taken pending : List (NodeId × NodeId)) : Prop :=
  ∀ x y, (x, y) ∈ taken → ∃ more, h.step? x y = some more ∧
    ∀ p ∈ more, Settled taken p ∨ p ∈ pending

lemma Settled.mono {taken taken' : List (NodeId × NodeId)} {p : NodeId × NodeId}
    (hp : Settled taken p) (hsub : taken ⊆ taken') : Settled taken' p :=
  hp.imp_right fun hm => hsub hm

lemma Closed.skip {taken rest : List (NodeId × NodeId)} {p : NodeId × NodeId}
    (hc : h.Closed taken (p :: rest)) (hp : Settled taken p) : h.Closed taken rest := by
  intro x y hxy
  obtain ⟨more, hmore, hm⟩ := hc x y hxy
  refine ⟨more, hmore, fun q hq => ?_⟩
  rcases hm q hq with hq | hq
  · exact .inl hq
  · rcases List.mem_cons.mp hq with rfl | hq
    · exact .inl hp
    · exact .inr hq

lemma Closed.take {taken rest more : List (NodeId × NodeId)} {a b : NodeId}
    (hc : h.Closed taken ((a, b) :: rest)) (hs : h.step? a b = some more) :
    h.Closed ((a, b) :: taken) (more ++ rest) := by
  have hsub : taken ⊆ (a, b) :: taken := List.subset_cons_self _ _
  intro x y hxy
  rcases List.mem_cons.mp hxy with he | hxy
  · obtain ⟨rfl, rfl⟩ := Prod.mk.inj he
    exact ⟨more, hs, fun q hq => .inr (List.mem_append_left _ hq)⟩
  · obtain ⟨more', hmore, hm⟩ := hc x y hxy
    refine ⟨more', hmore, fun q hq => ?_⟩
    rcases hm q hq with hq | hq
    · exact .inl (hq.mono hsub)
    · rcases List.mem_cons.mp hq with rfl | hq
      · exact .inl (.inr List.mem_cons_self)
      · exact .inr (List.mem_append_right _ hq)

/-- A comparison that says yes has taken up pairs that rest on each other only, and all that
waited is settled by them. -/
lemma exists_closed_of_sameAll {taken pending : List (NodeId × NodeId)}
    (hs : h.sameAll taken pending = true) (hc : h.Closed taken pending) :
    ∃ all, taken ⊆ all ∧ h.Closed all [] ∧ ∀ p ∈ pending, Settled all p := by
  fun_induction Heap.sameAll h taken pending with
  | case1 taken => exact ⟨taken, List.Subset.refl _, hc, by simp⟩
  | case2 taken a b rest hseen ih =>
    have hp : Settled taken (a, b) := hseen.imp_right List.contains_iff_mem.mp
    obtain ⟨all, hsub, hall, hrest⟩ := ih hs (hc.skip hp)
    exact ⟨all, hsub, hall, List.forall_mem_cons.mpr ⟨hp.mono hsub, hrest⟩⟩
  | case3 => cases hs
  | case4 taken a b rest hseen more hmore ih =>
    obtain ⟨all, hsub, hall, hrest⟩ := ih hs (hc.take hmore)
    refine ⟨all, fun p hp => hsub (List.mem_cons_of_mem _ hp), hall, ?_⟩
    exact List.forall_mem_cons.mpr ⟨.inr (hsub List.mem_cons_self),
      fun p hp => hrest p (List.mem_append_right _ hp)⟩

lemma Closed.bisimulation {all : List (NodeId × NodeId)} (hc : h.Closed all []) :
    h.Bisimulation fun x y => Settled all (x, y) := by
  rintro x y (he | hxy)
  · exact .inl he
  · obtain ⟨more, hmore, hm⟩ := hc x y hxy
    refine .inr (exists_alike_iff.mpr ⟨more, hmore, fun p hp => ?_⟩)
    exact (hm p hp).resolve_right (by simp)

lemma same_eq_true_iff {a b : NodeId} : h.same a b = true ↔ ∃ R, h.Bisimulation R ∧ R a b := by
  constructor
  · intro hs
    obtain ⟨all, -, hall, hp⟩ := exists_closed_of_sameAll hs (by simp [Closed])
    exact ⟨_, hall.bisimulation, hp (a, b) List.mem_cons_self⟩
  · rintro ⟨R, hb, hr⟩
    exact hb.sameAll [] [(a, b)] (by simpa using hr)

end Heap

/-- A comparison at work: the pairs that were taken up, and those that wait. -/
structure Comparison where
  visited : List (NodeId × NodeId)
  pending : List (NodeId × NodeId)

namespace Comparison

def start (a b : NodeId) : Comparison where
  visited := []
  pending := [(a, b)]

def turn (h : Heap) (c : Comparison) : Bool ⊕ Comparison :=
  match c.pending with
  | [] => .inl true
  | (a, b) :: rest =>
    if a = b ∨ c.visited.contains (a, b) then .inr { c with pending := rest }
    else match h.step? a b with
      | none => .inl false
      | some more => .inr { visited := (a, b) :: c.visited, pending := more ++ rest }

/-- The verdict that a comparison reaches after finitely many turns. -/
inductive Ends (h : Heap) : Comparison → Bool → Prop
  | verdict {c : Comparison} {v : Bool} : c.turn h = .inl v → Ends h c v
  | turn {c c' : Comparison} {v : Bool} : c.turn h = .inr c' → Ends h c' v → Ends h c v

lemma ends_sameAll (h : Heap) (visited pending : List (NodeId × NodeId)) :
    Ends h ⟨visited, pending⟩ (h.sameAll visited pending) := by
  fun_induction Heap.sameAll h visited pending with
  | case1 visited => exact .verdict rfl
  | case2 visited a b rest hseen ih => exact .turn (by simp only [turn, if_pos hseen]) ih
  | case3 visited a b rest hseen hs => exact .verdict (by simp only [turn, if_neg hseen, hs])
  | case4 visited a b rest hseen more hs ih =>
    exact .turn (by simp only [turn, if_neg hseen, hs]) ih

end Comparison

namespace Heap

/-- Every comparison comes to an end and tells whether the two nodes are bisimilar. So equality is
reflexive, symmetric and transitive, also where a NaN stands in the graph: a node that holds one
is equal to itself only. -/
theorem same_iff_bisimilar (h : Heap) :
    (∀ a b, (Comparison.start a b).Ends h (h.same a b)) ∧
    (∀ a b, h.same a b = true ↔ ∃ R, h.Bisimulation R ∧ R a b) ∧
    (∀ a, h.same a a = true) ∧
    (∀ a b, h.same a b = h.same b a) ∧
    (∀ a b c, h.same a b = true → h.same b c = true → h.same a c = true) := by
  have symm : ∀ a b, h.same a b = true → h.same b a = true := by
    intro a b hab
    obtain ⟨R, hb, hr⟩ := same_eq_true_iff.mp hab
    exact same_eq_true_iff.mpr ⟨_, hb.swap, hr⟩
  refine ⟨fun a b => ?_, fun a b => same_eq_true_iff, fun a => ?_, fun a b => ?_,
    fun a b c hab hbc => ?_⟩
  · exact Comparison.ends_sameAll h [] [(a, b)]
  · exact same_eq_true_iff.mpr ⟨Eq, .eq, rfl⟩
  · exact Bool.eq_iff_iff.mpr ⟨symm a b, symm b a⟩
  · obtain ⟨R, hR, hab⟩ := same_eq_true_iff.mp hab
    obtain ⟨S, hS, hbc⟩ := same_eq_true_iff.mp hbc
    exact same_eq_true_iff.mpr ⟨_, hR.comp hS, b, .inr hab, .inr hbc⟩

def rings : Heap where
  nodes :=
    let type : ValueType := ⟨"IDL:Ring:1.0", [], [⟨"next", .value "IDL:Ring:1.0", "IDL:Ring:1.0"⟩]⟩
    #[⟨type, [.value (some 0)]⟩, ⟨type, [.value (some 2)]⟩, ⟨type, [.value (some 1)]⟩]

lemma rings_bisimulation : rings.Bisimulation fun x y => x < 3 ∧ y < 3 := by
  have hnext : ∀ x < 3, ∃ i n, rings.get? x = some i ∧ i.typeId = "IDL:Ring:1.0" ∧
      i.fields = [.value (some n)] ∧ n < 3 := by
    intro x hx
    match x, hx with
    | 0, _ => exact ⟨_, 0, rfl, rfl, rfl, by decide⟩
    | 1, _ => exact ⟨_, 2, rfl, rfl, rfl, by decide⟩
    | 2, _ => exact ⟨_, 1, rfl, rfl, rfl, by decide⟩
  rintro x y ⟨hx, hy⟩
  obtain ⟨i, m, hi, hti, hfi, hm⟩ := hnext x hx
  obtain ⟨j, n, hj, htj, hfj, hn⟩ := hnext y hy
  refine .inr ⟨i, j, hi, hj, hti.trans htj.symm, ?_⟩
  rw [hfi, hfj]
  exact .cons (.value ⟨hm, hn⟩) .nil

theorem same_rings :
    rings.same 0 1 = true ∧ rings.same 1 2 = true ∧ rings.same 0 2 = true := by
  obtain ⟨-, hiff, -, -, htrans⟩ := same_iff_bisimilar rings
  have h01 : rings.same 0 1 = true := (hiff 0 1).mpr ⟨_, rings_bisimulation, by decide⟩
  have h12 : rings.same 1 2 = true := (hiff 1 2).mpr ⟨_, rings_bisimulation, by decide⟩
  exact ⟨h01, h12, htrans 0 1 2 h01 h12⟩

end Heap

end ObjectBroker
