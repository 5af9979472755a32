import ObjectBroker.Proofs.Value.Marshal

/-! The depth-first walk through a value graph. Writing goes along it: a writer that has to stop at
some nodes stops at the first of them that the walk meets. -/

namespace ObjectBroker

namespace Heap

def fieldsOf (h : Heap) (n : NodeId) : List FieldValue :=
  (h.get? n).elim [] (·.fields)

def unseen (h : Heap) (seen : List NodeId) : List NodeId :=
  (List.range h.size).filter fun n => n ∉ seen

lemma length_unseen_cons_le (h : Heap) (seen : List NodeId) (n : NodeId) :
    (h.unseen (n :: seen)).length ≤ (h.unseen seen).length := by
  simp only [unseen, ← List.countP_eq_length_filter]
  apply List.countP_mono_left
  intro k _ hk
  simp_all

lemma length_unseen_cons_lt (h : Heap) {seen : List NodeId} {n : NodeId} (hn : n < h.size)
    (hs : n ∉ seen) : (h.unseen (n :: seen)).length < (h.unseen seen).length := by
  have hfilter : h.unseen (n :: seen) = (h.unseen seen).filter (· ≠ n) := by
    simp only [unseen, List.filter_filter]
    congr 1
    funext k
    by_cases hk : k = n <;> simp [hk]
  rw [hfilter, List.length_filter_lt_length_iff_exists]
  exact ⟨n, by simp [unseen, hn, hs], by simp⟩

lemma fieldsOf_of_size_le {h : Heap} {n : NodeId} (hn : h.size ≤ n) : h.fieldsOf n = [] := by
  rw [fieldsOf, get?, Array.getElem?_eq_none hn]
  rfl

/-- The walk, depth first and in the order of the fields, through what waits. It gives every node
where it is met first, with its level. -/
def walk (h : Heap) (seen : List NodeId) (pending : List (Nat × NodeId)) : List (Nat × NodeId) :=
  match pending with
  | [] => []
  | (level, n) :: rest =>
    if n ∈ seen then h.walk seen rest
    else (level, n) :: h.walk (n :: seen)
      ((FieldValue.nodesAll (h.fieldsOf n)).map (level + 1, ·) ++ rest)
termination_by ((h.unseen seen).length, pending.length)
decreasing_by
  · exact Prod.Lex.right _ (by simp)
  · by_cases hn : n < h.size
    · exact Prod.Lex.left _ _ (h.length_unseen_cons_lt hn ‹_›)
    · rw [fieldsOf_of_size_le (Nat.le_of_not_lt hn)]
      rcases Nat.lt_or_eq_of_le (h.length_unseen_cons_le seen n) with hlt | heq
      · exact Prod.Lex.left _ _ hlt
      · rw [heq]
        exact Prod.Lex.right _ (by simp [FieldValue.nodesAll])

lemma walk_nil (h : Heap) (seen : List NodeId) : h.walk seen [] = [] := by
  rw [walk]

lemma walk_of_mem {h : Heap} {seen : List NodeId} {n : NodeId} (hn : n ∈ seen) (level : Nat)
    (rest : List (Nat × NodeId)) : h.walk seen ((level, n) :: rest) = h.walk seen rest := by
  rw [walk, if_pos hn]

lemma walk_of_notMem {h : Heap} {seen : List NodeId} {n : NodeId} (hn : n ∉ seen) (level : Nat)
    (rest : List (Nat × NodeId)) :
    h.walk seen ((level, n) :: rest) = (level, n) :: h.walk (n :: seen)
      ((FieldValue.nodesAll (h.fieldsOf n)).map (level + 1, ·) ++ rest) := by
  rw [walk, if_neg hn]

lemma reaches_of_mem_walk {h : Heap} {seen : List NodeId} {pending : List (Nat × NodeId)}
    {x : Nat × NodeId} (hx : x ∈ h.walk seen pending) : h.Reaches (pending.map Prod.snd) x.2 := by
  fun_induction walk h seen pending with
  | case1 => cases hx
  | case2 seen level n rest hn ih => exact (ih hx).mono fun k hk => .root (List.mem_cons_of_mem _ hk)
  | case3 seen level n rest hn ih =>
    rcases List.mem_cons.mp hx with rfl | hx
    · exact .root List.mem_cons_self
    · refine (ih hx).mono fun k hk => ?_
      rw [List.map_append, List.mem_append, List.map_map] at hk
      rcases hk with hk | hk
      · replace hk : k ∈ FieldValue.nodesAll (h.fieldsOf n) := by simpa using hk
        cases hi : h.get? n with
        | none => simp [fieldsOf, hi, FieldValue.nodesAll] at hk
        | some i =>
          refine .field (.root List.mem_cons_self) hi ?_
          simpa [fieldsOf, hi] using hk
      · exact .root (List.mem_cons_of_mem _ hk)

lemma mem_walk_of_pending {h : Heap} {seen : List NodeId} {pending : List (Nat × NodeId)}
    {k : NodeId} (hk : k ∈ pending.map Prod.snd) :
    k ∈ seen ∨ k ∈ (h.walk seen pending).map Prod.snd := by
  fun_induction walk h seen pending with
  | case1 => cases hk
  | case2 seen level n rest hn ih =>
    rcases List.mem_cons.mp hk with rfl | hk
    · exact .inl hn
    · exact ih hk
  | case3 seen level n rest hn ih =>
    rcases List.mem_cons.mp hk with rfl | hk
    · exact .inr List.mem_cons_self
    · rcases ih (List.map_append ▸ List.mem_append_right _ hk) with hk | hk
      · rcases List.mem_cons.mp hk with rfl | hk
        · exact .inr List.mem_cons_self
        · exact .inl hk
      · exact .inr (List.mem_cons_of_mem _ hk)

lemma mem_walk_of_field {h : Heap} {seen : List NodeId} {pending : List (Nat × NodeId)}
    {n k : NodeId} (hn : n ∈ (h.walk seen pending).map Prod.snd)
    (hk : k ∈ FieldValue.nodesAll (h.fieldsOf n)) :
    k ∈ seen ∨ k ∈ (h.walk seen pending).map Prod.snd := by
  fun_induction walk h seen pending with
  | case1 => cases hn
  | case2 seen level n' rest hn' ih => exact ih hn
  | case3 seen level n' rest hn' ih =>
    have hmet : k ∈ n' :: seen ∨ k ∈ (h.walk (n' :: seen)
        ((FieldValue.nodesAll (h.fieldsOf n')).map (level + 1, ·) ++ rest)).map Prod.snd := by
      rcases List.mem_cons.mp hn with rfl | hn
      · apply mem_walk_of_pending
        simp [hk]
      · exact ih hn
    rcases hmet with hk | hk
    · rcases List.mem_cons.mp hk with rfl | hk
      · exact .inr List.mem_cons_self
      · exact .inl hk
    · exact .inr (List.mem_cons_of_mem _ hk)

def walkFrom (h : Heap) (n : Option NodeId) : List (Nat × NodeId) :=
  h.walk [] (n.toList.map (1, ·))

def depth (h : Heap) (n : Option NodeId) : Nat :=
  ((h.walkFrom n).map Prod.fst).foldr max 0

lemma depth_le_iff {h : Heap} {n : Option NodeId} {d : Nat} :
    h.depth n ≤ d ↔ ∀ x ∈ h.walkFrom n, x.1 ≤ d := by
  rw [depth]
  induction h.walkFrom n with
  | nil => simp
  | cons x rest ih => simp [ih]

lemma reaches_of_mem_walkFrom {h : Heap} {n : Option NodeId} {x : Nat × NodeId}
    (hx : x ∈ h.walkFrom n) : h.Reaches n.toList x.2 := by
  have hr := reaches_of_mem_walk hx
  rwa [List.map_map, show Prod.snd ∘ (fun k : NodeId => (1, k)) = id from rfl, List.map_id] at hr

lemma mem_walkFrom_of_reaches {h : Heap} {n : Option NodeId} {k : NodeId}
    (hk : h.Reaches n.toList k) : k ∈ (h.walkFrom n).map Prod.snd := by
  refine mem_of_reaches (fun k hk => ?_) (fun k hmet i hi l hl => ?_) hk
  · have hpending : k ∈ (n.toList.map ((1, ·) : NodeId → Nat × NodeId)).map Prod.snd := by
      simpa using hk
    exact (mem_walk_of_pending hpending).resolve_left List.not_mem_nil
  · refine (mem_walk_of_field hmet ?_).resolve_left List.not_mem_nil
    rwa [fieldsOf, hi]

end Heap

namespace Marshaller

def seen (m : Marshaller) : List NodeId :=
  m.instances.map Prod.fst

lemma lookup_eq_none_iff {m : Marshaller} {n : NodeId} :
    m.instances.lookup n = none ↔ n ∉ m.seen := by
  rw [List.lookup_eq_none_iff]
  constructor
  · intro h hn
    obtain ⟨p, hp, rfl⟩ := List.mem_map.mp hn
    simpa using h p hp
  · intro h p hp
    have hne : n ≠ p.1 := fun he => h (he ▸ List.mem_map_of_mem hp)
    simpa using hne

lemma seen_putHead (m : Marshaller) (n : NodeId) (id : String) :
    (m.putHead n id).seen = n :: m.seen := by
  rw [seen, putHead_eq, putTypeId_instances]
  rfl

end Marshaller

namespace Marshalling

open Marshaller

def guardedAt (refuses : NodeId → Option MarshalError) (h : Heap) :
    (levels : Nat) → Option NodeId → Marshalling Unit
  | 0, n => do
    if !(← known n) then
      throw (.tooDeep (← get).limit)
  | levels + 1, n => do
    if !(← known n) then
      match n with
      | none => pure ()
      | some n =>
        match refuses n with
        | some e => throw e
        | none => fields (guardedAt refuses h levels) (← fresh h n)

lemma guardedAt_none (h : Heap) (levels : Nat) :
    guardedAt (fun _ => none) h levels = valueAt h levels := by
  induction levels with
  | zero => rfl
  | succ levels ih =>
    funext n
    cases n with
    | none => rfl
    | some n => simp only [guardedAt, valueAt, ih]

section

variable (refuses : NodeId → Option MarshalError) (h : Heap) (m : Marshaller)

lemma run_guardedAt_null (levels : Nat) :
    m.run (guardedAt refuses h levels none) = (.ok (), m.put (·.putUInt32 ValueTag.null)) := by
  cases levels <;> rfl

lemma run_guardedAt_shared (levels : Nat) {n : NodeId} {target : Nat}
    (hn : m.instances.lookup n = some target) :
    m.run (guardedAt refuses h levels (some n)) = (.ok (), m.putIndirection target) := by
  cases levels <;> rw [guardedAt, run_bind, run_known_some, hn] <;> rfl

lemma run_guardedAt_zero {n : NodeId} (hn : m.instances.lookup n = none) :
    m.run (guardedAt refuses h 0 (some n)) = (.error (.tooDeep m.limit), m) := by
  rw [guardedAt, run_bind, run_known_some, hn]
  rfl

variable {refuses}

lemma run_guardedAt_refused (levels : Nat) {n : NodeId} {e : MarshalError}
    (hn : m.instances.lookup n = none) (he : refuses n = some e) :
    m.run (guardedAt refuses h (levels + 1) (some n)) = (.error e, m) := by
  rw [guardedAt, run_bind, run_known_some, hn]
  simp only [he]
  rfl

lemma run_guardedAt_fresh (levels : Nat) {n : NodeId} (hn : m.instances.lookup n = none)
    (he : refuses n = none) :
    m.run (guardedAt refuses h (levels + 1) (some n)) =
      (m.putHead n (h.typeId n)).run (fields (guardedAt refuses h levels) (h.fieldsOf n)) := by
  rw [guardedAt, run_bind, run_known_some, hn]
  simp only [he]
  rfl

end

def refusal (limit : Nat) (refuses : NodeId → Option MarshalError) (x : Nat × NodeId) :
    Option MarshalError :=
  if limit < x.1 then some (.tooDeep limit) else refuses x.2

lemma refusal_eq_none {limit : Nat} {refuses : NodeId → Option MarshalError} {x : Nat × NodeId} :
    refusal limit refuses x = none ↔ x.1 ≤ limit ∧ refuses x.2 = none := by
  by_cases hx : limit < x.1
  · simp [refusal, hx]
  · simp [refusal, hx, Nat.le_of_not_lt]

lemma refusal_eq_some {limit : Nat} {refuses : NodeId → Option MarshalError} {x : Nat × NodeId}
    {e : MarshalError} : refusal limit refuses x = some e ↔
      limit < x.1 ∧ e = .tooDeep limit ∨ x.1 ≤ limit ∧ refuses x.2 = some e := by
  by_cases hx : limit < x.1
  · simp [refusal, hx, eq_comm]
  · simp [refusal, hx, Nat.le_of_not_lt]

structure Met (refuses : NodeId → Option MarshalError) (met : List (Nat × NodeId))
    (m m' : Marshaller) : Prop where
  grows : m.Extends m'
  seen : m'.seen = (met.map Prod.snd).reverse ++ m.seen
  passed : ∀ x ∈ met, refusal m.limit refuses x = none

/-- How a guarded writer ends that has to write `todo`. When nothing is refused it does what the
`plain` one does. Otherwise it stops at the first node of the walk that is refused, and the plain
one goes on there with the head of that node. -/
def Outcome (refuses : NodeId → Option MarshalError) (h : Heap) (todo : List (Nat × NodeId))
    (plain : Marshalling Unit) (m : Marshaller) : Except MarshalError Unit × Marshaller → Prop
  | (.ok _, m') => ∃ met, Met refuses met m m' ∧
      (∀ rest, h.walk m.seen (todo ++ rest) = met ++ h.walk m'.seen rest) ∧
      ∀ limit, (m.withLimit limit).run plain = (.ok (), m'.withLimit limit)
  | (.error e, m') => ∃ met x, Met refuses met m m' ∧ x.2 ∉ m'.seen ∧
      refusal m.limit refuses x = some e ∧
      (∀ rest, ∃ more, h.walk m.seen (todo ++ rest) = met ++ x :: more) ∧
      ∀ limit m'', (m.withLimit limit).run plain = (.ok (), m'') →
        (m'.putHead x.2 (h.typeId x.2)).output.Extends m''.output

section

variable {refuses : NodeId → Option MarshalError} {h : Heap} {m m' m'' : Marshaller}

lemma Met.refl (m : Marshaller) : Met refuses [] m m :=
  ⟨.refl m, rfl, by simp⟩

lemma Met.trans {met met' : List (Nat × NodeId)} (hm : Met refuses met m m')
    (hm' : Met refuses met' m' m'') : Met refuses (met ++ met') m m'' where
  grows := hm.grows.trans hm'.grows
  seen := by rw [hm'.seen, hm.seen, List.map_append, List.reverse_append, List.append_assoc]
  passed x hx := by
    rcases List.mem_append.mp hx with hx | hx
    · exact hm.passed x hx
    · rw [← hm.grows.limit]
      exact hm'.passed x hx

lemma Outcome.bind {todo todo' : List (Nat × NodeId)} {plain plain' w w' : Marshalling Unit}
    (hw : Outcome refuses h todo plain m (m.run w))
    (hw' : ∀ m₁, m₁.limit = m.limit → Outcome refuses h todo' plain' m₁ (m₁.run w'))
    (hp : ∀ m m' : Marshaller, m.run plain' = (.ok (), m') → m.output.Extends m'.output) :
    Outcome refuses h (todo ++ todo') (do plain; plain') m (m.run (do w; w')) := by
  rw [run_bind]
  rcases hr : m.run w with ⟨e | _, m₁⟩
  · rw [hr] at hw
    obtain ⟨met, x, hmet, hx, he, hwalk, hplain⟩ := hw
    refine ⟨met, x, hmet, hx, he, fun rest => ?_, fun limit m'' hrun => ?_⟩
    · rw [List.append_assoc]
      exact hwalk (todo' ++ rest)
    · obtain ⟨⟨⟩, m₂, hrun, hrun'⟩ := run_bind_ok hrun
      exact (hplain limit m₂ hrun).trans (hp m₂ m'' hrun')
  · rw [hr] at hw
    obtain ⟨met, hmet, hwalk, hplain⟩ := hw
    have hlimit := hmet.grows.limit
    have hnext := hw' m₁ hlimit
    dsimp only
    rcases hr' : m₁.run w' with ⟨e | _, m₂⟩
    · rw [hr'] at hnext
      obtain ⟨met', x, hmet', hx, he, hwalk', hplain'⟩ := hnext
      rw [hlimit] at he
      refine ⟨met ++ met', x, hmet.trans hmet', hx, he, fun rest => ?_, fun limit m'' hrun => ?_⟩
      · obtain ⟨more, hmore⟩ := hwalk' rest
        exact ⟨more, by rw [List.append_assoc, hwalk, hmore, List.append_assoc]⟩
      · rw [run_bind, hplain limit] at hrun
        exact hplain' limit m'' hrun
    · rw [hr'] at hnext
      obtain ⟨met', hmet', hwalk', hplain'⟩ := hnext
      refine ⟨met ++ met', hmet.trans hmet', fun rest => ?_, fun limit => ?_⟩
      · rw [List.append_assoc, hwalk, hwalk', List.append_assoc]
      · rw [run_bind, hplain limit]
        exact hplain' limit

lemma outcome_put {f : Output → Output} (hf : ∀ o : Output, o.Extends (f o)) :
    Outcome refuses h [] (modify fun m => m.put f) m (m.run (modify fun m => m.put f)) :=
  ⟨[], ⟨m.extends_put (hf _), rfl, by simp⟩, fun _ => rfl, fun _ => rfl⟩

lemma output_extends_of_ends {nodes : List NodeId} {plain : Marshalling Unit}
    (hp : ∀ m, Ends h nodes m (m.run plain)) (m m' : Marshaller)
    (hr : m.run plain = (.ok (), m')) : m.output.Extends m'.output := by
  have he := hp m
  rw [hr] at he
  exact he.output

variable {write plain : Option NodeId → Marshalling Unit} {level limit : Nat}

mutual

lemma outcome_field
    (hw : ∀ n (m : Marshaller), m.limit = limit →
      Outcome refuses h (n.toList.map (level, ·)) (plain n) m (m.run (write n)))
    (hp : ∀ n m, Ends h n.toList m (m.run (plain n))) (v : FieldValue) (m : Marshaller)
    (hm : m.limit = limit) :
    Outcome refuses h (v.nodes.map (level, ·)) (field plain v) m (m.run (field write v)) := by
  cases v with
  | scalar s => exact outcome_put fun o => Output.extends_putWord o _ _
  | string text => exact outcome_put fun o => Output.extends_putString o _
  | value n =>
    have hn : (FieldValue.value n).nodes = n.toList := by cases n <;> rfl
    rw [hn]
    exact hw n m hm
  | sequence items =>
    exact (outcome_put fun o => Output.extends_putWord o 4 _).bind
      (fun m' hm' => outcome_fields hw hp items m' (hm'.trans hm))
      (output_extends_of_ends (ends_fields hp items))

lemma outcome_fields
    (hw : ∀ n (m : Marshaller), m.limit = limit →
      Outcome refuses h (n.toList.map (level, ·)) (plain n) m (m.run (write n)))
    (hp : ∀ n m, Ends h n.toList m (m.run (plain n))) (vs : List FieldValue) (m : Marshaller)
    (hm : m.limit = limit) :
    Outcome refuses h ((FieldValue.nodesAll vs).map (level, ·)) (fields plain vs) m
      (m.run (fields write vs)) := by
  cases vs with
  | nil => exact ⟨[], .refl m, fun _ => rfl, fun _ => rfl⟩
  | cons v vs =>
    rw [FieldValue.nodesAll, List.map_append]
    exact (outcome_field hw hp v m hm).bind
      (fun m' hm' => outcome_fields hw hp vs m' (hm'.trans hm))
      (output_extends_of_ends (ends_fields hp vs))

end

lemma outcome_null (levels levels' : Nat) :
    Outcome refuses h [] (valueAt h levels' none) m (m.run (guardedAt refuses h levels none)) := by
  rw [run_guardedAt_null]
  exact ⟨[], ⟨m.extends_put (Output.extends_putWord _ 4 _), rfl, by simp⟩, fun _ => rfl,
    fun limit => run_valueAt_null h (m.withLimit limit) levels'⟩

lemma outcome_shared {levels levels' : Nat} {n : NodeId} {target : Nat}
    (hn : m.instances.lookup n = some target) :
    Outcome refuses h [(level, n)] (valueAt h levels' (some n)) m
      (m.run (guardedAt refuses h levels (some n))) := by
  have hseen : n ∈ m.seen := by
    by_contra hseen
    rw [lookup_eq_none_iff.mpr hseen] at hn
    cases hn
  rw [run_guardedAt_shared refuses h m levels hn]
  exact ⟨[], ⟨m.extends_putIndirection target, rfl, by simp⟩, Heap.walk_of_mem hseen level,
    fun limit => run_valueAt_shared h (m.withLimit limit) levels' hn⟩

lemma outcome_refused {levels : Nat} {n : NodeId} {e : MarshalError} {w : Marshalling Unit}
    (hn : m.instances.lookup n = none) (he : refusal m.limit refuses (level, n) = some e)
    (hr : m.run w = (.error e, m)) :
    Outcome refuses h [(level, n)] (valueAt h levels (some n)) m (m.run w) := by
  rw [hr]
  refine ⟨[], (level, n), .refl m, lookup_eq_none_iff.mp hn, he,
    fun rest => ⟨_, Heap.walk_of_notMem (lookup_eq_none_iff.mp hn) level rest⟩,
    fun limit m'' hrun => ?_⟩
  cases levels with
  | zero =>
    rw [run_valueAt_zero h (m.withLimit limit) hn] at hrun
    cases hrun
  | succ levels =>
    rw [run_valueAt_fresh h (m.withLimit limit) levels hn, putHead_withLimit] at hrun
    exact output_extends_of_ends (ends_fields (ends_valueAt h levels) _)
      ((m.putHead n (h.typeId n)).withLimit limit) m'' hrun

lemma outcome_fresh {levels levels' : Nat} {n : NodeId} (hn : m.instances.lookup n = none)
    (he : refusal m.limit refuses (level, n) = none)
    (ho : Outcome refuses h ((FieldValue.nodesAll (h.fieldsOf n)).map (level + 1, ·))
      (fields (valueAt h levels') (h.fieldsOf n)) (m.putHead n (h.typeId n))
      ((m.putHead n (h.typeId n)).run (fields (guardedAt refuses h levels) (h.fieldsOf n)))) :
    Outcome refuses h [(level, n)] (valueAt h (levels' + 1) (some n)) m
      ((m.putHead n (h.typeId n)).run (fields (guardedAt refuses h levels) (h.fieldsOf n))) := by
  have hhead : Met refuses [(level, n)] m (m.putHead n (h.typeId n)) :=
    ⟨m.extends_putHead n _, m.seen_putHead n _, by simpa using he⟩
  have hwalk := Heap.walk_of_notMem (h := h) (lookup_eq_none_iff.mp hn) level
  rw [← m.seen_putHead n (h.typeId n)] at hwalk
  have hplain : ∀ limit, (m.withLimit limit).run (valueAt h (levels' + 1) (some n)) =
      ((m.putHead n (h.typeId n)).withLimit limit).run
        (fields (valueAt h levels') (h.fieldsOf n)) := fun limit => by
    rw [run_valueAt_fresh h (m.withLimit limit) levels' hn, putHead_withLimit]
    rfl
  rcases hr : (m.putHead n (h.typeId n)).run _ with ⟨e | _, m'⟩
  · rw [hr] at ho
    obtain ⟨met, x, hmet, hx, he', hrest, hafter⟩ := ho
    refine ⟨(level, n) :: met, x, hhead.trans hmet, hx, ?_, fun rest => ?_,
      fun limit m'' hrun => hafter limit m'' ((hplain limit).symm.trans hrun)⟩
    · rwa [hhead.grows.limit] at he'
    · obtain ⟨more, hmore⟩ := hrest rest
      exact ⟨more, (hwalk rest).trans (by rw [hmore]; rfl)⟩
  · rw [hr] at ho
    obtain ⟨met, hmet, hrest, hafter⟩ := ho
    exact ⟨(level, n) :: met, hhead.trans hmet, fun rest => (hwalk rest).trans (by rw [hrest]; rfl),
      fun limit => (hplain limit).trans (hafter limit)⟩

/-- What a guarded writer does from a level on: `levels` more are left of its limit, and the plain
writer has no fewer. -/
lemma outcome_guardedAt {levels : Nat} (hl : level + levels = limit + 1) (extra : Nat)
    (n : Option NodeId) (m : Marshaller) (hm : m.limit = limit) :
    Outcome refuses h (n.toList.map (level, ·)) (valueAt h (levels + extra) n) m
      (m.run (guardedAt refuses h levels n)) := by
  induction levels generalizing level n m with
  | zero =>
    cases n with
    | none => exact outcome_null _ _
    | some n =>
      cases hn : m.instances.lookup n with
      | some target => exact outcome_shared hn
      | none =>
        refine outcome_refused hn (refusal_eq_some.mpr (.inl ⟨?_, rfl⟩))
          (run_guardedAt_zero refuses h m hn)
        change m.limit < level
        omega
  | succ levels ih =>
    cases n with
    | none => exact outcome_null _ _
    | some n =>
      cases hn : m.instances.lookup n with
      | some target => exact outcome_shared hn
      | none =>
        have hlevel : level ≤ m.limit := by omega
        cases he : refuses n with
        | some e =>
          exact outcome_refused hn (refusal_eq_some.mpr (.inr ⟨hlevel, he⟩))
            (run_guardedAt_refused h m levels hn he)
        | none =>
          rw [run_guardedAt_fresh h m levels hn he, Nat.succ_add]
          apply outcome_fresh hn (refusal_eq_none.mpr ⟨hlevel, he⟩)
          apply outcome_fields (fun k m => ih (by omega) k m) (ends_valueAt h (levels + extra))
          rw [(m.extends_putHead n _).limit, hm]

lemma run_guardedAt_fst (refuses : NodeId → Option MarshalError) (h : Heap) (order : ByteOrder)
    (limit : Nat) (n : Option NodeId) :
    ((Marshaller.new order limit).run (guardedAt refuses h limit n)).1 =
      ((h.walkFrom n).findSome? (refusal limit refuses)).elim (.ok ()) .error := by
  have ho : Outcome refuses h (n.toList.map (1, ·)) (valueAt h (limit + 0) n)
      (Marshaller.new order limit) _ :=
    outcome_guardedAt (Nat.add_comm 1 limit) 0 n (Marshaller.new order limit) rfl
  rcases hr : (Marshaller.new order limit).run (guardedAt refuses h limit n) with ⟨e | _, m'⟩
  · rw [hr] at ho
    obtain ⟨met, x, hmet, -, he, hwalk, -⟩ := ho
    obtain ⟨more, hmore⟩ := hwalk []
    rw [List.append_nil] at hmore
    have hpassed : met.findSome? (refusal limit refuses) = none :=
      List.findSome?_eq_none_iff.mpr hmet.passed
    rw [show h.walkFrom n = _ from hmore, List.findSome?_append, hpassed, List.findSome?_cons,
      show refusal limit refuses x = _ from he]
    rfl
  · rw [hr] at ho
    obtain ⟨met, hmet, hwalk, -⟩ := ho
    have hall := hwalk []
    rw [List.append_nil, Heap.walk_nil, List.append_nil] at hall
    have hpassed : met.findSome? (refusal limit refuses) = none :=
      List.findSome?_eq_none_iff.mpr hmet.passed
    rw [show h.walkFrom n = met from hall, hpassed]
    rfl

end

end Marshalling

section

open Marshalling

namespace Heap

lemma findSome?_refusal {h : Heap} {n : Option NodeId} {refuses : NodeId → Option MarshalError}
    (hr : ∀ x ∈ h.walkFrom n, refuses x.2 = none) (limit : Nat) :
    (h.walkFrom n).findSome? (refusal limit refuses) =
      if h.depth n ≤ limit then none else some (.tooDeep limit) := by
  by_cases hd : h.depth n ≤ limit
  · rw [if_pos hd, List.findSome?_eq_none_iff]
    exact fun x hx => refusal_eq_none.mpr ⟨depth_le_iff.mp hd x hx, hr x hx⟩
  · rw [if_neg hd]
    cases he : (h.walkFrom n).findSome? (refusal limit refuses) with
    | none =>
      rw [List.findSome?_eq_none_iff] at he
      exact absurd (depth_le_iff.mpr fun x hx => (refusal_eq_none.mp (he x hx)).1) hd
    | some e =>
      obtain ⟨x, hx, hxe⟩ := List.exists_of_findSome?_eq_some he
      rcases refusal_eq_some.mp hxe with ⟨-, rfl⟩ | ⟨-, hxe⟩
      · rfl
      · rw [hr x hx] at hxe
        cases hxe

end Heap

lemma run_value_fst (h : Heap) (order : ByteOrder) (limit : Nat) (n : Option NodeId) :
    ((Marshaller.new order limit).run (Marshalling.value h n)).1 =
      if h.depth n ≤ limit then .ok () else .error (.tooDeep limit) := by
  have hfst := run_guardedAt_fst (fun _ => none) h order limit n
  rw [guardedAt_none, Heap.findSome?_refusal fun _ _ => rfl] at hfst
  rw [show (Marshaller.new order limit).run (Marshalling.value h n) =
    (Marshaller.new order limit).run (valueAt h limit n) from rfl]
  refine hfst.trans ?_
  by_cases hd : h.depth n ≤ limit
  · rw [if_pos hd, if_pos hd]
    rfl
  · rw [if_neg hd, if_neg hd]
    rfl

end

end ObjectBroker
