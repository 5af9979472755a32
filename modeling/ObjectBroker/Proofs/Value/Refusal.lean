import ObjectBroker.Proofs.Value.RoundTrip
import ObjectBroker.Proofs.Value.Span
import ObjectBroker.Proofs.Value.Walk

/-! Where a reader stops. It goes along with the writer up to the first node that it refuses, for
its level or for its type, and gives the reason there. -/

namespace ObjectBroker

open Marshalling

lemma Marshalling.Outcome.grows {refuses : NodeId → Option MarshalError} {h : Heap}
    {todo : List (Nat × NodeId)} {plain : Marshalling Unit} {m m' : Marshaller}
    {r : Except MarshalError Unit} (ho : Outcome refuses h todo plain m (r, m')) : m.Extends m' := by
  cases r with
  | ok _ =>
    obtain ⟨_, hmet, _⟩ := ho
    exact hmet.grows
  | error e =>
    obtain ⟨_, _, hmet, _⟩ := ho
    exact hmet.grows

lemma Marshalling.Outcome.run_plain {refuses : NodeId → Option MarshalError} {h : Heap}
    {todo : List (Nat × NodeId)} {plain : Marshalling Unit} {m m' : Marshaller} {a : Unit}
    (ho : Outcome refuses h todo plain m (.ok a, m')) (limit : Nat) :
    (m.withLimit limit).run plain = (.ok (), m'.withLimit limit) := by
  obtain ⟨_, _, _, hplain⟩ := ho
  exact hplain limit

lemma Marshalling.Outcome.run_same {refuses : NodeId → Option MarshalError} {h : Heap}
    {todo : List (Nat × NodeId)} {plain : Marshalling Unit} {m m' : Marshaller} {a : Unit}
    (ho : Outcome refuses h todo plain m (.ok a, m')) : m.run plain = (.ok (), m') := by
  have hback : m'.withLimit m.limit = m' := by
    rw [← ho.grows.limit]
    rfl
  rw [← hback]
  exact ho.run_plain m.limit

lemma Unmarshalling.run_valueAt_zero {u u' : Unmarshaller} {origin : Nat} {tag : UInt32}
    (h : u.run start = (.ok (.fresh origin tag), u')) :
    u.run (valueAt 0) = (.error (.tooDeep u'.limit), u') := by
  rw [valueAt, Unmarshaller.run_bind_of_ok h]
  rfl

/-- A body and a reader that stops with `e` at the node that is the last in `M`. The output of `M`
is the whole body. -/
structure Stop (refuses : NodeId → Option MarshalError) (h : Heap) (M : Marshaller)
    (U : Unmarshaller) (e : MarshalError) : Prop where
  bounded : M.Bounded
  wellTyped : h.WellTyped
  limit : M.limit = U.limit
  serves : ∀ n ∈ M.written, ∀ i, h.get? n = some i → U.registry.Serves (· = e) i.type
  refuses : ∀ n, refuses n ≠ some (.tooDeep U.limit)

def AtLast (h : Heap) (M : Marshaller) (U : Unmarshaller) (e : MarshalError) (m : Marshaller) :
    Prop :=
  ∃ k, (m.putHead k (h.typeId k)).Extends M ∧
    (e = .tooDeep U.limit ∨ U.registry.create (h.typeId k) = .error e)

/-- When `w` stops at the last node, then so does `r`. All that `plain` would have written instead
is there to be read. -/
def Halts {α : Type} (h : Heap) (M : Marshaller) (U : Unmarshaller) (e : MarshalError)
    (w plain : Marshalling Unit) (r : Unmarshalling α) : Prop :=
  ∀ ⦃m m' m'' : Marshaller⦄ ⦃u : Unmarshaller⦄ ⦃limit : Nat⦄, InStep h M U m u →
    m.run w = (.error e, m') → AtLast h M U e m' →
    (m.withLimit limit).run plain = (.ok (), m'') → m''.output.Extends M.output →
    ∃ u', u.run r = (.error e, u')

section

variable {α β : Type} {refuses : NodeId → Option MarshalError} {h : Heap} {M : Marshaller}
  {U : Unmarshaller} {e : MarshalError} {m m' m'' : Marshaller} {u : Unmarshaller}

lemma Halts.bind_left {w plain : Marshalling Unit} {r : Unmarshalling α}
    (hw : Halts h M U e w plain r) (k : α → Unmarshalling β) :
    Halts h M U e w plain (r >>= k) := by
  intro m m' m'' u limit hs hr hl hp hm
  obtain ⟨u', hu⟩ := hw hs hr hl hp hm
  exact ⟨u', Unmarshaller.run_bind_of_error hu⟩

lemma AtLast.extends (hl : AtLast h M U e m) : m.Extends M := by
  obtain ⟨k, hk, -⟩ := hl
  exact (m.extends_putHead k _).trans hk

section

variable {levels level : Nat} (hl : level + levels = M.limit + 1)
include hl

lemma outcome_guarded (refuses : NodeId → Option MarshalError) (vs : List FieldValue)
    (extra : Nat) (hm : m.limit = M.limit) :
    Outcome refuses h ((FieldValue.nodesAll vs).map (level, ·))
      (fields (valueAt h (levels + extra)) vs) m
      (m.run (fields (guardedAt refuses h levels) vs)) :=
  outcome_fields (fun n m => outcome_guardedAt hl extra n m) (ends_valueAt h _) vs m hm

lemma outcome_guarded_field (refuses : NodeId → Option MarshalError) (v : FieldValue)
    (extra : Nat) (hm : m.limit = M.limit) :
    Outcome refuses h (v.nodes.map (level, ·)) (field (valueAt h (levels + extra)) v) m
      (m.run (field (guardedAt refuses h levels) v)) :=
  outcome_field (fun n m => outcome_guardedAt hl extra n m) (ends_valueAt h _) v m hm

/-- Of two things that a guarded writer has to write, the first stops it or the second. Then the
first is what a writer with as many levels writes, and what the plain one writes. -/
lemma split_fields {v : FieldValue} {vs : List FieldValue} {extra limit : Nat}
    (hm : m.limit = M.limit) (hlast : AtLast h M U e m')
    (hr : m.run (fields (guardedAt refuses h levels) (v :: vs)) = (.error e, m'))
    (hp : (m.withLimit limit).run (fields (valueAt h (levels + extra)) (v :: vs)) = (.ok (), m'')) :
    (m.run (field (guardedAt refuses h levels) v) = (.error e, m') ∧
      ∃ m₁, (m.withLimit limit).run (field (valueAt h (levels + extra)) v) = (.ok (), m₁) ∧
        m₁.output.Extends m''.output) ∨
    ∃ m₁, m.run (field (valueAt h levels) v) = (.ok (), m₁) ∧ m₁.Extends M ∧
      m₁.run (fields (guardedAt refuses h levels) vs) = (.error e, m') ∧
      (m₁.withLimit limit).run (fields (valueAt h (levels + extra)) vs) = (.ok (), m'') := by
  obtain ⟨⟨⟩, m₁, hp₁, hp₂⟩ := Marshaller.run_bind_ok hp
  have hbig := outcome_guarded_field (h := h) hl refuses v extra hm
  have hsame := outcome_guarded_field (h := h) hl refuses v 0 hm
  rw [fields, Marshaller.run_bind] at hr
  rcases hv : m.run (field (guardedAt refuses h levels) v) with ⟨e' | _, m₂⟩
  · rw [hv] at hr
    cases hr
    exact .inl ⟨rfl, m₁, hp₁, output_extends_of_ends (ends_fields (ends_valueAt h _) vs) _ _ hp₂⟩
  · rw [hv] at hr hbig hsame
    have hgrows := hsame.grows
    have hrest := outcome_guarded (h := h) hl refuses vs extra (hgrows.limit.trans hm)
    rw [show m₂.run _ = _ from hr] at hrest
    obtain ⟨-, rfl⟩ := Prod.mk.inj (hp₁.symm.trans (hbig.run_plain limit))
    exact .inr ⟨m₂, hsame.run_same, hrest.grows.trans hlast.extends, hr, hp₂⟩

lemma halts_many {read : Unmarshalling FieldValue} {extra : Nat} (items : List FieldValue)
    (hc : ∀ v ∈ items, Copies h M U (· = e) (field (valueAt h levels) v) read
      (v.renumber (U.copyOf M)))
    (hh : ∀ v ∈ items, Halts h M U e (field (guardedAt refuses h levels) v)
      (field (valueAt h (levels + extra)) v) read) :
    Halts h M U e (fields (guardedAt refuses h levels) items)
      (fields (valueAt h (levels + extra)) items) (Unmarshalling.many read items.length) := by
  induction items with
  | nil =>
    intro m m' m'' u limit hs hr
    cases hr
  | cons v items ih =>
    intro m m' m'' u limit hs hr hlast hp hm
    rw [List.length_cons, Unmarshalling.many]
    rcases split_fields hl hs.begun.limit.symm hlast hr hp with
      ⟨hr, m₁, hp, hout⟩ | ⟨m₁, hv, hm₁, hr, hp⟩
    · obtain ⟨u', hu⟩ := hh v List.mem_cons_self hs hr hlast hp (hout.trans hm)
      exact ⟨u', Unmarshaller.run_bind_of_error hu⟩
    · rcases hc v List.mem_cons_self hs hv hm₁ with ⟨u₁, hu, ha⟩ | ⟨_, u₁, hu, rfl⟩
      · rw [Unmarshaller.run_bind_of_ok hu]
        exact (ih (fun v hv => hc v (List.mem_cons_of_mem _ hv))
          fun v hv => hh v (List.mem_cons_of_mem _ hv)).bind_left _ ha.inStep hr hlast hp hm
      · exact ⟨u₁, Unmarshaller.run_bind_of_error hu⟩

lemma halts_field {read : Unmarshalling (Option NodeId)} {extra : Nat} (hM : M.Bounded)
    (hv : CopiesValues h M U (· = e) (valueAt h levels) read)
    (hh : ∀ n : Option NodeId, (∀ k ∈ n, (h.get? k).isSome) →
      Halts h M U e (guardedAt refuses h levels n) (valueAt h (levels + extra) n) read)
    (kind : FieldKind) {v : FieldValue} (hf : h.fits kind v = true) :
    Halts h M U e (field (guardedAt refuses h levels) v) (field (valueAt h (levels + extra)) v)
      (Unmarshalling.field read kind) := by
  induction kind generalizing v with
  | scalar kind =>
    cases v with
    | scalar s =>
      intro m m' m'' u limit hs hr
      cases hr
    | _ => simp [Heap.fits] at hf
  | string =>
    cases v with
    | string text =>
      intro m m' m'' u limit hs hr
      cases hr
    | _ => simp [Heap.fits] at hf
  | value declared =>
    cases v with
    | value n =>
      refine (hh n ?_).bind_left _
      rintro k rfl
      exact Heap.isSome_of_fits hf
    | _ => simp [Heap.fits] at hf
  | sequence element ih =>
    cases v with
    | sequence items =>
      rw [Heap.fits, List.all_eq_true] at hf
      intro m m' m'' u limit hs hr hlast hp hm
      have hlen : (m.output.putWord 4 items.length).length + items.length ≤ m''.output.length :=
        length_fields (fun n _ _ => length_valueAt h _ n) items hp
      let m₁ := m.put (·.putWord 4 items.length)
      have hgrows := outcome_guarded (h := h) (m := m₁) hl refuses items 0 hs.begun.limit.symm
      have hr₁ : m₁.run (fields (guardedAt refuses h levels) items) = (.error e, m') := hr
      rw [hr₁] at hgrows
      have hput := hs.put (m.output.extends_putWord 4 items.length)
        (hgrows.grows.trans hlast.extends)
      have hlength := hs.run_sequenceLength hM hput.inStep.begun.output.octets_initial
        (hlen.trans hm.length_le)
      rw [Unmarshalling.field, Unmarshaller.run_bind_of_ok hlength]
      exact (halts_many hl items (fun v hv' => hv.field hM element (hf v hv'))
        fun v hv => ih (hf v hv)).bind_left _ hput.inStep hr hlast hp hm
    | _ => simp [Heap.fits] at hf

lemma halts_fill {read : Unmarshalling (Option NodeId)} {extra limit : Nat} (hM : M.Bounded)
    (hv : CopiesValues h M U (· = e) (valueAt h levels) read)
    (hh : ∀ n : Option NodeId, (∀ k ∈ n, (h.get? k).isSome) →
      Halts h M U e (guardedAt refuses h levels n) (valueAt h (levels + extra) n) read)
    {node : NodeId} {t : ValueType} {fs : List Field} {vs : List FieldValue}
    (hf : List.Forall₂ (fun f v => h.fits f.kind v = true) fs vs) {front : List Field}
    {done rest : List FieldValue} (ht : t.fields = front ++ fs) (hd : done.length = front.length)
    (hrest : rest.length = fs.length) (hs : InStep h M U m u)
    (hi : u.heap.get? node = some ⟨t, done ++ rest⟩)
    (hr : m.run (fields (guardedAt refuses h levels) vs) = (.error e, m'))
    (hlast : AtLast h M U e m')
    (hp : (m.withLimit limit).run (fields (valueAt h (levels + extra)) vs) = (.ok (), m''))
    (hm : m''.output.Extends M.output) :
    ∃ u', u.run (Unmarshalling.fill read node front.length fs) = (.error e, u') := by
  induction hf generalizing front done rest m u with
  | nil => cases hr
  | @cons f v fs vs hfit _ ih =>
    obtain ⟨old, rest, rfl⟩ := List.exists_cons_of_length_eq_add_one hrest
    rw [Unmarshalling.fill]
    rcases split_fields hl hs.begun.limit.symm hlast hr hp with
      ⟨hr, m₁, hp, hout⟩ | ⟨m₁, hr₁, hm₁, hr, hp⟩
    · obtain ⟨u', hu⟩ := halts_field hl hM hv hh f.kind hfit hs hr hlast hp (hout.trans hm)
      exact ⟨u', Unmarshaller.run_bind_of_error hu⟩
    · rcases hv.field hM f.kind hfit hs hr₁ hm₁ with ⟨u₁, hu₁, ha₁⟩ | ⟨_, u₁, hu, rfl⟩
      · obtain ⟨u₂, hu₂, hstep, hi₂⟩ := hv.store hfit ht hd hs hi hr₁ ha₁
        have hindex : front.length + 1 = (front ++ [f]).length := by simp
        rw [Unmarshaller.run_bind_of_ok hu₁, Unmarshaller.run_bind_of_ok hu₂, hindex]
        exact ih (ht.trans (List.append_cons _ _ _)) (by simp [hd]) (Nat.succ.inj hrest)
          hstep.inStep hi₂ hr hp
      · exact ⟨u₁, Unmarshaller.run_bind_of_error hu⟩

end

lemma halts_tooDeep (hst : Stop refuses h M U e) (extra : Nat) (n : NodeId) :
    Halts h M U e (guardedAt refuses h 0 (some n)) (valueAt h extra (some n))
      (Unmarshalling.valueAt 0) := by
  intro m m' m'' u limit hs hr hlast _ _
  cases hn : m.instances.lookup n with
  | some target =>
    rw [run_guardedAt_shared refuses h m 0 hn] at hr
    cases hr
  | none =>
    rw [run_guardedAt_zero refuses h m hn] at hr
    cases hr
    obtain ⟨k, hk, -⟩ := hlast
    have htag := (((m.putTag k).extends_putTypeId _).trans hk).output.octets_initial
    rw [Marshaller.putTag_output] at htag
    have hlimit : u.limit = m.limit := by rw [hs.limit, ← hst.limit, hs.begun.limit]
    have hrun := Unmarshalling.run_valueAt_zero (Unmarshalling.run_start_fresh hs.input htag)
    rw [← hlimit]
    exact ⟨_, hrun⟩

lemma halts_refused (hst : Stop refuses h M U e) {levels levels' : Nat} {n : NodeId}
    {e' : MarshalError} (he : refuses n = some e') :
    Halts h M U e (guardedAt refuses h (levels + 1) (some n)) (valueAt h levels' (some n))
      (Unmarshalling.valueAt (levels + 1)) := by
  intro m m' m'' u limit hs hr hlast _ _
  cases hn : m.instances.lookup n with
  | some target =>
    rw [run_guardedAt_shared refuses h m _ hn] at hr
    cases hr
  | none =>
    rw [run_guardedAt_refused h m levels hn he] at hr
    cases hr
    obtain ⟨k, hk, rfl | hcreate⟩ := hlast
    · exact absurd he (hst.refuses n)
    · obtain ⟨u₁, hstart, htype, -, -⟩ := hs.head hst.bounded hk
      have hreg : (u.pastHead M m k (h.typeId k)).registry = U.registry := hs.registry
      rw [Unmarshalling.run_valueAt_fresh levels hstart]
      exact ⟨_, Unmarshaller.run_bind_of_error
        (Unmarshalling.run_fresh_error _ htype (by rw [hreg, hcreate]))⟩

lemma halts_fresh (hst : Stop refuses h M U e) {levels level extra : Nat}
    (hl : level + levels = M.limit + 1)
    (hv : CopiesValues h M U (· = e) (valueAt h levels) (Unmarshalling.valueAt levels))
    (hh : ∀ n : Option NodeId, (∀ k ∈ n, (h.get? k).isSome) →
      Halts h M U e (guardedAt refuses h levels n) (valueAt h (levels + extra) n)
        (Unmarshalling.valueAt levels))
    {n : NodeId} {i : Instance} (hi : h.get? n = some i) (hn : refuses n = none) :
    Halts h M U e (guardedAt refuses h (levels + 1) (some n))
      (valueAt h (levels + extra + 1) (some n)) (Unmarshalling.valueAt (levels + 1)) := by
  intro m m' m'' u limit hs hr hlast hp hm
  cases hk : m.instances.lookup n with
  | some target =>
    rw [run_guardedAt_shared refuses h m _ hk] at hr
    cases hr
  | none =>
    have hid := Heap.typeId_eq hi
    have hfields : h.fieldsOf n = i.fields := by rw [Heap.fieldsOf, hi]; rfl
    rw [run_guardedAt_fresh h m levels hk hn, hid, hfields] at hr
    rw [run_valueAt_fresh h (m.withLimit limit) _ hk, Marshaller.putHead_withLimit, hid, hi] at hp
    have hlimit : (m.putHead n i.type.id).limit = M.limit := by
      rw [(m.extends_putHead n _).limit, hs.begun.limit]
    have hgrows := outcome_guarded (h := h) hl refuses i.fields 0 hlimit
    rw [hr] at hgrows
    have hm₁ : (m.putHead n i.type.id).Extends M := hgrows.grows.trans hlast.extends
    have hmem : n ∈ M.written := hm₁.mem_written (Marshaller.mem_written_putHead.mpr (.inl rfl))
    obtain ⟨u₁, hstart, htype, hids, hnodes⟩ := hs.head hst.bounded hm₁
    have hreg : (u.pastHead M m n i.type.id).registry = U.registry := hs.registry
    rw [Unmarshalling.run_valueAt_fresh levels hstart]
    rcases hst.serves n hmem i hi with ⟨i₀, hc, ht, hlen⟩ | ⟨_, hc, rfl⟩
    · have hfresh := Unmarshalling.run_fresh (m.output.align 4).position htype (by rw [hreg, hc])
      rw [ht] at hfresh
      rw [Unmarshaller.run_bind_of_ok hfresh]
      have hs₂ := hs.fresh hk hi ht hm₁ hids hnodes
      have hnew : (u.heap.alloc i₀).2.get? u.heap.size = some ⟨i.type, [] ++ i₀.fields⟩ := by
        rw [← ht]
        exact u.heap.get?_alloc_self i₀
      obtain ⟨u', hu⟩ := halts_fill hl hst.bounded hv hh (hst.wellTyped n i hi)
        (show i.type.fields = [] ++ _ from rfl) rfl hlen hs₂ hnew hr hlast hp hm
      exact ⟨u', Unmarshaller.run_bind_of_error hu⟩
    · have hfresh := Unmarshalling.run_fresh_error (m.output.align 4).position htype
        (by rw [hreg, hc])
      exact ⟨_, Unmarshaller.run_bind_of_error hfresh⟩

lemma halts_null (levels levels' : Nat) {r : Unmarshalling α} :
    Halts h M U e (guardedAt refuses h levels none) (valueAt h levels' none) r := by
  intro m m' m'' u limit hs hr
  rw [run_guardedAt_null] at hr
  cases hr

lemma halts_valueAt (hst : Stop refuses h M U e) {levels level : Nat}
    (hl : level + levels = M.limit + 1) (extra : Nat) (n : Option NodeId)
    (hn : ∀ k ∈ n, (h.get? k).isSome) :
    Halts h M U e (guardedAt refuses h levels n) (valueAt h (levels + extra) n)
      (Unmarshalling.valueAt levels) := by
  induction levels generalizing level n with
  | zero =>
    cases n with
    | none => exact halts_null _ _
    | some n => exact halts_tooDeep hst _ n
  | succ levels ih =>
    cases n with
    | none => exact halts_null _ _
    | some n =>
      obtain ⟨i, hi⟩ := Option.isSome_iff_exists.mp (hn n rfl)
      cases he : refuses n with
      | some e' => exact halts_refused hst he
      | none =>
        rw [Nat.succ_add]
        have hl' : level + 1 + levels = M.limit + 1 := by omega
        exact halts_fresh hst hl'
          (copies_valueAt hst.bounded hst.wellTyped hst.serves (Nat.le_refl levels))
          (fun k hk => ih hl' k hk) hi he

end

namespace Registry

def refuses (R : Registry) (h : Heap) (n : NodeId) : Option MarshalError :=
  match R.create (h.typeId n) with
  | .ok _ => none
  | .error e => some e

lemma refuses_eq_some {R : Registry} {h : Heap} {n : NodeId} {e : MarshalError} :
    R.refuses h n = some e ↔ R.create (h.typeId n) = .error e := by
  rw [refuses]
  cases R.create (h.typeId n) <;> simp

lemma refuses_eq_none {R : Registry} {h : Heap} {n : NodeId} {i : Instance}
    (hi : h.get? n = some i) (hR : R.Makes i.type) : R.refuses h n = none := by
  obtain ⟨j, hj, -⟩ := hR
  rw [refuses, Heap.typeId_eq hi, hj]

lemma create_eq_unknownType {R : Registry} {id : String} (hid : R.contains id = false) :
    R.create id = .error (.unknownType id) := by
  have hnone : R.lookup? id = none := by simpa [contains] using hid
  rw [create, hnone]

lemma create_ne_tooDeep (R : Registry) (id : String) (d : Nat) :
    R.create id ≠ .error (.tooDeep d) := by
  rw [create]
  cases R.lookup? id with
  | none => simp
  | some i => by_cases hi : i.typeId = id <;> simp [hi]

end Registry

section

variable {h g : Heap} {R : Registry} {order : ByteOrder} {limit limit' : Nat}
  {home : Option Endpoint} {n : Option NodeId} {M : Marshaller}

lemma run_valueAt_more
    (hw : (Marshaller.new order limit).run (Marshalling.value h n) = (.ok (), M)) (limit' : Nat) :
    ((Marshaller.new order limit').withLimit limit).run (valueAt h (limit' + limit) n) =
      (.ok (), M.withLimit limit) :=
  valueAt_withLimit (m := Marshaller.new order limit) h limit (Nat.le_add_left limit limit') n hw

/-- Where the walk meets a refusal, the guarded writer stops, and what was written goes on there
with the head of the node. -/
lemma exists_stop {refuses : NodeId → Option MarshalError} {e : MarshalError}
    (hw : (Marshaller.new order limit).run (Marshalling.value h n) = (.ok (), M))
    (he : (h.walkFrom n).findSome? (refusal limit' refuses) = some e) :
    ∃ m met x more, (Marshaller.new order limit').run (guardedAt refuses h limit' n) =
        (.error e, m) ∧ Met refuses met (Marshaller.new order limit') m ∧
      h.walkFrom n = met ++ x :: more ∧ refusal limit' refuses x = some e ∧
      (m.putHead x.2 (h.typeId x.2)).output.Extends M.output := by
  have hfst := run_guardedAt_fst refuses h order limit' n
  have ho : Outcome refuses h (n.toList.map (1, ·)) (valueAt h (limit' + limit) n)
      (Marshaller.new order limit') _ :=
    outcome_guardedAt (Nat.add_comm 1 limit') limit n (Marshaller.new order limit') rfl
  rw [he] at hfst
  rcases hr : (Marshaller.new order limit').run (guardedAt refuses h limit' n) with ⟨e' | _, m⟩
  · rw [hr] at hfst ho
    obtain rfl : e' = e := Except.error.inj hfst
    obtain ⟨met, x, hmet, -, hx, hwalk, hplain⟩ := ho
    obtain ⟨more, hmore⟩ := hwalk []
    rw [List.append_nil] at hmore
    have hout := hplain limit _ (run_valueAt_more hw limit')
    exact ⟨m, met, x, more, rfl, hmet, hmore, hx, hout⟩
  · rw [hr] at hfst
    cases hfst

lemma serves_of_met {e : MarshalError} {m : Marshaller} {met more : List (Nat × NodeId)}
    {x : Nat × NodeId} (hmet : Met (R.refuses h) met (Marshaller.new order limit') m)
    (hwalk : h.walkFrom n = met ++ x :: more) (hx : refusal limit' (R.refuses h) x = some e)
    (hR : ∀ k i, h.Reaches n.toList k → h.get? k = some i → R.Makes i.type ∨
      e ≠ .tooDeep limit' ∧ ∃ e', R.create i.type.id = .error e')
    {k : NodeId} (hk : k ∈ (m.putHead x.2 (h.typeId x.2)).written) {i : Instance}
    (hi : h.get? k = some i) : R.Serves (· = e) i.type := by
  have hid := Heap.typeId_eq hi
  rcases Marshaller.mem_written_putHead.mp hk with rfl | hk
  · have hreach : h.Reaches n.toList x.2 := by
      apply Heap.reaches_of_mem_walkFrom
      simp [hwalk]
    rcases hR _ i hreach hi with hmakes | ⟨hne, -⟩
    · exact .inl hmakes
    · rcases refusal_eq_some.mp hx with ⟨-, rfl⟩ | ⟨-, hx⟩
      · exact absurd rfl hne
      · rw [Registry.refuses_eq_some, hid] at hx
        exact .inr ⟨e, hx, rfl⟩
  · have hseen : k ∈ m.seen := by rwa [Marshaller.written, List.mem_reverse] at hk
    rw [hmet.seen, List.mem_append, List.mem_reverse, List.mem_map] at hseen
    obtain ⟨y, hy, rfl⟩ := hseen.resolve_right (by simp [Marshaller.seen, Marshaller.new])
    have hreach : h.Reaches n.toList y.2 := by
      apply Heap.reaches_of_mem_walkFrom
      simp [hwalk, hy]
    rcases hR _ i hreach hi with hmakes | ⟨-, e', he'⟩
    · exact .inl hmakes
    · have hnone := (refusal_eq_none.mp (hmet.passed y hy)).2
      rw [← hid, ← Registry.refuses_eq_some, hnone] at he'
      cases he'

lemma read_refused {e : MarshalError} (hh : h.WellTyped) (hn : ∀ k ∈ n, (h.get? k).isSome)
    (hw : (Marshaller.new order limit).run (Marshalling.value h n) = (.ok (), M))
    (hlen : M.octets.length < 2 ^ 31)
    (hR : ∀ k i, h.Reaches n.toList k → h.get? k = some i → R.Makes i.type ∨
      e ≠ .tooDeep limit' ∧ ∃ e', R.create i.type.id = .error e')
    (he : (h.walkFrom n).findSome? (refusal limit' (R.refuses h)) = some e) :
    ∃ u, { Unmarshaller.new order M.octets R limit' home with heap := g }.run
      Unmarshalling.value = (.error e, u) := by
  obtain ⟨m, met, x, more, hr, hmet, hwalk, hx, hout⟩ := exists_stop hw he
  -- The body is all that was written, but the last node in the table is the refused one.
  let M' : Marshaller := { m.putHead x.2 (h.typeId x.2) with output := M.output }
  let U := { Unmarshaller.new order M'.octets R limit' home with heap := g }
  have hM' : (m.putHead x.2 (h.typeId x.2)).Extends M' := ⟨hout, List.suffix_rfl, rfl⟩
  have hnew : (Marshaller.new order limit').Extends M' :=
    (hmet.grows.trans (m.extends_putHead x.2 _)).trans hM'
  have hlimit : M'.limit = limit' := hnew.limit
  have hst : Stop (R.refuses h) h M' U e :=
    { bounded := Body.bounded_of_extends_new hnew hlen
      wellTyped := hh
      limit := hlimit
      serves := fun k hk i hi => serves_of_met hmet hwalk hx hR hk hi
      refuses := fun k hk => R.create_ne_tooDeep _ _ (Registry.refuses_eq_some.mp hk) }
  have hlast : AtLast h M' U e m :=
    ⟨x.2, hM', (refusal_eq_some.mp hx).imp (·.2) fun hx => Registry.refuses_eq_some.mp hx.2⟩
  have hl : 1 + limit' = M'.limit + 1 := by rw [hlimit, Nat.add_comm]
  exact halts_valueAt hst hl limit n hn (Body.inStep_new hnew) hr hlast
    (run_valueAt_more hw limit') (.refl _)

lemma findSome?_refusal_unknown (hh : h.WellTyped) (hn : ∀ k ∈ n, (h.get? k).isSome)
    (hR : ∀ k i, h.Reaches n.toList k → h.get? k = some i →
      R.Makes i.type ∨ R.contains i.type.id = false)
    (hd : h.depth n ≤ limit') {x : Nat × NodeId}
    (hx : (h.walkFrom n).find? (fun x => !R.contains (h.typeId x.2)) = some x) :
    (h.walkFrom n).findSome? (refusal limit' (R.refuses h)) =
      some (.unknownType (h.typeId x.2)) := by
  obtain ⟨hx, met, more, hwalk, hmet⟩ := List.find?_eq_some_iff_append.mp hx
  have hlevel := Heap.depth_le_iff.mp hd
  have hpassed : met.findSome? (refusal limit' (R.refuses h)) = none := by
    rw [List.findSome?_eq_none_iff]
    intro y hy
    have hmem : y ∈ h.walkFrom n := by simp [hwalk, hy]
    have hreach := Heap.reaches_of_mem_walkFrom hmem
    obtain ⟨i, hi⟩ := Heap.exists_of_reaches hh (fun k hk => hn k (Option.mem_toList.mp hk)) hreach
    refine refusal_eq_none.mpr ⟨hlevel y hmem, ?_⟩
    rcases hR y.2 i hreach hi with hmakes | hnone
    · exact Registry.refuses_eq_none hi hmakes
    · have hsome := hmet y hy
      rw [Heap.typeId_eq hi, hnone] at hsome
      cases hsome
  have hrefused : refusal limit' (R.refuses h) x = some (.unknownType (h.typeId x.2)) := by
    refine refusal_eq_some.mpr (.inr ⟨hlevel x (by simp [hwalk]), ?_⟩)
    exact Registry.refuses_eq_some.mpr (Registry.create_eq_unknownType (by simpa using hx))
  rw [hwalk, List.findSome?_append, hpassed, List.findSome?_cons, hrefused]
  rfl

/-- A value with an instance that the reader has no factory for is refused. The refusal names the
type of the first of them that the walk meets. -/
theorem read_unknownType (hh : h.WellTyped) (hn : ∀ k ∈ n, (h.get? k).isSome)
    (hw : (Marshaller.new order limit).run (Marshalling.value h n) = (.ok (), M))
    (hlen : M.octets.length < 2 ^ 31)
    (hR : ∀ k i, h.Reaches n.toList k → h.get? k = some i →
      R.Makes i.type ∨ R.contains i.type.id = false)
    (hlacks : ∃ k i, h.Reaches n.toList k ∧ h.get? k = some i ∧ R.contains i.type.id = false)
    (hd : h.depth n ≤ limit') :
    ∃ x u, (h.walkFrom n).find? (fun x => !R.contains (h.typeId x.2)) = some x ∧
      { Unmarshaller.new order M.octets R limit' home with heap := g }.run Unmarshalling.value =
        (.error (.unknownType (h.typeId x.2)), u) := by
  obtain ⟨k, i, hk, hi, hnone⟩ := hlacks
  obtain ⟨y, hy, rfl⟩ := List.mem_map.mp (Heap.mem_walkFrom_of_reaches hk)
  have hfound : ((h.walkFrom n).find? fun x => !R.contains (h.typeId x.2)).isSome := by
    rw [List.find?_isSome]
    exact ⟨y, hy, by rw [Heap.typeId_eq hi, hnone]; rfl⟩
  obtain ⟨x, hx⟩ := Option.isSome_iff_exists.mp hfound
  have he := findSome?_refusal_unknown hh hn hR hd hx
  have hR' : ∀ k i, h.Reaches n.toList k → h.get? k = some i → R.Makes i.type ∨
      MarshalError.unknownType (h.typeId x.2) ≠ .tooDeep limit' ∧
        ∃ e', R.create i.type.id = .error e' := by
    intro k i hk hi
    refine (hR k i hk hi).imp_right fun hnone => ⟨nofun, ?_⟩
    exact ⟨_, Registry.create_eq_unknownType hnone⟩
  obtain ⟨u, hu⟩ := read_refused hh hn hw hlen hR' he
  exact ⟨x, u, hx, hu⟩

end

section

open Body

lemma walkFrom_ring : ring.walkFrom (some 0) = [(1, 0), (2, 1)] := by
  simp [Heap.walkFrom, Heap.walk_of_notMem, Heap.walk_of_mem, Heap.walk_nil, Heap.fieldsOf,
    Heap.get?, ring, FieldValue.nodesAll, FieldValue.nodes]

lemma depth_ring : ring.depth (some 0) = 2 := by
  rw [Heap.depth, walkFrom_ring]
  rfl

lemma ring_isSome : ∀ k ∈ some 0, (ring.get? k).isSome := by
  rintro k ⟨⟩
  rfl

theorem read_unknownType_ring :
    ∃ u, (Unmarshaller.new .littleEndian
        ((Marshaller.new .littleEndian 2).run (Marshalling.value ring (some 0))).2.octets
        ⟨[("IDL:Node:1.0", .new nodeType)]⟩ 2).run Unmarshalling.value =
      (.error (.unknownType "IDL:Leaf:1.0"), u) := by
  have hw : (Marshaller.new .littleEndian 2).run (Marshalling.value ring (some 0)) =
      (.ok (), ((Marshaller.new .littleEndian 2).run (Marshalling.value ring (some 0))).2) :=
    Prod.ext (by decide +kernel) rfl
  have hR : ∀ k i, ring.Reaches [0] k → ring.get? k = some i →
      Registry.Makes ⟨[("IDL:Node:1.0", .new nodeType)]⟩ i.type ∨
        Registry.contains ⟨[("IDL:Node:1.0", .new nodeType)]⟩ i.type.id = false := by
    intro k i _ hi
    rcases ring_get? hi with ⟨ht, -⟩ | ⟨ht, -⟩
    · rw [ht]
      exact .inl ⟨.new nodeType, rfl, rfl, rfl⟩
    · rw [ht]
      exact .inr rfl
  have hreach : ring.Reaches [0] 1 := .field (.root List.mem_cons_self) rfl (by decide)
  obtain ⟨x, u, hx, hu⟩ := read_unknownType ring_wellTyped ring_isSome hw (by decide +kernel) hR
    ⟨1, _, hreach, rfl, rfl⟩ depth_ring.le
  rw [walkFrom_ring] at hx
  obtain rfl : x = (2, 1) := Option.some.inj hx.symm
  exact ⟨u, hu⟩

end

def Roll.rareType : ValueType :=
  { Roll.itemType with id := "r", ancestors := ["i"] }

lemma Roll.depth_le_of_run {h : Heap} {order : ByteOrder} {limit : Nat} {M : Marshaller}
    (hw : (Marshaller.new order limit).run (Marshalling.value h (some 0)) = (.ok (), M)) :
    h.depth (some 0) ≤ limit := by
  have hfst := run_value_fst h order limit (some 0)
  rw [hw] at hfst
  by_contra hd
  rw [if_neg hd] at hfst
  cases hfst

theorem read_unknownType_farthest :
    let h := Roll.heap (List.replicate Roll.farthest Roll.itemType ++ [Roll.rareType])
    ∃ M u, h.WellTyped ∧ (h.get? 0).isSome ∧
      (∀ k i, h.Reaches [0] k → h.get? k = some i →
        Roll.registry.Makes i.type ∨ Roll.registry.contains i.type.id = false) ∧
      (∃ k i, h.Reaches [0] k ∧ h.get? k = some i ∧
        Roll.registry.contains i.type.id = false) ∧
      h.depth (some 0) ≤ 2 ∧
      (Marshaller.new .bigEndian 2).run (Marshalling.value h (some 0)) = (.ok (), M) ∧
      (Unmarshaller.new .bigEndian M.octets Roll.registry 2).run Unmarshalling.value =
        (.error (.dangling (20 + 2 ^ 32 : Nat)), u) := by
  intro h
  let types := List.replicate Roll.farthest Roll.itemType ++ [Roll.rareType]
  have htypes : ∀ t ∈ types, t = Roll.itemType ∨ t = Roll.rareType := by
    intro t ht
    rcases List.mem_append.mp ht with ht | ht
    · exact .inl (List.eq_of_mem_replicate ht)
    · exact .inr (List.mem_singleton.mp ht)
  have hlength : types.length = Roll.farthest + 1 := by
    rw [List.length_append, List.length_replicate, List.length_singleton]
  have hreach : h.Reaches [0] (Roll.farthest + 1) :=
    Roll.reaches_item (hlength ▸ Nat.lt_succ_self _)
  have hlast := Roll.get?_last Roll.farthest Roll.rareType
  have hw := Roll.run_value_last .bigEndian 0 Roll.farthest Roll.rareType
  let m := Roll.putItems (Roll.begun .bigEndian 2 (Roll.farthest + 1)) Roll.farthest
  let M := Roll.putItem "r" m (Roll.farthest + 1)
  obtain ⟨u, hu⟩ : ∃ u, (Unmarshaller.new .bigEndian M.octets Roll.registry 2).run
      Unmarshalling.value = (.error (.dangling (20 + 2 ^ 32 : Nat)), u) :=
    Roll.run_value_farthest 0 Roll.registry_roll Roll.registry_item (Nat.le_succ _)
      (Nat.le_refl _) (Roll.extends_putItem "r" m (Roll.farthest + 1))
  refine ⟨M, u, Roll.wellTyped_heap fun t ht => ?_, ?_, fun k i _ hi => ?_,
    ⟨_, _, hreach, hlast, rfl⟩, Roll.depth_le_of_run hw, hw, hu⟩
  · rcases htypes t ht with rfl | rfl
    · exact ⟨by decide, rfl⟩
    · exact ⟨by decide, rfl⟩
  · rw [Roll.get?_heap_zero]
    rfl
  · rcases Roll.type_of_get? hi with ht | ht
    · rw [ht]
      exact .inl ⟨.new Roll.rollType, rfl, rfl, rfl⟩
    · rcases htypes _ ht with ht | ht
      · rw [ht]
        exact .inl ⟨.new Roll.itemType, rfl, rfl, rfl⟩
      · rw [ht]
        exact .inr rfl

end ObjectBroker
