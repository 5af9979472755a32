import ObjectBroker.Proofs.Value.Log

/-! The tags with which values may start. Whether a tag is taken hangs on its size and on the lower
four of its bits, wherever the value stands. -/

namespace ObjectBroker

def Documented (tag : UInt32) : Prop :=
  tag = 0 ∨ tag = 0xffffffff ∨ tag = 0x7fffff02 ∨ tag = 0x7fffff03

instance : DecidablePred Documented :=
  fun _ => inferInstanceAs (Decidable (_ ∨ _))

def Taken (tag : UInt32) : Prop :=
  tag = 0 ∨ tag = 0xffffffff ∨
    0x7fffff00 ≤ tag.toNat ∧ (tag.toNat % 16 = 2 ∨ tag.toNat % 16 = 3)

lemma and_flags_iff (n : Nat) : n &&& 8 = 0 ∧ n &&& 6 = 2 ↔ n % 16 = 2 ∨ n % 16 = 3 := by
  have hlow : ∀ m < 16, (m &&& 8 = 0 ∧ m &&& 6 = 2 ↔ m = 2 ∨ m = 3) := by decide
  have hmask (k : Nat) (hk : 15 &&& k = k) : n % 16 &&& k = n &&& k := by
    rw [← Nat.and_two_pow_sub_one_eq_mod n 4, Nat.and_assoc, show 2 ^ 4 - 1 &&& k = k from hk]
  rw [← hlow (n % 16) (Nat.mod_lt n (by decide)), hmask 8 rfl, hmask 6 rfl]

lemma isValueTag_iff (tag : UInt32) : Unmarshalling.isValueTag tag = true ↔
    0x7fffff00 ≤ tag.toNat ∧ (tag.toNat % 16 = 2 ∨ tag.toNat % 16 = 3) := by
  rw [← and_flags_iff]
  simp [Unmarshalling.isValueTag, and_assoc, UInt32.le_iff_toNat_le, ← UInt32.toNat_inj]

namespace Unmarshalling

variable {α : Type} {r : Unmarshalling α}

def Tagless (r : Unmarshalling α) : Prop :=
  ∀ (u : Unmarshaller) (e : MarshalError), (u.run r).1 = .error e → NoTag e

lemma Scans.tagless {k : Nat} (hr : Scans NoTag k r) : Tagless r :=
  fun u => (hr u).fails

lemma tagless_enter (origin : Nat) (id : String) : Tagless (enter origin id) := by
  intro u
  have hs := enters_enter origin id u
  generalize u.run (enter origin id) = outcome at hs
  cases hs with
  | made => exact fun _ h => by cases h
  | refused he => exact fun _ h => by cases h; exact noTag_of_create he

lemma tagless_store (n : NodeId) (index : Nat) (v : FieldValue) : Tagless (store n index v) := by
  intro u
  have hs := stores_store n index v u
  generalize u.run (store n index v) = outcome at hs
  cases hs with
  | absent => exact fun _ h => by cases h
  | taken => exact fun _ h => by cases h
  | refused _ he => exact fun _ h => by cases h; exact noTag_of_setAt he

end Unmarshalling

namespace Logging

open Unmarshalling (NoTag Scans Tagless)

variable {α β : Type} {p : Logging α} {f : α → Logging β}

def Judges (p : Logging α) : Prop :=
  ∀ u tag, (p.run u).result = .error (.badTag tag) ↔ tag ∈ (p.run u).tags ∧ ¬ Taken tag

lemma tags_after (notes : List Note) (l : Log α) :
    (l.after notes).tags = notes.filterMap Note.tag? ++ l.tags :=
  List.filterMap_append

lemma Judges.lift {r : Unmarshalling α} (hr : Tagless r) : Judges (lift r) :=
  fun u tag => ⟨fun h => absurd rfl (hr u _ h tag), fun h => by cases h.1⟩

lemma Judges.pure (a : α) : Judges (pure a) :=
  fun _ _ => ⟨fun h => (by cases h), fun h => by cases h.1⟩

lemma Judges.bind (hp : Judges p) (hf : ∀ a, Judges (f a)) : Judges (p >>= f) := by
  intro u tag
  refine bind_cases (Q := fun l => l.result = .error (.badTag tag) ↔ tag ∈ l.tags ∧ ¬ Taken tag)
    (fun e he => ?_) (fun a ha => ?_)
  · have hpu := hp u tag
    rw [he, Except.error.injEq] at hpu
    exact (Except.error.injEq ..).to_iff.trans hpu
  · -- The part that went well has met no tag that is not taken.
    have hnone : ¬ (tag ∈ (p.run u).tags ∧ ¬ Taken tag) := fun h => by
      rw [← hp u tag, ha] at h
      cases h
    rw [tags_after, List.mem_append, or_and_right]
    exact (hf a (p.run u).reader tag).trans (or_iff_right hnone).symm

lemma Judges.noting (hp : Judges p) {note : α → Unmarshaller → Note}
    (hn : ∀ a u, (note a u).tag? = none) : Judges (noting note p) := by
  intro u tag
  cases hr : (p.run u).result with
  | error e =>
    rw [run_noting_of_error hr]
    exact hp u tag
  | ok a =>
    have htags : ((p.run u).noted (note a (p.run u).reader)).tags = (p.run u).tags := by
      rw [Log.tags, Log.noted, List.filterMap_append]
      simp [hn, Log.tags]
    rw [run_noting_of_ok hr, htags]
    exact hp u tag

def judged (origin : Nat) (tag : UInt32) : Unmarshalling Unmarshalling.Start := do
  if tag = ValueTag.null then
    pure .null
  else if tag = ValueTag.indirection then
    let target ← Unmarshalling.indirection
    match (← get).instances.lookup target with
    | some n => pure (.shared n)
    | none => throw (.dangling target)
  else if Unmarshalling.isValueTag tag then
    pure (.fresh origin tag)
  else
    throw (.badTag tag)

lemma start_eq : Unmarshalling.start = (do
    Unmarshalling.stream (Reading.align 4)
    let origin ← Unmarshalling.position
    let tag ← Unmarshalling.stream Reading.uint32
    judged origin tag) := rfl

lemma run_start_of_tag {u u' : Unmarshaller} {tag : UInt32} (h : u.run nextTag = (.ok tag, u')) :
    ∃ origin, u.run Unmarshalling.start = u'.run (judged origin tag) := by
  obtain ⟨⟨⟩, u₁, halign, h⟩ := Unmarshalling.of_run_bind h
  refine ⟨u₁.input.position, ?_⟩
  rw [start_eq, Unmarshaller.run_bind_of_ok halign,
    Unmarshaller.run_bind_of_ok (Unmarshalling.run_position _), Unmarshaller.run_bind_of_ok h]

lemma run_start_of_error {u u' : Unmarshaller} {e : MarshalError}
    (h : u.run nextTag = (.error e, u')) : (u.run Unmarshalling.start).1 = .error e := by
  rw [nextTag, Unmarshaller.run_bind] at h
  rcases halign : u.run (Unmarshalling.stream (Reading.align 4)) with ⟨e' | _, u₁⟩
  · rw [halign] at h
    rw [start_eq, Unmarshaller.run_bind_of_error halign]
    exact congrArg Except.error (Except.error.inj (congrArg Prod.fst h))
  · rw [halign] at h
    rw [start_eq, Unmarshaller.run_bind_of_ok halign,
      Unmarshaller.run_bind_of_ok (Unmarshalling.run_position _), Unmarshaller.run_bind_of_error h]

lemma run_judged_of_not_taken {tag : UInt32} (ht : ¬ Taken tag) (u : Unmarshaller) (origin : Nat) :
    u.run (judged origin tag) = (.error (.badTag tag), u) := by
  have hvalue : ¬ Unmarshalling.isValueTag tag = true := fun h =>
    ht (.inr (.inr ((isValueTag_iff tag).mp h)))
  have hnull : tag ≠ ValueTag.null := fun h => ht (.inl h)
  have hind : tag ≠ ValueTag.indirection := fun h => ht (.inr (.inl h))
  rw [judged, if_neg hnull, if_neg hind, if_neg hvalue]
  rfl

lemma scans_judged {tag : UInt32} (ht : Taken tag) (origin : Nat) :
    Scans NoTag 0 (judged origin tag) := by
  unfold judged
  split
  · exact .pure _
  split
  · refine .mono (.bind (l := 0) Unmarshalling.scans_indirection fun target =>
      .bind (k := 0) (l := 0) .get fun u => ?_) (Nat.zero_le _)
    cases u.instances.lookup target with
    | none => exact .throw 0 fun _ => by simp
    | some n => exact .pure _
  next hnull hind =>
    rw [if_pos ((isValueTag_iff tag).mpr ((ht.resolve_left hnull).resolve_left hind))]
    exact .pure _

lemma scans_nextTag : Scans NoTag 4 nextTag :=
  .bind (k := 0) (Unmarshalling.scans_stream (Reading.takes_align 4)) fun _ =>
    Unmarshalling.scans_stream Reading.takes_uint32

lemma judges_start : Judges start := by
  intro u tag
  have htags : (start.run u).tags = (u.run nextTag).1.toOption.toList := by
    rw [Log.tags, Logging.run, start]
    cases (u.run nextTag).1 <;> rfl
  rw [htags]
  change (u.run Unmarshalling.start).1 = _ ↔ _
  rcases hn : u.run nextTag with ⟨e | tag', u'⟩
  · have hne := (scans_nextTag u).fails e (congrArg Prod.fst hn) tag
    rw [run_start_of_error hn]
    exact ⟨fun h => absurd (Except.error.inj h) hne, fun h => by cases h.1⟩
  · obtain ⟨origin, hstart⟩ := run_start_of_tag hn
    rw [hstart,
      show (Except.ok tag' : Except MarshalError UInt32).toOption.toList = [tag'] from rfl,
      List.mem_singleton]
    by_cases ht : Taken tag'
    · exact ⟨fun h => absurd rfl ((scans_judged ht origin u').fails _ h tag),
        fun h => absurd (h.1 ▸ ht) h.2⟩
    · rw [run_judged_of_not_taken ht, Except.error.injEq, MarshalError.badTag.injEq]
      exact ⟨fun h => ⟨h.symm, h ▸ ht⟩, fun h => h.1.symm⟩

lemma judges_fresh (origin : Nat) (tag : UInt32) : Judges (fresh origin tag) :=
  .bind (.noting (.lift (Unmarshalling.scans_head tag).tagless) fun _ _ => rfl) fun id =>
    .noting (.lift (Unmarshalling.tagless_enter origin id)) fun _ _ => rfl

lemma judges_store (n : NodeId) (index : Nat) (v : FieldValue) : Judges (store n index v) :=
  Judges.lift (Unmarshalling.tagless_store n index v)

lemma judges_many (hp : Judges p) (n : Nat) : Judges (many p n) := by
  induction n with
  | zero => exact .pure []
  | succ n ih => exact .bind hp fun _ => .bind ih fun _ => .pure _

section

variable {read : Logging (Option NodeId)} (hr : Judges read)
include hr

lemma judges_field (kind : FieldKind) : Judges (field read kind) := by
  induction kind with
  | scalar kind =>
    exact .bind (.lift (Unmarshalling.scans_stream (Reading.takes_scalar kind)).tagless) fun _ =>
      .pure _
  | string =>
    exact .bind (.lift (Unmarshalling.scans_stream Reading.takes_string).tagless) fun _ => .pure _
  | value declared =>
    exact .bind hr fun n =>
      .bind (.lift (Unmarshalling.scans_assignable declared n).tagless) fun _ => .pure _
  | sequence element ih =>
    exact .bind (.lift Unmarshalling.scans_sequenceLength.tagless) fun count =>
      .bind (judges_many (.noting ih fun _ _ => rfl) count) fun _ => .pure _

lemma judges_fill (n : NodeId) (index : Nat) (fs : List Field) :
    Judges (fill read n index fs) := by
  induction fs generalizing index with
  | nil => exact .pure ()
  | cons f fs ih =>
    exact .bind (judges_field hr f.kind) fun v => .bind (judges_store n index v) fun _ => ih _

end

lemma judges_valueAt (levels : Nat) : Judges (valueAt levels) := by
  induction levels with
  | zero =>
    refine .bind judges_start fun s => ?_
    cases s with
    | null => exact .pure none
    | shared n => exact .pure (some n)
    | fresh origin tag =>
      have hthrow : Scans NoTag 0 (get >>= fun u : Unmarshaller =>
          (throw (.tooDeep u.limit) : Unmarshalling (Option NodeId))) :=
        .bind (k := 0) .get fun _ => .throw 0 fun _ => by simp
      exact .lift hthrow.tagless
  | succ levels ih =>
    refine .bind judges_start fun s => ?_
    cases s with
    | null => exact .pure none
    | shared n => exact .pure (some n)
    | fresh origin tag =>
      exact .bind (judges_fresh origin tag) fun made =>
        .bind (judges_fill ih made.1 0 made.2) fun _ => .pure _

/-- Whatever the octets are, the values that are read start with tags that are taken, and another
tag is refused by name where it is met. -/
theorem value_tags (u : Unmarshaller) :
    ((value.run u).result, (value.run u).reader) = u.run Unmarshalling.value ∧
    (∀ n, (value.run u).result = .ok n → ∀ tag ∈ (value.run u).tags, Taken tag) ∧
    ∀ tag, (value.run u).result = .error (.badTag tag) ↔
      tag ∈ (value.run u).tags ∧ ¬ Taken tag := by
  have hjudge := judges_valueAt u.limit u
  refine ⟨tells_value u, fun n hn tag htag => ?_, hjudge⟩
  by_contra ht
  have herror := (hjudge tag).mpr ⟨htag, ht⟩
  rw [show ((valueAt u.limit).run u).result = _ from hn] at herror
  cases herror

section

def point : ValueType where
  id := "P"
  ancestors := []
  fields := []

/-- A reader at a point whose tag is the number after the largest that a value may have, with the
lower bits of a value with one type id. -/
def strayReader : Unmarshaller :=
  .new .bigEndian [0x80, 0, 0, 2, 0, 0, 0, 2, 0x50, 0] { factories := [("P", .new point)] }

theorem value_tags_undocumented :
    ¬ ∀ (u : Unmarshaller) (n : Option NodeId), (value.run u).result = .ok n →
      ∀ tag ∈ (value.run u).tags, Documented tag := by
  intro h
  have hread : (value.run strayReader).result = .ok (some 0) := by decide +kernel
  have htag : 0x80000002 ∈ (value.run strayReader).tags := by decide +kernel
  exact absurd (h strayReader (some 0) hread 0x80000002 htag) (by decide)

end

end Logging

end ObjectBroker
