import ObjectBroker.Proofs.Value.Counter
import ObjectBroker.Proofs.Value.Log

/-!
What octets pay for. A value takes four octets for its tag and, if it is not one that is there
already, five for its type id: eight of these pay for the instance, and one for the value as an
element of a sequence. Elements of other kinds take an octet at least.
-/
namespace ObjectBroker

namespace Log

variable {α β : Type}

def spent (l : Log α) : Nat :=
  8 * l.asked + l.elements

lemma made_after (notes : List Note) (l : Log α) :
    (l.after notes).made = notes.countP Note.isMade + l.made :=
  List.countP_append

lemma asked_after (notes : List Note) (l : Log α) :
    (l.after notes).asked = notes.countP Note.isAsked + l.asked :=
  List.countP_append

lemma elements_after (notes : List Note) (l : Log α) :
    (l.after notes).elements = notes.countP Note.isElement + l.elements :=
  List.countP_append

lemma spent_after (l : Log α) (l' : Log β) : (l'.after l.notes).spent = l.spent + l'.spent := by
  simp only [spent, asked_after, elements_after]
  simp only [asked, elements]
  omega

end Log

namespace Logging

open Unmarshalling (Scans)

variable {α β : Type} {p : Logging α} {f : α → Logging β} {c k : Nat}

/-- The account of a reading from `u` that may spend `c` more than the octets it passes. If it
does not fail, it has left `k` over. -/
structure Paid (c k : Nat) (u : Unmarshaller) (l : Log α) : Prop where
  size : l.reader.heap.size = u.heap.size + l.made
  made_le : l.made ≤ l.asked
  spent : l.spent + l.reader.input.remaining ≤ u.input.remaining + c
  left : ∀ a, l.result = .ok a → l.spent + l.reader.input.remaining + k ≤ u.input.remaining + c

def Pays (c k : Nat) (p : Logging α) : Prop :=
  ∀ u, Paid c k u (p.run u)

lemma Paid.of_eq_zero {u : Unmarshaller} {l : Log α} (hmade : l.made = 0) (hasked : l.asked = 0)
    (helements : l.elements = 0) (hsize : l.reader.heap.size = u.heap.size)
    (hle : l.reader.input.remaining ≤ u.input.remaining)
    (htakes : ∀ a, l.result = .ok a → k + l.reader.input.remaining ≤ u.input.remaining + c) :
    Paid c k u l := by
  have hspent : l.spent = 0 := by rw [Log.spent, hasked, helements]
  refine ⟨by rw [hsize, hmade, Nat.add_zero], by omega, by omega, fun a ha => ?_⟩
  have := htakes a ha
  omega

lemma Pays.pure (c : Nat) (a : α) : Pays c c (pure a) :=
  fun _ => .of_eq_zero rfl rfl rfl rfl (Nat.le_refl _) fun _ _ => (Nat.add_comm _ _).le

lemma Pays.lift {E : MarshalError → Prop} {r : Unmarshalling α} (c : Nat) (hr : Scans E k r) :
    Pays c (c + k) (lift r) := by
  intro u
  refine .of_eq_zero rfl rfl rfl (congrArg Heap.size (hr u).heap) (hr u).remaining_le
    fun a ha => ?_
  rw [Nat.add_assoc, Nat.add_comm c]
  exact Nat.add_le_add_right ((hr u).takes a ha) c

lemma Pays.mono {l : Nat} (hp : Pays c k p) (hl : l ≤ k) : Pays c l p :=
  fun u => { hp u with left := fun a ha => (Nat.add_le_add_left hl _).trans ((hp u).left a ha) }

lemma Pays.frame (hp : Pays c k p) (m : Nat) : Pays (c + m) (k + m) p := by
  intro u
  obtain ⟨hsize, hmade, hspent, hleft⟩ := hp u
  refine ⟨hsize, hmade, by omega, fun a ha => ?_⟩
  have := hleft a ha
  omega

lemma Pays.bind {l : Nat} (hp : Pays c k p) (hf : ∀ a, Pays k l (f a)) : Pays c l (p >>= f) := by
  intro u
  obtain ⟨hsize, hmade, hspent, hleft⟩ := hp u
  refine bind_cases (Q := Paid c l u) (fun e _ => ?_) (fun a ha => ?_)
  · exact ⟨hsize, hmade, hspent, fun _ h => by cases h⟩
  · obtain ⟨hsize', hmade', hspent', hleft'⟩ := hf a (p.run u).reader
    have ha' := hleft a ha
    refine ⟨?_, ?_, ?_, fun b hb => ?_⟩
    · rw [Log.made_after]
      exact hsize'.trans (by rw [hsize, Log.made, Nat.add_assoc])
    · rw [Log.made_after, Log.asked_after]
      exact Nat.add_le_add hmade hmade'
    · rw [Log.spent_after, Log.reader_after]
      omega
    · have hb' := hleft' b hb
      rw [Log.spent_after, Log.reader_after]
      omega

lemma Pays.element {p : Logging FieldValue} (hp : Pays c (k + 1) p) :
    Pays c k (noting (fun v _ => .element v) p) := by
  intro u
  obtain ⟨hsize, hmade, hspent, hleft⟩ := hp u
  cases hr : (p.run u).result with
  | error e =>
    rw [run_noting_of_error hr]
    exact ⟨hsize, hmade, hspent, fun a ha => by rw [hr] at ha; cases ha⟩
  | ok v =>
    have hv := hleft v hr
    have hmade' : ((p.run u).noted (.element v)).made = (p.run u).made := List.countP_append
    have hasked' : ((p.run u).noted (.element v)).asked = (p.run u).asked := List.countP_append
    have helements' : ((p.run u).noted (.element v)).elements = (p.run u).elements + 1 :=
      List.countP_append
    have hspent' : ((p.run u).noted (.element v)).spent = (p.run u).spent + 1 := by
      rw [Log.spent, hasked', helements']
      rfl
    rw [run_noting_of_ok hr]
    refine ⟨by rwa [hmade'], by rwa [hmade', hasked'], ?_, fun _ _ => ?_⟩ <;>
      rw [hspent', Log.reader_noted] <;> omega

lemma pays_start (c : Nat) : Pays c (c + 4) start := by
  intro u
  have hu := Unmarshalling.scans_start u
  have hcount {P : Note → Bool} (hP : ∀ tag, P (.tag tag) = false) :
      (start.run u).notes.countP P = 0 := by
    refine List.countP_eq_zero.mpr fun note hnote => ?_
    obtain ⟨tag, rfl⟩ := exists_tag_of_mem_start hnote
    rw [hP tag]
    exact Bool.false_ne_true
  refine .of_eq_zero (hcount fun _ => rfl) (hcount fun _ => rfl) (hcount fun _ => rfl)
    (congrArg Heap.size hu.heap) hu.remaining_le fun s hs => ?_
  rw [Nat.add_assoc, Nat.add_comm c]
  exact Nat.add_le_add_right (hu.takes s hs) c

lemma pays_fresh (origin : Nat) (tag : UInt32) : Pays 4 1 (fresh origin tag) := by
  intro u
  have hu := Unmarshalling.scans_head tag u
  refine bind_cases (Q := Paid 4 1 u) (fun e he => ?_) (fun id hid => ?_)
  · rw [result_noting] at he
    rw [run_noting_of_error he]
    exact .of_eq_zero rfl rfl rfl (congrArg Heap.size hu.heap) hu.remaining_le fun _ h => by cases h
  · rw [result_noting] at hid
    rw [run_noting_of_ok hid]
    -- Of the four octets of the tag and the five or more of the id one is left over.
    have hleft : 8 + (u.run (Unmarshalling.head tag)).2.input.remaining + 1 ≤
        u.input.remaining + 4 := by
      have := hu.takes id hid
      omega
    refine enter_cases (Q := fun l => Paid 4 1 u (l.after _)) (fun i hi => ?_) (fun e he => ?_)
    · refine ⟨?_, Nat.le_refl 1, Nat.le_of_succ_le hleft, fun _ _ => hleft⟩
      exact (Array.size_push i).trans (congrArg (·.size + 1) hu.heap)
    · exact ⟨congrArg Heap.size hu.heap, Nat.zero_le _, Nat.le_of_succ_le hleft,
        fun _ h => by cases h⟩

lemma pays_store (n : NodeId) (index : Nat) (v : FieldValue) (c : Nat) :
    Pays c c (store n index v) := by
  intro u
  have hu := Unmarshalling.stores_store n index v u
  have hremaining : (u.run (Unmarshalling.store n index v)).2.input.remaining =
      u.input.remaining := congrArg Input.remaining hu.input
  exact .of_eq_zero rfl rfl rfl hu.size hremaining.le fun _ _ =>
    (Nat.add_comm c _).trans_le (Nat.add_le_add_right hremaining.le c)

lemma pays_many (hp : Pays 0 0 p) (n : Nat) : Pays 0 0 (many p n) := by
  induction n with
  | zero => exact .pure 0 []
  | succ n ih => exact .bind hp fun _ => .bind ih fun _ => .pure 0 _

section

variable {read : Logging (Option NodeId)} (hr : Pays 0 1 read)
include hr

lemma pays_field (kind : FieldKind) : Pays 0 1 (field read kind) := by
  induction kind with
  | scalar kind =>
    exact .bind (.lift 0 (Unmarshalling.scans_stream (Reading.takes_scalar kind))) fun _ =>
      .pure 1 _
  | string =>
    have hstring : Reading.string.Takes 1 := Reading.takes_string.mono (by decide)
    exact .bind (.lift 0 (Unmarshalling.scans_stream hstring)) fun _ => .pure 1 _
  | value declared =>
    exact .bind hr fun n => .bind (.lift 1 (Unmarshalling.scans_assignable declared n)) fun _ =>
      .pure 1 _
  | sequence element ih =>
    refine .bind (.lift 0 (Unmarshalling.scans_sequenceLength.mono (l := 1) (by decide)))
      fun count => ?_
    -- Each element pays for itself; the length pays for the sequence as an element.
    exact .bind ((pays_many ih.element count).frame 1) fun _ => .pure 1 _

lemma pays_fill (n : NodeId) (index : Nat) (fs : List Field) :
    Pays 0 0 (fill read n index fs) := by
  induction fs generalizing index with
  | nil => exact .pure 0 ()
  | cons f fs ih =>
    exact .bind ((pays_field hr f.kind).mono (Nat.zero_le 1)) fun v =>
      .bind (pays_store n index v 0) fun _ => ih _

end

lemma pays_valueAt (levels : Nat) : Pays 0 1 (valueAt levels) := by
  induction levels with
  | zero =>
    refine .bind (pays_start 0) fun s => ?_
    cases s with
    | null => exact (Pays.pure 4 none).mono (by decide)
    | shared n => exact (Pays.pure 4 (some n)).mono (by decide)
    | fresh origin tag =>
      exact (Pays.lift (E := fun _ => True) 4 (.bind (k := 0) .get fun _ => .throw 0 trivial)).mono
        (by decide)
  | succ levels ih =>
    refine .bind (pays_start 0) fun s => ?_
    cases s with
    | null => exact (Pays.pure 4 none).mono (by decide)
    | shared n => exact (Pays.pure 4 (some n)).mono (by decide)
    | fresh origin tag =>
      exact .bind (pays_fresh origin tag) fun made =>
        .bind ((pays_fill ih made.1 0 made.2).frame 1) fun _ => .pure 1 _

end Logging

namespace Counting

open Unmarshalling (Scans)

variable {α β : Type} {d b k l depth : Nat} {p : Counting Unmarshaller α} {w : Unmarshalling α}
  {f : α → Counting Unmarshaller β} {g : α → Unmarshalling β}

/-- With `depth` on the counter and under the limit `d`, `p` comes to an end from `u`, where `w`
comes to. On the way it has passed `k` octets or more unless it failed. -/
structure Ended (d k depth : Nat) (p : Counting Unmarshaller α) (w : Unmarshalling α)
    (u : Unmarshaller) : Prop where
  run : p.run u depth = some (outcome w u depth)
  limit : (u.run w).2.limit = d
  remaining_le : (u.run w).2.input.remaining ≤ u.input.remaining
  takes : ∀ a, (u.run w).1 = .ok a → k + (u.run w).2.input.remaining ≤ u.input.remaining

def Ends (d b k depth : Nat) (p : Counting Unmarshaller α) (w : Unmarshalling α) : Prop :=
  ∀ u : Unmarshaller, u.limit = d → u.input.remaining < b → Ended d k depth p w u

lemma Ends.of_counts (hp : Counts Unmarshaller.limit d depth p w)
    (hle : ∀ u : Unmarshaller, (u.run w).2.input.remaining ≤ u.input.remaining)
    (ht : ∀ (u : Unmarshaller) a, (u.run w).1 = .ok a →
      k + (u.run w).2.input.remaining ≤ u.input.remaining) : Ends d b k depth p w :=
  fun u hu _ => ⟨(hp u hu).1, (hp u hu).2, hle u, ht u⟩

lemma Ends.of_scans {E : MarshalError → Prop} (hp : Counts Unmarshaller.limit d depth p w)
    (hw : Scans E k w) : Ends d b k depth p w :=
  .of_counts hp (fun u => (hw u).remaining_le) fun u => (hw u).takes

lemma Ends.pure (a : α) : Ends d b 0 depth (pure a) (pure a) :=
  .of_scans (E := fun _ => True) (.pure a) (.pure a)

lemma Ends.mono (hp : Ends d b k depth p w) (hl : l ≤ k) : Ends d b l depth p w :=
  fun u hu hb => { hp u hu hb with
    takes := fun a ha => (Nat.add_le_add_right hl _).trans ((hp u hu hb).takes a ha) }

lemma run_bind_of_ok {u u' : Unmarshaller} {a : α} {depth' : Nat}
    (h : p.run u depth = some (.ok a, u', depth')) :
    (p >>= f).run u depth = (f a).run u' depth' := by
  have hbind : (p >>= f).run u depth = (p.run u depth).bind fun x =>
      StateT.run (ExceptT.bindCont f x.1) x.2 := rfl
  rw [hbind, h]
  rfl

lemma run_bind_of_error {u u' : Unmarshaller} {e : MarshalError} {depth' : Nat}
    (h : p.run u depth = some (.error e, u', depth')) :
    (p >>= f).run u depth = some (.error e, u', depth') := by
  have hbind : (p >>= f).run u depth = (p.run u depth).bind fun x =>
      StateT.run (ExceptT.bindCont f x.1) x.2 := rfl
  rw [hbind, h]
  rfl

lemma Ends.bind (hp : Ends d (b + k) k depth p w) (hf : ∀ a, Ends d b l depth (f a) (g a)) :
    Ends d (b + k) l depth (p >>= f) (w >>= g) := by
  intro u hu hb
  obtain ⟨hrun, hlimit, hle, htakes⟩ := hp u hu hb
  have hout : outcome w u depth = ((u.run w).1, (u.run w).2, depth) := rfl
  have hout' : outcome (w >>= g) u depth =
      ((u.run (w >>= g)).1, (u.run (w >>= g)).2, depth) := rfl
  rw [hout] at hrun
  rcases hw : u.run w with ⟨e | a, u'⟩
  · rw [hw] at hrun hlimit hle
    have hbind := Unmarshaller.run_bind_of_error (f := g) hw
    refine ⟨?_, ?_, ?_, fun _ h => ?_⟩
    · rw [hout', hbind]
      exact run_bind_of_error hrun
    · rwa [hbind]
    · rwa [hbind]
    · rw [hbind] at h
      cases h
  · rw [hw] at hrun hlimit hle htakes
    have hbind := Unmarshaller.run_bind_of_ok (f := g) hw
    have ha : k + u'.input.remaining ≤ u.input.remaining := htakes a rfl
    obtain ⟨hrun', hlimit', hle', htakes'⟩ := hf a u' hlimit (by omega)
    refine ⟨?_, ?_, ?_, fun c hc => ?_⟩
    · rw [hout', hbind, run_bind_of_ok hrun]
      exact hrun'
    · rwa [hbind]
    · rw [hbind]
      exact hle'.trans hle
    · rw [hbind] at hc ⊢
      exact (htakes' c hc).trans hle

lemma Ends.andThen (hp : Ends d b 0 depth p w) (hf : ∀ a, Ends d b l depth (f a) (g a)) :
    Ends d b l depth (p >>= f) (w >>= g) :=
  .bind (k := 0) hp hf

lemma Ends.nested (hp : Ends d b k (depth + 1) p w) : Ends d b k depth (nested p) w := by
  intro u hu hb
  have hend := hp u hu hb
  have hbind : (Counting.nested p).run u depth = (p.run u (depth + 1)).bind fun x =>
      some (x.1, x.2.1, x.2.2 - 1) := rfl
  refine { hend with run := ?_ }
  rw [hbind, hend.run]
  rfl

lemma Ends.check_below (hd : depth < d) {f : Unit → Counting Unmarshaller α}
    (hf : Ends d b k depth (f ()) w) :
    Ends d b k depth (checkDepth Unmarshaller.limit >>= f) w := by
  intro u hu hb
  have hend := hf u hu hb
  refine { hend with run := ?_ }
  rw [run_checkDepth_bind, hu, if_neg (Nat.not_le.2 hd)]
  exact hend.run

lemma ends_store (n : NodeId) (index : Nat) (v : FieldValue) :
    Ends d b 0 depth (lift (Unmarshalling.store n index v)) (Unmarshalling.store n index v) := by
  have hle (u : Unmarshaller) :
      (u.run (Unmarshalling.store n index v)).2.input.remaining ≤ u.input.remaining :=
    (congrArg Input.remaining (Unmarshalling.stores_store n index v u).input).le
  exact .of_counts (keeps_store n index v).counts hle fun u _ _ => (Nat.zero_add _).trans_le (hle u)

lemma ends_fresh (origin : Nat) (tag : UInt32) :
    Ends d b 5 depth (lift (Unmarshalling.fresh origin tag)) (Unmarshalling.fresh origin tag) :=
  .of_counts (keeps_made origin tag).counts
    (fun u => (Unmarshalling.fresh_takes origin tag u).1)
    (fun u => (Unmarshalling.fresh_takes origin tag u).2)

lemma ends_many (hp : Ends d b 0 depth p w) (count : Nat) :
    Ends d b 0 depth (many p count) (Unmarshalling.many w count) := by
  induction count with
  | zero => exact .pure []
  | succ count ih => exact .andThen hp fun _ => .andThen ih fun _ => .pure _

section

variable {read : Counting Unmarshaller (Option NodeId)}
  {read' : Unmarshalling (Option NodeId)} (hr : Ends d b 0 depth read read')
include hr

lemma ends_getField (kind : FieldKind) :
    Ends d b 0 depth (getField read kind) (Unmarshalling.field read' kind) := by
  induction kind with
  | scalar kind =>
    exact .andThen (.of_scans (keeps_stream _).counts
      ((Unmarshalling.scans_stream (Reading.takes_scalar kind)).mono (Nat.zero_le _))) fun _ =>
        .pure _
  | string =>
    exact .andThen (.of_scans (keeps_stream _).counts
      ((Unmarshalling.scans_stream Reading.takes_string).mono (Nat.zero_le _))) fun _ => .pure _
  | value declared =>
    exact .andThen hr fun n => .andThen (.of_scans (keeps_assignable declared n).counts
      (Unmarshalling.scans_assignable declared n)) fun _ => .pure _
  | sequence element ih =>
    exact .andThen (.of_scans keeps_sequenceLength.counts
      (Unmarshalling.scans_sequenceLength.mono (Nat.zero_le _))) fun count =>
        .andThen (ends_many ih count) fun _ => .pure _

lemma ends_getFields (n : NodeId) (index : Nat) (fs : List Field) :
    Ends d b 0 depth (getFields read n index fs) (Unmarshalling.fill read' n index fs) := by
  induction fs generalizing index with
  | nil => exact .pure ()
  | cons f fs ih =>
    exact .andThen (ends_getField hr f.kind) fun v => .andThen (ends_store n index v) fun _ => ih _

end

lemma ends_readValue (calls : Nat) :
    Ends d (8 * calls) 0 depth (readValue calls) (Unmarshalling.valueAt (d - depth)) := by
  induction calls generalizing depth with
  | zero => exact fun u _ hb => absurd hb (Nat.not_lt_zero _)
  | succ calls ih =>
    -- What is nested has the tag behind it and at least four octets of the type id.
    change Ends d (8 * calls + 4 + 4) 0 depth _ _
    by_cases hd : depth < d
    · obtain ⟨levels, hl⟩ : ∃ levels, d - depth = levels + 1 := ⟨d - depth - 1, by omega⟩
      have hnested : d - (depth + 1) = levels := by omega
      rw [hl, readValue, Unmarshalling.valueAt]
      refine .bind (.of_scans keeps_start.counts Unmarshalling.scans_start) fun start => ?_
      cases start with
      | null => exact .pure none
      | shared n => exact .pure (some n)
      | fresh origin tag =>
        refine .check_below hd (.bind ((ends_fresh origin tag).mono (by decide)) fun made => ?_)
        refine .andThen (.nested ?_) fun _ => .pure _
        exact ends_getFields (hnested ▸ ih) made.1 0 made.2
    · rw [Nat.sub_eq_zero_of_le (Nat.not_lt.1 hd), readValue, Unmarshalling.valueAt]
      refine .bind (.of_scans keeps_start.counts Unmarshalling.scans_start) fun start => ?_
      cases start with
      | null => exact .pure none
      | shared n => exact .pure (some n)
      | fresh origin tag =>
        exact .of_scans (E := fun _ => True) (.check_at (Nat.not_lt.1 hd) _)
          (.bind (k := 0) (l := 0) .get fun _ => .throw 0 trivial)

end Counting

/-- Reading a value comes to an end, whatever the limit is: there are never more calls inside of one
another than one and another one for every eight octets that are left. By then, whether it failed or
not, it has made an instance for every eight octets at most, and an element of a sequence for every
octet at most. -/
theorem Logging.value_bounded (u : Unmarshaller) :
    let n := u.input.remaining
    let l := value.run u
    (l.result, l.reader) = u.run Unmarshalling.value ∧
    (∀ more, (Counting.readValue (n / 8 + 1 + more)).run u 0 = some (l.result, l.reader, 0)) ∧
    l.reader.heap.size = u.heap.size + l.made ∧
    l.made ≤ l.asked ∧
    l.asked ≤ n / 8 ∧
    l.elements ≤ n := by
  intro n l
  obtain ⟨hsize, hmade, hspent, -⟩ : Paid 0 1 u l := pays_valueAt u.limit u
  have hcost : 8 * l.asked + l.elements ≤ n := (Nat.le_add_right _ _).trans hspent
  refine ⟨tells_value u, fun more => ?_, hsize, hmade, by omega, by omega⟩
  have hend : Counting.Ended u.limit 0 0 _ _ u :=
    Counting.ends_readValue (n / 8 + 1 + more) u rfl (by omega)
  have htells : (l.result, l.reader) = u.run (Unmarshalling.valueAt u.limit) :=
    tells_valueAt u.limit u
  rw [hend.run, Nat.sub_zero]
  exact congrArg (fun x => some (x.1, x.2, 0)) htells.symm

end ObjectBroker
