import Mathlib.Data.List.Forall2
import Mathlib.Data.Nat.ModEq
import ObjectBroker.Proofs.Stream.Position
import ObjectBroker.Stream.Item

/-! Streams that are moved by a multiple of eight. No alignment that divides eight can tell where
such a stream starts, so it holds the same octets and gives the same answers. -/

namespace ObjectBroker

lemma padding_add_mul (position k : Nat) {n : Nat} (hn : n ∣ 8) :
    padding (position + 8 * k) n = padding position n := by
  have hmod : (position + 8 * k) % n = position % n := by
    obtain ⟨c, hc⟩ := hn
    rw [hc, Nat.mul_assoc, Nat.add_mul_mod_self_left]
  rw [padding, padding, hmod]

lemma exists_move {a b : Nat} (h : a ≡ b [MOD 8]) :
    (∃ k, b = a + 8 * k) ∨ ∃ k, a = b + 8 * k := by
  have he : a % 8 = b % 8 := h
  rcases Nat.le_total a b with hle | hle
  · exact .inl ⟨(b - a) / 8, by omega⟩
  · exact .inr ⟨(a - b) / 8, by omega⟩

namespace Output

def moved (o : Output) (k : Nat) : Output :=
  { o with origin := o.origin + 8 * k }

lemma octets_moved (o : Output) (k : Nat) : (o.moved k).octets = o.octets := rfl

lemma position_moved (o : Output) (k : Nat) : (o.moved k).position = o.position + 8 * k := by
  simp only [position, moved, length]
  omega

lemma append_moved (o : Output) (k : Nat) (x : Octets) :
    (o.moved k).append x = (o.append x).moved k := rfl

lemma align_moved (o : Output) (k : Nat) {n : Nat} (hn : n ∣ 8) :
    (o.moved k).align n = (o.align n).moved k := by
  rw [align, position_moved, padding_add_mul _ _ hn]
  rfl

lemma putWord_moved (o : Output) (k : Nat) {width : Nat} (hw : width ∣ 8) (n : Nat) :
    (o.moved k).putWord width n = (o.putWord width n).moved k := by
  rw [putWord, align_moved o k hw]
  rfl

lemma putOctets_moved (o : Output) (k : Nat) (x : Octets) :
    (o.moved k).putOctets x = (o.putOctets x).moved k := by
  rw [putOctets, putWord_moved o k (by decide)]
  rfl

lemma putString_moved (o : Output) (k : Nat) (text : String) :
    (o.moved k).putString text = (o.putString text).moved k := by
  simp only [putString, putWord_moved o k (by decide : 4 ∣ 8)]
  rfl

lemma patch_moved (o : Output) (k offset : Nat) (n : UInt32) :
    (o.moved k).patch offset n = (o.patch offset n).moved k := by
  have hl : (o.moved k).length = o.length := rfl
  by_cases h : offset + 4 ≤ o.length
  · rw [patch, patch, hl, if_pos h, if_pos h]
    rfl
  · rw [patch, patch, hl, if_neg h, if_neg h]

end Output

namespace Item

lemma put_moved (item : Item) (h : ∀ n, item = .align n → n ∣ 8) (o : Output) (k : Nat) :
    item.put (o.moved k) = (item.put o).moved k := by
  cases item with
  | scalar s => exact o.putWord_moved k s.kind.width_dvd _
  | string text => exact o.putString_moved k text
  | octets data => exact o.putOctets_moved k data
  | raw data => exact o.append_moved k data
  | align n => exact o.align_moved k (h n rfl)
  | patch offset n => exact o.patch_moved k offset n
  | encapsulation items => exact o.putOctets_moved k _

lemma putAll_moved (items : List Item) (h : ∀ n, .align n ∈ items → n ∣ 8) (o : Output) (k : Nat) :
    putAll items (o.moved k) = (putAll items o).moved k := by
  induction items generalizing o with
  | nil => rfl
  | cons item items ih =>
    have hfirst : ∀ n, item = .align n → n ∣ 8 := fun n he => h n (he ▸ List.mem_cons_self)
    have hrest : ∀ n, .align n ∈ items → n ∣ 8 := fun n hm => h n (List.mem_cons_of_mem item hm)
    rw [putAll, put_moved item hfirst, ih hrest]
    rfl

lemma octets_putAll_congr (items : List Item) (h : ∀ n, .align n ∈ items → n ∣ 8)
    (order : ByteOrder) {a b : Nat} (hab : a ≡ b [MOD 8]) :
    (putAll items { order, origin := a }).octets =
      (putAll items { order, origin := b }).octets := by
  have hmove (origin k : Nat) : (putAll items { order, origin := origin + 8 * k }).octets =
      (putAll items { order, origin }).octets := by
    calc (putAll items (Output.moved { order, origin } k)).octets
        = ((putAll items { order, origin }).moved k).octets := by rw [putAll_moved items h]
      _ = (putAll items { order, origin }).octets := Output.octets_moved _ k
  rcases exists_move hab with ⟨k, rfl⟩ | ⟨k, rfl⟩
  · exact (hmove a k).symm
  · exact hmove b k

end Item

def Input.moved (i : Input) (k : Nat) : Input :=
  { i with position := i.position + 8 * k }

namespace Reading

variable {ε α β : Type}

def Movable (r : Reading ε α) : Prop :=
  ∀ i k, r.run (i.moved k) = ((r.run i).1, (r.run i).2.moved k)

namespace Movable

lemma pure (a : α) : Movable (pure a : Reading ε α) := fun _ _ => rfl

lemma throw (e : ε) : Movable (throw e : Reading ε α) := fun _ _ => rfl

lemma bind {r : Reading ε α} {f : α → Reading ε β} (hr : Movable r) (hf : ∀ a, Movable (f a)) :
    Movable (r >>= f) := by
  intro i k
  rw [run_bind, run_bind, hr i k]
  rcases r.run i with ⟨e | a, j⟩
  · rfl
  · exact hf a j k

lemma map {r : Reading ε α} (hr : Movable r) (f : α → β) : Movable (f <$> r) := by
  rw [← bind_pure_comp]
  exact hr.bind fun a => .pure (f a)

lemma get_bind {f : Input → Reading ε α} (hf : ∀ i, Movable (f i))
    (hk : ∀ i k, f (i.moved k) = f i) : Movable (get >>= f) := by
  intro i k
  change (f (i.moved k)).run (i.moved k) = ((f i).run i |>.1, ((f i).run i).2.moved k)
  rw [hk]
  exact hf i i k

lemma modify {f : Input → Input} (hf : ∀ i k, f (i.moved k) = (f i).moved k) :
    Movable (modify f : Reading ε Unit) :=
  fun i k => congrArg (Prod.mk (Except.ok ())) (hf i k)

lemma ite_throw {c : Prop} [Decidable c] {e : ε} {r : Reading ε α} (hr : Movable r) :
    Movable (if c then (MonadExcept.throw e : Reading ε PUnit) >>= fun _ => r else r) := by
  split
  · exact fun _ _ => rfl
  · exact hr

end Movable

lemma movable_peek (n : Nat) : Movable (peek n) := by
  refine .get_bind (fun i => ?_) fun _ _ => rfl
  cases Octets.split? n i.rest with
  | none => exact .throw _
  | some parts => exact .pure _

lemma movable_raw (n : Nat) : Movable (raw n) := by
  refine (movable_peek n).bind fun front => .bind (.modify fun i k => ?_) fun _ => .pure front
  simp only [Input.moved, Nat.add_right_comm]

lemma movable_align {n : Nat} (hn : n ∣ 8) : Movable (align n) := by
  refine .get_bind (fun i => (movable_raw _).bind fun _ => .pure ()) fun i k => ?_
  rw [show (i.moved k).position = i.position + 8 * k from rfl, padding_add_mul _ _ hn]

lemma movable_word {width : Nat} (hw : width ∣ 8) : Movable (word width) :=
  (movable_align hw).bind fun _ => (movable_raw width).bind fun x =>
    .get_bind (fun i => .pure (i.order.ofWord x)) fun _ _ => rfl

lemma movable_peekWord {width : Nat} (hw : width ∣ 8) : Movable (peekWord width) :=
  (movable_align hw).bind fun _ => (movable_peek width).bind fun x =>
    .get_bind (fun i => .pure (i.order.ofWord x)) fun _ _ => rfl

lemma movable_scalar (kind : ScalarKind) : Movable (scalar kind) := by
  refine (movable_word kind.width_dvd).bind fun bits => ?_
  cases kind.ofBits? bits with
  | none => exact .throw _
  | some s => exact .pure s

lemma movable_octets : Movable octets :=
  (movable_word (by decide)).bind fun n => movable_raw n

lemma movable_rest : Movable rest :=
  .get_bind (fun _ => movable_raw _) fun _ _ => rfl

lemma movable_string : Movable string := by
  refine (movable_word (by decide)).bind fun n => .ite_throw ?_
  refine (movable_peek n).bind fun x => .ite_throw ?_
  cases Utf8.decode x.dropLast with
  | error fault => exact .throw _
  | ok text => exact (movable_raw n).bind fun _ => .pure text

end Reading

namespace Query

open Reading

lemma run_moved (q : Query) (h : ∀ n, q = .align n → n ∣ 8) (i : Input) (k : Nat) :
    q.run (i.moved k) = ((q.run i).1, (q.run i).2.moved k) := by
  cases q with
  | scalar kind => exact (movable_scalar kind).map _ i k
  | peek => exact (movable_peekWord (by decide)).map _ i k
  | string => exact movable_string.map _ i k
  | octets => exact movable_octets.map _ i k
  | raw n => exact (movable_raw n).map _ i k
  | rest => exact movable_rest.map _ i k
  | align n => exact (movable_align (h n rfl)).map _ i k
  | encapsulation queries =>
    rw [Query.run, Query.run, movable_octets i k]
    rcases Reading.octets.run i with ⟨e | data, j⟩
    · rfl
    · dsimp only
      cases Input.encapsulation data <;> rfl

def movedResult (k : Nat) (x : Except StreamError Answer × Nat × Nat) :
    Except StreamError Answer × Nat × Nat :=
  (x.1, x.2.1 + 8 * k, x.2.2)

lemma runAll_moved (queries : List Query) (h : ∀ n, .align n ∈ queries → n ∣ 8) (i : Input)
    (k : Nat) :
    Query.runAll queries (i.moved k) =
      ((Query.runAll queries i).1.map (movedResult k), (Query.runAll queries i).2.moved k) := by
  induction queries generalizing i with
  | nil => rfl
  | cons q queries ih =>
    have hfirst : ∀ n, q = .align n → n ∣ 8 := fun n he => h n (he ▸ List.mem_cons_self)
    have hrest : ∀ n, .align n ∈ queries → n ∣ 8 := fun n hm => h n (List.mem_cons_of_mem q hm)
    rw [Query.runAll, run_moved q hfirst]
    dsimp only
    rw [ih hrest]
    rfl

/-- Runs from `a` and from `b` that answer alike at every step and stay as far apart. -/
structure Parallel (a b : Nat) (x y : List (Except StreamError Answer × Nat × Nat) × Input) :
    Prop where
  results : List.Forall₂ (fun s t => s.1 = t.1 ∧ s.2.1 + b = t.2.1 + a ∧ s.2.2 = t.2.2) x.1 y.1
  position : x.2.position + b = y.2.position + a
  rest : x.2.rest = y.2.rest

lemma Parallel.symm {a b : Nat} {x y : List (Except StreamError Answer × Nat × Nat) × Input}
    (h : Parallel a b x y) : Parallel b a y x where
  results := .flip (h.results.imp fun _ _ hs => ⟨hs.1.symm, hs.2.1.symm, hs.2.2.symm⟩)
  position := h.position.symm
  rest := h.rest.symm

lemma parallel_moved (a k : Nat) (x : List (Except StreamError Answer × Nat × Nat) × Input) :
    Parallel a (a + 8 * k) x (x.1.map (movedResult k), x.2.moved k) where
  results := by
    rw [List.forall₂_map_right_iff, List.forall₂_same]
    intro s _
    exact ⟨rfl, by simp only [movedResult]; omega, rfl⟩
  position := by
    simp only [Input.moved]
    omega
  rest := rfl

lemma parallel_runAll (queries : List Query) (h : ∀ n, .align n ∈ queries → n ∣ 8)
    (order : ByteOrder) (data : Octets) {a b : Nat} (hab : a ≡ b [MOD 8]) :
    Parallel a b (Query.runAll queries { order, position := a, rest := data })
      (Query.runAll queries { order, position := b, rest := data }) := by
  have hmove (position k : Nat) := parallel_moved position k
    (Query.runAll queries { order, position, rest := data })
  simp only [← runAll_moved queries h] at hmove
  rcases exists_move hab with ⟨k, rfl⟩ | ⟨k, rfl⟩
  · exact hmove a k
  · exact (hmove b k).symm

end Query

end ObjectBroker
