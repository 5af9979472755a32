import Mathlib.Algebra.Group.Nat.Defs
import ObjectBroker.Proofs.Text.Utf8
import ObjectBroker.Stream.Input

/-! Reading back what was written. A reading recovers a value from one output to another when it
passes exactly the octets between them, whatever follows. -/

namespace ObjectBroker

lemma stateful_bind {σ ε α β : Type} (x : ExceptT ε (StateM σ) α)
    (f : α → ExceptT ε (StateM σ) β) (s : σ) :
    StateT.run (ExceptT.run (x >>= f)) s =
      match StateT.run (ExceptT.run x) s with
      | (.ok a, t) => StateT.run (ExceptT.run (f a)) t
      | (.error e, t) => (.error e, t) := by
  rw [ExceptT.run_bind, StateT.run_bind]
  change (match StateT.run (ExceptT.run x) s with | (y, t) => _) = _
  rcases StateT.run (ExceptT.run x) s with ⟨a | e, t⟩ <;> rfl

namespace ByteOrder

lemma value_digits (width n : Nat) : value (digits width n) = n % 256 ^ width := by
  induction width generalizing n with
  | zero => simp [digits, value, Nat.mod_one]
  | succ width ih =>
    have hp : 256 ^ (width + 1) = 256 * 256 ^ width := Nat.pow_succ'
    simp only [digits, value, ih, UInt8.toNat_ofNat', hp, Nat.mod_mul]

lemma ofWord_word (order : ByteOrder) (width n : Nat) :
    order.ofWord (order.word width n) = n % 256 ^ width := by
  simp [ofWord, word, value_digits]

end ByteOrder

namespace Output

def input (o : Output) (rest : Octets) : Input :=
  { order := o.order, position := o.position, rest }

def inBody (o : Output) (body : Octets) : Input :=
  o.input (body.drop o.length)

@[simp] lemma append_nil (o : Output) : o.append [] = o := by
  simp [append]

@[simp] lemma append_append (o : Output) (x y : Octets) :
    (o.append x).append y = o.append (x ++ y) := by
  have h : o.buffer ++ x ++ y = o.buffer ++ (x ++ y) := Array.ext' (by simp)
  simp only [append, h]

lemma octets_start_append (order : ByteOrder) (origin : Nat) (x : Octets) :
    (append { order, origin } x).octets = x := by
  rw [append_octets]
  exact List.nil_append x

lemma align_one (o : Output) : o.align 1 = o := by
  simp [align, padding]

lemma putWord_one (o : Output) (n : Nat) : o.putWord 1 n = o.append [UInt8.ofNat n] := by
  rw [putWord, align_one]
  cases o.order <;> rfl

lemma align_eq_self (o : Output) (n : Nat) (h : n ∣ o.position) : o.align n = o := by
  have hp : padding o.position n = 0 := by
    simp [padding, Nat.mod_eq_zero_of_dvd h]
  simp [align, hp]

lemma dvd_position_align (o : Output) (n : Nat) (h : n ≠ 0) : n ∣ (o.align n).position := by
  rw [align, position_append, List.length_replicate]
  exact (dvd_add_padding o.position n).resolve_right h

lemma align_align (o : Output) (n : Nat) : (o.align n).align n = o.align n := by
  by_cases h : n = 0
  · simp [align, padding, h]
  · exact align_eq_self _ n (dvd_position_align o n h)

lemma putWord_align (o : Output) (width n : Nat) :
    (o.align width).putWord width n = o.putWord width n := by
  rw [putWord, align_align]
  rfl

lemma dvd_position_putWord (o : Output) (width n : Nat) (h : width ≠ 0) :
    width ∣ (o.putWord width n).position := by
  rw [putWord, position_append, ByteOrder.length_word]
  exact Nat.dvd_add (dvd_position_align o width h) (Nat.dvd_refl width)

lemma length_le_align (o : Output) (n : Nat) : o.length ≤ (o.align n).length := by
  simp [align]

lemma length_le_putWord (o : Output) (width n : Nat) :
    o.length + width ≤ (o.putWord width n).length := by
  have h := o.length_le_align width
  rw [putWord, length_append, ByteOrder.length_word]
  omega

lemma length_le_putOctets (o : Output) (x : Octets) :
    o.length + 4 + x.length ≤ (o.putOctets x).length := by
  have h := o.length_le_putWord 4 x.length
  rw [putOctets, length_append]
  omega

lemma length_le_putString (o : Output) (text : String) :
    o.length + 5 + (Utf8.encode text).length ≤ (o.putString text).length := by
  have h := o.length_le_putWord 4 ((Utf8.encode text).length + 1)
  rw [putString, length_append, List.length_append, List.length_singleton]
  omega

lemma length_align_le (o : Output) (n : Nat) : (o.align n).length ≤ o.length + (n - 1) := by
  have hpadding : padding o.position n ≤ n - 1 := by
    by_cases hn : 1 < n
    · have hlt := padding_lt o.position n hn
      omega
    · rw [padding, if_pos (Nat.le_of_not_lt hn)]
      exact Nat.zero_le _
  rw [align, length_append, List.length_replicate]
  omega

lemma length_putWord_le (o : Output) (width n : Nat) :
    (o.putWord width n).length ≤ o.length + (width - 1) + width := by
  have halign := o.length_align_le width
  rw [putWord, length_append, ByteOrder.length_word]
  omega

lemma length_putOctets_le (o : Output) (x : Octets) :
    (o.putOctets x).length ≤ o.length + 7 + x.length := by
  have hword := o.length_putWord_le 4 x.length
  rw [putOctets, length_append]
  omega

lemma length_putString_le (o : Output) (text : String) :
    (o.putString text).length ≤ o.length + 8 + (Utf8.encode text).length := by
  have hword := o.length_putWord_le 4 ((Utf8.encode text).length + 1)
  rw [putString, length_append, List.length_append, List.length_singleton]
  omega

def Extends (o o' : Output) : Prop :=
  ∃ x, o' = o.append x

namespace Extends

lemma refl (o : Output) : o.Extends o := ⟨[], o.append_nil.symm⟩

lemma order_eq {o o' : Output} (h : o.Extends o') : o'.order = o.order := by
  obtain ⟨octets, rfl⟩ := h
  exact o.append_order octets

lemma trans {o o' o'' : Output} (h : o.Extends o') (h' : o'.Extends o'') : o.Extends o'' := by
  obtain ⟨x, rfl⟩ := h
  obtain ⟨y, rfl⟩ := h'
  exact ⟨x ++ y, o.append_append x y⟩

lemma octets_initial {o o' : Output} (h : o.Extends o') : o.octets <+: o'.octets := by
  obtain ⟨x, rfl⟩ := h
  exact ⟨x, (o.append_octets x).symm⟩

lemma length_le {o o' : Output} (h : o.Extends o') : o.length ≤ o'.length := by
  obtain ⟨x, rfl⟩ := h
  simp

lemma position_le {o o' : Output} (h : o.Extends o') : o.position ≤ o'.position := by
  obtain ⟨x, rfl⟩ := h
  simp

lemma position_lt {o o' : Output} (h : o.Extends o') (hl : o.length < o'.length) :
    o.position < o'.position := by
  obtain ⟨x, rfl⟩ := h
  rw [length_append] at hl
  rw [position_append]
  omega

end Extends

lemma extends_append (o : Output) (x : Octets) : o.Extends (o.append x) := ⟨x, rfl⟩

lemma extends_align (o : Output) (n : Nat) : o.Extends (o.align n) := ⟨_, rfl⟩

lemma extends_putWord (o : Output) (width n : Nat) : o.Extends (o.putWord width n) :=
  (o.extends_align width).trans (extends_append _ _)

lemma extends_putOctets (o : Output) (x : Octets) : o.Extends (o.putOctets x) :=
  (o.extends_putWord 4 _).trans (extends_append _ x)

lemma extends_putString (o : Output) (text : String) : o.Extends (o.putString text) :=
  (o.extends_putWord 4 _).trans (extends_append _ _)

lemma extends_foldl {α : Type} {put : Output → α → Output}
    (h : ∀ (o : Output) (a : α), o.Extends (put o a)) (as : List α) (o : Output) :
    o.Extends (as.foldl put o) := by
  induction as generalizing o with
  | nil => exact .refl o
  | cons a as ih => exact (h o a).trans (ih (put o a))

end Output

lemma Input.encapsulation_append (order : ByteOrder) (x : Octets) :
    Input.encapsulation ((Output.encapsulation order).append x).octets =
      .ok ((Output.encapsulation order).input x) := by
  have hx : ((Output.encapsulation order).append x).octets = order.flag :: x := by
    rw [Output.append_octets]
    rfl
  rw [hx, Input.encapsulation, ByteOrder.ofFlag?_flag]
  rfl

namespace Reading

variable {ε ε' α β : Type}

lemma run_bind (r : Reading ε α) (f : α → Reading ε β) (i : Input) :
    Reading.run (r >>= f) i =
      match r.run i with
      | (.ok a, j) => (f a).run j
      | (.error e, j) => (.error e, j) := by
  rw [show Reading.run (r >>= f) i = _ from stateful_bind r f i]
  rcases h : r.run i with ⟨e | a, j⟩
  · rw [show StateT.run (ExceptT.run r) i = _ from h]
  · rw [show StateT.run (ExceptT.run r) i = _ from h]
    rfl

lemma run_adapt (r : Reading ε α) (f : ε → ε') (i : Input) :
    Reading.run (ExceptT.adapt f r) i = ((r.run i).1.mapError f, (r.run i).2) := rfl

def Recovers (r : Reading ε α) (o o' : Output) (a : α) : Prop :=
  ∃ octets, o' = o.append octets ∧ ∀ rest, r.run (o.input (octets ++ rest)) = (.ok a, o'.input rest)

namespace Recovers

lemma run_octets {r : Reading ε α} {order : ByteOrder} {origin : Nat} {written : Output} {a : α}
    (h : Recovers r { order, origin } written a) (rest : Octets) :
    r.run { order, position := origin, rest := written.octets ++ rest } =
      (.ok a, { order, position := written.position, rest }) := by
  obtain ⟨octets, rfl, hrun⟩ := h
  rw [Output.octets_start_append]
  exact hrun rest

lemma pure (o : Output) (a : α) : Recovers (Pure.pure a : Reading ε α) o o a :=
  ⟨[], o.append_nil.symm, fun _ => rfl⟩

lemma bind {r : Reading ε α} {f : α → Reading ε β} {o o' o'' : Output} {a : α} {b : β}
    (h : Recovers r o o' a) (hf : Recovers (f a) o' o'' b) : Recovers (r >>= f) o o'' b := by
  obtain ⟨x, rfl, hx⟩ := h
  obtain ⟨y, rfl, hy⟩ := hf
  refine ⟨x ++ y, o.append_append x y, fun rest => ?_⟩
  rw [List.append_assoc, run_bind, hx]
  exact hy rest

lemma map {r : Reading ε α} {o o' : Output} {a : α} (f : α → β) (h : Recovers r o o' a) :
    Recovers (f <$> r) o o' (f a) := by
  rw [← bind_pure_comp]
  exact h.bind (.pure o' (f a))

lemma adapt {r : Reading ε α} {o o' : Output} {a : α} (f : ε → ε') (h : Recovers r o o' a) :
    Recovers (ExceptT.adapt f r) o o' a := by
  obtain ⟨x, rfl, hx⟩ := h
  refine ⟨x, rfl, fun rest => ?_⟩
  rw [run_adapt, hx]
  rfl

lemma extends_output {r : Reading ε α} {o o' : Output} {a : α} (h : Recovers r o o' a) :
    o.Extends o' := by
  obtain ⟨x, hx, -⟩ := h
  exact ⟨x, hx⟩

lemma run_inBody {r : Reading ε α} {o o' : Output} {a : α} (h : Recovers r o o' a) {body : Octets}
    (hp : o'.octets <+: body) : r.run (o.inBody body) = (.ok a, o'.inBody body) := by
  obtain ⟨x, rfl, hx⟩ := h
  obtain ⟨rest, rfl⟩ := hp
  have hd : ((o.append x).octets ++ rest).drop o.length = x ++ rest := by
    rw [Output.append_octets, List.append_assoc, ← o.length_octets, List.drop_left]
  have hd' : ((o.append x).octets ++ rest).drop (o.append x).length = rest := by
    rw [← (o.append x).length_octets, List.drop_left]
  rw [Output.inBody, Output.inBody, hd, hd', hx]

end Recovers

lemma run_peek (front rest : Octets) (i : Input) (h : i.rest = front ++ rest) :
    (peek front.length).run i = (.ok front, i) := by
  rw [peek, run_bind, show Reading.run get i = (.ok i, i) from rfl]
  dsimp only
  rw [h, Octets.split?_append]
  rfl

lemma run_raw (o : Output) (x rest : Octets) :
    (raw x.length).run (o.input (x ++ rest)) = (.ok x, (o.append x).input rest) := by
  rw [raw, run_bind, run_peek x rest _ rfl]
  change (Except.ok x, _) = _
  simp [Output.input]

lemma recovers_raw (o : Output) (x : Octets) : (raw x.length).Recovers o (o.append x) x :=
  ⟨x, rfl, run_raw o x⟩

lemma recovers_align (o : Output) (n : Nat) : (align n).Recovers o (o.align n) () := by
  obtain ⟨x, hx, hr⟩ := recovers_raw o (List.replicate (padding o.position n) 0)
  rw [List.length_replicate] at hr
  refine ⟨x, hx, fun rest => ?_⟩
  change (raw (padding o.position n) >>= fun _ => pure ()).run (o.input (x ++ rest)) = _
  rw [run_bind, hr]
  rfl

lemma Recovers.ofWord {o o' : Output} {x : Octets} {n : Nat} {f : Nat → α}
    (h : (raw n).Recovers o o' x) :
    Recovers (do let x ← raw n; return f ((← get).order.ofWord x)) o o' (f (o.order.ofWord x)) := by
  obtain ⟨y, rfl, hy⟩ := h
  refine ⟨y, rfl, fun rest => ?_⟩
  rw [run_bind, hy]
  rfl

lemma recovers_word_mod (o : Output) (width n : Nat) :
    (word width).Recovers o (o.putWord width n) (n % 256 ^ width) := by
  refine (recovers_align o width).bind ?_
  have hr := recovers_raw (o.align width) (o.order.word width n)
  rw [ByteOrder.length_word] at hr
  have hf := hr.ofWord (f := id)
  change Recovers _ _ _ (o.order.ofWord (o.order.word width n)) at hf
  rwa [ByteOrder.ofWord_word] at hf

lemma recovers_word (o : Output) (width n : Nat) (h : n < 256 ^ width) :
    (word width).Recovers o (o.putWord width n) n := by
  have hmod := recovers_word_mod o width n
  rwa [Nat.mod_eq_of_lt h] at hmod

lemma run_peekWord (o : Output) {width n : Nat} (h : n < 256 ^ width) {body : Octets}
    (hp : (o.putWord width n).octets <+: body) :
    (peekWord width).run (o.inBody body) = (.ok n, (o.align width).inBody body) := by
  have hw : o.order.ofWord (o.order.word width n) = n := by
    rw [ByteOrder.ofWord_word, Nat.mod_eq_of_lt h]
  have ha : (o.align width).octets <+: body := by
    refine List.IsPrefix.trans ?_ hp
    rw [Output.putWord, Output.append_octets]
    exact List.prefix_append _ _
  obtain ⟨rest, rfl⟩ := hp
  rw [peekWord, run_bind, (recovers_align o width).run_inBody ha]
  have hd : ((o.align width).inBody ((o.putWord width n).octets ++ rest)).rest =
      o.order.word width n ++ rest := by
    rw [Output.putWord, Output.append_octets, List.append_assoc, Output.inBody, Output.input,
      ← Output.length_octets, List.drop_left]
  dsimp only
  rw [run_bind]
  have hk := run_peek _ _ _ hd
  rw [ByteOrder.length_word] at hk
  rw [hk]
  exact congrArg (fun k => (Except.ok k, _)) hw

lemma recovers_uint32 (o : Output) (n : UInt32) : uint32.Recovers o (o.putUInt32 n) n := by
  have h := (recovers_word o 4 n.toNat n.toNat_lt).map UInt32.ofNat
  rwa [UInt32.ofNat_toNat] at h

lemma recovers_uint16 (o : Output) (n : UInt16) : uint16.Recovers o (o.putUInt16 n) n := by
  have h := (recovers_word o 2 n.toNat n.toNat_lt).map UInt16.ofNat
  rwa [UInt16.ofNat_toNat] at h

lemma recovers_octet (o : Output) (b : UInt8) : octet.Recovers o (o.append [b]) b := by
  have h := (recovers_word o 1 b.toNat b.toNat_lt).map UInt8.ofNat
  rwa [UInt8.ofNat_toNat, Output.putWord_one, UInt8.ofNat_toNat] at h

lemma Scalar.bits_lt (s : Scalar) : s.bits < 256 ^ s.kind.width := by
  cases s with
  | boolean b => cases b <;> decide
  | octet v => exact v.toNat_lt
  | int16 v => exact v.toUInt16.toNat_lt
  | uint16 v => exact v.toNat_lt
  | int32 v => exact v.toUInt32.toNat_lt
  | uint32 v => exact v.toNat_lt
  | int64 v => exact v.toUInt64.toNat_lt
  | uint64 v => exact v.toNat_lt
  | float32 p => exact p.toNat_lt
  | float64 p => exact p.toNat_lt

lemma recovers_scalar (o : Output) (s : Scalar) :
    (scalar s.kind).Recovers o (o.putScalar s) s := by
  refine (recovers_word o s.kind.width s.bits (Scalar.bits_lt s)).bind ?_
  rw [Scalar.ofBits?_bits]
  exact .pure _ s

lemma recovers_octets (o : Output) (x : Octets) (h : x.length < 2 ^ 32) :
    octets.Recovers o (o.putOctets x) x :=
  (recovers_word o 4 x.length h).bind (recovers_raw _ x)

lemma recovers_string (o : Output) (text : String) (h : (Utf8.encode text).length + 1 < 2 ^ 32) :
    string.Recovers o (o.putString text) text := by
  have hx : (Utf8.encode text ++ [0]).length = (Utf8.encode text).length + 1 := List.length_append
  refine (recovers_word o 4 _ h).bind ?_
  refine ⟨Utf8.encode text ++ [0], rfl, fun rest => ?_⟩
  rw [if_neg (by omega), ← hx, run_bind, run_peek _ rest _ rfl]
  dsimp only
  rw [if_neg (by simp), List.dropLast_concat, Utf8.decode_encode]
  dsimp only
  rw [run_bind, run_raw, hx]
  rfl

lemma Recovers.many {r : Reading ε α} {put : Output → α → Output} (as : List α) (o : Output)
    (h : ∀ a ∈ as, ∀ o, r.Recovers o (put o a) a) :
    (many r as.length).Recovers o (as.foldl put o) as := by
  induction as generalizing o with
  | nil => exact .pure o []
  | cons a as ih =>
    have hs := ih (put o a) fun b hb => h b (List.mem_cons_of_mem a hb)
    exact (h a List.mem_cons_self o).bind (hs.bind (.pure _ (a :: as)))

def Finishes (r : Reading ε α) (o o' : Output) (a : α) : Prop :=
  ∃ octets, o' = o.append octets ∧ r.run (o.input octets) = (.ok a, o'.input [])

lemma Recovers.finishes {r : Reading ε α} {o o' : Output} {a : α} (h : Recovers r o o' a) :
    r.Finishes o o' a := by
  obtain ⟨x, hx, hr⟩ := h
  refine ⟨x, hx, ?_⟩
  rw [← hr, List.append_nil]

lemma Recovers.finish {r : Reading ε α} {f : α → Reading ε β} {o o' o'' : Output} {a : α} {b : β}
    (h : Recovers r o o' a) (hf : (f a).Finishes o' o'' b) : (r >>= f).Finishes o o'' b := by
  obtain ⟨x, rfl, hx⟩ := h
  obtain ⟨y, rfl, hy⟩ := hf
  refine ⟨x ++ y, o.append_append x y, ?_⟩
  rw [run_bind, hx]
  exact hy

lemma Finishes.bind_pure {r : Reading ε α} {o o' : Output} {a : α} (h : r.Finishes o o' a)
    (f : α → β) : (r >>= fun a => Pure.pure (f a)).Finishes o o' (f a) := by
  obtain ⟨x, rfl, hx⟩ := h
  refine ⟨x, rfl, ?_⟩
  rw [run_bind, hx]
  rfl

lemma Finishes.map {r : Reading ε α} {o o' : Output} {a : α} (f : α → β) (h : r.Finishes o o' a) :
    (f <$> r).Finishes o o' (f a) := by
  rw [← bind_pure_comp]
  exact h.bind_pure f

lemma Finishes.adapt {r : Reading ε α} {o o' : Output} {a : α} (f : ε → ε')
    (h : r.Finishes o o' a) : Finishes (ExceptT.adapt f r) o o' a := by
  obtain ⟨x, rfl, hx⟩ := h
  refine ⟨x, rfl, ?_⟩
  rw [run_adapt, hx]
  rfl

lemma finishes_rest (o : Output) (x : Octets) : rest.Finishes o (o.append x) x := by
  refine ⟨x, rfl, ?_⟩
  have hr := run_raw o x []
  rw [List.append_nil] at hr
  exact hr

end Reading

end ObjectBroker
