import ObjectBroker.Proofs.Stream.Recovery

/-! Writing what was read. An input is abreast of an output that stands at the same position in the
same order; reading something there and writing it keeps the two abreast, whatever was in the
padding. -/

namespace ObjectBroker

structure Input.Abreast (i : Input) (o : Output) (last : Nat) : Prop where
  order : i.order = o.order
  position : i.position = o.position
  last : i.position + i.remaining = last

lemma ScalarKind.kind_of_ofBits? {kind : ScalarKind} {bits : Nat} {s : Scalar}
    (h : kind.ofBits? bits = some s) : s.kind = kind := by
  cases kind with
  | boolean =>
    rw [ofBits?] at h
    split at h
    · cases h
      rfl
    · split at h
      · cases h
        rfl
      · cases h
  | _ =>
    cases h
    rfl

lemma ByteOrder.value_lt (x : Octets) : value x < 256 ^ x.length := by
  induction x with
  | nil => decide
  | cons b x ih =>
    have hb := b.toNat_lt
    rw [value, List.length_cons, Nat.pow_succ]
    omega

lemma ByteOrder.ofWord_lt (order : ByteOrder) (x : Octets) : order.ofWord x < 256 ^ x.length := by
  have h := value_lt (order.arrange x)
  rwa [length_arrange] at h

namespace Reading

variable {ε ε' α β : Type} {i j : Input} {o : Output} {last n : Nat}

lemma of_run_bind {r : Reading ε α} {f : α → Reading ε β} {b : β}
    (h : Reading.run (r >>= f) i = (.ok b, j)) :
    ∃ a k, r.run i = (.ok a, k) ∧ (f a).run k = (.ok b, j) := by
  rw [run_bind] at h
  rcases hr : r.run i with ⟨e | a, k⟩
  · rw [hr] at h
    cases h
  · rw [hr] at h
    exact ⟨a, k, rfl, h⟩

lemma of_run_adapt {r : Reading ε α} {f : ε → ε'} {a : α}
    (h : Reading.run (ExceptT.adapt f r) i = (.ok a, j)) : r.run i = (.ok a, j) := by
  rw [run_adapt] at h
  rcases hr : r.run i with ⟨e | b, k⟩
  · rw [hr] at h
    cases h
  · rw [hr] at h
    cases h
    rfl

lemma of_run_map {r : Reading ε α} {f : α → β} {b : β}
    (h : Reading.run (f <$> r) i = (.ok b, j)) : ∃ a, r.run i = (.ok a, j) ∧ f a = b := by
  rw [map_eq_pure_bind] at h
  obtain ⟨a, k, ha, hpure⟩ := of_run_bind h
  cases hpure
  exact ⟨a, ha, rfl⟩

lemma of_run_pure {a b : α} (h : Reading.run (pure a : Reading ε α) i = (.ok b, j)) :
    a = b ∧ i = j := by
  cases h
  exact ⟨rfl, rfl⟩

lemma of_run_ofExcept {x : Except ε α} {a : α} (h : (ofExcept x).run i = (.ok a, j)) :
    x = .ok a ∧ i = j := by
  cases x with
  | error e => cases h
  | ok b =>
    cases h
    exact ⟨rfl, rfl⟩

lemma of_run_peek {x : Octets} (h : (peek n).run i = (.ok x, j)) :
    x.length = n ∧ n ≤ i.remaining ∧ j = i := by
  obtain ⟨k, k', hget, h⟩ := of_run_bind h
  cases hget
  cases hs : Octets.split? n i.rest with
  | none =>
    rw [hs] at h
    cases h
  | some parts =>
    obtain ⟨front, back⟩ := parts
    rw [hs] at h
    obtain ⟨rfl, rfl⟩ := of_run_pure h
    have hlength := Octets.length_of_split? hs
    have happend := congrArg List.length (Octets.append_of_split? hs)
    rw [List.length_append] at happend
    refine ⟨hlength, ?_, rfl⟩
    rw [Input.remaining]
    omega

lemma of_run_raw {x : Octets} (h : (raw n).run i = (.ok x, j)) :
    x.length = n ∧ n ≤ i.remaining ∧
      j = { i with position := i.position + n, rest := i.rest.drop n } := by
  obtain ⟨y, k, hpeek, hrest⟩ := of_run_bind h
  obtain ⟨hlength, hle, rfl⟩ := of_run_peek hpeek
  cases hrest
  exact ⟨hlength, hle, rfl⟩

lemma lt_of_run_word {width : Nat} (h : (word width).run i = (.ok n, j)) : n < 256 ^ width := by
  obtain ⟨u, k, halign, hrest⟩ := of_run_bind h
  obtain ⟨x, k', hraw, hvalue⟩ := of_run_bind hrest
  cases hvalue
  have hlt := j.order.ofWord_lt x
  rwa [(of_run_raw hraw).1] at hlt

lemma length_lt_of_run_octets {x : Octets} (h : octets.run i = (.ok x, j)) :
    x.length < 2 ^ 32 := by
  obtain ⟨n, k, hword, hraw⟩ := of_run_bind h
  rw [(of_run_raw hraw).1]
  exact lt_of_run_word hword

lemma of_run_string {text : String} (h : string.run i = (.ok text, j)) :
    ∃ x k, (word 4).run i = (.ok ((Utf8.encode text).length + 1), k) ∧
      (raw ((Utf8.encode text).length + 1)).run k = (.ok x, j) := by
  obtain ⟨n, k, hword, hsize⟩ := of_run_bind h
  split at hsize
  · cases hsize
  · next hn =>
    obtain ⟨x, k', hpeek, hlast⟩ := of_run_bind hsize
    obtain ⟨hx, -, rfl⟩ := of_run_peek hpeek
    dsimp only at hlast
    split at hlast
    · cases hlast
    · cases hd : Utf8.decode x.dropLast with
      | error fault =>
        rw [hd] at hlast
        cases hlast
      | ok s =>
        rw [hd] at hlast
        obtain ⟨y, k, hraw, hpure⟩ := of_run_bind hlast
        obtain ⟨rfl, rfl⟩ := of_run_pure hpure
        have hlength : (Utf8.encode s).length + 1 = n := by
          rw [Utf8.encode_of_decode hd, List.length_dropLast, hx]
          omega
        rw [hlength]
        exact ⟨y, _, hword, hraw⟩

lemma length_lt_of_run_string {text : String} (h : string.run i = (.ok text, j)) :
    (Utf8.encode text).length + 1 < 2 ^ 32 := by
  obtain ⟨x, k, hword, -⟩ := of_run_string h
  exact lt_of_run_word hword

lemma of_run_many {r : Reading ε α} {xs : List α} (h : (many r n).run i = (.ok xs, j)) :
    ∀ x ∈ xs, ∃ i j, r.run i = (.ok x, j) := by
  induction n generalizing i xs with
  | zero =>
    obtain ⟨rfl, rfl⟩ := of_run_pure h
    exact fun x hx => absurd hx List.not_mem_nil
  | succ n ih =>
    obtain ⟨a, k, ha, hmany⟩ := of_run_bind h
    obtain ⟨as, k', has, hpure⟩ := of_run_bind hmany
    obtain ⟨rfl, rfl⟩ := of_run_pure hpure
    intro x hx
    rcases List.mem_cons.mp hx with rfl | hx
    · exact ⟨i, k, ha⟩
    · exact ih has x hx

end Reading

namespace Input.Abreast

open Reading

variable {ε α : Type} {i j : Input} {o : Output} {last n : Nat}

lemma encapsulation {data : Octets} (h : Input.encapsulation data = .ok i) :
    i.Abreast (.encapsulation i.order) data.length := by
  cases data with
  | nil => cases h
  | cons flag rest =>
    rw [Input.encapsulation] at h
    cases hflag : ByteOrder.ofFlag? flag with
    | none =>
      rw [hflag] at h
      cases h
    | some order =>
      rw [hflag] at h
      cases h
      exact ⟨rfl, rfl, Nat.add_comm _ _⟩

lemma position_le (h : i.Abreast o last) : o.position ≤ last := by
  have hp := h.position
  have hl := h.last
  omega

lemma raw (h : i.Abreast o last) {x : Octets} (hr : (raw n).run i = (.ok x, j)) {y : Octets}
    (hy : y.length = n) : j.Abreast (o.append y) last := by
  obtain ⟨-, hle, rfl⟩ := of_run_raw hr
  have hp := h.position
  have hl := h.last
  refine ⟨h.order, ?_, ?_⟩
  · rw [Output.position_append, hy, hp]
  · show i.position + n + (i.rest.drop n).length = last
    rw [remaining] at hl hle
    rw [List.length_drop]
    omega

lemma align (h : i.Abreast o last) {u : Unit} (hr : (align n).run i = (.ok u, j)) :
    j.Abreast (o.align n) last := by
  obtain ⟨k, k', hget, hrest⟩ := of_run_bind hr
  cases hget
  obtain ⟨x, k, hraw, hpure⟩ := of_run_bind hrest
  obtain ⟨-, rfl⟩ := of_run_pure hpure
  refine h.raw hraw ?_
  rw [List.length_replicate, h.position]

lemma word {width : Nat} (h : i.Abreast o last) (hr : (word width).run i = (.ok n, j)) (m : Nat) :
    j.Abreast (o.putWord width m) last := by
  obtain ⟨u, k, halign, hrest⟩ := of_run_bind hr
  obtain ⟨x, k', hraw, hvalue⟩ := of_run_bind hrest
  cases hvalue
  exact (h.align halign).raw hraw (ByteOrder.length_word _ _ _)

lemma uint32 (h : i.Abreast o last) {m : UInt32} (hr : uint32.run i = (.ok m, j)) (m' : UInt32) :
    j.Abreast (o.putUInt32 m') last := by
  obtain ⟨n, k, hword, hpure⟩ := of_run_bind hr
  obtain ⟨-, rfl⟩ := of_run_pure hpure
  exact h.word hword _

lemma uint16 (h : i.Abreast o last) {m : UInt16} (hr : uint16.run i = (.ok m, j)) (m' : UInt16) :
    j.Abreast (o.putUInt16 m') last := by
  obtain ⟨n, k, hword, hpure⟩ := of_run_bind hr
  obtain ⟨-, rfl⟩ := of_run_pure hpure
  exact h.word hword _

lemma octet (h : i.Abreast o last) {b : UInt8} (hr : octet.run i = (.ok b, j)) (b' : UInt8) :
    j.Abreast (o.append [b']) last := by
  obtain ⟨n, k, hword, hpure⟩ := of_run_bind hr
  obtain ⟨-, rfl⟩ := of_run_pure hpure
  have hw := h.word hword b'.toNat
  rwa [Output.putWord_one, UInt8.ofNat_toNat] at hw

lemma scalar {kind : ScalarKind} (h : i.Abreast o last) {s : Scalar}
    (hr : (scalar kind).run i = (.ok s, j)) : s.kind = kind ∧ j.Abreast (o.putScalar s) last := by
  obtain ⟨bits, k, hword, hrest⟩ := of_run_bind hr
  cases hb : kind.ofBits? bits with
  | none =>
    rw [hb] at hrest
    cases hrest
  | some s' =>
    rw [hb] at hrest
    obtain ⟨rfl, rfl⟩ := of_run_pure hrest
    have hk := ScalarKind.kind_of_ofBits? hb
    refine ⟨hk, ?_⟩
    rw [Output.putScalar, hk]
    exact h.word hword _

lemma octets (h : i.Abreast o last) {x : Octets} (hr : octets.run i = (.ok x, j)) :
    j.Abreast (o.putOctets x) last := by
  obtain ⟨n, k, hword, hraw⟩ := of_run_bind hr
  exact (h.word hword _).raw hraw (of_run_raw hraw).1

lemma rest (h : i.Abreast o last) {x : Octets} (hr : Reading.rest.run i = (.ok x, j)) :
    j.Abreast (o.append x) last := by
  obtain ⟨k, k', hget, hraw⟩ := of_run_bind hr
  cases hget
  exact h.raw hraw (of_run_raw hraw).1

lemma string (h : i.Abreast o last) {text : String} (hr : string.run i = (.ok text, j)) :
    j.Abreast (o.putString text) last := by
  obtain ⟨x, k, hword, hraw⟩ := of_run_string hr
  exact (h.word hword _).raw hraw (by simp)

lemma many {r : Reading ε α} {put : Output → α → Output}
    (each : ∀ {i j o a}, i.Abreast o last → r.run i = (.ok a, j) → j.Abreast (put o a) last)
    (h : i.Abreast o last) {xs : List α} (hr : (many r n).run i = (.ok xs, j)) :
    j.Abreast (xs.foldl put o) last := by
  induction n generalizing i o xs with
  | zero =>
    obtain ⟨rfl, rfl⟩ := of_run_pure hr
    exact h
  | succ n ih =>
    obtain ⟨a, k, ha, hmany⟩ := of_run_bind hr
    obtain ⟨as, k', has, hpure⟩ := of_run_bind hmany
    obtain ⟨rfl, rfl⟩ := of_run_pure hpure
    exact ih (each h ha) has

lemma length_many {r : Reading ε α} {xs : List α} (hr : (Reading.many r n).run i = (.ok xs, j)) :
    xs.length = n := by
  induction n generalizing i xs with
  | zero =>
    obtain ⟨rfl, rfl⟩ := of_run_pure hr
    rfl
  | succ n ih =>
    obtain ⟨a, k, ha, hmany⟩ := of_run_bind hr
    obtain ⟨as, k', has, hpure⟩ := of_run_bind hmany
    obtain ⟨rfl, rfl⟩ := of_run_pure hpure
    rw [List.length_cons, ih has]

end Input.Abreast

end ObjectBroker
