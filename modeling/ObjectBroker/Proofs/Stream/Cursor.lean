import ObjectBroker.Proofs.Stream.Retrace
import ObjectBroker.Stream.Item

/-!
Streams as buffers. A walk moves an offset along a buffer that stays as it is, and whatever it looks
at is a slice of the buffer. It has no outcome at all when a slice does not lie in the buffer or a
sum leaves the machine word. Every reading is such a walk, and none goes astray.
-/

namespace ObjectBroker

/-- A place in a buffer whose first octet stands at `origin`. -/
structure Cursor where
  data : Octets
  order : ByteOrder
  origin : Nat := 0
  offset : Nat := 0
  deriving DecidableEq

namespace Cursor

/-- The place is in the buffer, and all positions of the buffer are machine words. -/
structure Valid (c : Cursor) : Prop where
  offset_le : c.offset ≤ c.data.length
  last_lt : c.origin + c.data.length < 2 ^ 64

instance (c : Cursor) : Decidable c.Valid :=
  decidable_of_iff (c.offset ≤ c.data.length ∧ c.origin + c.data.length < 2 ^ 64)
    ⟨fun h => ⟨h.1, h.2⟩, fun h => ⟨h.1, h.2⟩⟩

def input (c : Cursor) : Input :=
  { order := c.order, position := c.origin + c.offset, rest := c.data.drop c.offset }

def moved (c : Cursor) (offset : Nat) : Cursor :=
  { c with offset }

def encapsulation : Octets → Except StreamError Cursor
  | [] => .error (.underflow 1 0)
  | flag :: rest =>
    match ByteOrder.ofFlag? flag with
    | none => .error (.badByteOrder flag)
    | some order => .ok { data := flag :: rest, order, offset := 1 }

lemma Valid.moved {c : Cursor} (h : c.Valid) {k : Nat} (hk : k ≤ c.data.length) :
    (c.moved k).Valid :=
  ⟨hk, h.last_lt⟩

lemma remaining_input (c : Cursor) : c.input.remaining = c.data.length - c.offset :=
  List.length_drop

end Cursor

def Walk (α : Type) := Cursor → Option (Except StreamError α × Cursor)

namespace Walk

variable {α β : Type}

def bind (w : Walk α) (f : α → Walk β) : Walk β := fun c =>
  match w c with
  | none => none
  | some (.error e, c) => some (.error e, c)
  | some (.ok a, c) => f a c

instance : Monad Walk where
  pure a := fun c => some (.ok a, c)
  bind := bind

def fail (e : StreamError) : Walk α := fun c => some (.error e, c)

def place : Walk Cursor := fun c => some (.ok c, c)

def demand (p : Prop) [Decidable p] : Walk Unit := fun c => if p then some (.ok (), c) else none

def position : Walk Nat := do
  let c ← place
  demand (c.origin + c.offset < 2 ^ 64)
  pure (c.origin + c.offset)

def remaining : Walk Nat := do
  let c ← place
  demand (c.offset ≤ c.data.length)
  pure (c.data.length - c.offset)

def ensure (n : Nat) : Walk Unit := do
  let left ← remaining
  if left < n then fail (.underflow n left) else pure ()

def slice (n : Nat) : Walk Octets := do
  let c ← place
  demand (c.offset + n < 2 ^ 64 ∧ c.offset + n ≤ c.data.length)
  pure ((c.data.drop c.offset).take n)

def skip (n : Nat) : Walk Unit := fun c =>
  if c.offset + n < 2 ^ 64 then some (.ok (), c.moved (c.offset + n)) else none

def peek (n : Nat) : Walk Octets := do
  ensure n
  slice n

def raw (n : Nat) : Walk Octets := do
  let octets ← peek n
  skip n
  pure octets

def align (alignment : Nat) : Walk Unit := do
  let p ← position
  ensure (padding p alignment)
  skip (padding p alignment)

def word (width : Nat) : Walk Nat := do
  align width
  let octets ← raw width
  pure ((← place).order.ofWord octets)

def peekWord (width : Nat) : Walk Nat := do
  align width
  let octets ← peek width
  pure ((← place).order.ofWord octets)

def scalar (kind : ScalarKind) : Walk Scalar := do
  let bits ← word kind.width
  match kind.ofBits? bits with
  | some s => pure s
  | none => fail (.badBoolean (UInt8.ofNat bits))

def octets : Walk Octets := do
  raw (← word 4)

def string : Walk String := do
  let n ← word 4
  if n = 0 then
    fail (.badString "zero length")
  let octets ← peek n
  if octets.getLast? ≠ some 0 then
    fail (.badString "missing NUL terminator")
  match Utf8.decode octets.dropLast with
  | .error fault => fail (.badUtf8 fault)
  | .ok text =>
    skip n
    pure text

def rest : Walk Octets := do
  raw (← remaining)

lemma bind_of_ok {w : Walk α} {f : α → Walk β} {a : α} {c c' : Cursor}
    (h : w c = some (.ok a, c')) : (w >>= f) c = f a c' := by
  change Walk.bind w f c = _
  rw [Walk.bind, h]

lemma bind_of_error {w : Walk α} {f : α → Walk β} {e : StreamError} {c c' : Cursor}
    (h : w c = some (.error e, c')) : (w >>= f) c = some (.error e, c') := by
  change Walk.bind w f c = _
  rw [Walk.bind, h]

lemma demand_of {p : Prop} [Decidable p] (h : p) (c : Cursor) : demand p c = some (.ok (), c) :=
  if_pos h

section

variable {c : Cursor} (hc : c.Valid) {n : Nat}
include hc

lemma position_of_valid : position c = some (.ok (c.origin + c.offset), c) := by
  have hlt : c.origin + c.offset < 2 ^ 64 := by
    have := hc.offset_le
    have := hc.last_lt
    omega
  rw [position, bind_of_ok (show place c = some (.ok c, c) from rfl), bind_of_ok (demand_of hlt c)]
  rfl

lemma remaining_of_valid : remaining c = some (.ok c.input.remaining, c) := by
  rw [remaining, bind_of_ok (show place c = some (.ok c, c) from rfl),
    bind_of_ok (demand_of hc.offset_le c), Cursor.remaining_input]
  rfl

lemma ensure_of_le (h : n ≤ c.input.remaining) : ensure n c = some (.ok (), c) := by
  rw [ensure, bind_of_ok (remaining_of_valid hc), if_neg (Nat.not_lt.mpr h)]
  rfl

lemma ensure_of_lt (h : c.input.remaining < n) :
    ensure n c = some (.error (.underflow n c.input.remaining), c) := by
  rw [ensure, bind_of_ok (remaining_of_valid hc), if_pos h]
  rfl

lemma offset_add_le (h : n ≤ c.input.remaining) : c.offset + n ≤ c.data.length := by
  have := hc.offset_le
  rw [Cursor.remaining_input] at h
  omega

lemma offset_add_lt (h : n ≤ c.input.remaining) : c.offset + n < 2 ^ 64 := by
  have := offset_add_le hc h
  have := hc.last_lt
  omega

lemma skip_of_le (h : n ≤ c.input.remaining) :
    skip n c = some (.ok (), c.moved (c.offset + n)) :=
  if_pos (offset_add_lt hc h)

lemma peek_of_le (h : n ≤ c.input.remaining) :
    peek n c = some (.ok (c.input.rest.take n), c) := by
  rw [peek, bind_of_ok (ensure_of_le hc h), slice,
    bind_of_ok (show place c = some (.ok c, c) from rfl),
    bind_of_ok (demand_of ⟨offset_add_lt hc h, offset_add_le hc h⟩ c)]
  rfl

lemma peek_of_lt (h : c.input.remaining < n) :
    peek n c = some (.error (.underflow n c.input.remaining), c) :=
  bind_of_error (ensure_of_lt hc h)

lemma raw_of_le (h : n ≤ c.input.remaining) :
    raw n c = some (.ok (c.input.rest.take n), c.moved (c.offset + n)) := by
  rw [raw, bind_of_ok (peek_of_le hc h), bind_of_ok (skip_of_le hc h)]
  rfl

lemma raw_of_lt (h : c.input.remaining < n) :
    raw n c = some (.error (.underflow n c.input.remaining), c) :=
  bind_of_error (peek_of_lt hc h)

end

end Walk

namespace Reading

variable {i : Input} {n : Nat}

lemma run_peek_of_le (h : n ≤ i.remaining) : (peek n).run i = (.ok (i.rest.take n), i) := by
  have hlength : (i.rest.take n).length = n := List.length_take_of_le h
  have hpeek := run_peek (i.rest.take n) (i.rest.drop n) i (List.take_append_drop n i.rest).symm
  rwa [hlength] at hpeek

lemma run_peek_of_lt (h : i.remaining < n) :
    (peek n).run i = (.error (.underflow n i.remaining), i) := by
  rw [peek, run_bind, show Reading.run get i = (.ok i, i) from rfl]
  dsimp only
  rw [Octets.split?_eq_none_iff.mpr h]
  rfl

lemma run_raw_of_le (h : n ≤ i.remaining) : (raw n).run i =
    (.ok (i.rest.take n), { i with position := i.position + n, rest := i.rest.drop n }) := by
  rw [raw, run_bind, run_peek_of_le h]
  rfl

lemma run_raw_of_lt (h : i.remaining < n) :
    (raw n).run i = (.error (.underflow n i.remaining), i) := by
  rw [raw, run_bind, run_peek_of_lt h]

end Reading

lemma Cursor.input_moved (c : Cursor) (n : Nat) : (c.moved (c.offset + n)).input =
    { c.input with position := c.input.position + n, rest := c.input.rest.drop n } := by
  simp only [input, moved, List.drop_drop, Nat.add_assoc]

namespace Walk

variable {α β : Type}

/-! ## Walks and readings -/

def FollowsAt (w : Walk α) (r : Reading StreamError α) (c : Cursor) : Prop :=
  ∃ k, c.offset ≤ k ∧ k ≤ c.data.length ∧
    w c = some ((r.run c.input).1, c.moved k) ∧ (r.run c.input).2 = (c.moved k).input

def Follows (w : Walk α) (r : Reading StreamError α) : Prop :=
  ∀ c : Cursor, c.Valid → w.FollowsAt r c

namespace FollowsAt

variable {c : Cursor} {w : Walk α} {r : Reading StreamError α}

lemma pure (hc : c.Valid) (a : α) : FollowsAt (pure a) (pure a) c :=
  ⟨c.offset, Nat.le_refl _, hc.offset_le, rfl, rfl⟩

lemma fail (hc : c.Valid) (e : StreamError) : FollowsAt (fail e : Walk α) (throw e) c :=
  ⟨c.offset, Nat.le_refl _, hc.offset_le, rfl, rfl⟩

lemma fail_bind (hc : c.Valid) (e : StreamError) (f : α → Walk β) (g : α → Reading StreamError β) :
    FollowsAt (Walk.fail e >>= f) (throw e >>= g) c :=
  ⟨c.offset, Nat.le_refl _, hc.offset_le, rfl, rfl⟩

lemma bind {f : α → Walk β} {g : α → Reading StreamError β} (h : w.FollowsAt r c)
    (hf : ∀ a k, k ≤ c.data.length → r.run c.input = (.ok a, (c.moved k).input) →
      (f a).FollowsAt (g a) (c.moved k)) :
    FollowsAt (w >>= f) (r >>= g) c := by
  obtain ⟨k, hle, hlt, hw, hr⟩ := h
  rcases hrun : r.run c.input with ⟨e | a, j⟩
  · rw [hrun] at hw hr
    refine ⟨k, hle, hlt, ?_, ?_⟩
    · rw [bind_of_error hw, Reading.run_bind, hrun]
    · rw [Reading.run_bind, hrun]
      exact hr
  · rw [hrun] at hw hr
    obtain rfl : j = (c.moved k).input := hr
    obtain ⟨l, hle', hlt', hw', hr'⟩ := hf a k hlt hrun
    refine ⟨l, Nat.le_trans hle hle', hlt', ?_, ?_⟩
    · rw [bind_of_ok hw, Reading.run_bind, hrun]
      exact hw'
    · rw [Reading.run_bind, hrun]
      exact hr'

lemma place_bind {f : Cursor → Walk α} {g : Input → Reading StreamError α}
    (h : (f c).FollowsAt (g c.input) c) : FollowsAt (place >>= f) (get >>= g) c := h

lemma peek (hc : c.Valid) (n : Nat) : FollowsAt (peek n) (Reading.peek n) c := by
  refine ⟨c.offset, Nat.le_refl _, hc.offset_le, ?_⟩
  rcases Nat.lt_or_ge c.input.remaining n with h | h
  · rw [Reading.run_peek_of_lt h]
    exact ⟨peek_of_lt hc h, rfl⟩
  · rw [Reading.run_peek_of_le h]
    exact ⟨peek_of_le hc h, rfl⟩

lemma raw (hc : c.Valid) (n : Nat) : FollowsAt (raw n) (Reading.raw n) c := by
  rcases Nat.lt_or_ge c.input.remaining n with h | h
  · rw [FollowsAt, Reading.run_raw_of_lt h]
    exact ⟨c.offset, Nat.le_refl _, hc.offset_le, raw_of_lt hc h, rfl⟩
  · rw [FollowsAt, Reading.run_raw_of_le h]
    exact ⟨c.offset + n, Nat.le_add_right _ _, offset_add_le hc h, raw_of_le hc h,
      (c.input_moved n).symm⟩

lemma skip (hc : c.Valid) {n : Nat} (h : n ≤ c.input.remaining) (a : α) :
    FollowsAt (do skip n; Pure.pure a) (do let _ ← Reading.raw n; Pure.pure a) c := by
  rw [FollowsAt, Reading.run_bind, Reading.run_raw_of_le h, bind_of_ok (skip_of_le hc h)]
  exact ⟨c.offset + n, Nat.le_add_right _ _, offset_add_le hc h, rfl, (c.input_moved n).symm⟩

end FollowsAt

namespace Follows

variable {w : Walk α} {r : Reading StreamError α}

lemma pure (a : α) : Follows (pure a) (pure a) := fun _ hc => .pure hc a

lemma fail (e : StreamError) : Follows (fail e : Walk α) (throw e) := fun _ hc => .fail hc e

lemma bind {f : α → Walk β} {g : α → Reading StreamError β} (h : w.Follows r)
    (hf : ∀ a, (f a).Follows (g a)) : Follows (w >>= f) (r >>= g) :=
  fun c hc => (h c hc).bind fun a _ hk _ => hf a _ (hc.moved hk)

lemma map (f : α → β) (h : w.Follows r) : Follows (f <$> w) (f <$> r) := by
  rw [← bind_pure_comp (m := ExceptT StreamError (StateM Input))]
  exact h.bind fun a => .pure (f a)

lemma raw (n : Nat) : Follows (raw n) (Reading.raw n) := fun _ hc => .raw hc n

lemma align (n : Nat) : Follows (align n) (Reading.align n) := by
  intro c hc
  let p := padding c.input.position n
  have hwalk : Walk.align n c = (do ensure p; Walk.skip p : Walk Unit) c := by
    rw [Walk.align, bind_of_ok (position_of_valid hc)]
    rfl
  have hread : (Reading.align n).run c.input =
      (do let _ ← Reading.raw p; Pure.pure () : Reading StreamError Unit).run c.input := rfl
  rw [FollowsAt, hwalk, hread, Reading.run_bind]
  rcases Nat.lt_or_ge c.input.remaining p with h | h
  · rw [Reading.run_raw_of_lt h, bind_of_error (ensure_of_lt hc h)]
    exact ⟨c.offset, Nat.le_refl _, hc.offset_le, rfl, rfl⟩
  · rw [Reading.run_raw_of_le h, bind_of_ok (ensure_of_le hc h), skip_of_le hc h]
    exact ⟨c.offset + p, Nat.le_add_right _ _, offset_add_le hc h, rfl, (c.input_moved p).symm⟩

lemma ofWord (x : Octets) : Follows (do Pure.pure ((← place).order.ofWord x))
    (do Pure.pure ((← get).order.ofWord x)) :=
  fun _ hc => .place_bind (.pure hc _)

lemma word (width : Nat) : Follows (word width) (Reading.word width) :=
  (align width).bind fun _ => (raw width).bind ofWord

lemma peekWord (width : Nat) : Follows (peekWord width) (Reading.peekWord width) :=
  (align width).bind fun _ => Follows.bind (fun _ hc => .peek hc width) ofWord

lemma scalar (kind : ScalarKind) : Follows (scalar kind) (Reading.scalar kind) := by
  refine (word kind.width).bind fun bits => ?_
  cases kind.ofBits? bits with
  | none => exact .fail _
  | some s => exact .pure s

lemma octets : Follows octets Reading.octets :=
  (word 4).bind raw

lemma rest : Follows rest Reading.rest := by
  intro c hc
  have hwalk : Walk.rest c = Walk.raw c.input.remaining c := bind_of_ok (remaining_of_valid hc)
  rw [FollowsAt, hwalk]
  exact raw _ c hc

lemma string : Follows string Reading.string := by
  refine (word 4).bind fun n c hc => ?_
  by_cases hn : n = 0
  · rw [if_pos hn, if_pos hn]
    exact .fail_bind hc _ _ _
  · rw [if_neg hn, if_neg hn]
    refine (FollowsAt.peek hc n).bind fun x k hk hpeek => ?_
    dsimp only
    by_cases hlast : x.getLast? = some 0
    · rw [if_neg (not_not_intro hlast), if_neg (not_not_intro hlast)]
      -- The octets have been looked at, so that they can be passed.
      obtain ⟨-, hle, hinput⟩ := Reading.of_run_peek hpeek
      cases Utf8.decode x.dropLast with
      | error fault => exact .fail (hc.moved hk) _
      | ok text => exact .skip (hc.moved hk) (hinput ▸ hle) text
    · rw [if_pos hlast, if_pos hlast]
      exact .fail_bind (hc.moved hk) _ _ _

end Follows

end Walk

end ObjectBroker
