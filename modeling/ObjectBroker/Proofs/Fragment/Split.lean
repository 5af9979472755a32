import ObjectBroker.Fragment.Reassembly
import ObjectBroker.Proofs.Message.RoundTrip

/-! Cutting a frame: the pieces together are its body, and each of them but the last is long enough
to keep every frame within the length of the one that was cut. -/

namespace ObjectBroker.Fragment

/-- A whole frame of a kind that may be cut, with a request id in front. -/
structure Source where
  header : Header
  body : Octets
  fragmentable : header.kind.isFragmentable = true
  whole : header.more = false
  sized : header.bodySize.toNat = body.length
  leads : 4 ≤ body.length

namespace Source

def frame (s : Source) : Octets :=
  s.header.encode ++ s.body

def id (s : Source) : UInt32 :=
  UInt32.ofNat (s.header.order.ofWord (s.body.take 4))

lemma length_frame (s : Source) : s.frame.length = Header.size + s.body.length := by
  rw [frame, List.length_append, Header.length_encode]

lemma kind_ne (s : Source) : s.header.kind ≠ .fragment := by
  intro hk
  have hf := s.fragmentable
  rw [hk] at hf
  cases hf

end Source

lemma drop_encode (h : Header) (body : Octets) : (h.encode ++ body).drop Header.size = body := by
  rw [← h.length_encode, List.drop_left]

lemma leadingId_of_le {h : Header} {body : Octets} (hb : 4 ≤ body.length) :
    leadingId h body = .ok (UInt32.ofNat (h.order.ofWord (body.take 4))) := by
  have hs : Octets.split? 4 body = some (body.take 4, body.drop 4) := by
    simp [Octets.split?, hb]
  rw [leadingId, hs]

lemma chunks_of_ne_nil {n : Nat} {body : Octets} (hn : n ≠ 0) (hb : body ≠ []) :
    chunks n body = body.take n :: chunks n (body.drop n) := by
  rw [chunks, if_neg (by simp [hn, hb])]

lemma flatten_chunks {n : Nat} (hn : n ≠ 0) (body : Octets) : (chunks n body).flatten = body := by
  fun_induction chunks n body with
  | case1 body h =>
    rcases h with h | h
    · exact absurd h hn
    · exact h.symm
  | case2 body _ ih => rw [List.flatten_cons, ih, List.take_append_drop]

lemma chunkSize_eq {limit : Nat} (h : 24 ≤ limit) : chunkSize limit = (limit - 16) / 8 * 8 :=
  if_pos (Nat.lt_of_lt_of_le (by decide) h)

inductive Cut (s : Source) : List Octets → Prop
  | whole : Cut s [s.frame]
  | pieces {first : Octets} {rest : List Octets} : 8 ≤ first.length → rest ≠ [] →
      first ++ rest.flatten = s.body →
      Cut s ((((s.header.withMore true).withBody first).encode ++ first) ::
        continuations s.header.order s.id rest)

lemma one_le_length (h : Header) (body : Octets) : 1 ≤ (h.encode ++ body).length := by
  rw [List.length_append, h.length_encode, Header.size]
  omega

lemma length_continuations (order : ByteOrder) (id : UInt32) (rest : List Octets) :
    (continuations order id rest).length ≤ (continuations order id rest).flatten.length := by
  fun_induction continuations order id rest with
  | case1 => exact Nat.le_refl 0
  | case2 last =>
    rw [List.flatten_singleton]
    exact one_le_length _ _
  | case3 chunk rest _ ih =>
    have hone : 1 ≤ ((Message.fragment id true chunk).encode order).length := one_le_length _ _
    rw [List.length_cons, List.flatten_cons, List.length_append]
    omega

lemma Cut.length_le {s : Source} {frames : List Octets} (hc : Cut s frames) :
    frames ≠ [] ∧ frames.length ≤ frames.flatten.length := by
  cases hc with
  | whole =>
    refine ⟨List.cons_ne_nil _ _, ?_⟩
    rw [List.flatten_singleton]
    exact one_le_length _ _
  | @pieces first rest _ _ _ =>
    have hone := one_le_length ((s.header.withMore true).withBody first) first
    have hrest := length_continuations s.header.order s.id rest
    refine ⟨List.cons_ne_nil _ _, ?_⟩
    rw [List.length_cons, List.flatten_cons, List.length_append]
    omega

lemma split_of_lt (s : Source) {limit : Nat} (hl : limit < s.frame.length)
    (hs : 8 ≤ chunkSize limit) :
    split limit s.frame = .ok (frames s.header s.id (chunks (chunkSize limit) s.body)) := by
  have hid : leadingId s.header s.body = .ok s.id := leadingId_of_le s.leads
  have hkind : ¬ (!s.header.kind.isFragmentable) = true := by simp [s.fragmentable]
  rw [split, if_neg (Nat.not_le.mpr hl), Source.frame, Header.decode_encode_append]
  dsimp only [bind, Except.bind]
  rw [if_neg hkind, if_neg (Nat.not_lt.mpr hs), drop_encode, hid]
  rfl

lemma split_frame (s : Source) {limit : Nat} (h : 24 ≤ limit) :
    ∃ frames, split limit s.frame = .ok frames ∧ Cut s frames := by
  by_cases hl : s.frame.length ≤ limit
  · exact ⟨[s.frame], if_pos hl, .whole⟩
  · have hsize := chunkSize_eq h
    -- The first chunk leaves something of a body that is too long.
    have hlt : chunkSize limit < s.body.length := by
      have hlen := s.length_frame
      have hlead := s.leads
      simp only [Header.size] at hlen
      omega
    have hrest : s.body.drop (chunkSize limit) ≠ [] := by simpa using hlt
    have hne : s.body ≠ [] := List.ne_nil_of_length_pos (by omega)
    have hfirst : 8 ≤ (s.body.take (chunkSize limit)).length := by
      rw [List.length_take]
      omega
    have hchunks := chunks_of_ne_nil (n := chunkSize limit) (by omega) hne
    have hflat := flatten_chunks (n := chunkSize limit) (by omega) s.body
    have hmore := chunks_of_ne_nil (n := chunkSize limit) (by omega) hrest
    rw [hchunks, List.flatten_cons] at hflat
    refine ⟨_, split_of_lt s (Nat.lt_of_not_le hl) (by omega), ?_⟩
    rw [hchunks, frames, hmore]
    rw [hmore] at hflat
    exact .pieces hfirst (List.cons_ne_nil _ _) hflat

end ObjectBroker.Fragment
