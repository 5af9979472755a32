import ObjectBroker.Proofs.Fragment.Reassembly
import ObjectBroker.Proofs.Stream.Retrace

/-! What a frame can do to the messages that have begun. -/

namespace ObjectBroker

lemma of_bind_eq_ok {ε α β : Type} {x : Except ε α} {f : α → Except ε β} {b : β}
    (h : (x >>= f) = .ok b) : ∃ a, x = .ok a ∧ f a = .ok b := by
  cases x with
  | error e => cases h
  | ok a => exact ⟨a, rfl, h⟩

lemma of_ite_throw_eq_ok {ε β : Type} {c : Prop} [Decidable c] {e : ε} {x : Except ε β} {b : β}
    (h : (if c then (throw e : Except ε PUnit) >>= fun _ => x else x) = .ok b) :
    ¬ c ∧ x = .ok b := by
  split at h
  · cases h
  · next hc => exact ⟨hc, h⟩

namespace Reassembler

variable {R R' : Reassembler} {h : Header} {body : Octets} {out : Option (Header × Octets)}

lemma of_append_eq_ok {limit : Nat} {a a' : Assembly} {data : Octets}
    (ha : a.append limit data = .ok a') :
    a'.header = a.header ∧ a'.body = a.body ++ data ∧ Header.size + a'.body.length ≤ limit := by
  rw [Assembly.append] at ha
  split at ha
  · cases ha
  · next hle =>
    cases ha
    refine ⟨rfl, Array.toList_appendList, ?_⟩
    simp only [Assembly.body, Array.toList_appendList, List.length_append, Array.length_toList]
    omega

/-- What a frame that is taken can do: pass, begin a message, join one that has begun, or complete
it. -/
inductive Pushed (R : Reassembler) (h : Header) (body : Octets) :
    Option (Header × Octets) → Reassembler → Prop
  | passes : h.kind ≠ .fragment → h.more = false → Pushed R h body (some (h, body)) R
  | begins {id : UInt32} {a : Assembly} : h.kind.isFragmentable = true → h.more = true →
      Fragment.leadingId h body = .ok id → a.header = h → a.body = body →
      Header.size + a.body.length ≤ R.limit → Pushed R h body none (R.insert id a)
  | joins {id : UInt32} {a a' : Assembly} : Fragment.leadingId h body = .ok id →
      R.get? id = some a → a.header.order = h.order → a'.header = a.header →
      a'.body = a.body ++ body.drop 4 → Header.size + a'.body.length ≤ R.limit →
      Pushed R h body none (R.insert id a')
  | completes {id : UInt32} {a a' : Assembly} : Fragment.leadingId h body = .ok id →
      R.get? id = some a → a.header.order = h.order → a'.header = a.header →
      a'.body = a.body ++ body.drop 4 → Header.size + a'.body.length ≤ R.limit →
      Pushed R h body (some a'.finish) (R.erase id)

lemma pushed_first (hm : h.more = true) (hp : R.pushFirst h body = .ok (out, R')) :
    Pushed R h body out R' := by
  obtain ⟨hk, hp⟩ := of_ite_throw_eq_ok hp
  obtain ⟨id, hid, hp⟩ := of_bind_eq_ok hp
  obtain ⟨-, hp⟩ := of_ite_throw_eq_ok hp
  obtain ⟨a, ha, hp⟩ := of_bind_eq_ok hp
  obtain ⟨hheader, hbody, hle⟩ := of_append_eq_ok ha
  cases hp
  exact .begins (by simpa using hk) hm hid hheader hbody hle

lemma pushed_fragment (hp : R.pushFragment h body = .ok (out, R')) : Pushed R h body out R' := by
  obtain ⟨id, hid, hp⟩ := of_bind_eq_ok hp
  cases hget : R.get? id with
  | none =>
    rw [hget] at hp
    cases hp
  | some a =>
    rw [hget] at hp
    obtain ⟨ho, hp⟩ := of_ite_throw_eq_ok hp
    obtain ⟨a', ha', hp⟩ := of_bind_eq_ok hp
    obtain ⟨hheader, hbody, hle⟩ := of_append_eq_ok ha'
    split at hp
    · cases hp
      exact .joins hid hget (not_not.mp ho) hheader hbody hle
    · cases hp
      exact .completes hid hget (not_not.mp ho) hheader hbody hle

lemma pushed_of_push (hp : R.push h body = .ok (out, R')) : Pushed R h body out R' := by
  rw [push] at hp
  split at hp
  · exact pushed_fragment hp
  · next hk =>
    split at hp
    · next hm => exact pushed_first hm hp
    · next hm =>
      cases hp
      exact .passes hk (by simpa using hm)

/-- What holds of a message that has begun under a request id. -/
structure Begun (limit : Nat) (id : UInt32) (a : Assembly) : Prop where
  fragmentable : a.header.kind.isFragmentable = true
  more : a.header.more = true
  leads : 4 ≤ a.body.length
  bounded : Header.size + a.body.length ≤ limit
  id : a.header.order.ofWord (a.body.take 4) = id.toNat

lemma of_leadingId_eq_ok {h : Header} {body : Octets} {id : UInt32}
    (hid : Fragment.leadingId h body = .ok id) :
    4 ≤ body.length ∧ h.order.ofWord (body.take 4) = id.toNat := by
  by_cases hb : 4 ≤ body.length
  · rw [Fragment.leadingId_of_le hb] at hid
    cases hid
    have hlt := h.order.ofWord_lt (body.take 4)
    rw [List.length_take_of_le hb] at hlt
    exact ⟨hb, (UInt32.toNat_ofNat_of_lt' hlt).symm⟩
  · have hs := Octets.split?_eq_none_iff.mpr (Nat.lt_of_not_le hb)
    simp [Fragment.leadingId, hs] at hid

section

variable {limit : Nat} {id : UInt32} {a a' : Assembly} {data : Octets}

lemma Begun.join (hb : Begun limit id a) (hh : a'.header = a.header) (hd : a'.body = a.body ++ data)
    (hl : Header.size + a'.body.length ≤ limit) : Begun limit id a' where
  fragmentable := by simpa [hh] using hb.fragmentable
  more := by simpa [hh] using hb.more
  leads := by
    have := hb.leads
    simp [hd]
    omega
  bounded := hl
  id := by
    rw [hh, hd, List.take_append_of_le_length hb.leads]
    exact hb.id

def Tidy (R : Reassembler) : Prop :=
  ∀ id a, (id, a) ∈ R.pending → Begun R.limit id a

lemma mem_of_get? {R : Reassembler} (h : R.get? id = some a) : (id, a) ∈ R.pending := by
  obtain ⟨front, back, he, -⟩ := List.lookup_eq_some_iff.mp h
  simp [he]

lemma Tidy.erase (hR : R.Tidy) (id : UInt32) : (R.erase id).Tidy :=
  fun id' a' hm => hR id' a' (List.mem_of_mem_filter hm)

lemma Tidy.insert (hR : R.Tidy) (ha : Begun R.limit id a) : (R.insert id a).Tidy := by
  intro id' a' hm
  rcases List.mem_cons.mp hm with he | hm
  · cases he
    exact ha
  · exact hR.erase id id' a' hm

lemma Tidy.pushed (hR : R.Tidy) (hp : Pushed R h body out R') : R'.Tidy := by
  cases hp with
  | passes => exact hR
  | begins hk hm hid hh hb hl =>
    obtain ⟨hle, hword⟩ := of_leadingId_eq_ok hid
    refine hR.insert ⟨by rwa [hh], by rwa [hh], by rwa [hb], hl, ?_⟩
    rw [hh, hb]
    exact hword
  | joins hid hget ho hh hb hl => exact hR.insert ((hR _ _ (mem_of_get? hget)).join hh hb hl)
  | completes => exact hR.erase _

/-- What a tidy table gives away is a message, in the byte order of the last frame. -/
lemma Tidy.whole (hR : R.Tidy) (hp : Pushed R h body out R') {whole : Header × Octets}
    (hw : out = some whole) : whole.1.kind ≠ .fragment ∧ whole.1.order = h.order := by
  cases hp with
  | passes hk =>
    cases hw
    exact ⟨hk, rfl⟩
  | begins => cases hw
  | joins => cases hw
  | @completes id a a' _ hget ho hh =>
    cases hw
    have hk := (hR id a (mem_of_get? hget)).fragmentable
    rw [← hh] at hk
    refine ⟨fun hf => ?_, ?_⟩
    · rw [show a'.header.kind = .fragment from hf] at hk
      cases hk
    · rw [← ho, ← hh]
      exact a'.header.order_withMore false

end

end Reassembler

end ObjectBroker
