import ObjectBroker.Proofs.Fragment.Pending
import ObjectBroker.Proofs.InPlace

/-! The table of messages that have begun, under frames of any kind. Frames are taken in place: the
table is changed step by step, and what a frame changed before it was refused would stay. -/

namespace ObjectBroker

abbrev Reassembling := InPlace WireError Reassembler

namespace Reassembling

open InPlace

def fragment (h : Header) (body : Octets) : Reassembling (Option (Header × Octets)) := do
  let id ← InPlace.lift (Fragment.leadingId h body)
  match (← get).get? id with
  | none => throw (.unexpectedFragment id)
  | some a =>
    if a.header.order ≠ h.order then
      throw .byteOrderChanged
    let a ← InPlace.lift (a.append (← get).limit (body.drop 4))
    modify (·.insert id a)
    if h.more then
      return none
    modify (·.erase id)
    return some a.finish

def first (h : Header) (body : Octets) : Reassembling (Option (Header × Octets)) := do
  if !h.kind.isFragmentable then
    throw (.notFragmentable h.kind)
  let id ← InPlace.lift (Fragment.leadingId h body)
  if ((← get).get? id).isSome then
    throw (.invalid s!"request {id} is already being reassembled")
  let a ← InPlace.lift (Assembly.start (← get).limit h body)
  modify (·.insert id a)
  return none

def frame (h : Header) (body : Octets) : Reassembling (Option (Header × Octets)) :=
  if h.kind = .fragment then fragment h body
  else if h.more then first h body
  else pure (some (h, body))

def feed (R : Reassembler) : List (Header × Octets) → Reassembler
  | [] => R
  | (h, body) :: frames => feed ((frame h body).run R).2 frames

lemma erase_insert (R : Reassembler) (id : UInt32) (a : Assembly) :
    (R.insert id a).erase id = R.erase id := by
  simp [Reassembler.erase, Reassembler.insert, List.filter_filter]

lemma run_fragment (h : Header) (body : Octets) (R : Reassembler) :
    (fragment h body).run R = settled R (R.pushFragment h body) := by
  apply run_lift_bind
  intro id
  rw [run_get_bind]
  cases R.get? id with
  | none => rfl
  | some a =>
    apply run_ite_throw
    rw [run_get_bind]
    apply run_lift_bind
    intro a'
    cases h.more with
    | true => rfl
    | false => exact congrArg (Prod.mk _) (erase_insert R id a')

lemma run_first (h : Header) (body : Octets) (R : Reassembler) :
    (first h body).run R = settled R (R.pushFirst h body) := by
  apply run_ite_throw
  apply run_lift_bind
  intro id
  rw [run_get_bind]
  apply run_ite_throw
  rw [run_get_bind]
  apply run_lift_bind
  intro a
  rfl

lemma run_frame (h : Header) (body : Octets) (R : Reassembler) :
    (frame h body).run R = settled R (R.push h body) := by
  rw [frame, Reassembler.push]
  split
  · exact run_fragment h body R
  · split
    · exact run_first h body R
    · rfl

end Reassembling

namespace Reassembler

/-- A whole message that fragments with a request id have given. -/
structure Completed (limit : Nat) (id : UInt32) (h : Header) (body : Octets) : Prop where
  fragmentable : h.kind.isFragmentable = true
  more : h.more = false
  size : h.bodySize.toNat = body.length
  leads : 4 ≤ body.length
  bounded : Header.size + body.length ≤ limit
  id : h.order.ofWord (body.take 4) = id.toNat

variable {limit : Nat} {id : UInt32} {a a' : Assembly} {data : Octets}

lemma Begun.finish (hb : Begun limit id a) (hl : limit < 2 ^ 32) :
    Completed limit id a.finish.1 a.finish.2 where
  fragmentable := hb.fragmentable
  more := a.header.more_withMore false
  size := by
    have := hb.bounded
    exact UInt32.toNat_ofNat_of_lt' (Nat.lt_of_le_of_lt (by omega) hl)
  leads := hb.leads
  bounded := hb.bounded
  id := by
    have ho : a.finish.1.order = a.header.order := a.header.order_withMore false
    rw [ho]
    exact hb.id

variable {R R' : Reassembler} {h : Header} {body : Octets} {out : Option (Header × Octets)}

lemma Pushed.limit_eq (hp : Pushed R h body out R') : R'.limit = R.limit := by
  cases hp <;> rfl

lemma Pushed.get?_of_ne (hp : Pushed R h body out R') (hne : Fragment.leadingId h body ≠ .ok id) :
    R'.get? id = R.get? id := by
  have other {id' : UInt32} (hid : Fragment.leadingId h body = .ok id') : id ≠ id' := by
    rintro rfl
    exact hne hid
  cases hp with
  | passes => rfl
  | begins _ _ hid => exact R.get?_insert_ne _ (other hid)
  | joins hid => exact R.get?_insert_ne _ (other hid)
  | completes hid => exact R.get?_erase_ne (other hid)

lemma Tidy.completed (hR : R.Tidy) (hl : R.limit < 2 ^ 32) (hk : h.kind = .fragment) {h' : Header}
    {body' : Octets} (hp : Pushed R h body (some (h', body')) R') :
    ∃ id, Fragment.leadingId h body = .ok id ∧ Completed R.limit id h' body' := by
  generalize hout : some (h', body') = out at hp
  cases hp with
  | passes hne => exact absurd hk hne
  | begins => cases hout
  | joins => cases hout
  | completes hid hget _ hh hb hle =>
    have hdone := ((hR _ _ (mem_of_get? hget)).join hh hb hle).finish hl
    rw [← Option.some.inj hout] at hdone
    exact ⟨_, hid, hdone⟩

end Reassembler

namespace Reassembling

open Reassembler

lemma tidy_feed {R : Reassembler} (hR : R.Tidy) (frames : List (Header × Octets)) :
    (feed R frames).Tidy ∧ (feed R frames).limit = R.limit := by
  induction frames generalizing R with
  | nil => exact ⟨hR, rfl⟩
  | cons frame frames ih =>
    obtain ⟨h, body⟩ := frame
    rw [feed, run_frame]
    cases hp : R.push h body with
    | error e => exact ih hR
    | ok result =>
      obtain ⟨out, R'⟩ := result
      have hpushed := pushed_of_push hp
      obtain ⟨htidy, hlimit⟩ := ih (hR.pushed hpushed)
      exact ⟨htidy, hlimit.trans hpushed.limit_eq⟩

/-- Whatever frames have come, refused ones included, the table holds only messages that have begun
under their ids. The next frame, if it is refused, changes nothing; if it is taken it changes no
entry but its own, and when it completes a message, that message is whole. -/
theorem feed_sound {limit : Nat} (hlimit : limit < 2 ^ 32) (frames : List (Header × Octets)) :
    let R := feed { limit } frames
    (∀ id a, (id, a) ∈ R.pending → Begun limit id a) ∧
    ∀ (h : Header) (body : Octets),
      (∀ e, R.push h body = .error e → (frame h body).run R = (.error e, R)) ∧
      ∀ out R', R.push h body = .ok (out, R') →
        (frame h body).run R = (.ok out, R') ∧
        (∀ id, Fragment.leadingId h body ≠ .ok id → R'.get? id = R.get? id) ∧
        (h.kind = .fragment → ∀ h' body', out = some (h', body') →
          ∃ id, Fragment.leadingId h body = .ok id ∧ Completed limit id h' body') := by
  intro R
  obtain ⟨hR, hl⟩ : R.Tidy ∧ R.limit = limit :=
    tidy_feed (R := { limit }) (fun id a hm => absurd hm List.not_mem_nil) frames
  refine ⟨fun id a hm => hl ▸ hR id a hm, fun h body => ⟨fun e he => ?_, fun out R' hp => ?_⟩⟩
  · rw [run_frame, he]
    rfl
  · have hpushed := pushed_of_push hp
    refine ⟨?_, fun id hne => hpushed.get?_of_ne hne, fun hk h' body' hout => ?_⟩
    · rw [run_frame, hp]
      rfl
    · rw [hout] at hpushed
      rw [← hl]
      exact hR.completed (hl ▸ hlimit) hk hpushed

/-! A request of which one part has come, among frames that are refused: a fragment of another
request, one in the other byte order, one that is too long and a second beginning. -/

def opening : Header := (Header.make .request .littleEndian 5).withMore true

def continuing (order : ByteOrder) (size : Nat) : Header := .make .fragment order size

def tooLong : Octets := [7, 0, 0, 0] ++ List.replicate 20 1

def hostile : List (Header × Octets) :=
  [(opening, [7, 0, 0, 0, 1]), (continuing .littleEndian 4, [9, 0, 0, 0]),
    (continuing .bigEndian 4, [0, 0, 0, 7]), (continuing .littleEndian 24, tooLong),
    (opening, [7, 0, 0, 0, 1])]

theorem feed_sound_hostile :
    let R := feed { limit := 32 } hostile
    R.pending.map (·.1) = [7] ∧ (∀ id a, (id, a) ∈ R.pending → Begun 32 id a) ∧
    (frame (continuing .littleEndian 24) tooLong).run R = (.error (.tooLarge 37 32), R) ∧
    ∃ h' R', R.push (continuing .littleEndian 5) [7, 0, 0, 0, 2] =
        .ok (some (h', [7, 0, 0, 0, 1, 2]), R') ∧
      Completed 32 7 h' [7, 0, 0, 0, 1, 2] ∧ R'.get? 8 = R.get? 8 := by
  intro R
  obtain ⟨hbegun, hnext⟩ := feed_sound (by decide : 32 < 2 ^ 32) hostile
  have hlast : R.push (continuing .littleEndian 5) [7, 0, 0, 0, 2] =
      .ok (some (.make .request .littleEndian 6, [7, 0, 0, 0, 1, 2]), { limit := 32 }) := by
    decide +kernel
  obtain ⟨-, hother, hcompleted⟩ := (hnext _ _).2 _ _ hlast
  obtain ⟨id, hid, hwhole⟩ := hcompleted rfl _ _ rfl
  cases hid
  exact ⟨by decide +kernel, hbegun, (hnext _ _).1 _ (by decide +kernel), _, _, hlast, hwhole,
    hother 8 (by decide +kernel)⟩

end Reassembling

end ObjectBroker
