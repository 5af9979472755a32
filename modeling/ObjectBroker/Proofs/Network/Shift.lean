import Mathlib.Algebra.Group.Action.Defs
import Mathlib.Algebra.Order.BigOperators.Group.List
import Mathlib.Algebra.Order.Group.Nat
import Mathlib.Tactic.Abel
import ObjectBroker.Proofs.Network.Traffic

/-!
Calls going from one place to the next. Whatever is added up over the calls under way changes by what
has gone and what has come; on every connection the calls keep their order.
-/

namespace ObjectBroker

variable {σ α : Type}

namespace Traffic

variable {g g' gone come : Traffic σ α} {l l' : Line} {rest : List (Slot σ α)}

structure Shift (g g' gone come : Traffic σ α) : Prop where
  slots : (g'.slots ++ gone.slots).Perm (g.slots ++ come.slots)
  requests : (g'.requests ++ gone.requests).Perm (g.requests ++ come.requests)
  replies : (g'.replies ++ gone.replies).Perm (g.replies ++ come.replies)

namespace Shift

lemma total {M : Type} [AddCommMonoid M] (h : Shift g g' gone come) (slot : Slot σ α → M)
    (request : Flight σ α → M) (reply : Flight σ α × ReplyContent → M) :
    g'.total slot request reply + gone.total slot request reply =
      g.total slot request reply + come.total slot request reply := by
  have hslots := (h.slots.map slot).sum_eq
  have hrequests := (h.requests.map request).sum_eq
  have hreplies := (h.replies.map reply).sum_eq
  rw [List.map_append, List.map_append, List.sum_append, List.sum_append] at hslots hrequests hreplies
  rw [Traffic.total, Traffic.total, Traffic.total, Traffic.total, add_add_add_comm,
    add_add_add_comm (g'.slots.map slot).sum, hslots, hrequests, hreplies, add_add_add_comm
    (g.slots.map slot).sum, add_add_add_comm]

lemma mem_slots (h : Shift g g' gone come) {y : Slot σ α} (hy : y ∈ g'.slots) :
    y ∈ g.slots ∨ y ∈ come.slots :=
  List.mem_append.mp (h.slots.mem_iff.mp (List.mem_append_left _ hy))

lemma mem_requests (h : Shift g g' gone come) {f : Flight σ α} (hf : f ∈ g'.requests) :
    f ∈ g.requests ∨ f ∈ come.requests :=
  List.mem_append.mp (h.requests.mem_iff.mp (List.mem_append_left _ hf))

lemma mem_replies (h : Shift g g' gone come) {y : Flight σ α × ReplyContent}
    (hy : y ∈ g'.replies) : y ∈ g.replies ∨ y ∈ come.replies :=
  List.mem_append.mp (h.replies.mem_iff.mp (List.mem_append_left _ hy))

lemma of_head {first : Slot σ α} (hg : g.slots = first :: rest)
    (hslots : g'.slots = rest ++ come.slots) (hrequests : g'.requests = g.requests ++ come.requests)
    (hreplies : g'.replies = g.replies ++ come.replies) :
    Shift g g' { slots := [first] } come where
  slots := by
    rw [hslots, hg]
    exact List.perm_append_singleton _ _
  requests := by
    rw [hrequests, List.append_nil]
  replies := by
    rw [hreplies, List.append_nil]

end Shift

def accepted (g : Traffic σ α) (rest : List (Slot σ α)) (l : Line) (k : Nat) : Traffic σ α :=
  { g with
    slots := rest ++ ((g.asked l).zipIdx k).map fun y => .serve y.2 y.1
    requests := g.requests.filter fun f => !f.on l }

lemma shift_accepted (hg : g.slots = .reader l.far :: rest) (k : Nat) :
    Shift g (g.accepted rest l k) { slots := [.reader l.far], requests := g.asked l }
      { slots := ((g.asked l).zipIdx k).map fun y => .serve y.2 y.1 } where
  slots := by
    rw [hg]
    exact List.perm_append_singleton _ _
  requests := by
    rw [List.append_nil]
    exact List.perm_append_comm.trans (List.filter_append_perm (Flight.on l) g.requests)
  replies := .refl _

def heard (g : Traffic σ α) (rest : List (Slot σ α)) (l : Line) : Traffic σ α :=
  { g with
    slots := rest ++ (g.returning l).map fun y => .resume y.1 y.2
    replies := g.replies.filter fun y => !y.1.on l }

lemma shift_heard (hg : g.slots = .reader l.near :: rest) :
    Shift g (g.heard rest l) { slots := [.reader l.near], replies := g.returning l }
      { slots := (g.returning l).map fun y => .resume y.1 y.2 } where
  slots := by
    rw [hg]
    exact List.perm_append_singleton _ _
  requests := .refl _
  replies := by
    rw [List.append_nil]
    exact List.perm_append_comm.trans
      (List.filter_append_perm (fun y : Flight σ α × ReplyContent => y.1.on l) g.replies)

lemma sum_serve {M : Type} [AddCommMonoid M] {slot : Slot σ α → M} {served : Flight σ α → M}
    (hs : ∀ k f, slot (.serve k f) = served f) (fs : List (Flight σ α)) (k : Nat) :
    (((fs.zipIdx k).map fun y => Slot.serve y.2 y.1).map slot).sum = (fs.map served).sum := by
  induction fs generalizing k with
  | nil => rfl
  | cons f fs ih =>
    rw [List.zipIdx_cons, List.map_cons, List.map_cons, List.sum_cons, List.map_cons,
      List.sum_cons, hs, ih]

lemma flatMap_serve {M : Type} {slot : Slot σ α → List M} {served : Flight σ α → List M}
    (hs : ∀ k f, slot (.serve k f) = served f) (fs : List (Flight σ α)) (k : Nat) :
    ((fs.zipIdx k).map fun y => Slot.serve y.2 y.1).flatMap slot = fs.flatMap served := by
  induction fs generalizing k with
  | nil => rfl
  | cons f fs ih =>
    rw [List.zipIdx_cons, List.map_cons, List.flatMap_cons, List.flatMap_cons, hs, ih]

section Accounts

variable {M : Type} [AddCommMonoid M] (slot : Slot σ α → M) (request : Flight σ α → M)
  (reply : Flight σ α × ReplyContent → M)

lemma total_accepted {served : Flight σ α → M} (hg : g.slots = .reader l.far :: rest) (k : Nat)
    (hs : ∀ k f, slot (.serve k f) = served f) :
    (g.accepted rest l k).total slot request reply +
        (slot (.reader l.far) + ((g.asked l).map request).sum) =
      g.total slot request reply + ((g.asked l).map served).sum := by
  have htotal := (shift_accepted hg k).total slot request reply
  rw [← sum_serve hs (g.asked l) k]
  simpa [Traffic.total] using htotal

lemma total_heard (hg : g.slots = .reader l.near :: rest) :
    (g.heard rest l).total slot request reply +
        (slot (.reader l.near) + ((g.returning l).map reply).sum) =
      g.total slot request reply +
        ((g.returning l).map fun y => slot (.resume y.1 y.2)).sum := by
  have htotal := (shift_heard hg).total slot request reply
  simpa [Traffic.total, Function.comp_def] using htotal

lemma total_head {first : Slot σ α} (h : Shift g g' { slots := [first] } come) :
    g'.total slot request reply + slot first =
      g.total slot request reply + come.total slot request reply := by
  have htotal := h.total slot request reply
  simpa [Traffic.total] using htotal

end Accounts

section Cancel

variable {M : Type} [AddCancelCommMonoid M] {slot : Slot σ α → M} {request : Flight σ α → M}
  {reply : Flight σ α × ReplyContent → M}

lemma total_accepted_eq (hg : g.slots = .reader l.far :: rest) (k : Nat)
    (hr : slot (.reader l.far) = 0) (hs : ∀ k f, slot (.serve k f) = request f) :
    (g.accepted rest l k).total slot request reply = g.total slot request reply := by
  have htotal := total_accepted slot request reply hg k hs
  rw [hr, zero_add] at htotal
  exact add_right_cancel htotal

lemma total_heard_eq (hg : g.slots = .reader l.near :: rest) (hr : slot (.reader l.near) = 0)
    (hs : ∀ f a, slot (.resume f a) = reply (f, a)) :
    (g.heard rest l).total slot request reply = g.total slot request reply := by
  have htotal := total_heard slot request reply hg
  simp only [hs, hr, zero_add] at htotal
  exact add_right_cancel htotal

end Cancel

lemma waiting_accepted (hg : g.slots = .reader l.far :: rest) (k : Nat) :
    (g.accepted rest l k).waiting = g.waiting :=
  total_accepted_eq hg k rfl fun _ _ => rfl

lemma answered_accepted (hg : g.slots = .reader l.far :: rest) (k : Nat) :
    (g.accepted rest l k).answered = g.answered :=
  total_accepted_eq hg k rfl fun _ _ => rfl

lemma parked_accepted (hg : g.slots = .reader l.far :: rest) (k : Nat) :
    (g.accepted rest l k).parked = g.parked :=
  total_accepted_eq hg k rfl fun _ _ => rfl

lemma holds_accepted (hg : g.slots = .reader l.far :: rest) (k : Nat) (s : BrokerId) :
    (g.accepted rest l k).holds s =
      (List.replicate (g.asked l).length (.broker s) : List Holding) + g.holds s := by
  have hbroker : ((g.asked l).map fun _ => ({.broker s} : Multiset Holding)).sum =
      (List.replicate (g.asked l).length (.broker s) : List Holding) := by
    rw [List.map_const', List.sum_replicate, Multiset.nsmul_singleton, Multiset.coe_replicate]
  have hserve : ∀ k (f : Flight σ α), (Slot.serve k f).holds s =
      {.broker s} + {f.trip.errand.holding} := fun _ _ => rfl
  have htotal : (g.accepted rest l k).holds s + ((g.asked l).map fun f =>
        ({f.trip.errand.holding} : Multiset Holding)).sum =
      g.holds s + ((g.asked l).map fun f =>
        ({.broker s} + {f.trip.errand.holding} : Multiset Holding)).sum := by
    have haccount := total_accepted (Slot.holds s) (fun f => {f.trip.errand.holding})
      (fun y => {y.1.trip.errand.holding}) hg k hserve
    rw [Slot.holds, zero_add] at haccount
    exact haccount
  rw [List.sum_map_add, hbroker, ← add_assoc] at htotal
  rw [add_right_cancel htotal, add_comm]

lemma waiting_heard (hg : g.slots = .reader l.near :: rest) :
    (g.heard rest l).waiting = g.waiting :=
  total_heard_eq hg rfl fun _ _ => rfl

lemma answered_heard (hg : g.slots = .reader l.near :: rest) :
    (g.heard rest l).answered = g.answered :=
  total_heard_eq hg rfl fun _ _ => rfl

lemma holds_heard (hg : g.slots = .reader l.near :: rest) (s : BrokerId) :
    (g.heard rest l).holds s = g.holds s :=
  total_heard_eq hg rfl fun _ _ => rfl

lemma parked_heard (hg : g.slots = .reader l.near :: rest) :
    g.parked = ((g.returning l).map fun y =>
      ({y.1.parked} : Multiset (Parked σ (Except BrokerError α)))).sum +
        (g.heard rest l).parked := by
  have htotal := total_heard Slot.parked (fun f => {f.parked}) (fun y => {y.1.parked}) hg
  simp only [Slot.parked, List.map_const', List.sum_replicate, nsmul_zero, zero_add,
    add_zero] at htotal
  rw [add_comm]
  exact htotal.symm

lemma weight_heard_lt (hg : g.slots = .reader l.near :: rest) :
    (g.heard rest l).weight < g.weight := by
  have htotal := total_heard Slot.weight (fun _ => 6) (fun _ => 2) hg
  simp only [List.map_const', List.sum_replicate, smul_eq_mul, Slot.weight] at htotal
  rw [weight, weight]
  omega

lemma weight_accepted_lt (hg : g.slots = .reader l.far :: rest) (k : Nat) :
    (g.accepted rest l k).weight < g.weight := by
  have hserve : ∀ k (f : Flight σ α), (Slot.serve k f).weight = 4 := fun _ _ => rfl
  have htotal := total_accepted Slot.weight (fun _ => 6) (fun _ => 2) hg k hserve
  simp only [List.map_const', List.sum_replicate, smul_eq_mul, Slot.weight] at htotal
  rw [weight, weight]
  omega

section Lists

lemma not_on (h : l'.near ≠ l.near) {f : Flight σ α} (hf : f.on l = true) : f.on l' = false := by
  rw [Flight.on, decide_eq_true_eq] at hf
  rw [Flight.on, decide_eq_false_iff_not, hf]
  exact h.symm

lemma filter_on_not (h : l'.near ≠ l.near) (fs : List (Flight σ α)) :
    (fs.filter fun f => !f.on l).filter (Flight.on l') = fs.filter (Flight.on l') := by
  rw [List.filter_filter]
  refine List.filter_congr fun f _ => ?_
  cases hf : f.on l with
  | false => simp
  | true => simp [not_on h hf]

lemma filter_on_self (fs : List (Flight σ α)) :
    (fs.filter fun f => !f.on l).filter (Flight.on l) = [] := by
  rw [List.filter_filter, List.filter_eq_nil_iff]
  intro f _
  cases f.on l <;> decide

lemma mem_asked {f : Flight σ α} (h : f ∈ g.asked l) : f ∈ g.requests ∧ f.on l = true :=
  List.mem_filter.mp h

lemma flatMap_on_self {fs : List (Flight σ α)} (h : ∀ f ∈ fs, f.on l = true) :
    (fs.flatMap fun f => if f.on l then [f] else []) = fs := by
  induction fs with
  | nil => rfl
  | cons f fs ih =>
    rw [List.flatMap_cons, if_pos (h f List.mem_cons_self),
      ih fun f' hf' => h f' (List.mem_cons_of_mem _ hf')]
    rfl

lemma flatMap_on_other {fs : List (Flight σ α)} (h : ∀ f ∈ fs, f.on l = true)
    (hne : l'.near ≠ l.near) : (fs.flatMap fun f => if f.on l' then [f] else []) = [] := by
  rw [List.flatMap_eq_nil_iff]
  intro f hf
  rw [not_on hne (h f hf)]
  rfl

lemma serving_serve (l : Line) (k : Nat) (f : Flight σ α) :
    (Slot.serve k f).serving l = if f.on l then [f] else [] := rfl

lemma accepted_self (hg : g.slots = .reader l.far :: rest) (k : Nat) :
    (g.accepted rest l k).landing l = g.landing l ∧
      (g.accepted rest l k).returning l = g.returning l ∧
      (g.accepted rest l k).serving l = g.serving l ++ g.asked l ∧
      (g.accepted rest l k).asked l = [] := by
  refine ⟨?_, rfl, ?_, filter_on_self g.requests⟩
  · rw [landing, accepted, List.flatMap_append, flatMap_serve (fun _ _ => rfl), landing, hg]
    simp [Slot.landing]
  · rw [serving, accepted, List.flatMap_append, flatMap_serve (serving_serve l), serving, hg,
      flatMap_on_self fun f hf => (mem_asked hf).2]
    rfl

lemma accepted_other (hg : g.slots = .reader l.far :: rest) (k : Nat) (hne : l'.near ≠ l.near) :
    (g.accepted rest l k).landing l' = g.landing l' ∧
      (g.accepted rest l k).returning l' = g.returning l' ∧
      (g.accepted rest l k).serving l' = g.serving l' ∧
      (g.accepted rest l k).asked l' = g.asked l' := by
  refine ⟨?_, rfl, ?_, filter_on_not hne g.requests⟩
  · rw [landing, accepted, List.flatMap_append, flatMap_serve (fun _ _ => rfl), landing, hg]
    simp [Slot.landing]
  · rw [serving, accepted, List.flatMap_append, flatMap_serve (serving_serve l'), serving, hg,
      flatMap_on_other (fun f hf => (mem_asked hf).2) hne, List.append_nil]
    rfl

lemma mem_returning {y : Flight σ α × ReplyContent} (h : y ∈ g.returning l) :
    y ∈ g.replies ∧ y.1.on l = true :=
  List.mem_filter.mp h

lemma heard_self (hg : g.slots = .reader l.near :: rest) :
    (g.heard rest l).landing l = g.landing l ++ g.returning l ∧
      (g.heard rest l).returning l = [] ∧ (g.heard rest l).serving l = g.serving l ∧
      (g.heard rest l).asked l = g.asked l := by
  refine ⟨?_, ?_, ?_, rfl⟩
  · have hon : ((g.returning l).map fun y => Slot.resume y.1 y.2).flatMap (Slot.landing l) =
        g.returning l := by
      rw [List.flatMap_map]
      refine (List.flatMap_congr fun y hy => if_pos (mem_returning hy).2).trans ?_
      exact List.flatMap_singleton' _
    rw [landing, heard, List.flatMap_append, hon, landing, hg]
    rfl
  · rw [returning, heard, List.filter_filter, List.filter_eq_nil_iff]
    intro y _
    cases y.1.on l <;> decide
  · rw [serving, heard, List.flatMap_append, List.flatMap_map, serving, hg]
    simp [Slot.serving]

lemma heard_other (hg : g.slots = .reader l.near :: rest) (hne : l'.near ≠ l.near) :
    (g.heard rest l).landing l' = g.landing l' ∧
      (g.heard rest l).returning l' = g.returning l' ∧
      (g.heard rest l).serving l' = g.serving l' ∧ (g.heard rest l).asked l' = g.asked l' := by
  refine ⟨?_, ?_, ?_, rfl⟩
  · have hoff : ((g.returning l).map fun y => Slot.resume y.1 y.2).flatMap (Slot.landing l') =
        [] := by
      rw [List.flatMap_map, List.flatMap_eq_nil_iff]
      intro y hy
      rw [Slot.landing, not_on hne (mem_returning hy).2]
      rfl
    rw [landing, heard, List.flatMap_append, hoff, List.append_nil, landing, hg]
    rfl
  · rw [returning, heard, List.filter_filter]
    refine List.filter_congr fun y _ => ?_
    cases hy : y.1.on l with
    | false => simp
    | true => simp [not_on hne hy]
  · rw [serving, heard, List.flatMap_append, List.flatMap_map, serving, hg]
    simp [Slot.serving]

end Lists

end Traffic

namespace Slot

def calls : Slot σ α → Nat
  | call _ _ => 1
  | _ => 0

def isReader (p : Port) : Slot σ α → Bool
  | reader q => p == q
  | _ => false

def summons (slots : List (Slot σ α)) (p : Port) : List (Slot σ α) :=
  if slots.any (isReader p) then [] else [reader p]

lemma mem_summons (slots : List (Slot σ α)) (p : Port) : reader p ∈ slots ++ summons slots p := by
  by_cases h : slots.any (isReader p) = true
  · obtain ⟨y, hy, hp⟩ := List.any_eq_true.mp h
    cases y with
    | reader q =>
      rw [isReader, beq_iff_eq] at hp
      rw [hp]
      exact List.mem_append_left _ hy
    | call k t => cases hp
    | inside k t next => cases hp
    | serve k f => cases hp
    | resume f a => cases hp
  · rw [summons, if_neg h]
    exact List.mem_append_right _ List.mem_cons_self

lemma eq_reader_of_mem_summons {slots : List (Slot σ α)} {p : Port} {y : Slot σ α}
    (h : y ∈ summons slots p) : y = reader p := by
  rw [summons] at h
  split at h
  · cases h
  · exact List.mem_singleton.mp h

lemma length_summons_le (slots : List (Slot σ α)) (p : Port) : (summons slots p).length ≤ 1 := by
  rw [summons]
  split
  · exact Nat.zero_le 1
  · exact Nat.le_refl 1

end Slot

namespace Traffic

variable {g : Traffic σ α}

lemma card_sum_map {β γ : Type} (xs : List β) (f : β → Multiset γ) :
    (xs.map f).sum.card = (xs.map fun y => (f y).card).sum := by
  induction xs with
  | nil => rfl
  | cons y xs ih => rw [List.map_cons, List.sum_cons, Multiset.card_add, ih, List.map_cons,
      List.sum_cons]

lemma mem_sum_map {β γ : Type} {xs : List β} {f : β → Multiset γ} {z : γ} :
    z ∈ (xs.map f).sum ↔ ∃ y ∈ xs, z ∈ f y := by
  induction xs with
  | nil => simp
  | cons y xs ih => rw [List.map_cons, List.sum_cons, Multiset.mem_add, ih]; simp

lemma mem_waiting {y : Slot σ α} (hy : y ∈ g.slots) {i : Nat × Trip σ α} (hi : i ∈ y.waiting) :
    i ∈ g.waiting := by
  rw [waiting, total, Multiset.mem_add, Multiset.mem_add, mem_sum_map]
  exact .inl (.inl ⟨y, hy, hi⟩)

lemma mem_parked {z : Parked σ (Except BrokerError α)} (h : z ∈ g.parked) :
    ∃ f : Flight σ α, z = f.parked ∧
      ((∃ k, .serve k f ∈ g.slots) ∨ f ∈ g.requests ∨ ∃ a, (f, a) ∈ g.replies) := by
  rw [parked, total, Multiset.mem_add, Multiset.mem_add, mem_sum_map, mem_sum_map, mem_sum_map] at h
  rcases h with (⟨y, hy, hz⟩ | ⟨f, hf, hz⟩) | ⟨y, hy, hz⟩
  · cases y with
    | serve k f => exact ⟨f, Multiset.mem_singleton.mp hz, .inl ⟨k, hy⟩⟩
    | _ => exact absurd hz (Multiset.notMem_zero z)
  · exact ⟨f, Multiset.mem_singleton.mp hz, .inr (.inl hf)⟩
  · exact ⟨y.1, Multiset.mem_singleton.mp hz, .inr (.inr ⟨y.2, hy⟩)⟩

/-- The calls that wait for a reply on a connection are not yet at their end, and neither are those
that have still to be sent. -/
lemma pending_le (g : Traffic σ α) (l : Line) :
    ((g.returning l).map Prod.fst ++ (g.serving l ++ g.asked l)).length +
        (g.slots.map Slot.calls).sum ≤
      g.waiting.card + g.answered.card := by
  have hslots : (g.slots.flatMap (Slot.serving l)).length +
        (g.slots.map Slot.calls).sum ≤
      (g.slots.map fun y => y.waiting.card).sum + (g.slots.map fun y => y.answered.card).sum := by
    rw [List.length_flatMap, ← List.sum_map_add, ← List.sum_map_add]
    refine List.sum_le_sum fun y _ => ?_
    cases y with
    | serve k f =>
      rw [Slot.serving]
      split <;> simp [Slot.waiting, Slot.calls]
    | _ => simp [Slot.serving, Slot.waiting, Slot.calls]
  have hreturning : (g.returning l).length ≤ g.replies.length := List.length_filter_le _ _
  have hasked : (g.asked l).length ≤ g.requests.length := List.length_filter_le _ _
  have hwaiting : g.waiting.card =
      (g.slots.map fun y => y.waiting.card).sum + g.requests.length := by
    simp [waiting, total, card_sum_map]
  have hanswered : g.answered.card =
      (g.slots.map fun y => y.answered.card).sum + g.replies.length := by
    simp [answered, total, card_sum_map]
  rw [List.length_append, List.length_append, List.length_map, hwaiting, hanswered, serving]
  omega

/-- The first in the queue has had its turn. It has left requests and replies, and readers that will
see to them. -/
structure Pop (g g' : Traffic σ α) (first : Slot σ α) (rest readers : List (Slot σ α))
    (requests : List (Flight σ α)) (replies : List (Flight σ α × ReplyContent)) : Prop where
  before : g.slots = first :: rest
  after : g'.slots = rest ++ readers
  isTask : ∀ p, first ≠ .reader p
  areReaders : ∀ y ∈ readers, ∃ p, y = .reader p
  requests : g'.requests = g.requests ++ requests
  replies : g'.replies = g.replies ++ replies

namespace Pop

lemma of_task {g' : Traffic σ α} {first : Slot σ α} {rest : List (Slot σ α)}
    (hg : g.slots = first :: rest) (htask : ∀ p, first ≠ .reader p) (hrest : g'.slots = rest)
    (hrequests : g'.requests = g.requests) (hreplies : g'.replies = g.replies) :
    Pop g g' first rest [] [] [] where
  before := hg
  after := hrest.trans (List.append_nil _).symm
  isTask := htask
  areReaders _ hy := absurd hy List.not_mem_nil
  requests := hrequests.trans (List.append_nil _).symm
  replies := hreplies.trans (List.append_nil _).symm

variable {g' : Traffic σ α} {first : Slot σ α} {rest readers : List (Slot σ α)}
  {requests : List (Flight σ α)} {replies : List (Flight σ α × ReplyContent)} {l : Line}

lemma shift (h : Pop g g' first rest readers requests replies) :
    Shift g g' { slots := [first] } { slots := readers, requests, replies } :=
  .of_head h.before h.after h.requests h.replies

lemma total {M : Type} [AddCommMonoid M] (h : Pop g g' first rest readers requests replies)
    (slot : Slot σ α → M) (request : Flight σ α → M) (reply : Flight σ α × ReplyContent → M)
    (hr : ∀ p, slot (.reader p) = 0) :
    g'.total slot request reply + slot first =
      g.total slot request reply + ((requests.map request).sum + (replies.map reply).sum) := by
  have hreaders : (readers.map slot).sum = 0 := by
    refine List.sum_eq_zero fun z hz => ?_
    obtain ⟨y, hy, rfl⟩ := List.mem_map.mp hz
    obtain ⟨p, rfl⟩ := h.areReaders y hy
    exact hr p
  have htotal := total_head slot request reply h.shift
  rw [htotal, Traffic.total, Traffic.total, hreaders, zero_add]

lemma parked (h : Pop g g' first rest readers requests replies) :
    g'.parked + first.parked = g.parked + ((requests.map fun f => {f.parked}).sum +
      (replies.map fun y => {y.1.parked}).sum) :=
  h.total Slot.parked _ _ fun _ => rfl

lemma holds (h : Pop g g' first rest readers requests replies) (s : BrokerId) :
    g'.holds s + first.holds s = g.holds s +
      ((requests.map fun f => {f.trip.errand.holding}).sum +
        (replies.map fun y => {y.1.trip.errand.holding}).sum) :=
  h.total (Slot.holds s) _ _ fun _ => rfl

lemma weight (h : Pop g g' first rest readers requests replies) :
    g'.weight + first.weight =
      g.weight + (readers.length + 6 * requests.length + 2 * replies.length) := by
  have hreaders : (readers.map Slot.weight).sum = readers.length := by
    rw [List.map_congr_left (g := fun _ => 1), List.map_const', List.sum_replicate, smul_eq_mul,
      Nat.mul_one]
    intro y hy
    obtain ⟨p, rfl⟩ := h.areReaders y hy
    rfl
  have htotal := total_head Slot.weight (fun _ => 6) (fun _ => 2) h.shift
  rw [Traffic.weight, Traffic.weight, htotal, Traffic.total, Traffic.total, hreaders]
  simp only [List.map_const', List.sum_replicate, smul_eq_mul]
  omega

lemma flatMap_slots {β : Type} (h : Pop g g' first rest readers requests replies)
    {f : Slot σ α → List β} (hf : ∀ p, f (.reader p) = []) :
    g.slots.flatMap f = f first ++ g'.slots.flatMap f := by
  have hreaders : readers.flatMap f = [] := by
    rw [List.flatMap_eq_nil_iff]
    intro y hy
    obtain ⟨p, rfl⟩ := h.areReaders y hy
    exact hf p
  rw [h.before, h.after, List.flatMap_cons, List.flatMap_append, hreaders, List.append_nil]

lemma landing (h : Pop g g' first rest readers requests replies) (l : Line) :
    g.landing l = first.landing l ++ g'.landing l :=
  h.flatMap_slots fun _ => rfl

lemma serving (h : Pop g g' first rest readers requests replies) (l : Line) :
    g.serving l = first.serving l ++ g'.serving l :=
  h.flatMap_slots fun _ => rfl

lemma asked (h : Pop g g' first rest readers requests replies) (l : Line) :
    g'.asked l = g.asked l ++ requests.filter (Flight.on l) := by
  rw [Traffic.asked, h.requests, List.filter_append]
  rfl

lemma returning (h : Pop g g' first rest readers requests replies) (l : Line) :
    g'.returning l = g.returning l ++ replies.filter fun y => y.1.on l := by
  rw [Traffic.returning, h.replies, List.filter_append]
  rfl

lemma other (h : Pop g g' first rest readers requests replies) (hlanding : first.landing l = [])
    (hserving : first.serving l = []) (hrequests : ∀ f ∈ requests, f.on l = false)
    (hreplies : ∀ y ∈ replies, y.1.on l = false) :
    g'.landing l = g.landing l ∧ g'.returning l = g.returning l ∧ g'.serving l = g.serving l ∧
      g'.asked l = g.asked l := by
  have hasked : requests.filter (Flight.on l) = [] := by
    rw [List.filter_eq_nil_iff]
    intro f hf
    rw [hrequests f hf]
    decide
  have hreturning : (replies.filter fun y => y.1.on l) = [] := by
    rw [List.filter_eq_nil_iff]
    intro y hy
    rw [hreplies y hy]
    decide
  rw [h.landing, hlanding, h.returning, hreturning, h.serving, hserving, h.asked, hasked]
  simp

lemma mem_reader (h : Pop g g' first rest readers requests replies) {p : Port}
    (hp : .reader p ∈ g.slots) : .reader p ∈ g'.slots := by
  rw [h.before, List.mem_cons] at hp
  rw [h.after]
  rcases hp with hp | hp
  · exact absurd hp.symm (h.isTask p)
  · exact List.mem_append_left _ hp

end Pop

def sent (g : Traffic σ α) (rest : List (Slot σ α)) (f : Flight σ α) : Traffic σ α :=
  { g with slots := rest ++ Slot.summons rest f.line.far, requests := g.requests ++ [f] }

def replied (g : Traffic σ α) (rest : List (Slot σ α)) (f : Flight σ α) (a : ReplyContent) :
    Traffic σ α :=
  { g with
    slots := rest ++ Slot.summons rest f.line.near
    replies := g.replies ++ [(f, a)]
    log := g.log ++ [(f.issue, a)] }

def landed (g : Traffic σ α) (rest : List (Slot σ α)) (f : Flight σ α) (a : ReplyContent) :
    Traffic σ α :=
  { g with slots := rest, finished := g.finished ++ [(f.issue, a)] }

def settled (g : Traffic σ α) (rest : List (Slot σ α)) (i : Nat × Trip σ α) (a : ReplyContent) :
    Traffic σ α :=
  { g with slots := rest, log := g.log ++ [(i, a)], finished := g.finished ++ [(i, a)] }

section Turns

variable {rest : List (Slot σ α)} {k : Nat} {t : Trip σ α} {f : Flight σ α} {a : ReplyContent}
  {next : ReplyContent → Activity σ (Option (Except BrokerError α))}

lemma pop_sent (hg : g.slots = .call k t :: rest) (f : Flight σ α) :
    Pop g (g.sent rest f) (.call k t) rest (Slot.summons rest f.line.far) [f] [] where
  before := hg
  after := rfl
  isTask p hp := by cases hp
  areReaders y hy := ⟨_, Slot.eq_reader_of_mem_summons hy⟩
  requests := rfl
  replies := (List.append_nil _).symm

lemma pop_replied (hg : g.slots = .serve k f :: rest) (a : ReplyContent) :
    Pop g (g.replied rest f a) (.serve k f) rest (Slot.summons rest f.line.near) [] [(f, a)] where
  before := hg
  after := rfl
  isTask p hp := by cases hp
  areReaders y hy := ⟨_, Slot.eq_reader_of_mem_summons hy⟩
  requests := (List.append_nil _).symm
  replies := rfl

lemma pop_landed (hg : g.slots = .resume f a :: rest) :
    Pop g (g.landed rest f a) (.resume f a) rest [] [] [] :=
  .of_task hg nofun rfl rfl rfl

lemma pop_settled (hg : g.slots = .inside k t next :: rest) (a : ReplyContent) :
    Pop g (g.settled rest (k, t) a) (.inside k t next) rest [] [] [] :=
  .of_task hg nofun rfl rfl rfl

lemma parked_sent (hg : g.slots = .call k t :: rest) (f : Flight σ α) :
    (g.sent rest f).parked = g.parked + {f.parked} := by
  simpa [Slot.parked] using (pop_sent hg f).parked

lemma parked_replied (hg : g.slots = .serve k f :: rest) (a : ReplyContent) :
    (g.replied rest f a).parked = g.parked := by
  simpa [Slot.parked] using (pop_replied hg a).parked

lemma parked_landed (hg : g.slots = .resume f a :: rest) :
    (g.landed rest f a).parked = g.parked := by
  simpa [Slot.parked] using (pop_landed hg).parked

lemma parked_settled (hg : g.slots = .inside k t next :: rest) (a : ReplyContent) :
    (g.settled rest (k, t) a).parked = g.parked := by
  simpa [Slot.parked] using (pop_settled hg a).parked

lemma holds_sent (hg : g.slots = .call k t :: rest) (hi : f.issue = (k, t)) (s : BrokerId) :
    (g.sent rest f).holds s = g.holds s := by
  have hholds := (pop_sent hg f).holds s
  have htrip : f.trip = t := congrArg Prod.snd hi
  simpa [Slot.holds, htrip] using hholds

lemma holds_replied (hg : g.slots = .serve k f :: rest) (a : ReplyContent) (s : BrokerId) :
    g.holds s = {.broker s} + (g.replied rest f a).holds s := by
  have hholds := (pop_replied hg a).holds s
  rw [Slot.holds, ← add_assoc] at hholds
  simp only [List.map_nil, List.sum_nil, List.map_cons, List.sum_cons, add_zero, zero_add] at hholds
  rw [← add_right_cancel hholds, add_comm]

lemma holds_landed (hg : g.slots = .resume f a :: rest) (s : BrokerId) :
    g.holds s = {f.trip.errand.holding} + (g.landed rest f a).holds s := by
  rw [add_comm]
  simpa [Slot.holds] using ((pop_landed hg).holds s).symm

lemma holds_settled (hg : g.slots = .inside k t next :: rest) (a : ReplyContent) (s : BrokerId) :
    g.holds s = {t.errand.holding} + (g.settled rest (k, t) a).holds s := by
  rw [add_comm]
  simpa [Slot.holds] using ((pop_settled hg a).holds s).symm

lemma weight_sent_lt (hg : g.slots = .call k t :: rest) (f : Flight σ α) :
    (g.sent rest f).weight < g.weight := by
  have hweight := (pop_sent hg f).weight
  have hreaders := Slot.length_summons_le rest f.line.far
  simp only [Slot.weight, List.length_singleton, List.length_nil] at hweight
  omega

lemma weight_replied_lt (hg : g.slots = .serve k f :: rest) (a : ReplyContent) :
    (g.replied rest f a).weight < g.weight := by
  have hweight := (pop_replied hg a).weight
  have hreaders := Slot.length_summons_le rest f.line.near
  simp only [Slot.weight, List.length_singleton, List.length_nil] at hweight
  omega

lemma weight_landed_lt (hg : g.slots = .resume f a :: rest) :
    (g.landed rest f a).weight < g.weight := by
  have hweight := (pop_landed hg).weight
  simp only [Slot.weight, List.length_nil] at hweight
  omega

lemma weight_settled_lt (hg : g.slots = .inside k t next :: rest) (a : ReplyContent) :
    (g.settled rest (k, t) a).weight < g.weight := by
  have hweight := (pop_settled hg a).weight
  simp only [Slot.weight, List.length_nil] at hweight
  omega

end Turns

def entered (g : Traffic σ α) (rest : List (Slot σ α)) (k : Nat) (t : Trip σ α)
    (next : ReplyContent → Activity σ (Option (Except BrokerError α))) : Traffic σ α :=
  { g with slots := .inside k t next :: rest }

section Entered

variable {k : Nat} {t : Trip σ α} {rest : List (Slot σ α)}
  {next : ReplyContent → Activity σ (Option (Except BrokerError α))}

lemma shift_entered (hg : g.slots = .call k t :: rest) :
    Shift g (g.entered rest k t next) { slots := [.call k t] } { slots := [.inside k t next] } where
  slots := by
    rw [hg]
    exact (List.perm_append_singleton _ _).trans
      ((List.Perm.swap _ _ _).trans (List.perm_append_singleton _ _).symm)
  requests := .refl _
  replies := .refl _

lemma total_entered {M : Type} [AddCommMonoid M] (hg : g.slots = .call k t :: rest)
    {slot : Slot σ α → M} {request : Flight σ α → M} {reply : Flight σ α × ReplyContent → M}
    (hs : slot (.inside k t next) = slot (.call k t)) :
    (g.entered rest k t next).total slot request reply = g.total slot request reply := by
  simp only [total, entered, hg, List.map_cons, List.sum_cons, hs]

lemma waiting_entered (hg : g.slots = .call k t :: rest) :
    (g.entered rest k t next).waiting = g.waiting :=
  total_entered hg rfl

lemma answered_entered (hg : g.slots = .call k t :: rest) :
    (g.entered rest k t next).answered = g.answered :=
  total_entered hg rfl

lemma parked_entered (hg : g.slots = .call k t :: rest) :
    (g.entered rest k t next).parked = g.parked :=
  total_entered hg rfl

lemma holds_entered (hg : g.slots = .call k t :: rest) (s : BrokerId) :
    (g.entered rest k t next).holds s = g.holds s :=
  total_entered hg rfl

lemma flatMap_entered {β : Type} (hg : g.slots = .call k t :: rest) {f : Slot σ α → List β}
    (hf : f (.inside k t next) = f (.call k t)) :
    (g.entered rest k t next).slots.flatMap f = g.slots.flatMap f := by
  rw [entered, hg, List.flatMap_cons, List.flatMap_cons, hf]

lemma weight_entered_lt (hg : g.slots = .call k t :: rest) :
    (g.entered rest k t next).weight < g.weight := by
  simp only [weight, total, entered, hg, List.map_cons, List.sum_cons, Slot.weight]
  omega

end Entered

end Traffic

end ObjectBroker
