import Mathlib.Data.List.Perm.Subperm
import ObjectBroker.Proofs.Connection.Ticket
import ObjectBroker.Proofs.Connection.Work

/-!
The count of work on a connection is exact, and nobody is left waiting on one that has been closed.
-/

namespace ObjectBroker

structure Numbered (c : Connection) (ids : Nat) (places : List Place) : Prop where
  numbered : ∀ x ∈ places, (x.request.toNat + 2 * (ids - x.rank)) % 2 ^ 32 = c.nextRequest.toNat
  earlier : ∀ x ∈ places, x.rank < ids
  ranks : (places.map (·.rank)).Nodup
  known : ∀ x ∈ places, x.waiter < c.nextWaiter
  waiters : (places.map (·.waiter)).Nodup

namespace Numbered

variable {c d : Connection} {ids : Nat} {places places' : List Place} {x y : Place}

lemma sublist (h : Numbered c ids places) (hs : places'.Sublist places)
    (hr : d.nextRequest = c.nextRequest) (hw : d.nextWaiter = c.nextWaiter) :
    Numbered d ids places' where
  numbered x hx := by
    rw [hr]
    exact h.numbered x (hs.subset hx)
  earlier x hx := h.earlier x (hs.subset hx)
  ranks := h.ranks.sublist (hs.map _)
  known x hx := by
    rw [hw]
    exact h.known x (hs.subset hx)
  waiters := h.waiters.sublist (hs.map _)

lemma eq_of_request (h : Numbered c ids places) (hids : ids < 2 ^ 31) (hx : x ∈ places)
    (hy : y ∈ places) (hr : x.request = y.request) : x = y := by
  have hxn := h.numbered x hx
  have hyn := h.numbered y hy
  have hxe := h.earlier x hx
  have hye := h.earlier y hy
  rw [hr] at hxn
  exact List.inj_on_of_nodup_map h.ranks hx hy (by omega)

lemma eq_of_waiter (h : Numbered c ids places) (hx : x ∈ places) (hy : y ∈ places)
    (hw : x.waiter = y.waiter) : x = y :=
  List.inj_on_of_nodup_map h.waiters hx hy hw

lemma request_ne (h : Numbered c ids places) (hids : ids < 2 ^ 31) (hx : x ∈ places) :
    x.request ≠ c.nextRequest := by
  intro hr
  have hn := h.numbered x hx
  have he := h.earlier x hx
  have hlt := c.nextRequest.toNat_lt
  rw [hr] at hn
  omega

lemma number (h : Numbered c ids places) (hr : d.nextRequest = c.nextRequest + 2)
    (hw : d.nextWaiter = c.nextWaiter) : Numbered d (ids + 1) places where
  numbered x hx := by
    have hn := h.numbered x hx
    have he := h.earlier x hx
    have hadd : d.nextRequest.toNat = (c.nextRequest.toNat + 2) % 2 ^ 32 := by
      rw [hr]
      exact UInt32.toNat_add _ _
    omega
  earlier x hx := Nat.lt_succ_of_lt (h.earlier x hx)
  ranks := h.ranks
  known x hx := by
    rw [hw]
    exact h.known x hx
  waiters := h.waiters

lemma enter (h : Numbered c ids places) (hr : d.nextRequest = c.nextRequest + 2)
    (hw : d.nextWaiter = c.nextWaiter + 1) :
    Numbered d (ids + 1) (⟨⟨c.nextRequest, c.nextWaiter⟩, ids⟩ :: places) := by
  have hnumber := h.number (d := { d with nextWaiter := c.nextWaiter }) hr rfl
  have hadd : d.nextRequest.toNat = (c.nextRequest.toNat + 2) % 2 ^ 32 := by
    rw [hr]
    exact UInt32.toNat_add _ _
  have hrank : ids ∉ places.map (·.rank) := by
    intro hm
    obtain ⟨x, hx, hxr⟩ := List.mem_map.mp hm
    exact Nat.ne_of_lt (h.earlier x hx) hxr
  have hwaiter : c.nextWaiter ∉ places.map (·.waiter) := by
    intro hm
    obtain ⟨x, hx, hxw⟩ := List.mem_map.mp hm
    exact Nat.ne_of_lt (h.known x hx) hxw
  refine ⟨?_, ?_, List.nodup_cons.mpr ⟨hrank, h.ranks⟩, ?_, List.nodup_cons.mpr ⟨hwaiter, h.waiters⟩⟩
  · intro x hx
    rcases List.mem_cons.mp hx with rfl | hx
    · show (c.nextRequest.toNat + 2 * (ids + 1 - ids)) % 2 ^ 32 = _
      omega
    · exact hnumber.numbered x hx
  · intro x hx
    rcases List.mem_cons.mp hx with rfl | hx
    · exact Nat.lt_succ_self ids
    · exact hnumber.earlier x hx
  · intro x hx
    rw [hw]
    rcases List.mem_cons.mp hx with rfl | hx
    · exact Nat.lt_succ_self _
    · exact Nat.lt_succ_of_lt (h.known x hx)

end Numbered

def Place.Stands (c : Connection) (k : Work) (x : Place) : Phase → Prop
  | .registered => x.Known c
  | .writing | .waiting => x.Known c ∧ k.drained = false ∧ (k.Failed → ¬ x.Pending c)
  | .refused => True
  | .unsent => k.Failed → ¬ x.Pending c
  | .leaving => ¬ x.Pending c

structure Agrees (c : Connection) (k : Work) : Prop where
  counted : c.outstanding = k.count
  numbered : Numbered c k.ids k.places
  unique : c.Distinct
  owned : ∀ e ∈ c.pending, ∃ x ∈ k.places, (x.request, x.waiter) = e
  answered : ∀ e ∈ c.responses, e.1 < c.nextWaiter
  /-- Whoever has an answer is not waited for any more. -/
  once : ∀ e ∈ c.pending, c.response? e.2 = none
  placed : ∀ x phase, (x, phase) ∈ k.requests → x.Stands c k phase
  staged : k.closing ≠ .before ∨ k.finishing ≠ .before ∨ k.drained = true → 2 ≤ c.state.rank

namespace Connection

variable {c : Connection}

lemma rank_lt_of_checkOpen (h : c.checkOpen = .ok ()) : c.state.rank < 2 := by
  rw [checkOpen] at h
  cases hs : c.state with
  | connecting => decide
  | established => decide
  | closing =>
    rw [hs] at h
    cases h
  | closed =>
    rw [hs] at h
    cases h

lemma checkOpen_of_rank (h : 2 ≤ c.state.rank) : ∃ e, c.checkOpen = .error e := by
  rw [checkOpen]
  cases hs : c.state with
  | connecting =>
    rw [hs] at h
    exact absurd h (by decide)
  | established =>
    rw [hs] at h
    exact absurd h (by decide)
  | closing => exact ⟨_, rfl⟩
  | closed => exact ⟨_, rfl⟩

lemma rank_le_setState (c : Connection) (s : ConnectionState) :
    c.state.rank ≤ (c.setState s).state.rank ∧ s.rank ≤ (c.setState s).state.rank := by
  rw [setState]
  split
  · next h => exact ⟨Nat.le_of_lt h, Nat.le_refl _⟩
  · next h => exact ⟨Nat.le_refl _, Nat.le_of_not_lt h⟩

lemma alike_setState (c : Connection) (s : ConnectionState) :
    ∃ state, c.setState s = { c with state } := by
  rw [setState]
  split
  · exact ⟨s, rfl⟩
  · exact ⟨c.state, rfl⟩

lemma beginClose?_eq_some {d : Connection} (h : c.beginClose? = some d) :
    c.state.rank < 2 ∧ d = { c with state := .closing } := by
  rw [beginClose?] at h
  cases hs : c.state with
  | connecting =>
    rw [hs] at h
    cases h
    exact ⟨by decide, rfl⟩
  | established =>
    rw [hs] at h
    cases h
    exact ⟨by decide, rfl⟩
  | closing =>
    rw [hs] at h
    cases h
  | closed =>
    rw [hs] at h
    cases h

lemma response?_eq_none_of_sublist {d : Connection} (h : d.responses.Sublist c.responses)
    {waiter : WaiterId} (hn : c.response? waiter = none) : d.response? waiter = none :=
  List.lookup_eq_none_iff.mpr fun e he => List.lookup_eq_none_iff.mp hn e (h.subset he)

lemma response?_takeResponse {waiter other : WaiterId} (h : waiter ≠ other) :
    (c.takeResponse other).response? waiter = c.response? waiter := by
  unfold response? takeResponse
  dsimp only
  induction c.responses with
  | nil => rfl
  | cons e l ih =>
    by_cases he : e.1 = other
    · have hne : waiter ≠ e.1 := by rwa [he]
      rw [List.filter_cons_of_neg (by simp [he]), ih, List.lookup_cons,
        beq_eq_false_iff_ne.mpr hne]
    · rw [List.filter_cons_of_pos (by simp [he]), List.lookup_cons, List.lookup_cons, ih]

lemma state_complete (c : Connection) (request : UInt32) (r : Response) :
    (c.complete request r).state = c.state := by
  rw [complete]
  split <;> rfl

lemma state_register (c : Connection) : c.register.2.2.state = c.state := by
  rw [register]
  dsimp only
  split <;> rfl

end Connection

namespace Place.Stands

variable {c d : Connection} {k k' : Work} {x : Place} {phase : Phase}

lemma transfer (h : x.Stands c k phase) (hknown : x.Known c → x.Known d)
    (hpending : x.Pending d → x.Pending c) (hdrained : k'.drained = k.drained)
    (hfailed : k'.Failed → k.Failed) : x.Stands d k' phase := by
  cases phase with
  | registered => exact hknown h
  | refused => trivial
  | unsent => exact fun hf hp => h (hfailed hf) (hpending hp)
  | leaving => exact fun hp => h (hpending hp)
  | writing =>
    exact ⟨hknown h.1, hdrained.trans h.2.1, fun hf hp => h.2.2 (hfailed hf) (hpending hp)⟩
  | waiting =>
    exact ⟨hknown h.1, hdrained.trans h.2.1, fun hf hp => h.2.2 (hfailed hf) (hpending hp)⟩

end Place.Stands

namespace Agrees

variable {c d : Connection} {k k' : Work} {x y : Place} {phase phase' : Phase}
  {front back : List (Place × Phase)}

lemma places_eq (h : k.requests = front ++ (x, phase) :: back) :
    k.places = front.map (·.1) ++ x :: back.map (·.1) := by
  rw [Work.places, h, List.map_append, List.map_cons]

lemma ne_of_mem (h : Agrees c k) (hk : k.requests = front ++ (x, phase) :: back)
    (hy : (y, phase') ∈ front ++ back) : y ≠ x := by
  have hw := h.numbered.waiters
  rw [places_eq hk, List.map_append, List.map_cons, List.nodup_middle, List.nodup_cons] at hw
  rintro rfl
  refine hw.1 ?_
  rw [← List.map_append, ← List.map_append, List.map_map]
  exact List.mem_map_of_mem hy

lemma mem_places (h : (x, phase) ∈ k.requests) : x ∈ k.places :=
  List.mem_map_of_mem h

/-- One request goes on to its next phase, and may take what concerns it alone from the
connection. -/
lemma move (h : Agrees c k) (hk : k.requests = front ++ (x, phase) :: back)
    (hcount : d.outstanding = c.outstanding) (hstate : d.state = c.state)
    (hrequest : d.nextRequest = c.nextRequest) (hwaiter : d.nextWaiter = c.nextWaiter)
    (hsub : d.pending.Sublist c.pending) (hless : d.responses.Sublist c.responses)
    (hknown : ∀ y ∈ k.places, y ≠ x → y.Known c → y.Known d)
    (hplaced : x.Stands d { k with requests := front ++ (x, phase') :: back } phase') :
    Agrees d { k with requests := front ++ (x, phase') :: back } := by
  have hplaces : Work.places { k with requests := front ++ (x, phase') :: back } = k.places := by
    rw [places_eq hk]
    exact places_eq rfl
  refine ⟨?_, ?_, h.unique.sublist (hsub.map _), ?_, ?_, ?_, ?_, ?_⟩
  · rw [hcount, h.counted, Work.count, Work.count, hk]
    simp
  · rw [hplaces]
    exact h.numbered.sublist (List.Sublist.refl _) hrequest hwaiter
  · rw [hplaces]
    exact fun e he => h.owned e (hsub.subset he)
  · rw [hwaiter]
    exact fun e he => h.answered e (hless.subset he)
  · exact fun e he => Connection.response?_eq_none_of_sublist hless (h.once e (hsub.subset he))
  · intro y phase'' hy
    have hcases : (y, phase'') = (x, phase') ∨ (y, phase'') ∈ front ++ back := by
      simp only [List.mem_append, List.mem_cons] at hy ⊢
      tauto
    rcases hcases with heq | hy
    · cases heq
      exact hplaced
    · have hold : (y, phase'') ∈ k.requests := by
        rw [hk]
        simp only [List.mem_append, List.mem_cons] at hy ⊢
        tauto
      exact (h.placed y phase'' hold).transfer (hknown y (mem_places hold) (h.ne_of_mem hk hy))
        (fun hp => hsub.subset hp) rfl id
  · rw [hstate]
    exact h.staged

lemma frame (h : Agrees c k) (hcount : d.outstanding = k'.count) (hids : k'.ids = k.ids)
    (hrequests : k'.requests = k.requests) (hrequest : d.nextRequest = c.nextRequest)
    (hwaiter : d.nextWaiter = c.nextWaiter) (hpending : d.pending = c.pending)
    (hresponses : d.responses = c.responses) (hdrained : k'.drained = k.drained)
    (hfailed : k'.Failed → k.Failed)
    (hstaged : k'.closing ≠ .before ∨ k'.finishing ≠ .before ∨ k'.drained = true →
      2 ≤ d.state.rank) : Agrees d k' := by
  have hplaces : k'.places = k.places := by rw [Work.places, hrequests, Work.places]
  have hresponse : ∀ n, d.response? n = c.response? n := by
    intro n
    rw [Connection.response?, Connection.response?, hresponses]
  refine ⟨hcount, ?_, ?_, ?_, ?_, ?_, ?_, hstaged⟩
  · rw [hplaces, hids]
    exact h.numbered.sublist (List.Sublist.refl _) hrequest hwaiter
  · rw [Connection.Distinct, hpending]
    exact h.unique
  · rw [hpending, hplaces]
    exact h.owned
  · rw [hresponses, hwaiter]
    exact h.answered
  · intro e he
    rw [hresponse]
    rw [hpending] at he
    exact h.once e he
  · intro y phase hy
    rw [hrequests] at hy
    refine (h.placed y phase hy).transfer ?_ ?_ hdrained hfailed
    · rw [Ticket.Known, Ticket.Known, Ticket.Pending, Ticket.Pending, hpending, hresponse]
      exact id
    · rw [Ticket.Pending, Ticket.Pending, hpending]
      exact id

lemma recount (h : Agrees c k) {n starting oneways dispatches : Nat}
    (hn : n = starting + k.requests.length + oneways + dispatches) :
    Agrees { c with outstanding := n } { k with starting, oneways, dispatches } :=
  h.frame hn rfl rfl rfl rfl rfl rfl rfl id h.staged

lemma register_eq (h : Agrees c k) (hids : k.ids < 2 ^ 31) :
    c.register = (c.nextRequest, c.nextWaiter, { c.takeRequestId.2 with
      nextWaiter := c.nextWaiter + 1, pending := (c.nextRequest, c.nextWaiter) :: c.pending }) := by
  have hfree : c.pending.lookup c.nextRequest = none := by
    refine List.lookup_eq_none_iff.mpr fun e he => ?_
    obtain ⟨x, hx, rfl⟩ := h.owned e he
    exact bne_iff_ne.mpr (h.numbered.request_ne hids hx).symm
  rw [Connection.register, Connection.takeRequestId]
  dsimp only
  rw [hfree]

lemma register (h : Agrees c k) (hids : k.ids < 2 ^ 31) {n : Nat} (hk : k.starting = n + 1) :
    Agrees c.register.2.2 { k with
      starting := n
      requests := (⟨⟨c.register.1, c.register.2.1⟩, k.ids⟩, .registered) :: k.requests
      ids := k.ids + 1 } := by
  rw [h.register_eq hids]
  have hfresh : c.nextRequest ∉ c.pending.map (·.1) := by
    intro hm
    obtain ⟨e, he, hq⟩ := List.mem_map.mp hm
    obtain ⟨x, hx, rfl⟩ := h.owned e he
    exact h.numbered.request_ne hids hx hq
  refine ⟨?_, h.numbered.enter rfl rfl, List.nodup_cons.mpr ⟨hfresh, h.unique⟩, ?_, ?_, ?_, ?_,
    h.staged⟩
  · change c.outstanding = n + (k.requests.length + 1) + k.oneways + k.dispatches
    rw [h.counted, Work.count]
    omega
  · intro e he
    rcases List.mem_cons.mp he with rfl | he
    · exact ⟨_, List.mem_cons_self, rfl⟩
    · obtain ⟨x, hx, hxe⟩ := h.owned e he
      exact ⟨x, List.mem_cons_of_mem _ hx, hxe⟩
  · exact fun e he => Nat.lt_succ_of_lt (h.answered e he)
  · intro e he
    rcases List.mem_cons.mp he with rfl | he
    · refine List.lookup_eq_none_iff.mpr fun a ha => bne_iff_ne.mpr ?_
      exact (Nat.ne_of_lt (h.answered a ha)).symm
    · exact h.once e he
  · intro y phase hy
    rcases List.mem_cons.mp hy with heq | hy
    · cases heq
      exact .inl List.mem_cons_self
    · have hne : y.waiter ≠ c.nextWaiter := Nat.ne_of_lt (h.numbered.known y (mem_places hy))
      refine (h.placed y phase hy).transfer ?_ ?_ rfl id
      · rintro (hp | hr)
        · exact .inl (List.mem_cons_of_mem _ hp)
        · exact .inr hr
      · intro hp
        refine (List.mem_cons.mp hp).resolve_left fun heq => hne ?_
        exact congrArg Prod.snd heq

lemma leave (h : Agrees c k) (hk : k.requests = front ++ (x, .leaving) :: back) :
    Agrees c.untrack { k with requests := front ++ back } := by
  -- Only one who has given its place up returns, so that nobody else loses an entry by it.
  have hgone : ¬ x.Pending c := by
    refine h.placed x .leaving ?_
    rw [hk]
    exact List.mem_append_right _ List.mem_cons_self
  have hplaces : k.places = front.map (·.1) ++ x :: back.map (·.1) := places_eq hk
  have hrest : Work.places { k with requests := front ++ back } =
      front.map (·.1) ++ back.map (·.1) := List.map_append
  refine ⟨?_, ?_, h.unique, ?_, h.answered, h.once, ?_, h.staged⟩
  · change c.outstanding - 1 = k.starting + (front ++ back).length + k.oneways + k.dispatches
    rw [h.counted, Work.count, hk]
    simp only [List.length_append, List.length_cons]
    omega
  · rw [hrest]
    refine h.numbered.sublist ?_ rfl rfl
    rw [hplaces]
    exact (List.Sublist.refl _).append (List.sublist_cons_self _ _)
  · intro e he
    obtain ⟨y, hy, rfl⟩ := h.owned e he
    refine ⟨y, ?_, rfl⟩
    rw [hrest]
    rw [hplaces] at hy
    rcases List.mem_append.mp hy with hy | hy
    · exact List.mem_append_left _ hy
    · rcases List.mem_cons.mp hy with rfl | hy
      · exact absurd he hgone
      · exact List.mem_append_right _ hy
  · intro y phase hy
    refine (h.placed y phase ?_).transfer id id rfl id
    rw [hk]
    rcases List.mem_append.mp hy with hy | hy
    · exact List.mem_append_left _ hy
    · exact List.mem_append_right _ (List.mem_cons_of_mem _ hy)

lemma reply (h : Agrees c k) (request : UInt32) (r : Response) :
    Agrees (c.complete request r) k := by
  have hknown : ∀ x : Place, x.Known c → x.Known (c.complete request r) :=
    fun x hx => Ticket.known_complete hx h.unique request r
  have hpending : ∀ x : Place, x.Pending (c.complete request r) → x.Pending c :=
    fun x => Ticket.pending_complete
  rw [Connection.complete] at hknown hpending ⊢
  cases hl : c.pending.lookup request with
  | none => exact h
  | some n =>
    rw [hl] at hknown hpending
    obtain ⟨front, back, hsplit, -⟩ := List.lookup_eq_some_iff.mp hl
    have hmem : (request, n) ∈ c.pending := by
      rw [hsplit]
      exact List.mem_append_right _ List.mem_cons_self
    obtain ⟨x, hx, hxe⟩ := h.owned _ hmem
    cases hxe
    refine ⟨h.counted, ?_, h.unique.forget _, ?_, ?_, ?_, ?_, h.staged⟩
    · exact h.numbered.sublist (List.Sublist.refl _) rfl rfl
    · exact fun e he => h.owned e (List.mem_of_mem_filter he)
    · intro e he
      rcases List.mem_cons.mp he with rfl | he
      · exact h.numbered.known x hx
      · exact h.answered e he
    · intro e he
      obtain ⟨he, hne⟩ := List.mem_filter.mp he
      obtain ⟨y, hy, rfl⟩ := h.owned e he
      have hw : y.waiter ≠ x.waiter := by
        intro hw
        rw [h.numbered.eq_of_waiter hy hx hw] at hne
        exact absurd rfl (bne_iff_ne.mp hne)
      change List.lookup y.waiter ((x.waiter, r) :: c.responses) = none
      rw [List.lookup_cons, beq_eq_false_iff_ne.mpr hw]
      exact h.once _ he
    · exact fun y phase hy => (h.placed y phase hy).transfer (hknown y) (hpending y) rfl id

lemma failPending (h : Agrees c k) (e : BrokerError) (hcount : k'.count = k.count)
    (hids : k'.ids = k.ids) (hrequests : k'.requests = k.requests)
    (hdrained : k'.drained = k.drained) (hrank : 2 ≤ c.state.rank) :
    Agrees (c.failPending e) k' := by
  have hplaces : k'.places = k.places := by rw [Work.places, hrequests, Work.places]
  refine ⟨h.counted.trans hcount.symm, ?_, List.nodup_nil, ?_, ?_, ?_, ?_, fun _ => hrank⟩
  · rw [hplaces, hids]
    exact h.numbered.sublist (List.Sublist.refl _) rfl rfl
  · intro e he
    cases he
  · intro a ha
    rcases List.mem_append.mp ha with ha | ha
    · obtain ⟨e, he, rfl⟩ := List.mem_map.mp ha
      obtain ⟨x, hx, rfl⟩ := h.owned e he
      exact h.numbered.known x hx
    · exact h.answered a ha
  · intro e he
    cases he
  · intro y phase hy
    rw [hrequests] at hy
    have hgone : ¬ y.Pending (c.failPending e) := fun hp => by cases hp
    have hstands := h.placed y phase hy
    cases phase with
    | registered => exact Ticket.known_failPending hstands e
    | refused => trivial
    | unsent => exact fun _ => hgone
    | leaving => exact hgone
    | writing =>
      exact ⟨Ticket.known_failPending hstands.1 e, hdrained.trans hstands.2.1, fun _ => hgone⟩
    | waiting =>
      exact ⟨Ticket.known_failPending hstands.1 e, hdrained.trans hstands.2.1, fun _ => hgone⟩

end Agrees

lemma Step.rank_le {s s' : Connection × Work} (h : Step s s') :
    s.1.state.rank ≤ s'.1.state.rank := by
  cases h with
  | establish => exact (Connection.rank_le_setState _ _).1
  | endClose => exact (Connection.rank_le_setState _ _).1
  | beginFinish => exact (Connection.rank_le_setState _ _).1
  | register => exact Nat.le_of_eq (congrArg _ (Connection.state_register _)).symm
  | reply request r => exact Nat.le_of_eq (congrArg _ (Connection.state_complete _ request r)).symm
  | beginClose h =>
    obtain ⟨hlt, rfl⟩ := Connection.beginClose?_eq_some h
    exact Nat.le_of_lt hlt
  | aside h => exact Nat.le_of_eq (congrArg _ h.state).symm
  | _ => exact Nat.le_refl _

lemma Steps.rank_le {s s' : Connection × Work} (h : Steps s s') :
    s.1.state.rank ≤ s'.1.state.rank := by
  induction h with
  | refl => exact Nat.le_refl _
  | tail _ step ih => exact Nat.le_trans ih step.rank_le

lemma Step.ids_le {s s' : Connection × Work} (h : Step s s') : s.2.ids ≤ s'.2.ids := by
  cases h with
  | register => exact Nat.le_succ _
  | number => exact Nat.le_succ _
  | _ => exact Nat.le_refl _

namespace Agrees

variable {c : Connection} {k k' : Work} {x : Place} {phase : Phase}
  {front back : List (Place × Phase)}

lemma stands (h : Agrees c k) (hk : k.requests = front ++ (x, phase) :: back) :
    x.Stands c k phase ∧ x ∈ k.places := by
  have hmem : (x, phase) ∈ k.requests := by
    rw [hk]
    exact List.mem_append_right _ List.mem_cons_self
  exact ⟨h.placed x phase hmem, mem_places hmem⟩

lemma advance (h : Agrees c k) (hk : k.requests = front ++ (x, phase) :: back) {phase' : Phase}
    (hplaced : x.Stands c { k with requests := front ++ (x, phase') :: back } phase') :
    Agrees c { k with requests := front ++ (x, phase') :: back } :=
  h.move hk rfl rfl rfl rfl (List.Sublist.refl _) (List.Sublist.refl _) (fun _ _ _ => id) hplaced

lemma pass (h : Agrees c k) (hk : k.requests = front ++ (x, .registered) :: back)
    (ho : c.checkOpen = .ok ()) :
    Agrees c { k with requests := front ++ (x, .writing) :: back } := by
  -- The connection was found open, so that nobody has begun to end it.
  have hrank := Connection.rank_lt_of_checkOpen ho
  have hno := fun hs => Nat.not_le_of_lt hrank (h.staged hs)
  have hdrained : k.drained = false := by
    cases hd : k.drained with
    | false => rfl
    | true => exact absurd (.inr (.inr hd)) hno
  have hfailed : ¬ k.Failed := by
    rintro (hf | hf | hf)
    · exact hno (.inl (by simp [hf]))
    · exact hno (.inl (by simp [hf]))
    · exact hno (.inr (.inl (by simp [hf])))
  exact h.advance hk ⟨(h.stands hk).1, hdrained, fun hf => absurd hf hfailed⟩

lemma forget (h : Agrees c k) (hids : k.ids < 2 ^ 31)
    (hk : k.requests = front ++ (x, phase) :: back) :
    Agrees (c.forget x.request) { k with requests := front ++ (x, .leaving) :: back } := by
  have hx := (h.stands hk).2
  refine h.move hk rfl rfl rfl rfl List.filter_sublist (List.Sublist.refl _) ?_ ?_
  · rintro y hy hne (hp | hr)
    · refine .inl (List.mem_filter.mpr ⟨hp, bne_iff_ne.mpr fun hq => hne ?_⟩)
      exact h.numbered.eq_of_request hids hy hx hq
    · exact .inr hr
  · intro hp
    exact absurd rfl (bne_iff_ne.mp (List.mem_filter.mp hp).2)

lemma collect (h : Agrees c k) (hk : k.requests = front ++ (x, phase) :: back) {r : Response}
    (hr : c.response? x.waiter = some r) :
    Agrees (c.takeResponse x.waiter) { k with requests := front ++ (x, .leaving) :: back } := by
  have hx := (h.stands hk).2
  refine h.move hk rfl rfl rfl rfl (List.Sublist.refl _) List.filter_sublist ?_ ?_
  · rintro y hy hne (hp | hr)
    · exact .inl hp
    · have hw : y.waiter ≠ x.waiter := fun hw => hne (h.numbered.eq_of_waiter hy hx hw)
      exact .inr (by rwa [Connection.response?_takeResponse hw])
  · -- The answer has taken the place away.
    intro hp
    have hnone := h.once _ hp
    rw [hr] at hnone
    cases hnone

lemma setState (h : Agrees c k) (state : ConnectionState) (hcount : k'.count = k.count)
    (hids : k'.ids = k.ids) (hrequests : k'.requests = k.requests)
    (hdrained : k'.drained = k.drained) (hfailed : k'.Failed → k.Failed)
    (hstaged : (k'.closing = k.closing ∧ k'.finishing = k.finishing) ∨ 2 ≤ state.rank) :
    Agrees (c.setState state) k' := by
  obtain ⟨hle, hstate⟩ := c.rank_le_setState state
  have hlater : k'.closing ≠ .before ∨ k'.finishing ≠ .before ∨ k'.drained = true →
      2 ≤ (c.setState state).state.rank := by
    intro hs
    rcases hstaged with ⟨hclosing, hfinishing⟩ | hrank
    · rw [hclosing, hfinishing, hdrained] at hs
      exact Nat.le_trans (h.staged hs) hle
    · exact Nat.le_trans hrank hstate
  obtain ⟨later, heq⟩ := c.alike_setState state
  rw [heq] at hlater ⊢
  exact h.frame (h.counted.trans hcount.symm) hids hrequests rfl rfl rfl rfl hdrained hfailed hlater

end Agrees

lemma Step.agrees {c d : Connection} {k l : Work} (step : Step (c, k) (d, l)) (h : Agrees c k)
    (hids : l.ids < 2 ^ 31) : Agrees d l := by
  have hbefore : k.ids < 2 ^ 31 := Nat.lt_of_le_of_lt step.ids_le hids
  have hcounted := h.counted
  rw [Work.count] at hcounted
  cases step with
  | establish => exact h.setState .established rfl rfl rfl rfl id (.inl ⟨rfl, rfl⟩)
  | start => exact h.recount (by omega)
  | register hk => exact h.register hbefore hk
  | pass hk ho => exact h.pass hk ho
  | refuse hk ho => exact h.advance hk trivial
  | written hk => exact h.advance hk (h.stands hk).1
  | unwritten hk => exact h.advance hk (h.stands hk).1.2.2
  | undo hk hx => exact h.forget hbefore hk
  | expire hk => exact h.forget hbefore hk
  | collect hk hr => exact h.collect hk hr
  | leave hk => exact h.leave hk
  | startOneway => exact h.recount (by omega)
  | number ho => exact ⟨h.counted, h.numbered.number rfl rfl, h.unique, h.owned, h.answered, h.once,
      fun x phase hx => (h.placed x phase hx).transfer id id rfl id, h.staged⟩
  | endOneway ho => exact h.recount (by omega)
  | startDispatch => exact h.recount (by omega)
  | endDispatch hd => exact h.recount (by omega)
  | reply request r => exact h.reply request r
  | beginClose hb =>
    obtain ⟨-, rfl⟩ := Connection.beginClose?_eq_some hb
    refine h.frame h.counted rfl rfl rfl rfl rfl rfl rfl ?_ fun _ => Nat.le_refl 2
    rintro (hf | hf | hf)
    · cases hf
    · cases hf
    · exact .inr (.inr hf)
  | drain hb hi =>
    -- No request is left, so that none has been let through.
    have hnone : k.requests = [] := by
      have hz : c.outstanding = 0 := beq_iff_eq.mp hi
      exact List.eq_nil_of_length_eq_zero (by omega)
    refine ⟨h.counted, h.numbered, h.unique, h.owned, h.answered, h.once, ?_, ?_⟩
    · intro x phase hx
      change (x, phase) ∈ k.requests at hx
      rw [hnone] at hx
      cases hx
    · exact fun _ => h.staged (.inl (by simp [hb]))
  | failClose hb e => exact h.failPending e rfl rfl rfl rfl (h.staged (.inl (by simp [hb])))
  | endClose hb =>
    exact h.setState .closed rfl rfl rfl rfl (fun _ => .inl hb) (.inr (by decide))
  | beginFinish hb =>
    refine h.setState .closed rfl rfl rfl rfl ?_ (.inr (by decide))
    rintro (hf | hf | hf)
    · exact .inl hf
    · exact .inr (.inl hf)
    · cases hf
  | failFinish hb e => exact h.failPending e rfl rfl rfl rfl (h.staged (.inr (.inl (by simp [hb]))))
  | aside ha =>
    refine h.frame (ha.outstanding.trans h.counted) rfl rfl ha.nextRequest ha.nextWaiter ha.pending
      ha.responses rfl id fun hs => ?_
    rw [ha.state]
    exact h.staged hs

namespace Agrees

variable {c : Connection} {k : Work}

lemma start (ho : c.outstanding = 0) (hp : c.pending = []) (hr : c.responses = []) :
    Agrees c {} where
  counted := ho
  numbered := ⟨by simp [Work.places], by simp [Work.places], .nil, by simp [Work.places], .nil⟩
  unique := by simp [Connection.Distinct, hp]
  owned := by simp [hp]
  answered := by simp [hr]
  once := by simp [hp]
  placed := by simp
  staged := by simp

lemma steps {d : Connection} {l : Work} (h : Agrees c k) (run : Steps (c, k) (d, l))
    (hids : l.ids < 2 ^ 31) : Agrees d l := by
  have hall : ∀ s : Connection × Work, Steps (c, k) s → s.2.ids < 2 ^ 31 → Agrees s.1 s.2 := by
    intro s run
    induction run with
    | refl => exact fun _ => h
    | tail _ step ih =>
      intro hids
      exact step.agrees (ih (Nat.lt_of_le_of_lt step.ids_le hids)) hids
  exact hall (d, l) run hids

lemma length_pending_le (h : Agrees c k) : c.pending.length ≤ c.outstanding := by
  have hsub : c.pending ⊆ k.places.map fun x => (x.request, x.waiter) := by
    intro e he
    obtain ⟨x, hx, rfl⟩ := h.owned e he
    exact List.mem_map_of_mem hx
  have hle := (List.subperm_of_subset (List.Nodup.of_map _ h.unique) hsub).length_le
  rw [List.length_map, Work.places, List.length_map] at hle
  rw [h.counted, Work.count]
  omega

lemma unchecked_of_failed (h : Agrees c k) (hf : k.Failed) {request : UInt32} {waiter : WaiterId}
    (hp : (request, waiter) ∈ c.pending) :
    ∃ x phase, (x, phase) ∈ k.requests ∧ x.request = request ∧ x.waiter = waiter ∧
      (phase = .registered ∨ phase = .refused) := by
  obtain ⟨x, hx, hxe⟩ := h.owned _ hp
  cases hxe
  obtain ⟨⟨y, phase⟩, hy, rfl⟩ := List.mem_map.mp hx
  have hstands := h.placed y phase hy
  refine ⟨y, phase, hy, rfl, rfl, ?_⟩
  cases phase with
  | registered => exact .inl rfl
  | refused => exact .inr rfl
  | unsent => exact absurd hp (hstands hf)
  | leaving => exact absurd hp hstands
  | writing => exact absurd hp (hstands.2.2 hf)
  | waiting => exact absurd hp (hstands.2.2 hf)

lemma let_through (h : Agrees c k) {x : Place} {phase : Phase} (hx : (x, phase) ∈ k.requests)
    (hphase : phase = .writing ∨ phase = .waiting) :
    x.Known c ∧ k.drained = false ∧ (k.Failed → ¬ x.Pending c) := by
  have hstands := h.placed x phase hx
  rcases hphase with rfl | rfl <;> exact hstands

end Agrees

/-- In every run of a connection that starts without work: its state only goes forward; the count is
exact, so that one who sees it at zero fails nobody; and once everyone who waited has been told, all
who were let through have an answer, and whoever else has a place finds the connection closed and
gives it up. -/
theorem Steps.nobody_stranded {c d : Connection} {k : Work} (ho : c.outstanding = 0)
    (hp : c.pending = []) (hr : c.responses = []) (run : Steps (c, {}) (d, k))
    (hids : k.ids < 2 ^ 31) :
    (∀ e l, Steps (d, k) (e, l) → d.state.rank ≤ e.state.rank) ∧
    (d.outstanding = k.starting + k.requests.length + k.oneways + k.dispatches ∧
      (∀ e l, Step (d, k) (e, l) → l.count < k.count → 0 < d.outstanding) ∧
      d.pending.length ≤ d.outstanding ∧
      (d.outstanding = 0 → ∀ error, d.failPending error = d) ∧
      (k.drained = true → ∀ x phase, (x, phase) ∈ k.requests →
        phase ≠ .writing ∧ phase ≠ .waiting)) ∧
    (k.Failed →
      (∃ error, d.checkOpen = .error error) ∧
      (∀ request waiter, (request, waiter) ∈ d.pending →
        (∃ x phase, (x, phase) ∈ k.requests ∧ x.request = request ∧ x.waiter = waiter ∧
          (phase = .registered ∨ phase = .refused)) ∧
        (request, waiter) ∉ (d.forget request).pending) ∧
      ∀ x phase, (x, phase) ∈ k.requests → phase = .writing ∨ phase = .waiting →
        (d.response? x.waiter).isSome = true) := by
  have h : Agrees d k := (Agrees.start ho hp hr).steps run hids
  have hcount := h.counted
  refine ⟨fun e l hrun => hrun.rank_le, ⟨hcount, ?_, h.length_pending_le, ?_, ?_⟩, fun hf => ?_⟩
  · intro e l _ hless
    omega
  · intro hz error
    have hempty : d.pending = [] :=
      List.eq_nil_of_length_eq_zero (Nat.le_zero.mp (hz ▸ h.length_pending_le))
    rw [Connection.failPending, hempty]
    cases d
    simp_all
  · intro hd x phase hx
    have hno : ¬ (phase = .writing ∨ phase = .waiting) := by
      intro hphase
      have hdrained := (h.let_through hx hphase).2.1
      rw [hd] at hdrained
      cases hdrained
    exact ⟨fun hw => hno (.inl hw), fun hw => hno (.inr hw)⟩
  · refine ⟨?_, ?_, ?_⟩
    · refine Connection.checkOpen_of_rank (h.staged ?_)
      rcases hf with hf | hf | hf
      · exact .inl (by simp [hf])
      · exact .inl (by simp [hf])
      · exact .inr (.inl (by simp [hf]))
    · intro request waiter hpending
      refine ⟨h.unchecked_of_failed hf hpending, fun hm => ?_⟩
      exact absurd rfl (bne_iff_ne.mp (List.mem_filter.mp hm).2)
    · intro x phase hx hphase
      obtain ⟨hknown, -, hgone⟩ := h.let_through hx hphase
      exact hknown.resolve_left (hgone hf)

def unusedConnection : Connection :=
  { id := 1, role := .initiator, peer := { host := "peer", port := 1 }, order := .bigEndian,
    fragmentSize := 64, reader := .new 64, inbound := 0, outbound := 1, state := .established }

def unusedWorld : World Unit where
  brokers := #[{ Broker.new "" { name := "", order := .bigEndian } with
    connections := [unusedConnection] }]
  pipes := #[{}, {}]

def closedOnCaller : World Unit :=
  let p : Port := { broker := 0, connection := 1 }
  let w := (unusedWorld.sendTracked p .cancelRequest).2
  (Closing.begin w p).2.goodbye p

theorem Steps.nobody_stranded_closed :
    ∃ d, closedOnCaller.Has { broker := 0, connection := 1 } d ∧
      d.track.register.2.2.outstanding = 2 ∧
      (∃ e, d.track.register.2.2.checkOpen = .error e) ∧
      (d.track.register.2.2.response? 0).isSome = true := by
  let p : Port := { broker := 0, connection := 1 }
  let w := (unusedWorld.sendTracked p .cancelRequest).2
  let requests : List (Place × Phase) := [(⟨⟨0, 0⟩, 0⟩, .waiting)]
  have hsent : (unusedWorld.sendTracked p .cancelRequest).1 = .ok (0, 0) := by with_unfolding_all rfl
  have hbegun : (Closing.begin w p).1 = true := by decide +kernel
  let begun := (Closing.begin w p).2
  have hfree : (begun.connection? p).all (fun c => !(begun.pipe c.outbound).isFull) = true := by
    decide +kernel
  have hwritten : World.Moves p w { requests := [] ++ [(⟨⟨0, 0⟩, 0⟩, .writing)], ids := 1 } w
      { requests := [] ++ [(⟨⟨0, 0⟩, 0⟩, .waiting)], ids := 1 } := .written rfl w
  have hbegin : World.Moves p unusedWorld {} begun { requests, ids := 1, closing := .begun } :=
    .trans (.trans (.sendTracked hsent) hwritten) (.beginClose hbegun)
  obtain ⟨c, hc, run⟩ := hbegin unusedConnection ⟨rfl, rfl⟩
  rw [hc.found, Option.all_some, Bool.not_eq_true'] at hfree
  have hgoodbye := World.Moves.goodbye (k := { requests, ids := 1, closing := .begun }) rfl hc
  rw [hfree] at hgoodbye
  obtain ⟨d, hd, hclose⟩ := hgoodbye c hc
  replace run : Steps (unusedConnection, {}) (d, { requests, ids := 1, closing := .over }) :=
    run.trans hclose
  have hlate := (run.tail .start).tail (.register rfl)
  obtain ⟨-, ⟨hcount, -⟩, hfailed⟩ := Steps.nobody_stranded rfl rfl rfl hlate
    (show 2 < 2 ^ 31 by decide)
  obtain ⟨hclosed, -, htold⟩ := hfailed (.inr (.inl rfl))
  exact ⟨d, hd, hcount, hclosed,
    htold _ _ (List.mem_cons_of_mem _ List.mem_cons_self) (.inr rfl)⟩

end ObjectBroker
