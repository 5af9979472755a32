import Mathlib.Algebra.Group.Nat.Defs
import ObjectBroker.Proofs.Connection.Action
import ObjectBroker.Proofs.Lookup

/-!
The callers on a connection. A ledger lists them, each with everything that has happened since it
was registered. Step by step, the connection agrees with it: what a caller finds there is the
first that concerned it.
-/

namespace ObjectBroker

structure Caller extends Ticket where
  heard : List Action := []

namespace Caller

def hear (a : Action) (k : Caller) : Caller :=
  { k with heard := k.heard ++ [a] }

def told? (c : Connection) (k : Caller) : Option Response :=
  k.heard.findSome? (·.verdict c k.request)

def age (k : Caller) : Nat :=
  k.heard.countP Action.takesId

lemma told?_hear (c : Connection) (a : Action) (k : Caller) :
    (k.hear a).told? c = (k.told? c).or (a.verdict c k.request) := by
  simp [told?, hear, List.findSome?_append]

def quiet (k : Caller) : Caller :=
  { k with heard := k.heard.filter (!·.isCall) }

lemma quiet_hear (a : Action) (k : Caller) :
    (k.hear a).quiet = if a.isCall then k.quiet else k.quiet.hear a := by
  cases ha : a.isCall <;> simp [quiet, hear, ha]

lemma age_quiet (k : Caller) : k.quiet.age = k.age := by
  have hcall : ∀ a : Action, (a.takesId && !a.isCall) = a.takesId := by
    intro a
    cases a <;> simp [Action.takesId, Action.isCall]
  simp [age, quiet, List.countP_filter, hcall]

lemma age_hear (a : Action) (k : Caller) :
    (k.hear a).age = k.age + if a.takesId then 1 else 0 := by
  simp [age, hear, List.countP_append, List.countP_singleton]

end Caller

/-- How a call on a connection ends: with what its caller was told, with a message that could not
be written, or because its time was over. -/
inductive Ending where
  | answer (r : Response)
  | unsent (e : BrokerError)
  | timeout (ms : Nat)

structure Ledger where
  waiting : List Caller := []
  returned : List (Caller × Ending) := []

namespace Ledger

def hear (l : Ledger) (a : Action) : Ledger :=
  { l with waiting := l.waiting.map (·.hear a) }

def enter (l : Ledger) (t : Ticket) : Ledger :=
  { l with waiting := { toTicket := t } :: l.waiting }

def leave (l : Ledger) (t : Ticket) (e : Ending) : Ledger where
  waiting := l.waiting.filter (·.toTicket ≠ t)
  returned := (l.waiting.filter (·.toTicket = t)).map (·, e) ++ l.returned

def ending? (c : Connection) : Action → Option (Ticket × Ending)
  | .unwritten t e => some (t, .unsent e)
  | .expire t ms => some (t, .timeout ms)
  | .collect t => (c.response? t.waiter).map fun r => (t, .answer r)
  | _ => none

def note (l : Ledger) (c : Connection) (a : Action) : Ledger :=
  match a, ending? c a with
  | .register, _ => (l.hear a).enter ⟨c.nextRequest, c.nextWaiter⟩
  | _, some (t, e) => (l.leave t e).hear a
  | _, none => l.hear a

def Admits (l : Ledger) (a : Action) : Prop :=
  ∀ t ∈ a.ticket?, ∃ k ∈ l.waiting, k.toTicket = t

def Spaced (l : Ledger) : Prop :=
  ∀ k ∈ l.waiting, k.age < 2 ^ 31

instance (l : Ledger) (a : Action) : Decidable (l.Admits a) :=
  inferInstanceAs (Decidable (∀ t ∈ a.ticket?, ∃ k ∈ l.waiting, k.toTicket = t))

instance (l : Ledger) : Decidable l.Spaced :=
  inferInstanceAs (Decidable (∀ k ∈ l.waiting, k.age < 2 ^ 31))

def outcomes (l : Ledger) : List (Ticket × Ending) :=
  l.returned.map fun (k, e) => (k.toTicket, e)

def waiters (l : Ledger) : List WaiterId :=
  l.returned.map (·.1.waiter) ++ l.waiting.map (·.waiter)

def quiet (l : Ledger) : Ledger where
  waiting := l.waiting.map (·.quiet)
  returned := l.returned.map fun (k, e) => (k.quiet, e)

lemma outcomes_quiet (l : Ledger) : l.quiet.outcomes = l.outcomes := by
  simp [outcomes, quiet, Caller.quiet]

lemma spaced_of_quiet {l l' : Ledger} (hq : l'.quiet = l.quiet) (h : l.Spaced) : l'.Spaced := by
  have hquiet : ∀ l : Ledger, l.quiet.Spaced ↔ l.Spaced := by
    intro l
    simp [Spaced, quiet, Caller.age_quiet]
  rw [← hquiet, hq, hquiet]
  exact h

lemma admits_of_ticket? (l : Ledger) {a : Action} (h : a.ticket? = none) : l.Admits a := by
  intro t ht
  rw [h] at ht
  cases ht

lemma admits_of_quiet {l l' : Ledger} {a : Action} (hq : l'.quiet = l.quiet) (h : l.Admits a) :
    l'.Admits a := by
  have hquiet : ∀ l : Ledger, l.quiet.Admits a ↔ l.Admits a := by
    intro l
    simp [Admits, quiet, Caller.quiet]
  rw [← hquiet, hq, hquiet]
  exact h

lemma quiet_hear (l : Ledger) (a : Action) :
    (l.hear a).quiet = if a.isCall then l.quiet else l.quiet.hear a := by
  cases ha : a.isCall <;> simp [quiet, hear, Caller.quiet_hear, ha]

lemma Spaced.hear {l : Ledger} (h : l.Spaced) {a : Action} (ha : a.takesId = false) :
    (l.hear a).Spaced := by
  intro k' hk'
  obtain ⟨k, hk, rfl⟩ := List.mem_map.mp hk'
  rw [k.age_hear a, ha]
  exact h k hk

lemma quiet_enter (l : Ledger) (t : Ticket) : (l.enter t).quiet = l.quiet.enter t := rfl

lemma quiet_leave (l : Ledger) (t : Ticket) (e : Ending) :
    (l.leave t e).quiet = l.quiet.leave t e := by
  simp [quiet, leave, List.filter_map, Caller.quiet, Function.comp_def]

lemma quiet_note (l : Ledger) (c : Connection) (a : Action) :
    (l.note c a).quiet = if a.isCall then l.quiet else l.quiet.note c a := by
  cases a with
  | collect t =>
    cases hr : c.response? t.waiter <;>
      simp [note, ending?, hr, quiet_hear, quiet_leave, Action.isCall]
  | _ => simp [note, ending?, quiet_hear, quiet_enter, quiet_leave, Action.isCall]

lemma note_congr (l : Ledger) {c c' : Connection} (h : c.desk = c'.desk) (a : Action) :
    l.note c a = l.note c' a := by
  have hdesk : ∀ c : Connection, l.note c a = l.note c.desk a := by
    intro c
    cases a <;> rfl
  rw [hdesk c, h, ← hdesk c']

lemma waiters_leave (l : Ledger) (t : Ticket) (e : Ending) :
    (l.leave t e).waiters.Perm l.waiters := by
  have hsplit : (l.waiting.filter (·.toTicket = t) ++ l.waiting.filter (·.toTicket ≠ t)).Perm
      l.waiting := by
    simpa using List.filter_append_perm (fun k : Caller => decide (k.toTicket = t)) l.waiting
  have hparts := (hsplit.map (·.waiter)).append_left (l.returned.map (·.1.waiter))
  refine List.Perm.trans ?_ hparts
  simp only [waiters, leave, List.map_append, List.map_map, Function.comp_def]
  rw [← List.append_assoc]
  exact List.perm_append_comm.append_right _

end Ledger

def Connection.places (c : Connection) : List WaiterId :=
  c.pending.map (·.2) ++ c.responses.map (·.1)

lemma Connection.nodup_places_complete {c : Connection} (h : c.places.Nodup) (q : UInt32)
    (r : Response) : (c.complete q r).places.Nodup := by
  unfold complete
  cases hl : c.pending.lookup q with
  | none => exact h
  | some n =>
    obtain ⟨front, back, hp, -⟩ := List.lookup_eq_some_iff.mp hl
    have hmoved : (n :: ((front ++ back).map (·.2) ++ c.responses.map (·.1))).Nodup := by
      rw [places, hp] at h
      simp only [List.map_append, List.map_cons, List.append_assoc, List.cons_append] at h ⊢
      exact List.perm_middle.nodup_iff.mp h
    have hkept : (c.pending.filter (·.1 != q)).Sublist (front ++ back) := by
      rw [hp, List.filter_append, List.filter_cons_of_neg (by simp)]
      exact List.filter_sublist.append List.filter_sublist
    have hsub := ((hkept.map (·.2)).append_right (c.responses.map (·.1))).cons_cons n
    exact List.perm_middle.nodup_iff.mpr (hmoved.sublist hsub)

/-- The callers of a ledger and a connection that started as `c₀` agree: those who have been told
nothing yet are registered, and the others find what they were told first. -/
structure Correlated (c₀ : Connection) (l : Ledger) (c : Connection) : Prop where
  id_eq : c.id = c₀.id
  peer_eq : c.peer = c₀.peer
  numbered : ∀ k ∈ l.waiting, (k.request.toNat + 2 * (k.age + 1)) % 2 ^ 32 = c.nextRequest.toNat
  ordered : l.waiting.Pairwise (·.age < ·.age)
  spaced : l.Spaced
  distinct : l.waiters.Nodup
  known : ∀ n ∈ l.waiters, n < c.nextWaiter
  answered : ∀ e ∈ c.responses, e.1 < c.nextWaiter
  once : c.places.Nodup
  pending_eq : c.pending =
    (l.waiting.filter fun k => (k.told? c₀).isNone).map fun k => (k.request, k.waiter)
  told : ∀ k ∈ l.waiting, ∀ r, (k.waiter, r) ∈ c.responses ↔ k.told? c₀ = some r
  endings : ∀ k r, (k, .answer r) ∈ l.returned → k.told? c₀ = some r

namespace Correlated

lemma start {c : Connection} (hp : c.pending = []) (hr : c.responses = []) :
    Correlated c {} c := by
  refine ⟨rfl, rfl, by simp, .nil, by simp [Ledger.Spaced], .nil, by simp [Ledger.waiters],
    by simp [hr], ?_, hp, by simp, by simp⟩
  rw [Connection.places, hp, hr]
  exact .nil

lemma of_desk {c₀ c c' : Connection} {l : Ledger} (h : Correlated c₀ l c)
    (hd : c'.desk = c.desk) : Correlated c₀ l c' := by
  have hc : Correlated c₀ l c.desk :=
    ⟨h.id_eq, h.peer_eq, h.numbered, h.ordered, h.spaced, h.distinct, h.known, h.answered, h.once,
      h.pending_eq, h.told, h.endings⟩
  rw [← hd] at hc
  exact ⟨hc.id_eq, hc.peer_eq, hc.numbered, hc.ordered, hc.spaced, hc.distinct, hc.known,
    hc.answered, hc.once, hc.pending_eq, hc.told, hc.endings⟩

variable {c₀ c c' : Connection} {l : Ledger} {a : Action}

lemma eq_of_request (h : Correlated c₀ l c) {k k' : Caller} (hk : k ∈ l.waiting)
    (hk' : k' ∈ l.waiting) (hr : k.request = k'.request) : k = k' := by
  have hages : (l.waiting.map Caller.age).Nodup :=
    List.pairwise_map.mpr (h.ordered.imp Nat.ne_of_lt)
  have ha := h.spaced k hk
  have ha' := h.spaced k' hk'
  -- Ids go up in steps of two: callers of one id would be at least `2 ^ 31` ids apart.
  have hn := (h.numbered k hk).trans (h.numbered k' hk').symm
  rw [hr] at hn
  exact List.inj_on_of_nodup_map hages hk hk' (by omega)

lemma eq_of_waiter (h : Correlated c₀ l c) {k k' : Caller} (hk : k ∈ l.waiting)
    (hk' : k' ∈ l.waiting) (hw : k.waiter = k'.waiter) : k = k' :=
  List.inj_on_of_nodup_map (List.nodup_append.mp h.distinct).2.1 hk hk' hw

lemma mem_pending (h : Correlated c₀ l c) {q : UInt32} {n : WaiterId} :
    (q, n) ∈ c.pending ↔
      ∃ k ∈ l.waiting, k.told? c₀ = none ∧ k.request = q ∧ k.waiter = n := by
  rw [h.pending_eq]
  simp [and_assoc]

lemma mem_pending_waiter (h : Correlated c₀ l c) {k : Caller} (hk : k ∈ l.waiting) {q : UInt32} :
    (q, k.waiter) ∈ c.pending ↔ k.told? c₀ = none ∧ q = k.request := by
  rw [h.mem_pending]
  constructor
  · rintro ⟨k', hk', hnone, rfl, hw⟩
    obtain rfl := h.eq_of_waiter hk' hk hw
    exact ⟨hnone, rfl⟩
  · rintro ⟨hnone, rfl⟩
    exact ⟨k, hk, hnone, rfl, rfl⟩

lemma hear (h : Correlated c₀ l c) (hs : (l.hear a).Spaced) (hid : c'.id = c.id)
    (hpeer : c'.peer = c.peer)
    (hnext : c'.nextRequest = if a.takesId then c.nextRequest + 2 else c.nextRequest)
    (hwaiter : c'.nextWaiter = c.nextWaiter)
    (hpending : c'.pending = c.pending.filter fun e => (a.verdict c₀ e.1).isNone)
    (hresponses : ∀ n r, (n, r) ∈ c'.responses ↔
      (n, r) ∈ c.responses ∨ ∃ q, (q, n) ∈ c.pending ∧ a.verdict c₀ q = some r)
    (honce : c'.places.Nodup) :
    Correlated c₀ (l.hear a) c' := by
  have hw : (l.hear a).waiters = l.waiters := by
    simp [Ledger.waiters, Ledger.hear, Caller.hear, Function.comp_def]
  have hnum : c'.nextRequest.toNat =
      (c.nextRequest.toNat + if a.takesId then 2 else 0) % 2 ^ 32 := by
    rw [hnext]
    split
    · exact UInt32.toNat_add _ _
    · exact (Nat.mod_eq_of_lt c.nextRequest.toNat_lt_size).symm
  refine ⟨hid.trans h.id_eq, hpeer.trans h.peer_eq, ?_, ?_, hs, ?_, ?_, ?_, honce, ?_, ?_,
    h.endings⟩
  · intro k' hk'
    obtain ⟨k, hk, rfl⟩ := List.mem_map.mp hk'
    have hn := h.numbered k hk
    rw [hnum, k.age_hear a, ← hn]
    show (k.request.toNat + _) % _ = _
    split <;> omega
  · refine List.pairwise_map.mpr (h.ordered.imp ?_)
    intro k k' hlt
    rw [k.age_hear a, k'.age_hear a]
    omega
  · rw [hw]
    exact h.distinct
  · rw [hw, hwaiter]
    exact h.known
  · rintro ⟨n, r⟩ he
    rw [hwaiter]
    rcases (hresponses n r).mp he with hold | ⟨q, hq, -⟩
    · exact h.answered _ hold
    · obtain ⟨k, hk, -, -, rfl⟩ := h.mem_pending.mp hq
      exact h.known _ (List.mem_append_right _ (List.mem_map_of_mem hk))
  · rw [hpending, h.pending_eq, Ledger.hear, List.filter_map, List.filter_map, List.map_map,
      List.filter_filter]
    congr 1
    refine List.filter_congr fun k hk => ?_
    simp [Caller.told?_hear, Bool.and_comm]
  · intro k' hk' r
    obtain ⟨k, hk, rfl⟩ := List.mem_map.mp hk'
    rw [k.told?_hear c₀ a]
    refine (hresponses k.waiter r).trans ?_
    simp only [h.told k hk, h.mem_pending_waiter hk]
    -- Whoever was told something before is not registered any more, and hears this in vain.
    cases ht : k.told? c₀ with
    | some r₀ => simp
    | none => simp

lemma hear_silent (h : Correlated c₀ l c) (hs : (l.hear a).Spaced)
    (hv : ∀ q, a.verdict c₀ q = none) (hid : c'.id = c.id) (hpeer : c'.peer = c.peer)
    (hnext : c'.nextRequest = if a.takesId then c.nextRequest + 2 else c.nextRequest)
    (hwaiter : c'.nextWaiter = c.nextWaiter) (hpending : c'.pending = c.pending)
    (hresponses : c'.responses = c.responses) : Correlated c₀ (l.hear a) c' := by
  refine h.hear hs hid hpeer hnext hwaiter ?_ ?_ ?_
  · rw [hpending]
    simp [hv]
  · intro n r
    rw [hresponses]
    simp [hv]
  · rw [Connection.places, hpending, hresponses]
    exact h.once

lemma complete (h : Correlated c₀ l c) (hs : (l.hear a).Spaced) (ha : a.takesId = false)
    {q : UInt32} {r : Response} (hv : ∀ q', a.verdict c₀ q' = if q = q' then some r else none) :
    Correlated c₀ (l.hear a) (c.complete q r) := by
  have hnext : c.nextRequest = if a.takesId then c.nextRequest + 2 else c.nextRequest := by
    rw [ha]
    rfl
  have hkeep : ∀ e : UInt32 × WaiterId, (a.verdict c₀ e.1).isNone = (e.1 != q) := by
    intro e
    rw [hv]
    by_cases he : q = e.1
    · simp [he]
    · simp [he, Ne.symm he]
  have honce := Connection.nodup_places_complete h.once q r
  unfold Connection.complete at honce ⊢
  cases hl : c.pending.lookup q with
  | none =>
    have hq : ∀ e ∈ c.pending, q ≠ e.1 := by
      intro e he hqe
      have hne := List.lookup_eq_none_iff.mp hl e he
      simp [hqe] at hne
    refine h.hear hs rfl rfl hnext rfl ?_ ?_ h.once
    · refine (List.filter_eq_self.mpr ?_).symm
      intro e he
      rw [hkeep]
      simpa using (hq e he).symm
    · intro n r'
      refine ⟨.inl, ?_⟩
      rintro (hold | ⟨q', hq', hr⟩)
      · exact hold
      · rw [hv, if_neg (hq _ hq')] at hr
        cases hr
  | some n =>
    obtain ⟨front, back, hp, -⟩ := List.lookup_eq_some_iff.mp hl
    have hmem : (q, n) ∈ c.pending := by
      rw [hp]
      exact List.mem_append_right _ List.mem_cons_self
    have hq : ∀ n', (q, n') ∈ c.pending → n' = n := by
      intro n' hn'
      obtain ⟨k, hk, -, hkq, rfl⟩ := h.mem_pending.mp hmem
      obtain ⟨k', hk', -, hkq', rfl⟩ := h.mem_pending.mp hn'
      rw [h.eq_of_request hk' hk (hkq'.trans hkq.symm)]
    rw [hl] at honce
    refine h.hear hs rfl rfl hnext rfl ?_ ?_ honce
    · exact List.filter_congr fun e _ => (hkeep e).symm
    · intro n' r'
      constructor
      · intro he
        rcases List.mem_cons.mp he with heq | hold
        · cases heq
          exact .inr ⟨q, hmem, by rw [hv, if_pos rfl]⟩
        · exact .inl hold
      · rintro (hold | ⟨q', hq', hr⟩)
        · exact List.mem_cons_of_mem _ hold
        · rw [hv] at hr
          split at hr
          · next heq =>
            subst heq
            cases hr
            rw [hq n' hq']
            exact List.mem_cons_self
          · cases hr

lemma failPending (h : Correlated c₀ l c) (hs : (l.hear a).Spaced) (ha : a.takesId = false)
    {e : BrokerError} (hv : ∀ q, a.verdict c₀ q = some (.error e)) :
    Correlated c₀ (l.hear a) (c.failPending e) := by
  have hnext : c.nextRequest = if a.takesId then c.nextRequest + 2 else c.nextRequest := by
    rw [ha]
    rfl
  refine h.hear hs rfl rfl hnext rfl ?_ ?_ ?_
  · simp [Connection.failPending, hv]
  · intro n r
    simp only [Connection.failPending, List.mem_append, List.mem_map, hv, Prod.mk.injEq]
    constructor
    · rintro (⟨⟨q, n'⟩, hq, rfl, rfl⟩ | hold)
      · exact .inr ⟨q, hq, rfl⟩
      · exact .inl hold
    · rintro (hold | ⟨q, hq, hr⟩)
      · exact .inr hold
      · exact .inl ⟨(q, n), hq, rfl, Option.some.inj hr⟩
  · simpa [Connection.places, Connection.failPending, Function.comp_def] using h.once

lemma enter (h : Correlated c₀ l c) {q : UInt32} (hq : (q.toNat + 2) % 2 ^ 32 = c.nextRequest.toNat)
    (hage : ∀ k ∈ l.waiting, 0 < k.age) :
    Correlated c₀ (l.enter ⟨q, c.nextWaiter⟩)
      { c with nextWaiter := c.nextWaiter + 1, pending := (q, c.nextWaiter) :: c.pending } := by
  have hperm : (l.enter ⟨q, c.nextWaiter⟩).waiters.Perm (c.nextWaiter :: l.waiters) :=
    List.perm_middle
  have hnew : c.nextWaiter ∉ l.waiters := fun hn => Nat.lt_irrefl _ (h.known _ hn)
  have hpending : ∀ n ∈ c.pending.map (·.2), n < c.nextWaiter := by
    intro n hn
    obtain ⟨⟨q', n⟩, he, rfl⟩ := List.mem_map.mp hn
    obtain ⟨k, hk, -, -, rfl⟩ := h.mem_pending.mp he
    exact h.known _ (List.mem_append_right _ (List.mem_map_of_mem hk))
  have hresponses : ∀ n ∈ c.responses.map (·.1), n < c.nextWaiter := by
    intro n hn
    obtain ⟨e, he, rfl⟩ := List.mem_map.mp hn
    exact h.answered e he
  refine ⟨h.id_eq, h.peer_eq, ?_, ?_, ?_, ?_, ?_, ?_, ?_, ?_, ?_, h.endings⟩
  · intro k hk
    rcases List.mem_cons.mp hk with rfl | hk
    · exact hq
    · exact h.numbered k hk
  · exact List.pairwise_cons.mpr ⟨hage, h.ordered⟩
  · intro k hk
    rcases List.mem_cons.mp hk with rfl | hk
    · exact Nat.two_pow_pos 31
    · exact h.spaced k hk
  · exact hperm.nodup_iff.mpr (List.nodup_cons.mpr ⟨hnew, h.distinct⟩)
  · intro n hn
    rcases List.mem_cons.mp (hperm.mem_iff.mp hn) with rfl | hn
    · exact Nat.lt_succ_self _
    · exact Nat.lt_succ_of_lt (h.known n hn)
  · intro e he
    exact Nat.lt_succ_of_lt (h.answered e he)
  · refine List.nodup_cons.mpr ⟨?_, h.once⟩
    intro hn
    rcases List.mem_append.mp hn with hn | hn
    · exact Nat.lt_irrefl _ (hpending _ hn)
    · exact Nat.lt_irrefl _ (hresponses _ hn)
  · exact congrArg ((q, c.nextWaiter) :: ·) h.pending_eq
  · intro k hk r
    rcases List.mem_cons.mp hk with rfl | hk
    · constructor
      · intro hr
        exact absurd (h.answered _ hr) (Nat.lt_irrefl _)
      · intro hr
        cases hr
    · exact h.told k hk r

lemma leave (h : Correlated c₀ l c) {t : Ticket} {e : Ending}
    (ht : ∃ k ∈ l.waiting, k.toTicket = t ∧ ∀ r, e = .answer r → k.told? c₀ = some r)
    (hid : c'.id = c.id) (hpeer : c'.peer = c.peer) (hnext : c'.nextRequest = c.nextRequest)
    (hwaiter : c'.nextWaiter = c.nextWaiter)
    (hpending : c'.pending = c.pending.filter (·.1 != t.request))
    (hsub : c'.responses.Sublist c.responses)
    (hresponses : ∀ n r, n ≠ t.waiter → (n, r) ∈ c.responses → (n, r) ∈ c'.responses) :
    Correlated c₀ (l.leave t e) c' := by
  obtain ⟨k₀, hk₀, rfl, hanswer⟩ := ht
  have hperm := l.waiters_leave k₀.toTicket e
  have hstay : ∀ k ∈ (l.leave k₀.toTicket e).waiting, k ∈ l.waiting ∧ k.toTicket ≠ k₀.toTicket := by
    intro k hk
    simpa [Ledger.leave] using hk
  refine ⟨hid.trans h.id_eq, hpeer.trans h.peer_eq, ?_, ?_, ?_, ?_, ?_, ?_, ?_, ?_, ?_, ?_⟩
  · intro k hk
    rw [hnext]
    exact h.numbered k (hstay k hk).1
  · exact h.ordered.sublist List.filter_sublist
  · intro k hk
    exact h.spaced k (hstay k hk).1
  · exact hperm.nodup_iff.mpr h.distinct
  · intro n hn
    rw [hwaiter]
    exact h.known n (hperm.mem_iff.mp hn)
  · intro e he
    rw [hwaiter]
    exact h.answered e (hsub.subset he)
  · refine h.once.sublist ((List.Sublist.map _ ?_).append (hsub.map _))
    rw [hpending]
    exact List.filter_sublist
  · rw [hpending, h.pending_eq, Ledger.leave, List.filter_map, List.filter_filter,
      List.filter_filter]
    congr 1
    refine List.filter_congr fun k hk => ?_
    have hk' : (k.request != k₀.request) = decide (k.toTicket ≠ k₀.toTicket) := by
      by_cases hr : k.request = k₀.request
      · simp [h.eq_of_request hk hk₀ hr]
      · have hne : k.toTicket ≠ k₀.toTicket := fun ht => hr (congrArg Ticket.request ht)
        simp [hr, hne]
    simp [hk', Bool.and_comm]
  · intro k hk r
    obtain ⟨hk, hne⟩ := hstay k hk
    rw [← h.told k hk]
    refine ⟨fun hr => hsub.subset hr, hresponses k.waiter r ?_⟩
    intro hw
    exact hne (congrArg Caller.toTicket (h.eq_of_waiter hk hk₀ hw))
  · intro k r hr
    rcases List.mem_append.mp hr with hr | hr
    · simp only [List.mem_map, List.mem_filter, decide_eq_true_eq, Prod.mk.injEq] at hr
      obtain ⟨k', ⟨hk', ht⟩, rfl, rfl⟩ := hr
      rw [h.eq_of_waiter hk' hk₀ (congrArg Ticket.waiter ht)]
      exact hanswer r rfl
    · exact h.endings k r hr

lemma news (h : Correlated c₀ l c) (hs : (l.hear a).Spaced) (ht : a.ticket? = none)
    (hi : a.takesId = false) : Correlated c₀ (l.hear a) (a.apply c) := by
  have hverdict : ∀ q, a.verdict c₀ q = a.verdict c q :=
    Action.verdict_congr h.id_eq.symm h.peer_eq.symm a
  rcases a.news_cases c ht hi with ⟨id, r, happly, hv⟩ | ⟨e, happly, hv⟩ | ⟨happly, hv⟩
  · rw [happly]
    exact h.complete hs hi fun q => (hverdict q).trans (hv q)
  · rw [happly]
    exact h.failPending hs hi fun q => (hverdict q).trans (hv q)
  · rw [happly]
    refine h.hear_silent hs (fun q => (hverdict q).trans (hv q)) rfl rfl ?_ rfl rfl rfl
    rw [hi]
    rfl

lemma register_eq (h : Correlated c₀ l c) (hs : (l.hear .register).Spaced) :
    c.register.2.2 = { c.takeRequestId.2 with
      nextWaiter := c.nextWaiter + 1, pending := (c.nextRequest, c.nextWaiter) :: c.pending } := by
  have hfree : c.pending.lookup c.nextRequest = none := by
    refine List.lookup_eq_none_iff.mpr ?_
    rintro ⟨q, n⟩ he
    obtain ⟨k, hk, -, rfl, -⟩ := h.mem_pending.mp he
    have hn := h.numbered k hk
    have hage := hs _ (List.mem_map_of_mem hk)
    rw [k.age_hear .register, Action.takesId, if_pos rfl] at hage
    have hlt := k.request.toNat_lt_size
    simp only [bne_iff_ne, ne_eq, ← UInt32.toNat_inj]
    rw [← hn]
    unfold UInt32.size at hlt
    omega
  unfold Connection.register Connection.takeRequestId
  dsimp only
  rw [hfree]

lemma response?_eq (h : Correlated c₀ l c) {k : Caller} (hk : k ∈ l.waiting) :
    c.response? k.waiter = k.told? c₀ := by
  have hkeys : (c.responses.map (·.1)).Nodup := (List.nodup_append.mp h.once).2.1
  refine Option.ext fun r => ?_
  rw [← h.told k hk r]
  exact lookup_eq_some_iff_mem hkeys

lemma collect (h : Correlated c₀ l c) {k : Caller} (hk : k ∈ l.waiting) {t : Ticket}
    (ht : k.toTicket = t) {r : Response} (hr : c.response? t.waiter = some r) :
    Correlated c₀ (l.leave t (.answer r)) (c.takeResponse t.waiter) := by
  subst ht
  have htold : k.told? c₀ = some r := (h.response?_eq hk).symm.trans hr
  -- What it was told took its registration away, and nobody else has its id.
  have hpending : c.pending = c.pending.filter (·.1 != k.request) := by
    refine (List.filter_eq_self.mpr ?_).symm
    rintro ⟨q, n⟩ he
    obtain ⟨k', hk', hnone, rfl, -⟩ := h.mem_pending.mp he
    have hne : k'.request ≠ k.request := by
      intro hq
      rw [h.eq_of_request hk' hk hq, htold] at hnone
      cases hnone
    simpa using hne
  refine h.leave ⟨k, hk, rfl, ?_⟩ rfl rfl rfl rfl hpending List.filter_sublist ?_
  · rintro r' ⟨⟩
    exact htold
  · intro n r' hn he
    exact List.mem_filter.mpr ⟨he, by simpa using hn⟩

lemma giveUp (h : Correlated c₀ l c) {t : Ticket} (ht : ∃ k ∈ l.waiting, k.toTicket = t)
    {e : Ending} (he : ∀ r, e ≠ .answer r) :
    Correlated c₀ (l.leave t e) (c.forget t.request) := by
  obtain ⟨k, hk, ht⟩ := ht
  refine h.leave ⟨k, hk, ht, ?_⟩ rfl rfl rfl rfl rfl (.refl _) fun _ _ _ hm => hm
  intro r hr
  exact absurd hr (he r)

lemma step (h : Correlated c₀ l c) (ha : l.Admits a) (hs : (l.note c a).Spaced)
    (hr : ∀ t, a = .collect t → (c.response? t.waiter).isSome) :
    Correlated c₀ (l.note c a) (a.apply c) := by
  cases a with
  | register =>
    have hs' : (l.hear .register).Spaced := fun k hk => hs k (List.mem_cons_of_mem _ hk)
    have hnext : (c.nextRequest.toNat + 2) % 2 ^ 32 = c.takeRequestId.2.nextRequest.toNat :=
      (UInt32.toNat_add c.nextRequest 2).symm
    have hage : ∀ k ∈ (l.hear .register).waiting, 0 < k.age := by
      intro k' hk'
      obtain ⟨k, hk, rfl⟩ := List.mem_map.mp hk'
      rw [k.age_hear .register]
      exact Nat.succ_pos _
    -- For the others it is as if an id were taken; then the new caller comes in.
    have hnumbered : Correlated c₀ (l.hear .register) c.takeRequestId.2 :=
      h.hear_silent hs' (fun _ => rfl) rfl rfl rfl rfl rfl rfl
    rw [show Action.register.apply c = c.register.2.2 from rfl, h.register_eq hs']
    exact hnumbered.enter hnext hage
  | oneway => exact h.hear_silent hs (fun _ => rfl) rfl rfl rfl rfl rfl rfl
  | written t => exact h.hear_silent hs (fun _ => rfl) rfl rfl rfl rfl rfl rfl
  | unwritten t e =>
    have hleft := h.giveUp (ha t rfl) (e := .unsent e) (by simp)
    exact hleft.hear_silent hs (fun _ => rfl) rfl rfl rfl rfl rfl rfl
  | expire t ms =>
    have hleft := h.giveUp (ha t rfl) (e := .timeout ms) (by simp)
    exact hleft.hear_silent hs (fun _ => rfl) rfl rfl rfl rfl rfl rfl
  | collect t =>
    obtain ⟨r, hr⟩ := Option.isSome_iff_exists.mp (hr t rfl)
    obtain ⟨k, hk, ht⟩ := ha t rfl
    have hnote : l.note c (.collect t) = (l.leave t (.answer r)).hear (.collect t) := by
      simp [Ledger.note, Ledger.ending?, hr]
    rw [hnote] at hs ⊢
    exact (h.collect hk ht hr).hear_silent hs (fun _ => rfl) rfl rfl rfl rfl rfl rfl
  | arrive m order => exact h.news hs rfl rfl
  | lose e => exact h.news hs rfl rfl
  | late exit => exact h.news hs rfl rfl
  | fail e => exact h.news hs rfl rfl
  | goodbye => exact h.news hs rfl rfl

end Correlated

end ObjectBroker
