import ObjectBroker.Proofs.Connection.Action
import ObjectBroker.Proofs.Lookup

/-!
The place that a caller has on a connection. Whatever others do there, a caller keeps its place
until its answer has come.
-/

namespace ObjectBroker

namespace Connection

variable (c : Connection)

def Distinct : Prop :=
  (c.pending.map (·.1)).Nodup

lemma pending_register :
    c.register.2.2.pending =
      (c.nextRequest, c.nextWaiter) :: c.pending.filter (·.1 != c.nextRequest) := by
  rw [register]
  dsimp only [takeRequestId]
  cases hl : c.pending.lookup c.nextRequest with
  | some old => rfl
  | none =>
    have hall : ∀ e ∈ c.pending, (e.1 != c.nextRequest) = true := by
      intro e he
      have hne := List.lookup_eq_none_iff.mp hl e he
      exact bne_iff_ne.mpr (bne_iff_ne.mp hne).symm
    rw [List.filter_eq_self.mpr hall]

lemma nextWaiter_register : c.register.2.2.nextWaiter = c.nextWaiter + 1 := rfl

lemma response?_register (x : WaiterId) :
    (c.register.2.2.response? x).isSome =
      ((c.pending.lookup c.nextRequest == some x) || (c.response? x).isSome) := by
  rw [register]
  dsimp only [takeRequestId]
  cases hl : c.pending.lookup c.nextRequest with
  | none => rfl
  | some old =>
    change (List.lookup x ((old, _) :: c.responses)).isSome = _
    by_cases hx : x = old
    · simp [hx]
    · have hne : old ≠ x := fun h => hx h.symm
      rw [List.lookup_cons, beq_eq_false_iff_ne.mpr hx]
      simp [hne, response?]

variable {c}

lemma Distinct.forget (h : c.Distinct) (request : UInt32) : (c.forget request).Distinct :=
  List.Nodup.sublist (List.filter_sublist.map _) h

lemma Distinct.register (h : c.Distinct) : c.register.2.2.Distinct := by
  rw [Distinct, pending_register, List.map_cons, List.nodup_cons]
  exact ⟨by simp, h.forget c.nextRequest⟩

end Connection

namespace Ticket

variable {c : Connection} {t : Ticket}

def Pending (c : Connection) (t : Ticket) : Prop :=
  (t.request, t.waiter) ∈ c.pending

def Known (c : Connection) (t : Ticket) : Prop :=
  t.Pending c ∨ (c.response? t.waiter).isSome = true

lemma pending_complete {request : UInt32} {r : Response} (h : t.Pending (c.complete request r)) :
    t.Pending c := by
  rw [Connection.complete] at h
  split at h
  · exact h
  · exact List.mem_of_mem_filter h

lemma known_failPending (h : t.Known c) (e : BrokerError) : t.Known (c.failPending e) := by
  rcases h with hp | hr
  · refine .inr ?_
    rw [c.response?_failPending hp e]
    rfl
  · refine .inr ?_
    rw [Connection.response?, Connection.failPending, List.lookup_append, Option.isSome_or]
    exact Bool.or_eq_true_iff.mpr (.inr hr)

lemma known_complete (h : t.Known c) (hu : c.Distinct) (request : UInt32) (r : Response) :
    t.Known (c.complete request r) := by
  rw [Connection.complete]
  cases hl : c.pending.lookup request with
  | none => exact h
  | some n =>
    have hmem : (request, n) ∈ c.pending := (lookup_eq_some_iff_mem hu).mp hl
    by_cases hn : t.waiter = n
    · refine .inr ?_
      change (List.lookup t.waiter ((n, r) :: c.responses)).isSome = true
      rw [List.lookup_cons, beq_iff_eq.mpr hn]
      rfl
    · rcases h with hp | hr
      · -- An entry of another waiter has another id.
        have hne : t.request ≠ request := by
          intro hq
          have heq := List.inj_on_of_nodup_map hu hp hmem hq
          exact hn (congrArg Prod.snd heq)
        exact .inl (List.mem_filter.mpr ⟨hp, bne_iff_ne.mpr hne⟩)
      · refine .inr ?_
        change (List.lookup t.waiter ((n, r) :: c.responses)).isSome = true
        rw [List.lookup_cons, beq_eq_false_iff_ne.mpr hn]
        exact hr

lemma known_register (h : t.Known c) (hu : c.Distinct) :
    t.request ≠ c.nextRequest ∧ t.Pending c ∨
      (c.register.2.2.response? t.waiter).isSome = true := by
  rw [c.response?_register]
  rcases h with hp | hr
  · by_cases hq : t.request = c.nextRequest
    · refine .inr ?_
      rw [← hq, (lookup_eq_some_iff_mem hu).mpr hp]
      simp
    · exact .inl ⟨hq, hp⟩
  · simp [hr]

end Ticket

end ObjectBroker
