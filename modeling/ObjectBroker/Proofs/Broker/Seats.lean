import ObjectBroker.Proofs.Broker.Path
import ObjectBroker.Proofs.Connection.Drain

/-!
The places of callers while their broker goes on. A place is given up by its caller only; no
connection that is being closed gives out new ones, and a broker that has stopped stays as it is.
-/

namespace ObjectBroker

def Ticket.Held (c : Connection) (t : Ticket) : Prop :=
  t.waiter < c.nextWaiter ∧ t.Known c

namespace Connection

/-- Nobody waits on the connection, and nobody can any more. -/
structure Over (c : Connection) : Prop where
  rank : 2 ≤ c.state.rank
  pending : c.pending = []

variable {c d : Connection} {t : Ticket}

lemma setState_eq (c : Connection) (s : ConnectionState) :
    (c.setState s).pending = c.pending ∧ (c.setState s).responses = c.responses ∧
      (c.setState s).nextWaiter = c.nextWaiter := by
  rw [setState]
  split <;> exact ⟨rfl, rfl, rfl⟩

lemma stopReading_eq (c : Connection) : c.stopReading.pending = c.pending ∧
    c.stopReading.responses = c.responses ∧ c.stopReading.nextWaiter = c.nextWaiter ∧
      c.stopReading.state = c.state := by
  rw [stopReading]
  split <;> exact ⟨rfl, rfl, rfl, rfl⟩

lemma Over.register (h : c.Over) :
    c.register.2.2.pending = [(c.nextRequest, c.nextWaiter)] ∧
      c.register.2.2.responses = c.responses := by
  constructor
  · rw [pending_register, h.pending]
    rfl
  · rw [Connection.register]
    dsimp only [takeRequestId]
    rw [h.pending]
    rfl

namespace Change

lemma distinct (h : c.Change d) (hc : c.Distinct) : d.Distinct := by
  cases h with
  | place _ => exact hc.register
  | refuse => exact hc.register.forget _
  | complete request r =>
    rw [Connection.complete]
    split
    · exact hc
    · exact hc.forget _
  | fail e => exact List.nodup_nil
  | beginClose h =>
    obtain ⟨-, rfl⟩ := beginClose?_eq_some h
    exact hc
  | part =>
    rw [Distinct, (stopReading_eq _).1, (setState_eq _ _).1]
    exact hc
  | quit s _ =>
    have hclosed : (c.setState .closed).Distinct := by
      rw [Distinct, (setState_eq _ _).1]
      exact hc
    exact hclosed
  | aside _ _ _ _ _ => exact hc

lemma nextWaiter (h : c.Change d) : c.nextWaiter ≤ d.nextWaiter := by
  cases h with
  | place _ => exact Nat.le_succ _
  | refuse => exact Nat.le_succ _
  | complete request r =>
    rw [Connection.complete]
    split <;> exact Nat.le_refl _
  | beginClose h =>
    obtain ⟨-, rfl⟩ := beginClose?_eq_some h
    exact Nat.le_refl _
  | part => exact Nat.le_of_eq ((stopReading_eq _).2.2.1.trans (setState_eq _ _).2.2).symm
  | quit s _ => exact Nat.le_of_eq (setState_eq c .closed).2.2.symm
  | aside _ _ _ _ _ => exact Nat.le_refl _
  | fail e => exact Nat.le_refl _

lemma known (h : c.Change d) (hc : c.Distinct) (ht : t.Known c) : t.Known d := by
  cases h with
  | place _ =>
    refine (Ticket.known_register ht hc).imp_left fun ⟨hne, hp⟩ => ?_
    rw [Ticket.Pending, pending_register]
    exact List.mem_cons_of_mem _ (List.mem_filter.mpr ⟨hp, bne_iff_ne.mpr hne⟩)
  | refuse =>
    refine (Ticket.known_register ht hc).imp_left fun ⟨hne, hp⟩ => ?_
    rw [Ticket.Pending, Connection.forget, pending_register]
    refine List.mem_filter.mpr ⟨List.mem_cons_of_mem _ ?_, bne_iff_ne.mpr hne⟩
    exact List.mem_filter.mpr ⟨hp, bne_iff_ne.mpr hne⟩
  | complete request r => exact Ticket.known_complete ht hc request r
  | fail e => exact Ticket.known_failPending ht e
  | beginClose h =>
    obtain ⟨-, rfl⟩ := beginClose?_eq_some h
    exact ht
  | part =>
    rw [Ticket.Known, Ticket.Pending, response?, (stopReading_eq _).1, (stopReading_eq _).2.1, (setState_eq _ _).1,
      (setState_eq _ _).2.1]
    exact ht
  | quit s _ =>
    have hclosed : t.Known (c.setState .closed) := by
      rw [Ticket.Known, Ticket.Pending, response?, (setState_eq _ _).1, (setState_eq _ _).2.1]
      exact ht
    exact hclosed
  | aside _ _ _ _ _ => exact ht

lemma stays_over (h : c.Change d) (hc : c.Over) : d.Over ∧ d.responses = c.responses := by
  have hrank : 2 ≤ d.state.rank := Nat.le_trans hc.rank h.stays.rank
  cases h with
  | place ho => exact absurd (rank_lt_of_checkOpen ho) (Nat.not_lt.mpr hc.rank)
  | refuse =>
    refine ⟨⟨hrank, ?_⟩, hc.register.2⟩
    rw [Connection.forget, hc.register.1]
    simp [Connection.register, takeRequestId]
  | complete request r =>
    rw [Connection.complete, hc.pending]
    exact ⟨hc, rfl⟩
  | fail e =>
    refine ⟨⟨hrank, rfl⟩, ?_⟩
    rw [Connection.failPending, hc.pending]
    rfl
  | beginClose hb => exact absurd (beginClose?_eq_some hb).1 (Nat.not_lt.mpr hc.rank)
  | part =>
    obtain ⟨hp, hr, -, -⟩ := stopReading_eq (c.setState .closed)
    obtain ⟨hp', hr', -⟩ := setState_eq c .closed
    exact ⟨⟨hrank, (hp.trans hp').trans hc.pending⟩, hr.trans hr'⟩
  | quit s _ =>
    obtain ⟨hp, hr, -⟩ := setState_eq c .closed
    exact ⟨⟨hrank, hp.trans hc.pending⟩, hr⟩
  | aside _ _ _ _ _ => exact ⟨⟨hc.rank, hc.pending⟩, rfl⟩

lemma isEstablished (h : c.Change d) (hd : d.isEstablished = true) : c.isEstablished = true := by
  rw [Connection.isEstablished, beq_iff_eq] at hd ⊢
  cases h with
  | place _ => exact c.stays_register_state.symm.trans hd
  | refuse => exact c.stays_register_state.symm.trans hd
  | complete request r => exact (state_complete c request r).symm.trans hd
  | beginClose hb =>
    obtain ⟨-, rfl⟩ := beginClose?_eq_some hb
    cases hd
  | part =>
    rw [(stopReading_eq _).2.2.2, state_setState_closed] at hd
    cases hd
  | quit s _ => exact absurd (c.state_setState_closed.symm.trans hd) (by decide)
  | aside _ _ _ _ _ => exact hd
  | fail e => exact hd

end Change

end Connection

namespace Broker

variable {b b' : Broker} {marks : List Mark} {id : Nat} {c d : Connection} {t : Ticket}

def Mark.leaves : Mark → Bool
  | .collect _ _ | .abandon _ _ => true
  | .claim _ _ | .retire _ => false

lemma Alters.change_of (h : Alters id marks c d) (hm : ∀ m ∈ marks, m.leaves = false) :
    c.Change d := by
  cases h with
  | change h => exact h
  | collect hmem => cases hm _ hmem
  | abandon hmem => cases hm _ hmem

/-- Connections have ids of their own, and so have the requests on each. -/
structure Sound (b : Broker) : Prop where
  numbered : b.Numbered
  distinct : ∀ c ∈ b.connections, c.Distinct

def Seated (b : Broker) (few : List Nat) : Prop :=
  b.isRunning = true → ∀ c ∈ b.connections, c.isEstablished = true → c.id ∈ b.table ∨ c.id ∈ few

def Keeps (b : Broker) (id : Nat) (t : Ticket) : Prop :=
  ∃ c, b.connection? id = some c ∧ t.Held c

structure Leaving (b : Broker) : Prop where
  isRunning : b.isRunning = false
  table : b.table = []

structure Stopped (b : Broker) : Prop extends Leaving b where
  adapters : b.adapters.IsStopped

namespace Move

lemma origin (h : Move b marks b') (hb : b.Numbered) (hd : d ∈ b'.connections) :
    (∃ c ∈ b.connections, c.id = d.id ∧ Alters d.id marks c d) ∨
      d.pending = [] ∧ d.id ∈ b'.table := by
  have hnumbered := (h.turn hb).numbered hb
  have hold : d.id ∈ b.ids → ∃ c ∈ b.connections, c.id = d.id ∧ Alters d.id marks c d := by
    intro hid
    obtain ⟨c, hc⟩ := exists_connection?_iff.mpr hid
    obtain ⟨d', hd', halters⟩ := h.alters hb hc
    obtain rfl := Option.some.inj ((hnumbered.connection?_of_mem hd).symm.trans hd')
    exact ⟨c, List.mem_of_find?_eq_some hc, id_of_connection? hc, halters⟩
  rcases h.ids with hids | ⟨role, peer, inbound, outbound, rfl⟩
  · exact .inl (hold (hids ▸ List.mem_map_of_mem hd))
  · rw [connections_adopt] at hd
    rcases List.mem_cons.mp hd with rfl | hd
    · refine .inr ⟨rfl, ?_⟩
      rw [table_adopt]
      exact List.mem_cons_self
    · exact .inl (hold (List.mem_map_of_mem hd))

lemma sound (h : Move b marks b') (hb : b.Sound) : b'.Sound := by
  refine ⟨(h.turn hb.numbered).numbered hb.numbered, fun d hd => ?_⟩
  rcases h.origin hb.numbered hd with ⟨c, hc, -, halters⟩ | ⟨hnew, -⟩
  · cases halters with
    | change h => exact h.distinct (hb.distinct c hc)
    | collect _ => exact hb.distinct c hc
    | abandon _ => exact (hb.distinct c hc).forget _
  · rw [Connection.Distinct, hnew]
    exact List.nodup_nil

lemma keeps (h : Move b marks b') (hb : b.Sound) (hm : ∀ m ∈ marks, m.leaves = false)
    (ht : b.Keeps id t) : b'.Keeps id t := by
  obtain ⟨c, hc, hwaiter, hknown⟩ := ht
  obtain ⟨d, hd, halters⟩ := h.alters hb.numbered hc
  have hchange := halters.change_of hm
  exact ⟨d, hd, Nat.lt_of_lt_of_le hwaiter hchange.nextWaiter,
    hchange.known (hb.distinct c (List.mem_of_find?_eq_some hc)) hknown⟩

lemma stays_over (h : Move b marks b') (hb : b.Numbered) (hc : b.connection? id = some c)
    (hover : c.Over) : ∃ d, b'.connection? id = some d ∧ d.Over ∧
      ((∀ m ∈ marks, m.leaves = false) → d.responses = c.responses) := by
  obtain ⟨d, hd, halters⟩ := h.alters hb hc
  refine ⟨d, hd, ?_, fun hm => ((halters.change_of hm).stays_over hover).2⟩
  cases halters with
  | change h => exact (h.stays_over hover).1
  | collect _ => exact ⟨hover.rank, hover.pending⟩
  | abandon _ => exact ⟨hover.rank, by simp [Connection.forget, hover.pending]⟩

lemma seated (h : Move b marks b') (hb : b.Sound) {few : List Nat} (hs : b.Seated few)
    (hm : ∀ id, .retire id ∈ marks → id ∈ few) : b'.Seated few := by
  intro hrun d hd hestablished
  rcases h.origin hb.numbered hd with ⟨c, hc, hid, halters⟩ | ⟨-, hin⟩
  · have hin : d.id ∈ b.table ∨ d.id ∈ few := by
      have hc' : c.isEstablished = true := by
        cases halters with
        | change h => exact h.isEstablished hestablished
        | collect _ => exact hestablished
        | abandon _ => exact hestablished
      rw [← hid]
      exact hs ((h.turn hb.numbered).isRunning_of hrun) c hc hc'
    cases h with
    | adopt role peer inbound outbound _ =>
      rw [table_adopt]
      exact hin.imp_left (List.mem_cons_of_mem _)
    | register points _ _ _ _ =>
      rw [(registerPoints_table b _ points).1]
      exact hin
    | remove hclosed hstate _ =>
      rw [Broker.remove]
      split
      · refine hin.imp_left fun hin => List.mem_filter.mpr ⟨hin, bne_iff_ne.mpr fun heq => ?_⟩
        rw [connections_remove] at hd
        have hsame := (hb.numbered.connection?_of_mem hd).symm.trans
          (heq ▸ hb.numbered.connection?_of_mem hclosed)
        rw [Connection.isEstablished, Option.some.inj hsame, hstate] at hestablished
        cases hestablished
      · exact hin
    | @retire gone _ _ =>
      rw [Broker.remove]
      split
      · by_cases heq : d.id = gone.id
        · exact .inr (heq ▸ hm _ (List.mem_singleton_self _))
        · exact hin.imp_left fun hin => List.mem_filter.mpr ⟨hin, bne_iff_ne.mpr heq⟩
      · exact hin
    | stop => cases hrun
    | aside registry naming isGone stats => exact hin
    | house _ => exact hin
    | change n f _ _ => exact hin
    | collect n waiter => exact hin
    | abandon n request => exact hin
  · exact .inl hin

lemma leaving (h : Move b marks b') (hb : b.Leaving) : b'.Leaving := by
  have hstopped := hb.isRunning
  cases h with
  | adopt role peer inbound outbound hrun =>
    rw [hstopped] at hrun
    cases hrun
  | register points _ _ _ _ =>
    obtain ⟨htable, hrun, -⟩ := registerPoints_table b ‹_› points
    exact ⟨hrun.trans hb.isRunning, htable.trans hb.table⟩
  | remove _ _ _ | retire _ _ =>
    rw [Broker.remove, hb.table]
    exact hb
  | stop => exact ⟨rfl, rfl⟩
  | house _ => exact ⟨hb.isRunning, hb.table⟩
  | aside registry naming isGone stats => exact ⟨hb.isRunning, hb.table⟩
  | change n f _ _ => exact ⟨hb.isRunning, hb.table⟩
  | collect n waiter => exact ⟨hb.isRunning, hb.table⟩
  | abandon n request => exact ⟨hb.isRunning, hb.table⟩

lemma stopped (h : Move b marks b') (hb : b.Stopped) : b'.Stopped := by
  refine ⟨h.leaving hb.toLeaving, ?_⟩
  cases h with
  | adopt role peer inbound outbound hrun =>
    rw [hb.isRunning] at hrun
    cases hrun
  | house hd => exact hd hb.isRunning hb.adapters
  | register points _ _ _ _ =>
    rw [registerPoints]
    split
    · exact hb.adapters
    · obtain ⟨routes, stats, hfold⟩ := foldl_registerPoint b ‹_› points
      rw [hfold]
      exact hb.adapters
  | remove _ _ _ | retire _ _ =>
    rw [Broker.remove, hb.table]
    exact hb.adapters
  | stop => exact hb.adapters
  | aside registry naming isGone stats => exact hb.adapters
  | change n f _ _ => exact hb.adapters
  | collect n waiter => exact hb.adapters
  | abandon n request => exact hb.adapters

end Move

namespace Path

lemma sound (h : Path b marks b') (hb : b.Sound) : b'.Sound := by
  induction h with
  | refl => exact hb
  | tail _ hm ih => exact hm.sound ih

lemma keeps (h : Path b marks b') (hb : b.Sound) (hm : ∀ m ∈ marks, m.leaves = false)
    (ht : b.Keeps id t) : b'.Keeps id t := by
  induction h with
  | refl => exact ht
  | tail h hmove ih =>
    exact hmove.keeps (h.sound hb) (fun m hmem => hm m (List.mem_append_right _ hmem))
      (ih fun m hmem => hm m (List.mem_append_left _ hmem))

lemma stays_over (h : Path b marks b') (hb : b.Numbered) (hc : b.connection? id = some c)
    (hover : c.Over) : ∃ d, b'.connection? id = some d ∧ d.Over ∧
      ((∀ m ∈ marks, m.leaves = false) → d.responses = c.responses) := by
  induction h with
  | refl => exact ⟨c, hc, hover, fun _ => rfl⟩
  | tail h hmove ih =>
    obtain ⟨d, hd, hdover, hsame⟩ := ih
    obtain ⟨e, he, heover, hsame'⟩ := hmove.stays_over (h.course hb).2 hd hdover
    refine ⟨e, he, heover, fun hm => ?_⟩
    exact (hsame' fun m hmem => hm m (List.mem_append_right _ hmem)).trans
      (hsame fun m hmem => hm m (List.mem_append_left _ hmem))

lemma seated (h : Path b marks b') (hb : b.Sound) {few : List Nat} (hs : b.Seated few)
    (hm : ∀ id, .retire id ∈ marks → id ∈ few) : b'.Seated few := by
  induction h with
  | refl => exact hs
  | tail h hmove ih =>
    refine hmove.seated (h.sound hb) (ih fun id hmem => hm id (List.mem_append_left _ hmem)) ?_
    exact fun id hmem => hm id (List.mem_append_right _ hmem)

lemma leaving (h : Path b marks b') (hb : b.Leaving) : b'.Leaving := by
  induction h with
  | refl => exact hb
  | tail _ hmove ih => exact hmove.leaving ih

lemma stopped (h : Path b marks b') (hb : b.Stopped) : b'.Stopped := by
  induction h with
  | refl => exact hb
  | tail _ hmove ih => exact hmove.stopped ih

end Path

end Broker

end ObjectBroker
