import ObjectBroker.Proofs.Connection.Correlation
import ObjectBroker.Proofs.Network.Line

/-!
The request ids of a connection, in runs of any length. They go up in steps of two, even on one
side and odd on the other, and start over after `2 ^ 31` of them. Whoever still waits then loses its
place to the new caller that is given the same id, and nobody does otherwise.
-/

namespace ObjectBroker

namespace Connection

variable (c : Connection)

lemma nextRequest_register : c.register.2.2.nextRequest = c.nextRequest + 2 := by
  unfold register takeRequestId
  dsimp only
  cases c.pending.lookup c.nextRequest <;> rfl

lemma nextRequest_complete (q : UInt32) (r : Response) :
    (c.complete q r).nextRequest = c.nextRequest := by
  unfold complete
  cases c.pending.lookup q <;> rfl

lemma nextWaiter_complete (q : UInt32) (r : Response) :
    (c.complete q r).nextWaiter = c.nextWaiter := by
  unfold complete
  cases c.pending.lookup q <;> rfl

lemma pending_complete_sublist (q : UInt32) (r : Response) :
    (c.complete q r).pending.Sublist c.pending := by
  unfold complete
  cases c.pending.lookup q with
  | none => exact .refl _
  | some n => exact List.filter_sublist

end Connection

namespace Action

lemma apply_cases (c : Connection) (a : Action) :
    a = .register ∨ (a.apply c).pending.Sublist c.pending ∧
      (a.apply c).nextWaiter = c.nextWaiter ∧
      (a.apply c).nextRequest = if a.takesId then c.nextRequest + 2 else c.nextRequest := by
  by_cases hnews : a.ticket? = none ∧ a.takesId = false
  · obtain ⟨hticket, htakes⟩ := hnews
    rw [htakes]
    rcases news_cases c hticket htakes with ⟨id, r, happly, -⟩ | ⟨e, happly, -⟩ | ⟨happly, -⟩ <;>
      rw [happly]
    · exact .inr ⟨c.pending_complete_sublist id r, c.nextWaiter_complete id r,
        c.nextRequest_complete id r⟩
    · exact .inr ⟨List.nil_sublist _, rfl, rfl⟩
    · exact .inr ⟨.refl _, rfl, rfl⟩
  · cases a with
    | register => exact .inl rfl
    | oneway => exact .inr ⟨.refl _, rfl, rfl⟩
    | written t => exact .inr ⟨.refl _, rfl, rfl⟩
    | collect t => exact .inr ⟨.refl _, rfl, rfl⟩
    | unwritten t e => exact .inr ⟨List.filter_sublist, rfl, rfl⟩
    | expire t ms => exact .inr ⟨List.filter_sublist, rfl, rfl⟩
    | _ => exact absurd ⟨rfl, rfl⟩ hnews

lemma nextRequest_apply (c : Connection) (a : Action) :
    (a.apply c).nextRequest = if a.takesId then c.nextRequest + 2 else c.nextRequest := by
  rcases a.apply_cases c with rfl | ⟨-, -, hnext⟩
  · exact c.nextRequest_register
  · exact hnext

lemma nextWaiter_apply_le (c : Connection) (a : Action) :
    c.nextWaiter ≤ (a.apply c).nextWaiter := by
  rcases a.apply_cases c with rfl | ⟨-, hwaiter, -⟩
  · exact (Nat.le_succ _).trans c.nextWaiter_register.ge
  · exact hwaiter.ge

lemma distinct_apply {c : Connection} (h : c.Distinct) (a : Action) : (a.apply c).Distinct := by
  rcases a.apply_cases c with rfl | ⟨hsub, -, -⟩
  · exact h.register
  · exact List.Nodup.sublist (hsub.map Prod.fst) h

end Action

namespace Connection

def after (c : Connection) : List Action → Connection
  | [] => c
  | a :: as => (a.apply c).after as

def taken (c : Connection) : List Action → List UInt32
  | [] => []
  | a :: as => if a.takesId then c.nextRequest :: (a.apply c).taken as else (a.apply c).taken as

variable {c d : Connection} {as : List Action}

lemma eq_of_desk (h : d.desk = c.desk) :
    d.pending = c.pending ∧ d.nextRequest = c.nextRequest ∧ d.nextWaiter = c.nextWaiter :=
  ⟨congrArg (·.pending) h, congrArg (·.nextRequest) h, congrArg (·.nextWaiter) h⟩

lemma after_append (c : Connection) (as bs : List Action) :
    c.after (as ++ bs) = (c.after as).after bs := by
  induction as generalizing c with
  | nil => rfl
  | cons a as ih => exact ih (a.apply c)

lemma after_congr (h : c.desk = d.desk) (as : List Action) :
    (c.after as).desk = (d.after as).desk := by
  induction as generalizing c d with
  | nil => exact h
  | cons a as ih => exact ih (Action.apply_congr h a)

lemma requestId_apply {a : Action} (ha : a.takesId = true) (k : Nat) :
    (a.apply c).requestId k = c.requestId (k + 1) := by
  have hnext : (a.apply c).nextRequest = c.nextRequest + 2 := by
    rw [a.nextRequest_apply c, if_pos ha]
  rw [c.requestId_succ, requestId, requestId, hnext]
  ac_rfl

lemma requestId_congr (h : d.nextRequest = c.nextRequest) (k : Nat) :
    d.requestId k = c.requestId k := by
  rw [requestId, requestId, h]

lemma nextRequest_after (c : Connection) (as : List Action) :
    (c.after as).nextRequest = c.requestId (as.countP Action.takesId) := by
  induction as generalizing c with
  | nil => exact c.requestId_zero.symm
  | cons a as ih =>
    rw [after, ih]
    cases ha : a.takesId with
    | true => rw [requestId_apply ha, List.countP_cons_of_pos ha]
    | false =>
      have hnext : (a.apply c).nextRequest = c.nextRequest := by
        rw [a.nextRequest_apply c, ha]
        rfl
      rw [requestId_congr hnext, List.countP_cons_of_neg (by simp [ha])]

lemma taken_eq (c : Connection) (as : List Action) :
    c.taken as = (List.range (as.countP Action.takesId)).map c.requestId := by
  induction as generalizing c with
  | nil => rfl
  | cons a as ih =>
    rw [taken, ih]
    cases ha : a.takesId with
    | true =>
      rw [if_pos rfl, List.countP_cons_of_pos ha, List.range_succ_eq_map, List.map_cons,
        List.map_map, c.requestId_zero]
      congr 1
      exact List.map_congr_left fun k _ => requestId_apply ha k
    | false =>
      have hnext : (a.apply c).nextRequest = c.nextRequest := by
        rw [a.nextRequest_apply c, ha]
        rfl
      rw [List.countP_cons_of_neg (by simp [ha])]
      exact List.map_congr_left fun k _ => requestId_congr hnext k

lemma nextWaiter_le_after (c : Connection) (as : List Action) :
    c.nextWaiter ≤ (c.after as).nextWaiter := by
  induction as generalizing c with
  | nil => exact Nat.le_refl _
  | cons a as ih => exact (a.nextWaiter_apply_le c).trans (ih _)

lemma Distinct.after (h : c.Distinct) (as : List Action) : (c.after as).Distinct := by
  induction as generalizing c with
  | nil => exact h
  | cons a as ih => exact ih (a.distinct_apply h)

lemma registered_of_mem {q : UInt32} {n : WaiterId} (h : (q, n) ∈ (c.after as).pending) :
    (q, n) ∈ c.pending ∨ ∃ front back, as = front ++ .register :: back ∧
      (c.after front).nextRequest = q ∧ (c.after front).nextWaiter = n := by
  induction as generalizing c with
  | nil => exact .inl h
  | cons a as ih =>
    rcases ih h with hpending | ⟨front, back, rfl, hq, hn⟩
    · rcases a.apply_cases c with rfl | ⟨hsub, -, -⟩
      · have hmem : (q, n) ∈ c.register.2.2.pending := hpending
        rw [c.pending_register] at hmem
        rcases List.mem_cons.mp hmem with heq | hold
        · cases heq
          exact .inr ⟨[], as, rfl, rfl, rfl⟩
        · exact .inl (List.mem_filter.mp hold).1
      · exact .inl (hsub.subset hpending)
    · exact .inr ⟨a :: front, back, rfl, hq, hn⟩

lemma mem_register_iff (hu : c.Distinct) {q : UInt32} {n : WaiterId} (hn : n < c.nextWaiter)
    (h : (q, n) ∈ c.pending) :
    ((q, n) ∈ c.register.2.2.pending ↔ c.register.1 ≠ q) ∧
      (c.register.1 = q → c.register.2.2.response? n = some (.error (c.dropped q))) := by
  have hfirst : c.register.1 = c.nextRequest := rfl
  rw [hfirst, c.pending_register]
  constructor
  · have hnew : (q, n) ≠ (c.nextRequest, c.nextWaiter) := fun heq =>
      Nat.ne_of_lt hn (congrArg Prod.snd heq)
    rw [List.mem_cons, or_iff_right hnew, List.mem_filter, and_iff_right h, bne_iff_ne]
    exact ne_comm
  · rintro rfl
    have hl : c.pending.lookup c.nextRequest = some n := (lookup_eq_some_iff_mem hu).mpr h
    unfold register takeRequestId
    dsimp only
    rw [hl]
    simp [respond, response?, dropped, forget]

lemma requestId_mod_two (c : Connection) (k : Nat) : (c.requestId k).toNat % 2 =
    c.nextRequest.toNat % 2 := by
  rw [requestId, UInt32.toNat_add, UInt32.toNat_ofNat']
  omega

lemma requestId_lt (h : c.nextRequest.toNat ≤ 1) {i j : Nat} (hi : i < j) (hj : j < idSpan) :
    c.requestId i < c.requestId j := by
  rw [UInt32.lt_iff_toNat_lt, requestId, requestId, UInt32.toNat_add, UInt32.toNat_add,
    UInt32.toNat_ofNat', UInt32.toNat_ofNat']
  rw [idSpan] at hj
  omega

lemma requestId_eq_iff (c : Connection) (i k : Nat) :
    c.requestId (i + k) = c.requestId i ↔ idSpan ∣ k := by
  rw [← UInt32.toNat_inj, requestId, requestId, UInt32.toNat_add, UInt32.toNat_add,
    UInt32.toNat_ofNat', UInt32.toNat_ofNat', idSpan]
  have hlt := c.nextRequest.toNat_lt
  omega

end Connection

namespace World

variable {σ : Type} {w w' : World σ} {p : Port} {c : Connection} {as : List Action}

inductive Acts (p : Port) : World σ → List Action → World σ → Prop
  | done {w w' : World σ} (h : w.Spares p w') : Acts p w [] w'
  | act {w w₀ w₁ w' : World σ} {a : Action} {as : List Action} (h : w.Spares p w₀)
      (hd : w₀.Does p a w₁) (rest : Acts p w₁ as w') : Acts p w (a :: as) w'

lemma Acts.has (run : Acts p w as w') (hw : w.Has p c) :
    ∃ d, w'.Has p d ∧ d.desk = (c.after as).desk := by
  induction run generalizing c with
  | done h => exact h c hw
  | act h hd rest ih =>
    obtain ⟨c₀, hc₀, hdesk⟩ := h c hw
    obtain ⟨c₁, hc₁, hdesk₁⟩ := hd.has hc₀
    obtain ⟨d, hd, hdesk₂⟩ := ih hc₁
    have happly := hdesk₁.trans (Action.apply_congr hdesk _)
    exact ⟨d, hd, hdesk₂.trans (Connection.after_congr happly _)⟩

theorem Acts.request_ids (hw : w.Has p c) (hnext : c.nextRequest = Connection.firstRequest c.role)
    (hpending : c.pending = []) (run : Acts p w as w') :
    c.taken as = (List.range (as.countP Action.takesId)).map c.requestId ∧
    (∀ id ∈ c.taken as, id.toNat % 2 = (Connection.firstRequest c.role).toNat) ∧
    (as.countP Action.takesId ≤ Connection.idSpan → (c.taken as).Pairwise (· < ·)) ∧
    ∃ d, w'.Has p d ∧ ∀ q n, (q, n) ∈ d.pending →
      ∃ front back, as = front ++ .register :: back ∧
        (c.after front).register.1 = q ∧ (c.after front).register.2.1 = n ∧
        ((q, n) ∈ d.register.2.2.pending ↔
          ¬ Connection.idSpan ∣ back.countP Action.takesId + 1) ∧
        (Connection.idSpan ∣ back.countP Action.takesId + 1 →
          d.register.2.2.response? n = some (.error (d.dropped q))) := by
  have hfirst : c.nextRequest.toNat = 0 ∨ c.nextRequest.toNat = 1 := by
    rw [hnext]
    cases c.role
    · exact .inl rfl
    · exact .inr rfl
  refine ⟨c.taken_eq as, fun id hid => ?_, fun hfew => ?_, ?_⟩
  · rw [c.taken_eq] at hid
    obtain ⟨k, -, rfl⟩ := List.mem_map.mp hid
    rw [c.requestId_mod_two, ← hnext]
    omega
  · rw [c.taken_eq]
    refine List.pairwise_map.mpr (List.pairwise_lt_range.imp_of_mem fun hi hj hlt => ?_)
    exact c.requestId_lt (by omega) hlt ((List.mem_range.mp hj).trans_le hfew)
  · obtain ⟨d, hd, hdesk⟩ := run.has hw
    obtain ⟨hsame, hrequest, hwaiters⟩ := Connection.eq_of_desk hdesk
    have hu : d.Distinct := by
      have hnobody : c.Distinct := by
        rw [Connection.Distinct, hpending]
        exact .nil
      rw [Connection.Distinct, hsame]
      exact hnobody.after as
    refine ⟨d, hd, fun q n hmem => ?_⟩
    rw [hsame] at hmem
    rcases Connection.registered_of_mem hmem with hold | ⟨front, back, rfl, rfl, rfl⟩
    · rw [hpending] at hold
      cases hold
    -- The new caller comes as many ids after the old one as have been taken since, and one.
    have hround : d.register.1 = (c.after front).nextRequest ↔
        Connection.idSpan ∣ back.countP Action.takesId + 1 := by
      rw [show d.register.1 = d.nextRequest from rfl, hrequest, c.nextRequest_after,
        c.nextRequest_after, List.countP_append, List.countP_cons_of_pos rfl]
      exact c.requestId_eq_iff _ _
    have hknown : (c.after front).nextWaiter < d.nextWaiter := by
      rw [hwaiters, c.after_append]
      exact Nat.lt_of_succ_le (((c.after front).nextWaiter_register.ge).trans
        (Connection.nextWaiter_le_after _ back))
    obtain ⟨hstays, htold⟩ := Connection.mem_register_iff hu hknown (hsame ▸ hmem)
    exact ⟨front, back, rfl, rfl, rfl, hstays.trans (not_congr hround),
      fun hdvd => htold (hround.mpr hdvd)⟩

end World

end ObjectBroker
