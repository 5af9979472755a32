import Mathlib.Data.List.Perm.Basic
import ObjectBroker.Proofs.Network.Run

/-!
Runs of calls that are given by something simpler than all that they do. The order in which the
broker answers is then an order of what was given.
-/

namespace ObjectBroker

variable {σ α : Type}

lemma exists_map_eq {α β : Type} {f : α → β} {p : α → Prop} {l : List β}
    (h : ∀ b ∈ l, ∃ a, p a ∧ f a = b) : ∃ l' : List α, (∀ a ∈ l', p a) ∧ l'.map f = l := by
  induction l with
  | nil => exact ⟨[], nofun, rfl⟩
  | cons b l ih =>
    obtain ⟨a, ha, rfl⟩ := h b List.mem_cons_self
    obtain ⟨l', hl', rfl⟩ := ih fun b hb => h b (List.mem_cons_of_mem _ hb)
    exact ⟨a :: l', List.forall_mem_cons.mpr ⟨ha, hl'⟩, rfl⟩

namespace Site

open Dispatch (Served)
open Network (Moves)

variable [Servant σ] {ι : Type} {trip : ι → Trip σ α} {x : Site σ α}
  {issued issued' : List (Nat × ι)} {n n' : Network σ (Except BrokerError α)}

/-- An order in which the broker has answered calls so far, of which `trip` tells how they go. -/
structure Answers (x : Site σ α) (trip : ι → Trip σ α) (issued : List (Nat × ι))
    (n : Network σ (Except BrokerError α)) (log : List ((Nat × ι) × ReplyContent)) : Prop where
  numbers : (issued.map Prod.fst).Nodup
  calls : (log.map Prod.fst).Subperm issued
  served : Served x.host x.base.world.objects
    (log.map fun y => ((trip y.1.2).errand.question, y.2)) n.world.objects
  results : n.results.Subperm (log.map fun y => (y.1.1, x.result (trip y.1.2) y.2))
  rest : n.queue = [] → (log.map Prod.fst).Perm issued ∧
    n.results.Perm (log.map fun y => (y.1.1, x.result (trip y.1.2) y.2))

lemma Tells.answers {log : List ((Nat × ι) × ReplyContent)}
    (h : x.Tells (issued.map (Prod.map id trip)) n (log.map (Prod.map (Prod.map id trip) id)))
    (hissued : issued <+: issued') (hnumbers : (issued'.map Prod.fst).Nodup)
    (hlog : ∀ y ∈ log, y.1 ∈ issued') : x.Answers trip issued n log := by
  have hfst : (log.map (Prod.map (Prod.map id trip) id)).map Prod.fst =
      (log.map Prod.fst).map (Prod.map id trip) := by
    rw [List.map_map, List.map_map]
    rfl
  have hnodup : (issued.map Prod.fst).Nodup :=
    hnumbers.sublist (hissued.sublist.map _)
  have hcalls := h.calls
  rw [hfst] at hcalls
  -- A number stands for one call only.
  have hmem : ∀ i ∈ log.map Prod.fst, i ∈ issued := by
    intro i hi
    obtain ⟨y, hy, rfl⟩ := List.mem_map.mp hi
    obtain ⟨j, hj, hij⟩ := List.mem_map.mp (hcalls.subset (List.mem_map_of_mem hi))
    have hnumber : j.1 = y.1.1 := congrArg (fun z : Nat × Trip σ α => z.1) hij
    have hsame := List.inj_on_of_nodup_map hnumbers (hissued.subset hj) (hlog y hy) hnumber
    exact hsame ▸ hj
  have hdistinct : (log.map Prod.fst).Nodup := by
    obtain ⟨calls, hperm, hsub⟩ := hcalls
    have hcallsNodup : (calls.map Prod.fst).Nodup := by
      refine List.Nodup.sublist (hsub.map Prod.fst) ?_
      rw [List.map_map]
      exact hnodup
    have hlogNodup := (hperm.map Prod.fst).nodup_iff.mp hcallsNodup
    rw [List.map_map] at hlogNodup
    exact .of_map Prod.fst hlogNodup
  have hsubperm : (log.map Prod.fst).Subperm issued := hdistinct.subperm hmem
  have hserved := h.served
  have hresults := h.results
  rw [List.map_map] at hserved hresults
  refine ⟨hnodup, hsubperm, hserved, hresults, fun hq => ?_⟩
  obtain ⟨hall, hdone⟩ := h.rest hq
  rw [List.map_map] at hdone
  refine ⟨hsubperm.perm_of_length_le ?_, hdone⟩
  rw [hfst] at hall
  have hlength := hall.length_eq
  rw [List.length_map, List.length_map] at hlength
  rw [List.length_map] at hlength ⊢
  exact hlength.ge

lemma Sound.answers (hx : x.Sound) (trip : ι → Trip σ α)
    (hm : Moves (fun i => (trip i).errand.holding) (fun i => (trip i).errand.call)
      ([], x.base) (issued, n))
    (hm' : Moves (fun i => (trip i).errand.holding) (fun i => (trip i).errand.call)
      (issued, n) (issued', n'))
    (htakes : ∀ i ∈ issued', x.Takes (trip i.2))
    (hable : x.Able (issued'.map fun i => trip i.2)) :
    ∃ log log', x.Answers trip issued n log ∧ x.Answers trip issued' n' log' ∧ log <+: log' ∧
      ∃ enough, ∀ fuel, enough ≤ fuel → (n'.settle fuel).queue = [] := by
  let holding (t : Trip σ α) := t.errand.holding
  let call (t : Trip σ α) := t.errand.call
  have hh : ∀ i, holding (trip i) = (trip i).errand.holding := fun _ => rfl
  have hc : ∀ i, call (trip i) = (trip i).errand.call := fun _ => rfl
  have htakes' : ∀ i ∈ issued'.map (Prod.map id trip), x.Takes i.2 := by
    intro i hi
    obtain ⟨j, hj, rfl⟩ := List.mem_map.mp hi
    exact htakes j hj
  have hable' : x.Able ((issued'.map (Prod.map id trip)).map Prod.snd) := by
    rw [List.map_map]
    exact hable
  obtain ⟨told, told', htells, htells', hprefix, hends⟩ :=
    hx.run (hm.map trip hh hc) (hm'.map trip hh hc) htakes' hable'
  have hnumbers : (issued'.map Prod.fst).Nodup := by
    have hnodup := htells'.numbers
    rw [List.map_map] at hnodup
    exact hnodup
  obtain ⟨log', hlog', rfl⟩ : ∃ log' : List ((Nat × ι) × ReplyContent),
      (∀ y ∈ log', y.1 ∈ issued') ∧ log'.map (Prod.map (Prod.map id trip) id) = told' := by
    apply exists_map_eq
    intro y hy
    obtain ⟨i, hi, hiy⟩ := List.mem_map.mp (htells'.calls.subset (List.mem_map_of_mem hy))
    exact ⟨(i, y.2), hi, Prod.ext hiy rfl⟩
  obtain ⟨log, hlog, rfl⟩ : ∃ log, log <+: log' ∧
      log.map (Prod.map (Prod.map id trip) id) = told := by
    refine ⟨log'.take told.length, List.take_prefix _ _, ?_⟩
    rw [List.map_take]
    exact (List.prefix_iff_eq_take.mp hprefix).symm
  refine ⟨log, log', htells.answers hm'.issued_prefix hnumbers fun y hy => ?_,
    htells'.answers List.prefix_rfl hnumbers hlog', hlog, hends⟩
  exact hlog' y (hlog.subset hy)

end Site

end ObjectBroker
