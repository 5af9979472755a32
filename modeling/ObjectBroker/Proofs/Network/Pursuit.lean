import ObjectBroker.Proofs.Network.Tasks

/-!
What someone at work in a network comes to in the end, whatever the others do to a broker while it
waits.
-/

namespace ObjectBroker

variable {σ α β ρ : Type}

namespace World

variable {w w' w'' : World σ} {b : BrokerId}

structure Onward (b : BrokerId) (w w' : World σ) : Prop where
  size : w.brokers.size ≤ w'.brokers.size
  path : ∃ marks, (w.broker b).Path marks (w'.broker b)

namespace Onward

lemma refl (w : World σ) : w.Onward b w :=
  ⟨Nat.le_refl _, _, .refl⟩

lemma trans (h : Onward b w w') (h' : Onward b w' w'') : Onward b w w'' := by
  obtain ⟨marks, hpath⟩ := h.path
  obtain ⟨more, hmore⟩ := h'.path
  exact ⟨Nat.le_trans h.size h'.size, _, hpath.trans hmore⟩

lemma of_silent (h : w.Silent w') : Onward b w w' :=
  ⟨Nat.le_of_eq h.size.symm, _, h.path b⟩

end Onward

end World

namespace Activity

/-- Whatever `R` allows the others to do meanwhile, the activity comes to `Q` if it comes to an end.
It calls nobody inside its broker. -/
def Ensures (R : World σ → World σ → Prop) (Q : α → World σ → Prop) :
    Activity σ α → World σ → Prop
  | .pure x, w => Q x w
  | .read next, w => (next w).Ensures R Q w
  | .write w' next, _ => next.Ensures R Q w'
  | .await _ _ next, w => ∀ met w', R w w' → (next met).Ensures R Q w'
  | .perform _ _, _ => False

def Stop.Ensures (R : World σ → World σ → Prop) (Q : α → World σ → Prop) (w : World σ) :
    Stop σ α → Prop
  | .done x => Q x w
  | .waiting _ _ next => ∀ met w', R w w' → (next met).Ensures R Q w'
  | .calling _ _ => False

namespace Ensures

variable {R : World σ → World σ → Prop} {P : α → World σ → Prop} {Q : β → World σ → Prop}
  {a : Activity σ α} {f : α → Activity σ β} {w : World σ}

lemma bind (ha : a.Ensures R P w) (hf : ∀ x w', P x w' → (f x).Ensures R Q w') :
    (a >>= f).Ensures R Q w := by
  induction a generalizing w with
  | pure x => exact hf x w ha
  | read next ih => exact ih w ha
  | write w' next ih => exact ih ha
  | await wait deadline next ih => exact fun met w' hw' => ih met (ha met w' hw')
  | perform call next ih => exact ha.elim

lemma run (ha : a.Ensures R P w) (hR : ∀ w, R w w) : (a.run w).1.Ensures R P (a.run w).2 := by
  induction a generalizing w with
  | pure x => exact ha
  | read next ih => exact ih w ha
  | write w' next ih => exact ih ha
  | await wait deadline next ih =>
    rw [Activity.run]
    split
    · exact ih true (ha true w (hR w))
    · split
      · exact ih false (ha false w (hR w))
      · exact ha
  | perform call next ih => exact ha.elim

end Ensures

end Activity

namespace Network

open World

variable [Servant σ] {n n' : Network σ ρ} {b : BrokerId} {Q : World σ → Prop} {id : Nat}

def Pursues (b : BrokerId) (Q : World σ → Prop) (id : Nat) (n : Network σ ρ) : Prop :=
  (∃ a, (id, a) ∈ n.tasks ∧
    ∀ w, Onward b n.world w → a.Ensures (Onward b) (fun _ => Q) w) ∨ Q n.world

variable
  (hs : ∀ c operation, (Servant.invoke c operation : Serving σ Unit).MadeOf Activity.Primitive)
  (hQ : ∀ w w', Onward b w w' → Q w → Q w')
include hs

lemma Occurs.mem_tasks {more : List Incident} {x : Nat × Activity σ (Option ρ)}
    (ho : Occurs n more n') (hx : x ∈ n.tasks) :
    x ∈ n'.tasks ∨ ∃ rest, n.queue = .task x.1 x.2 :: rest ∧ n' = n.step := by
  have hwoken : ∀ {w : World σ} {due : Parked σ ρ → Bool},
      x ∈ (({ n with world := w } : Network σ ρ).wake due).tasks :=
    fun {w due} => (Grows.wake { n with world := w } due).mem hx
  cases ho with
  | elapse time => exact .inl hwoken
  | absorb => exact .inl ((Grows.absorbAll hs n).mem hx)
  | start ha => exact .inl ((Grows.start n ha).mem hx)
  | create id config => exact .inl hx
  | attach h => exact .inl hx
  | host h => exact .inl hx
  | outside h => exact .inl hx
  | take id => exact .inl hx
  | step =>
    cases hq : n.queue with
    | nil =>
      rw [Network.step, hq]
      exact .inl hx
    | cons r rest =>
      cases r with
      | reader p =>
        rw [step_reader_eq hq]
        refine .inl ((Grows.absorbAll hs _).mem ?_)
        rw [tasks, hq] at hx
        exact hx
      | task id a =>
        rw [tasks_of_queue hq] at hx
        rcases List.mem_cons.mp hx with rfl | hx
        · exact .inr ⟨rest, rfl, rfl⟩
        · rw [step_task_eq hq]
          refine .inl ((Grows.absorbAll hs _).mem ?_)
          exact (n.tasks_afterTask id a rest).mem_iff.mpr (List.mem_append_right _ hx)

include hQ

lemma Pursues.step {a : Activity σ (Option ρ)} {rest : List (Ready σ ρ)}
    (hq : n.queue = .task id a :: rest) (ha : a.Ensures (Onward b) (fun _ => Q) n.world) :
    n.step.Pursues b Q id := by
  have hworld : n.step.world = { (a.run n.world).2.collect with events := [] } := by
    rw [step_task_eq hq, (absorbAll_eq _).1, afterTask, (settleTask_eq _ _ _).1]
  have honward : Onward b (a.run n.world).2 n.step.world := by
    rw [hworld]
    exact .of_silent ((Silent.collect _).trans (.of_brokers rfl))
  have hleft : ∀ c ∈ (a.run n.world).1.left, (id, c) ∈ n.step.tasks := by
    intro c hc
    rw [step_task_eq hq]
    refine (Grows.absorbAll hs _).mem ((n.tasks_afterTask id a rest).mem_iff.mpr ?_)
    exact List.mem_append_left _ (List.mem_map_of_mem (Option.mem_toList.mpr hc))
  have hrun := ha.run Onward.refl
  cases hstop : (a.run n.world).1 with
  | done x =>
    rw [hstop] at hrun
    exact .inr (hQ _ _ honward hrun)
  | waiting wait deadline next =>
    rw [hstop] at hrun hleft
    exact .inl ⟨_, hleft _ rfl, fun w hw met w' hw' => hrun met w' (honward.trans (hw.trans hw'))⟩
  | calling call next =>
    rw [hstop] at hrun
    exact hrun.elim

omit hQ in
lemma Recorded.onward {log more : List Incident} (hr : n.Recorded log)
    (hb : b < n.world.brokers.size) (hh : History n more n') : Onward b n.world n'.world := by
  induction hh with
  | refl => exact .refl _
  | tail hh ho ih =>
    obtain ⟨-, hgoes⟩ := Recorded.goes hs (Recorded.history hs hr hh) ho
    exact ih.trans ⟨hgoes.size_le, hgoes.path (Nat.lt_of_lt_of_le hb ih.size)⟩

lemma Pursues.history {log more : List Incident} (h : n.Pursues b Q id) (hr : n.Recorded log)
    (hb : b < n.world.brokers.size) (hh : History n more n') : n'.Pursues b Q id := by
  induction hh with
  | refl => exact h
  | @tail log' more' n' n'' hh ho ih =>
    have hb' := Nat.lt_of_lt_of_le hb (Recorded.onward hs hr hb hh).size
    have honward : Onward b n'.world n''.world :=
      Recorded.onward hs (Recorded.history hs hr hh) hb' (.tail .refl ho)
    rcases ih with ⟨a, ha, hensures⟩ | hdone
    · rcases Occurs.mem_tasks hs ho ha with hin | ⟨rest, hq, rfl⟩
      · exact .inl ⟨a, hin, fun w hw => hensures w (honward.trans hw)⟩
      · exact Pursues.step hs hQ hq (hensures _ (.refl _))
    · exact .inr (hQ _ _ honward hdone)

end Network

end ObjectBroker
