import ObjectBroker.Proofs.Activity
import ObjectBroker.Proofs.Evaluation

/-!
Whole executions of activities, with all that they change in the world. Where an activity waits, and
where another object works for it, the world becomes what others make of it.
-/

namespace ObjectBroker

variable {σ α β : Type} {E : World σ → World σ → Prop}

namespace Activity

/-- From a world on, the activity comes to its end with `x`. The list has the changes that it makes
itself, each as the world before and the world after it; `E` is what others may do meanwhile. -/
inductive Runs (E : World σ → World σ → Prop) :
    Activity σ α → World σ → List (World σ × World σ) → α → World σ → Prop
  | pure (x : α) (w : World σ) : Runs E (.pure x) w [] x w
  | read {next : World σ → Activity σ α} {w w' : World σ} {l : List (World σ × World σ)} {x : α}
      (h : Runs E (next w) w l x w') : Runs E (.read next) w l x w'
  | write {next : Activity σ α} {w v w' : World σ} {l : List (World σ × World σ)} {x : α}
      (h : Runs E next v l x w') : Runs E (.write v next) w ((w, v) :: l) x w'
  | met {wait : Wait} {deadline : Option Nat} {next : Bool → Activity σ α} {w w' : World σ}
      {l : List (World σ × World σ)} {x : α} (hm : wait.isMet w = true)
      (h : Runs E (next true) w l x w') : Runs E (.await wait deadline next) w l x w'
  | late {wait : Wait} {deadline : Option Nat} {next : Bool → Activity σ α} {w w' : World σ}
      {l : List (World σ × World σ)} {x : α} (hm : wait.isMet w = false)
      (ho : isOver w deadline = true) (h : Runs E (next false) w l x w') :
      Runs E (.await wait deadline next) w l x w'
  | wait {wait : Wait} {deadline : Option Nat} {next : Bool → Activity σ α} {w v w' : World σ}
      {l : List (World σ × World σ)} {x : α} (hm : wait.isMet w = false)
      (ho : isOver w deadline = false) (he : E w v)
      (h : Runs E (.await wait deadline next) v l x w') :
      Runs E (.await wait deadline next) w l x w'
  | call {call : Inbound} {next : ReplyStatus × Octets → Activity σ α} {w v w' : World σ}
      {l : List (World σ × World σ)} {x : α} (r : ReplyStatus × Octets) (he : E w v)
      (h : Runs E (next r) v l x w') : Runs E (.perform call next) w l x w'

namespace Runs

variable {a : Activity σ α} {f : α → Activity σ β} {w v w' : World σ}
  {l l' : List (World σ × World σ)} {x : α} {y : β}

lemma bind (ha : a.Runs E w l x v) (hf : (f x).Runs E v l' y w') :
    (a >>= f).Runs E w (l ++ l') y w' := by
  induction ha with
  | pure x w => exact hf
  | read _ ih => exact .read (ih hf)
  | write _ ih => exact .write (ih hf)
  | met hm _ ih => exact .met hm (ih hf)
  | late hm ho _ ih => exact .late hm ho (ih hf)
  | wait hm ho he _ ih => exact .wait hm ho he (ih hf)
  | call r he _ ih => exact .call r he (ih hf)

lemma of_bind (h : (a >>= f).Runs E w l y w') :
    ∃ l₁ x v l₂, a.Runs E w l₁ x v ∧ (f x).Runs E v l₂ y w' ∧ l = l₁ ++ l₂ := by
  change (a.bind f).Runs E w l y w' at h
  induction a generalizing w l with
  | pure x => exact ⟨[], x, w, l, .pure x w, h, rfl⟩
  | read next ih =>
    cases h with
    | read h =>
      obtain ⟨l₁, x, v, l₂, h₁, h₂, hl⟩ := ih _ h
      exact ⟨l₁, x, v, l₂, .read h₁, h₂, hl⟩
  | write u next ih =>
    cases h with
    | write h =>
      obtain ⟨l₁, x, v, l₂, h₁, h₂, rfl⟩ := ih h
      exact ⟨_ :: l₁, x, v, l₂, .write h₁, h₂, rfl⟩
  | await wait deadline next ih =>
    -- The same wait may be entered any number of times before it is over.
    generalize hb : (Activity.await wait deadline next).bind f = b at h
    induction h with
    | met hm h =>
      cases hb
      obtain ⟨l₁, x, v, l₂, h₁, h₂, hl⟩ := ih _ h
      exact ⟨l₁, x, v, l₂, .met hm h₁, h₂, hl⟩
    | late hm ho h =>
      cases hb
      obtain ⟨l₁, x, v, l₂, h₁, h₂, hl⟩ := ih _ h
      exact ⟨l₁, x, v, l₂, .late hm ho h₁, h₂, hl⟩
    | wait hm ho he _ ihw =>
      obtain ⟨l₁, x, v, l₂, h₁, h₂, hl⟩ := ihw ih hb
      cases hb
      exact ⟨l₁, x, v, l₂, .wait hm ho he h₁, h₂, hl⟩
    | _ => cases hb
  | perform call next ih =>
    cases h with
    | call r he h =>
      obtain ⟨l₁, x, v, l₂, h₁, h₂, hl⟩ := ih _ h
      exact ⟨l₁, x, v, l₂, .call r he h₁, h₂, hl⟩

lemma changes_respect {R : World σ → World σ → Prop} (h : a.Runs E w l x w')
    (ha : a.RespectsFrom R w) : ∀ c ∈ l, R c.1 c.2 := by
  induction h with
  | pure => simp
  | read _ ih => exact ih ha
  | write _ ih => exact List.forall_mem_cons.mpr ⟨ha.1, ih ha.2⟩
  | met _ _ ih => exact ih (ha _ _)
  | late _ _ _ ih => exact ih (ha _ _)
  | wait _ _ _ _ ih => exact ih ha
  | call r _ _ ih => exact ih (ha _ _)

end Runs

section Steps

variable {w w' : World σ} {l : List (World σ × World σ)} {y : β}

lemma runs_bind_iff {a : Activity σ α} {f : α → Activity σ β} : (a >>= f).Runs E w l y w' ↔
    ∃ l₁ x v l₂, a.Runs E w l₁ x v ∧ (f x).Runs E v l₂ y w' ∧ l = l₁ ++ l₂ := by
  constructor
  · exact Runs.of_bind
  · rintro ⟨l₁, x, v, l₂, ha, hf, rfl⟩
    exact ha.bind hf

lemma runs_pure_iff {x : β} :
    (Pure.pure x : Activity σ β).Runs E w l y w' ↔ l = [] ∧ y = x ∧ w' = w := by
  constructor
  · rintro ⟨⟩
    exact ⟨rfl, rfl, rfl⟩
  · rintro ⟨rfl, rfl, rfl⟩
    exact .pure _ _

lemma runs_world_iff {k : World σ → Activity σ β} :
    (world >>= k).Runs E w l y w' ↔ (k w).Runs E w l y w' := by
  constructor
  · rintro ⟨⟩
    assumption
  · exact .read

lemma runs_broker_iff {b : BrokerId} {k : Broker → Activity σ β} :
    (broker b >>= k).Runs E w l y w' ↔ (k (w.broker b)).Runs E w l y w' :=
  runs_world_iff (k := fun w => k (w.broker b))

lemma runs_update_iff {f : World σ → World σ} {k : Unit → Activity σ β} :
    (update f >>= k).Runs E w l y w' ↔
      ∃ l', (k ()).Runs E (f w) l' y w' ∧ l = (w, f w) :: l' := by
  constructor
  · intro h
    cases h with
    | read h =>
      cases h with
      | write h => exact ⟨_, h, rfl⟩
  · rintro ⟨l', h, rfl⟩
    exact .read (.write h)

lemma runs_updateBroker_iff {b : BrokerId} {f : Broker → Broker} {k : Unit → Activity σ β} :
    (updateBroker b f >>= k).Runs E w l y w' ↔
      ∃ l', (k ()).Runs E (w.updateBroker b f) l' y w' ∧ l = (w, w.updateBroker b f) :: l' :=
  runs_update_iff

end Steps

def Stop.rest : Stop σ α → Activity σ α
  | .done x => .pure x
  | .waiting wait deadline next => .await wait deadline next
  | .calling call next => .perform call next

lemma runs_iff_rest (a : Activity σ α) (w : World σ) :
    ∃ l₁, ∀ (E : World σ → World σ → Prop) l x w', a.Runs E w l x w' ↔
      ∃ l₂, (a.run w).1.rest.Runs E (a.run w).2 l₂ x w' ∧ l = l₁ ++ l₂ := by
  induction a generalizing w with
  | pure y => exact ⟨[], fun E l x w' => by simp [run, Stop.rest]⟩
  | read next ih =>
    obtain ⟨l₁, h⟩ := ih w w
    refine ⟨l₁, fun E l x w' => (Iff.trans ?_ (h E l x w'))⟩
    exact ⟨fun h => by cases h; assumption, .read⟩
  | write v next ih =>
    obtain ⟨l₁, h⟩ := ih v
    refine ⟨(w, v) :: l₁, fun E l x w' => ⟨fun hrun => ?_, ?_⟩⟩
    · cases hrun with
      | write hrun =>
        obtain ⟨l₂, hrest, rfl⟩ := (h E _ x w').mp hrun
        exact ⟨l₂, hrest, rfl⟩
    · rintro ⟨l₂, hrest, rfl⟩
      exact .write ((h E _ x w').mpr ⟨l₂, hrest, rfl⟩)
  | await wait deadline next ih =>
    rw [run]
    cases hm : wait.isMet w with
    | true =>
      obtain ⟨l₁, h⟩ := ih true w
      refine ⟨l₁, fun E l x w' => Iff.trans ⟨fun hrun => ?_, .met hm⟩ (h E l x w')⟩
      cases hrun with
      | met _ hrun => exact hrun
      | late hm' => simp [hm] at hm'
      | wait hm' => simp [hm] at hm'
    | false =>
      cases ho : isOver w deadline with
      | true =>
        obtain ⟨l₁, h⟩ := ih false w
        refine ⟨l₁, fun E l x w' => Iff.trans ⟨fun hrun => ?_, .late hm ho⟩ (h E l x w')⟩
        cases hrun with
        | met hm' => simp [hm] at hm'
        | late _ _ hrun => exact hrun
        | wait _ ho' => simp [ho] at ho'
      | false => exact ⟨[], fun E l x w' => by simp [Stop.rest]⟩
  | perform call next ih => exact ⟨[], fun E l x w' => by simp [run, Stop.rest]⟩

lemma Evaluates.runs_iff {a : Activity σ α} {w v w' : World σ} {x y : α} (h : a.Evaluates w x v) :
    (∃ l, a.Runs E w l y w') ↔ y = x ∧ w' = v := by
  obtain ⟨l₁, hrest⟩ := a.runs_iff_rest w
  rw [h] at hrest
  constructor
  · rintro ⟨l, hrun⟩
    obtain ⟨l₂, hpure, -⟩ := (hrest E l y w').mp hrun
    exact (runs_pure_iff.mp hpure).2
  · rintro ⟨rfl, rfl⟩
    exact ⟨l₁ ++ [], (hrest E _ _ _).mpr ⟨[], .pure _ _, rfl⟩⟩

end Activity

end ObjectBroker
