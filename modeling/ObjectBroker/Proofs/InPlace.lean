import Mathlib.Tactic.Lemma

/-!
Programs that change a state in place and may fail on the way. What they have changed before they
fail stays changed.
-/

namespace ObjectBroker

abbrev InPlace (ε S : Type) := ExceptT ε (StateM S)

namespace InPlace

variable {ε S α β : Type}

def run (p : InPlace ε S α) (s : S) : Except ε α × S :=
  StateT.run (ExceptT.run p) s

def lift : Except ε α → InPlace ε S α
  | .ok a => pure a
  | .error e => throw e

/-- The outcome of a program that changes nothing unless it succeeds. -/
def settled (s : S) : Except ε (α × S) → Except ε α × S
  | .ok (a, s') => (.ok a, s')
  | .error e => (.error e, s)

lemma settled_of_error {s : S} {e : ε} {x : Except ε (α × S)} (h : (settled s x).1 = .error e) :
    (settled s x).2 = s := by
  cases x with
  | error e' => rfl
  | ok r => cases h

lemma run_get_bind (f : S → InPlace ε S α) (s : S) : run (get >>= f) s = (f s).run s := rfl

lemma run_tryCatch (p : InPlace ε S α) (handle : ε → InPlace ε S α) (s : S) :
    run (tryCatch p handle) s = match p.run s with
      | (.ok a, s') => (.ok a, s')
      | (.error e, s') => (handle e).run s' := by
  rw [run, ExceptT.run_tryCatch, StateT.run_bind]
  rcases h : StateT.run (ExceptT.run p) s with ⟨_ | _, s'⟩
  all_goals
    rw [run, h]
    rfl

lemma run_lift_bind (x : Except ε β) (f : β → InPlace ε S α) (s : S)
    {g : β → Except ε (α × S)} (h : ∀ b, (f b).run s = settled s (g b)) :
    run (lift x >>= f) s = settled s (x >>= g) := by
  cases x with
  | error e => rfl
  | ok b => exact h b

lemma run_ite_throw {c : Prop} [Decidable c] {e : ε} {p : InPlace ε S α} {s : S}
    {x : Except ε (α × S)} (h : p.run s = settled s x) :
    run (if c then (throw e : InPlace ε S PUnit) >>= fun _ => p else p) s =
      settled s (if c then (throw e : Except ε PUnit) >>= fun _ => x else x) := by
  by_cases hc : c
  · rw [if_pos hc, if_pos hc]
    rfl
  · rwa [if_neg hc, if_neg hc]

end InPlace

end ObjectBroker
