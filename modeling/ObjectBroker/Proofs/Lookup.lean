import Mathlib.Data.List.Basic
import Mathlib.Data.List.Nodup

/-!
Association lists: what is found under a key when entries are taken out.
-/

namespace ObjectBroker

section Lookup

variable {α β : Type} [BEq α] [LawfulBEq α] {l : List (α × β)} {a : α} {x : β}

lemma lookup_cons_ite [DecidableEq α] (a : α) (entry : α × β) (l : List (α × β)) :
    (entry :: l).lookup a = if a = entry.1 then some entry.2 else l.lookup a := by
  rw [List.lookup_cons]
  by_cases h : a = entry.1
  · rw [if_pos h, beq_iff_eq.mpr h]
  · rw [if_neg h, beq_eq_false_iff_ne.mpr h]

lemma lookup_eq_some_iff_mem (h : (l.map (·.1)).Nodup) : l.lookup a = some x ↔ (a, x) ∈ l := by
  rw [List.lookup_eq_some_iff]
  constructor
  · rintro ⟨front, back, rfl, -⟩
    exact List.mem_append_right _ List.mem_cons_self
  · intro hm
    obtain ⟨front, back, rfl⟩ := List.append_of_mem hm
    refine ⟨front, back, rfl, fun e he => ?_⟩
    rw [List.map_append, List.nodup_append] at h
    have hne := h.2.2 e.1 (List.mem_map_of_mem he) a List.mem_cons_self
    simpa using hne.symm

lemma lookup_filter {keep : α × β → Bool} (h : l.lookup a = some x) (hk : keep (a, x) = true) :
    (l.filter keep).lookup a = some x := by
  induction l with
  | nil => cases h
  | cons entry l ih =>
    obtain ⟨key, value⟩ := entry
    rw [List.lookup_cons] at h
    by_cases ha : a = key
    · subst ha
      rw [beq_self_eq_true] at h
      obtain rfl : value = x := Option.some.inj h
      rw [List.filter_cons_of_pos hk, List.lookup_cons, beq_self_eq_true]
    · rw [beq_eq_false_iff_ne.mpr ha] at h
      by_cases hkey : keep (key, value) = true
      · rw [List.filter_cons_of_pos hkey, List.lookup_cons, beq_eq_false_iff_ne.mpr ha]
        exact ih h
      · rw [List.filter_cons_of_neg hkey]
        exact ih h

lemma lookup_filter_key (keep : α → Bool) (l : List (α × β)) (a : α) :
    (l.filter fun entry => keep entry.1).lookup a = if keep a then l.lookup a else none := by
  induction l with
  | nil => simp
  | cons entry l ih =>
    obtain ⟨key, value⟩ := entry
    rw [List.filter_cons, List.lookup_cons]
    by_cases ha : a = key
    · subst ha
      cases hk : keep a <;> simp [hk, ih]
    · cases hk : keep key <;> simp [ih, List.lookup_cons, beq_eq_false_iff_ne.mpr ha]

lemma lookup_filter_value [BEq β] (h : (l.map (·.1)).Nodup) (a : α) (y : β) :
    (l.filter (·.2 != y)).lookup a = (l.lookup a).filter (· != y) := by
  ext x
  have hsub : ((l.filter (·.2 != y)).map (·.1)).Nodup := h.sublist (List.filter_sublist.map _)
  rw [lookup_eq_some_iff_mem hsub, Option.filter_eq_some_iff, lookup_eq_some_iff_mem h, List.mem_filter]

end Lookup

end ObjectBroker
