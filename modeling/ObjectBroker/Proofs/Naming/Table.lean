import Mathlib.Data.String.Basic
import Mathlib.Logic.Function.Basic
import Mathlib.Tactic.Lemma
import ObjectBroker.Naming.Context
import ObjectBroker.Proofs.Lookup

/-!
The table of a naming context is a finite map, kept as a list in the strict order of names.
-/

namespace ObjectBroker

lemma NameComponent.before_iff {a b : NameComponent} :
    a.before b = true ↔ a.id < b.id ∨ (a.id = b.id ∧ a.kind < b.kind) := by
  simp [before]

namespace NameComponent

lemma before_trans {a b c : NameComponent} (h : a.before b = true) (h' : b.before c = true) :
    a.before c = true := by
  rw [before_iff] at h h' ⊢
  rcases h with h | ⟨h, hk⟩
  · rcases h' with h' | ⟨h', -⟩
    · exact .inl (lt_trans h h')
    · exact .inl (h' ▸ h)
  · rcases h' with h' | ⟨h', hk'⟩
    · exact .inl (h ▸ h')
    · exact .inr ⟨h.trans h', lt_trans hk hk'⟩

lemma before_of_ne {a b : NameComponent} (h : a ≠ b) : a.before b = true ∨ b.before a = true := by
  rw [before_iff, before_iff]
  rcases lt_trichotomy a.id b.id with hid | hid | hid
  · exact .inl (.inl hid)
  · rcases lt_trichotomy a.kind b.kind with hkind | hkind | hkind
    · exact .inl (.inr ⟨hid, hkind⟩)
    · refine absurd ?_ h
      cases a
      cases b
      simp_all
    · exact .inr (.inr ⟨hid.symm, hkind⟩)
  · exact .inr (.inl hid)

end NameComponent

namespace Name

lemma before_cons {a b : NameComponent} {n m : Name} :
    before (a :: n) (b :: m) = true ↔ a.before b = true ∨ (a = b ∧ n.before m = true) := by
  simp [before]

lemma before_trans {n m l : Name} (h : n.before m = true) (h' : m.before l = true) :
    n.before l = true := by
  induction n generalizing m l with
  | nil =>
    cases m with
    | nil => cases h
    | cons b m =>
      cases l with
      | nil => cases h'
      | cons c l => rfl
  | cons a n ih =>
    cases m with
    | nil => cases h
    | cons b m =>
      cases l with
      | nil => cases h'
      | cons c l =>
        rw [before_cons] at h h' ⊢
        rcases h with h | ⟨rfl, h⟩
        · rcases h' with h' | ⟨rfl, -⟩
          · exact .inl (NameComponent.before_trans h h')
          · exact .inl h
        · rcases h' with h' | ⟨rfl, h'⟩
          · exact .inl h'
          · exact .inr ⟨rfl, ih h h'⟩

lemma before_of_ne {n m : Name} (h : n ≠ m) : n.before m = true ∨ m.before n = true := by
  induction n generalizing m with
  | nil =>
    cases m with
    | nil => exact absurd rfl h
    | cons b m => exact .inl rfl
  | cons a n ih =>
    cases m with
    | nil => exact .inr rfl
    | cons b m =>
      rw [before_cons, before_cons]
      by_cases hab : a = b
      · subst hab
        have hnm : n ≠ m := fun hnm => h (congrArg _ hnm)
        rcases ih hnm with h | h
        · exact .inl (.inr ⟨rfl, h⟩)
        · exact .inr (.inr ⟨rfl, h⟩)
      · rcases NameComponent.before_of_ne hab with h | h
        · exact .inl (.inl h)
        · exact .inr (.inl h)

end Name

def Reference.bare (r : Reference) : Reference :=
  { r with isLocal := false }

namespace NamingContext

def Ascending (bindings : List (Name × Reference)) : Prop :=
  bindings.Pairwise fun x y => x.1.before y.1 = true

variable {bindings : List (Name × Reference)} {name : Name} {object : Reference}

lemma mem_insert {x : Name × Reference} (h : x ∈ insert name object bindings) :
    x = (name, object) ∨ x ∈ bindings := by
  induction bindings with
  | nil => exact .inl (List.mem_singleton.mp h)
  | cons y bindings ih =>
    rw [insert] at h
    split at h
    · rcases List.mem_cons.mp h with h | h
      · exact .inl h
      · exact .inr (List.mem_cons_of_mem y h)
    · split at h
      · exact List.mem_cons.mp h
      · rcases List.mem_cons.mp h with h | h
        · exact .inr (h ▸ List.mem_cons_self)
        · exact (ih h).imp_right (List.mem_cons_of_mem y)

lemma Ascending.insert (h : Ascending bindings) (name : Name) (object : Reference) :
    Ascending (insert name object bindings) := by
  induction bindings with
  | nil => exact List.pairwise_singleton _ _
  | cons y bindings ih =>
    obtain ⟨hy, hrest⟩ := List.pairwise_cons.mp h
    rw [NamingContext.insert]
    split
    · next hname =>
      subst hname
      exact List.pairwise_cons.mpr ⟨hy, hrest⟩
    · next hname =>
      split
      · next hbefore =>
        refine List.pairwise_cons.mpr ⟨fun z hz => ?_, h⟩
        rcases List.mem_cons.mp hz with rfl | hz
        · exact hbefore
        · exact Name.before_trans hbefore (hy z hz)
      · next hbefore =>
        refine List.pairwise_cons.mpr ⟨fun z hz => ?_, ih hrest⟩
        rcases mem_insert hz with rfl | hz
        · exact (Name.before_of_ne hname).resolve_left hbefore
        · exact hy z hz

end NamingContext

end ObjectBroker
