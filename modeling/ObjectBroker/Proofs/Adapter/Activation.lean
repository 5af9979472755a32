import Mathlib.Algebra.Group.Nat.Defs
import Mathlib.Data.List.Perm.Subperm
import ObjectBroker.Proofs.Adapter
import ObjectBroker.Proofs.InPlace
import ObjectBroker.Proofs.Lookup

/-!
Activation under numbers. The counter of an adapter passes the numbers that explicit ids hold. Only
finitely many are in its way, and since it never turns back, no number is given twice. Adapters are
changed in place: the counter moves before an id is tried, and an id goes before it is known whether
it was there.
-/

namespace ObjectBroker

lemma Numeral.toString_injective : Function.Injective (toString : Nat → String) := by
  intro m n h
  have hdigits : Nat.toDigits 10 m = Nat.toDigits 10 n := by
    have htext := congrArg String.toList h
    rwa [Nat.toString_eq_repr, Nat.toString_eq_repr, Nat.toList_repr, Nat.toList_repr] at htext
  rw [← Nat.ofDigitChars_ten_toDigits (n := m), hdigits, Nat.ofDigitChars_ten_toDigits]

namespace Adapter

inductive Command where
  | activate (n : ObjectId)
  | activateWithId (id : String) (n : ObjectId)
  | deactivate (id : String)
  deriving DecidableEq

def attempt (a : Adapter) : Command → Except BrokerError (String × Adapter)
  | .activate n => a.activate n
  | .activateWithId id n => (a.activateWithId id n).map (id, ·)
  | .deactivate id => (a.deactivate id).map (id, ·)

end Adapter

abbrev Arranging := InPlace BrokerError Adapter

namespace Arranging

def insert (id : String) (n : ObjectId) : Arranging String := do
  let a ← get
  if !a.isRunning then
    throw (.cancelled s!"adapter {a.name} is shut down")
  if (a.servant? id).isSome then
    throw (.adapter s!"{id} already active in {a.name}")
  modify fun a => { a with servants := (id, n) :: a.servants }
  return id

def activateWithId (id : String) (n : ObjectId) : Arranging String := do
  if !Adapter.isPlain id then
    throw (.adapter s!"invalid activation id {Quoted.string id}")
  insert id n

def takeNumber : Arranging UInt64 :=
  modifyGet fun a => (a.nextId, { a with nextId := a.nextId + 1 })

/-- An adapter that runs refuses a number only because it is active. -/
def orElse (again : Arranging String) : BrokerError → Arranging String
  | .adapter text => do
    if (← get).isRunning then again else throw (.adapter text)
  | e => throw e

def activateWithin (n : ObjectId) : (tries : Nat) → Arranging String
  | 0 => do insert (toString (← takeNumber)) n
  | tries + 1 => do
    let number ← takeNumber
    tryCatch (insert (toString number) n) (orElse (activateWithin n tries))

def activate (n : ObjectId) : Arranging String := do
  activateWithin n (← get).size

def deactivate (id : String) : Arranging String := do
  let a ← get
  modify fun a => { a with servants := a.servants.filter (·.1 != id) }
  match a.servant? id with
  | none => throw (.unknownObject (a.keyText id))
  | some _ => return id

def command : Adapter.Command → Arranging String
  | .activate n => activate n
  | .activateWithId id n => activateWithId id n
  | .deactivate id => deactivate id

end Arranging

namespace Adapter

def answer (a : Adapter) (c : Command) : Except BrokerError String :=
  ((Arranging.command c).run a).1

def perform (a : Adapter) (c : Command) : Adapter :=
  ((Arranging.command c).run a).2

def run (a : Adapter) (cs : List Command) : Adapter :=
  cs.foldl perform a

def record (a : Adapter) : List Command → List (Command × Except BrokerError String)
  | [] => []
  | c :: cs => (c, a.answer c) :: (a.perform c).record cs

variable {a a' : Adapter} {id : String} {n : ObjectId} {k m : UInt64}

def HasRoom (a : Adapter) : Prop :=
  a.nextId.toNat + a.size + 1 < 2 ^ 64

def Roomy (a : Adapter) (cs : List Command) : Prop :=
  ∀ before n after, cs = before ++ .activate n :: after → (a.run before).HasRoom

/-- From the number `k` on, one number after another is refused, until `m` is taken. -/
inductive Retries (a : Adapter) (n : ObjectId) : UInt64 → UInt64 → Prop
  | taken {m : UInt64} {a' : Adapter} (h : a.insert (toString m) n = .ok a') : Retries a n m m
  | refused {k m : UInt64} {text : String} (h : a.insert (toString k) n = .error (.adapter text))
      (rest : Retries a n (k + 1) m) : Retries a n k m

lemma insert_of_free (hrun : a.isRunning = true) (h : a.servant? id = none) (n : ObjectId) :
    a.insert id n = .ok { a with servants := (id, n) :: a.servants } := by
  rw [insert, hrun, h]
  rfl

lemma insert_of_active (hrun : a.isRunning = true) (h : (a.servant? id).isSome) (n : ObjectId) :
    a.insert id n = .error (.adapter s!"{id} already active in {a.name}") := by
  rw [insert, hrun, if_pos h]
  rfl

lemma free_of_insert (h : a.insert id n = .ok a') : a.servant? id = none := by
  rw [insert] at h
  split at h
  · cases h
  · split at h
    · cases h
    · next hactive => exact Option.not_isSome_iff_eq_none.mp hactive

lemma active_of_insert {text : String} (h : a.insert id n = .error (.adapter text)) :
    (a.servant? id).isSome := by
  rw [insert] at h
  split at h
  · cases h
  · split at h
    · next hactive => exact hactive
    · cases h

/-! ## The search -/

lemma mem_ids_of_active (h : (a.servant? id).isSome) : id ∈ a.servants.map Prod.fst := by
  obtain ⟨n, hn⟩ := Option.isSome_iff_exists.mp h
  obtain ⟨l₁, l₂, hservants, -⟩ := List.lookup_eq_some_iff.mp hn
  rw [hservants]
  simp

lemma le_length_of_numbers (start : Nat) {count : Nat} {ids : List String}
    (h : ∀ j < count, toString (start + j) ∈ ids) : count ≤ ids.length := by
  let numbers := (List.range count).map fun j => toString (start + j)
  have hnodup : numbers.Nodup := by
    refine List.nodup_range.map fun i j hij => ?_
    have := Numeral.toString_injective hij
    omega
  have hsubset : numbers ⊆ ids := by
    intro text htext
    obtain ⟨j, hj, rfl⟩ := List.mem_map.mp htext
    exact h j (List.mem_range.mp hj)
  have hlength := (hnodup.subperm hsubset).length_le
  rwa [List.length_map, List.length_range] at hlength

lemma exists_free (a : Adapter) (k : Nat) : ∃ j ≤ a.size, a.servant? (toString (k + j)) = none := by
  by_contra hall
  have hactive : ∀ j < a.size + 1, toString (k + j) ∈ a.servants.map Prod.fst := by
    intro j hj
    exact mem_ids_of_active (Option.isSome_iff_ne_none.mpr fun hnone =>
      hall ⟨j, Nat.le_of_lt_succ hj, hnone⟩)
  have hlength := le_length_of_numbers k hactive
  rw [List.length_map] at hlength
  exact absurd hlength (Nat.not_succ_le_self _)

lemma toNat_succ (h : k.toNat + 1 < 2 ^ 64) : (k + 1).toNat = k.toNat + 1 := by
  rw [UInt64.toNat_add]
  exact Nat.mod_eq_of_lt h

lemma retries_freshFrom (hrun : a.isRunning = true) {tries : Nat} (hk : k.toNat + tries < 2 ^ 64)
    (hfree : ∃ j ≤ tries, a.servant? (toString (k.toNat + j)) = none) (n : ObjectId) :
    a.Retries n k (a.freshFrom k tries) ∧ k.toNat ≤ (a.freshFrom k tries).toNat ∧
      (a.freshFrom k tries).toNat ≤ k.toNat + tries := by
  induction tries generalizing k with
  | zero =>
    obtain ⟨j, hj, hnone⟩ := hfree
    obtain rfl := Nat.le_zero.mp hj
    exact ⟨.taken (insert_of_free hrun hnone n), Nat.le_refl _, Nat.le_refl _⟩
  | succ tries ih =>
    rw [freshFrom]
    by_cases hactive : (a.servant? (toString k)).isSome
    · rw [if_pos hactive]
      have hsucc : (k + 1).toNat = k.toNat + 1 := toNat_succ (by omega)
      obtain ⟨j, hj, hnone⟩ := hfree
      -- The number that is free is not this one, so that it is among those that are left.
      have hpositive : j ≠ 0 := by
        rintro rfl
        rw [show a.servant? (toString k) = none from hnone] at hactive
        cases hactive
      have hlater : ∃ j ≤ tries, a.servant? (toString ((k + 1).toNat + j)) = none := by
        refine ⟨j - 1, by omega, ?_⟩
        rwa [hsucc, show k.toNat + 1 + (j - 1) = k.toNat + j by omega]
      obtain ⟨hretries, hle, hlt⟩ := ih (by omega) hlater
      exact ⟨.refused (insert_of_active hrun hactive n) hretries, by omega, by omega⟩
    · rw [if_neg hactive]
      have hnone := Option.not_isSome_iff_eq_none.mp hactive
      exact ⟨.taken (insert_of_free hrun hnone n), Nat.le_refl _, Nat.le_add_right _ _⟩

lemma Retries.free (h : a.Retries n k m) : a.servant? (toString m) = none := by
  induction h with
  | taken h => exact free_of_insert h
  | refused _ _ ih => exact ih

/-- With room, activation finds a number, enters the object under it and moves the counter past
it. -/
lemma activate_of_room (hrun : a.isRunning = true) (hroom : a.HasRoom) (n : ObjectId) :
    ∃ m : UInt64, a.Retries n a.nextId m ∧ a.nextId.toNat ≤ m.toNat ∧
      m.toNat ≤ a.nextId.toNat + a.size ∧ (m + 1).toNat = m.toNat + 1 ∧
      a.activate n = .ok (toString m,
        { a with servants := (toString m, n) :: a.servants, nextId := m + 1 }) := by
  rw [HasRoom] at hroom
  let m := a.freshFrom a.nextId a.size
  obtain ⟨hretries, hle, hlt⟩ := retries_freshFrom hrun (Nat.lt_of_succ_lt hroom)
    (a.exists_free a.nextId.toNat) n
  refine ⟨m, hretries, hle, hlt, toNat_succ (Nat.lt_of_le_of_lt (Nat.succ_le_succ hlt) hroom), ?_⟩
  have hactivate : a.activate n =
      a.insert (toString m) n >>= fun b => pure (toString m, { b with nextId := m + 1 }) := by
    rw [activate, if_pos hrun]
  rw [hactivate, insert_of_free hrun hretries.free]
  rfl

end Adapter

/-! ## Runs -/

namespace Arranging

variable {a : Adapter}

lemma run_insert (a : Adapter) (id : String) (n : ObjectId) :
    (insert id n).run a = InPlace.settled a ((a.insert id n).map (id, ·)) := by
  rw [insert, InPlace.run_get_bind, Adapter.insert]
  by_cases hstopped : (!a.isRunning) = true
  · rw [if_pos hstopped, if_pos hstopped]
    rfl
  · rw [if_neg hstopped, if_neg hstopped]
    by_cases hactive : (a.servant? id).isSome
    · rw [if_pos hactive, if_pos hactive]
      rfl
    · rw [if_neg hactive, if_neg hactive]
      rfl

lemma run_takeNumber_bind {α : Type} (f : UInt64 → Arranging α) (a : Adapter) :
    InPlace.run (takeNumber >>= f) a = (f a.nextId).run { a with nextId := a.nextId + 1 } :=
  rfl

lemma freshFrom_nextId (a : Adapter) (nextId k : UInt64) (tries : Nat) :
    Adapter.freshFrom { a with nextId } k tries = a.freshFrom k tries := by
  induction tries generalizing k with
  | zero => rfl
  | succ tries ih =>
    rw [Adapter.freshFrom, Adapter.freshFrom, ih]
    rfl

/-- In place, the counter has passed the number that is tried last. -/
lemma run_activateWithin (hrun : a.isRunning = true) (n : ObjectId) (tries : Nat) :
    (activateWithin n tries).run a =
      (insert (toString (a.freshFrom a.nextId tries)) n).run
        { a with nextId := a.freshFrom a.nextId tries + 1 } := by
  induction tries generalizing a with
  | zero => rfl
  | succ tries ih =>
    let b : Adapter := { a with nextId := a.nextId + 1 }
    have hrunb : b.isRunning = true := hrun
    have hstep : (activateWithin n (tries + 1)).run a =
        InPlace.run (tryCatch (insert (toString a.nextId) n) (orElse (activateWithin n tries))) b :=
      run_takeNumber_bind _ a
    rw [hstep, InPlace.run_tryCatch, run_insert, Adapter.freshFrom]
    by_cases hactive : (a.servant? (toString a.nextId)).isSome
    · rw [b.insert_of_active hrunb hactive, if_pos hactive]
      have hagain (text : String) :
          (orElse (activateWithin n tries) (.adapter text)).run b =
            (activateWithin n tries).run b := by
        rw [orElse, InPlace.run_get_bind, if_pos hrunb]
      exact (hagain _).trans ((ih hrunb).trans (by rw [freshFrom_nextId]))
    · rw [b.insert_of_free hrunb (Option.not_isSome_iff_eq_none.mp hactive), if_neg hactive,
        run_insert, b.insert_of_free hrunb (Option.not_isSome_iff_eq_none.mp hactive)]
      rfl

/-- A command in place does what the attempt says, but for the counter, which a number that was tried
in vain has moved too. -/
lemma run_command (hrun : a.isRunning = true) (c : Adapter.Command) :
    ∃ k : UInt64, ((∀ n, c ≠ .activate n) → k = a.nextId) ∧
      (command c).run a = InPlace.settled { a with nextId := k } (a.attempt c) := by
  cases c with
  | activate n =>
    let m := a.freshFrom a.nextId a.size
    let b : Adapter := { a with nextId := m + 1 }
    have hrunb : b.isRunning = true := hrun
    refine ⟨m + 1, fun hother => absurd rfl (hother n), ?_⟩
    have hstep : (command (.activate n)).run a = (activateWithin n a.size).run a := rfl
    have hattempt : a.attempt (.activate n) =
        a.insert (toString m) n >>= fun b => pure (toString m, { b with nextId := m + 1 }) := by
      rw [Adapter.attempt, Adapter.activate, if_pos hrun]
    rw [hstep, run_activateWithin hrun, run_insert, hattempt]
    by_cases hactive : (a.servant? (toString m)).isSome
    · rw [a.insert_of_active hrun hactive, b.insert_of_active hrunb hactive]
      rfl
    · have hfree := Option.not_isSome_iff_eq_none.mp hactive
      rw [a.insert_of_free hrun hfree, b.insert_of_free hrunb hfree]
      rfl
  | activateWithId id n =>
    refine ⟨a.nextId, fun _ => rfl, ?_⟩
    rw [command, activateWithId, Adapter.attempt, Adapter.activateWithId]
    by_cases hplain : Adapter.isPlain id = true
    · rw [if_pos hplain]
      simp only [hplain]
      exact run_insert a id n
    · rw [if_neg hplain]
      simp only [hplain]
      rfl
  | deactivate id =>
    refine ⟨a.nextId, fun _ => rfl, ?_⟩
    rw [command, deactivate, InPlace.run_get_bind, Adapter.attempt, Adapter.deactivate]
    cases hactive : a.servant? id with
    | some n => rfl
    | none =>
      have hkept : a.servants.filter (·.1 != id) = a.servants := by
        refine List.filter_eq_self.mpr fun entry hentry => ?_
        exact bne_comm.trans (List.lookup_eq_none_iff.mp hactive entry hentry)
      change (Except.error _, { a with servants := a.servants.filter (·.1 != id) }) = _
      rw [hkept]
      rfl

end Arranging

namespace Adapter

variable {a a' : Adapter} {id : String} {n : ObjectId} {k m : UInt64}

inductive Effect (a : Adapter) : Command → String → Adapter → Prop
  | numbered {m : UInt64} {n : ObjectId} (hfree : a.servant? (toString m) = none) :
      Effect a (.activate n) (toString m)
        { a with servants := (toString m, n) :: a.servants, nextId := m + 1 }
  | named {id : String} {n : ObjectId} (hplain : isPlain id = true) (hfree : a.servant? id = none) :
      Effect a (.activateWithId id n) id { a with servants := (id, n) :: a.servants }
  | removed {id : String} (hactive : (a.servant? id).isSome) :
      Effect a (.deactivate id) id { a with servants := a.servants.filter (·.1 != id) }

lemma effect_of_attempt {c : Command} (h : a.attempt c = .ok (id, a')) : a.Effect c id a' := by
  cases c with
  | activate n =>
    obtain ⟨m, b, rfl, hinsert, rfl⟩ := eq_of_activate h
    rw [eq_of_insert hinsert]
    exact .numbered (free_of_insert hinsert)
  | activateWithId text n =>
    rw [attempt, activateWithId] at h
    split at h
    · next hplain =>
      cases hinsert : a.insert text n with
      | error e =>
        rw [hinsert] at h
        cases h
      | ok b =>
        rw [hinsert] at h
        cases h
        rw [eq_of_insert hinsert]
        exact .named hplain (free_of_insert hinsert)
    · cases h
  | deactivate text =>
    rw [attempt, deactivate] at h
    cases hactive : a.servant? text with
    | none =>
      rw [hactive] at h
      cases h
    | some n =>
      rw [hactive] at h
      cases h
      exact .removed (Option.isSome_iff_exists.mpr ⟨n, hactive⟩)

lemma answer_eq (hrun : a.isRunning = true) (c : Command) :
    a.answer c = (a.attempt c).map Prod.fst := by
  obtain ⟨k, -, hcommand⟩ := Arranging.run_command hrun c
  rw [answer, hcommand]
  cases a.attempt c with
  | error e => rfl
  | ok r => rfl

lemma perform_of_ok (hrun : a.isRunning = true) {c : Command} (h : a.attempt c = .ok (id, a')) :
    a.perform c = a' := by
  obtain ⟨k, -, hcommand⟩ := Arranging.run_command hrun c
  rw [perform, hcommand, h]
  rfl

lemma perform_of_error (hrun : a.isRunning = true) {c : Command} {e : BrokerError}
    (h : a.attempt c = .error e) :
    ∃ k, ((∀ n, c ≠ .activate n) → k = a.nextId) ∧ a.perform c = { a with nextId := k } := by
  obtain ⟨k, hk, hcommand⟩ := Arranging.run_command hrun c
  refine ⟨k, hk, ?_⟩
  rw [perform, hcommand, h]
  rfl

lemma perform_cases (hrun : a.isRunning = true) (c : Command) :
    (∃ k, ((∀ n, c ≠ .activate n) → k = a.nextId) ∧ a.perform c = { a with nextId := k }) ∨
      ∃ id, a.Effect c id (a.perform c) := by
  cases h : a.attempt c with
  | error e => exact .inl (perform_of_error hrun h)
  | ok r => exact .inr ⟨r.1, (perform_of_ok hrun h).symm ▸ effect_of_attempt h⟩

lemma isRunning_perform (hrun : a.isRunning = true) (c : Command) :
    (a.perform c).isRunning = true := by
  rcases perform_cases hrun c with ⟨k, -, h⟩ | ⟨id, h⟩
  · rw [h]
    exact hrun
  · generalize a.perform c = a' at h
    cases h with
    | numbered => exact hrun
    | named => exact hrun
    | removed => exact hrun

lemma isRunning_run (hrun : a.isRunning = true) (cs : List Command) :
    (a.run cs).isRunning = true := by
  induction cs generalizing a with
  | nil => exact hrun
  | cons c cs ih => exact ih (isRunning_perform hrun c)

lemma activateWithId_error_iff (hrun : a.isRunning = true) :
    (∃ e, a.attempt (.activateWithId id n) = .error e) ↔
      isPlain id = false ∨ (a.servant? id).isSome := by
  constructor
  · rintro ⟨e, h⟩
    by_contra hnot
    obtain ⟨hplain, hactive⟩ := not_or.mp hnot
    rw [attempt, activateWithId, if_pos (by simpa using hplain),
      insert_of_free hrun (Option.not_isSome_iff_eq_none.mp hactive)] at h
    cases h
  · intro h
    cases hr : a.attempt (.activateWithId id n) with
    | error e => exact ⟨e, rfl⟩
    | ok r =>
      obtain ⟨i, b⟩ := r
      cases effect_of_attempt hr with
      | named hplain hfree =>
        rw [hplain, hfree] at h
        simp at h

lemma deactivate_error_iff :
    (∃ e, a.attempt (.deactivate id) = .error e) ↔ a.servant? id = none := by
  constructor
  · rintro ⟨e, h⟩
    cases hactive : a.servant? id with
    | none => rfl
    | some n =>
      rw [attempt, deactivate, hactive] at h
      cases h
  · intro h
    rw [attempt, deactivate, h]
    exact ⟨_, rfl⟩

/-! ## Numbers that a run gives -/

lemma Roomy.tail {c : Command} {cs : List Command} (h : a.Roomy (c :: cs)) :
    (a.perform c).Roomy cs :=
  fun before n after hcs => h (c :: before) n after (congrArg (c :: ·) hcs)

lemma nextId_perform (hrun : a.isRunning = true) {c : Command} (h : ∀ n, c ≠ .activate n) :
    (a.perform c).nextId = a.nextId := by
  rcases perform_cases hrun c with ⟨k, hk, heq⟩ | ⟨id, heffect⟩
  · rw [heq]
    exact hk h
  · generalize a.perform c = a' at heffect
    cases heffect with
    | numbered => exact absurd rfl (h _)
    | named => rfl
    | removed => rfl

lemma nextId_le_perform (hrun : a.isRunning = true) {c : Command} {cs : List Command}
    (hroom : a.Roomy (c :: cs)) : a.nextId.toNat ≤ (a.perform c).nextId.toNat ∧
      ∀ n, c = .activate n → ∃ m, a.nextId.toNat ≤ m ∧ m < (a.perform c).nextId.toNat ∧
        a.answer c = .ok (toString m) := by
  by_cases hc : ∃ n, c = .activate n
  · obtain ⟨n, rfl⟩ := hc
    obtain ⟨m, -, hle, -, hsucc, hactivate⟩ := activate_of_room hrun (hroom [] n cs rfl) n
    have hattempt : a.attempt (.activate n) = _ := hactivate
    have hnext : (a.perform (.activate n)).nextId = m + 1 := by
      rw [perform_of_ok hrun hattempt]
    rw [hnext, hsucc]
    refine ⟨by omega, fun _ _ => ⟨m.toNat, hle, Nat.lt_succ_self _, ?_⟩⟩
    rw [answer_eq hrun, hattempt]
    rfl
  · have hother : ∀ n, c ≠ .activate n := fun n hn => hc ⟨n, hn⟩
    rw [nextId_perform hrun hother]
    exact ⟨Nat.le_refl _, fun n hn => absurd hn (hother n)⟩

lemma number_of_record (hrun : a.isRunning = true) {cs : List Command} (hroom : a.Roomy cs)
    (h : (.activate n, .ok id) ∈ a.record cs) : ∃ m, a.nextId.toNat ≤ m ∧ id = toString m := by
  induction cs generalizing a with
  | nil => cases h
  | cons c cs ih =>
    obtain ⟨hle, hnumber⟩ := nextId_le_perform hrun hroom
    rw [record] at h
    rcases List.mem_cons.mp h with h | h
    · obtain ⟨hc, hid⟩ := Prod.mk.inj h
      obtain ⟨m, hm, -, hanswer⟩ := hnumber n hc.symm
      exact ⟨m, hm, Except.ok.inj (hid.trans hanswer)⟩
    · obtain ⟨m, hm, rfl⟩ := ih (isRunning_perform hrun c) hroom.tail h
      exact ⟨m, Nat.le_trans hle hm, rfl⟩

lemma pairwise_record (hrun : a.isRunning = true) {cs : List Command} (hroom : a.Roomy cs) :
    (a.record cs).Pairwise fun x y => ∀ n k i j,
      x = (.activate n, .ok i) → y = (.activate k, .ok j) → i ≠ j := by
  induction cs generalizing a with
  | nil => exact .nil
  | cons c cs ih =>
    have hrun' := isRunning_perform hrun c
    refine .cons ?_ (ih hrun' hroom.tail)
    rintro y hy n k i j hx rfl hij
    obtain ⟨hc, hi⟩ := Prod.mk.inj hx
    obtain ⟨m, -, hlt, hanswer⟩ := (nextId_le_perform hrun hroom).2 n hc
    obtain ⟨l, hl, hj⟩ := number_of_record hrun' hroom.tail hy
    -- The first number lies below the counter from which the other one was taken.
    have hsame : toString m = toString l := by
      rw [← hj, ← hij]
      exact Except.ok.inj (hanswer.symm.trans hi)
    have := Numeral.toString_injective hsame
    omega

/-! ## Runs of usual length -/

structure Within (a : Adapter) (ids : List String) : Prop where
  running : a.isRunning = true
  size_le : a.size ≤ ids.length
  active : ∀ id, (a.servant? id).isSome → id ∈ ids
  passed : ∀ k, 1 ≤ k → k < a.nextId.toNat → toString k ∈ ids

lemma Within.nextId_le {ids : List String} (h : a.Within ids) :
    a.nextId.toNat ≤ ids.length + 1 := by
  have hcount : a.nextId.toNat - 1 ≤ ids.length :=
    le_length_of_numbers 1 fun j hj => h.passed (1 + j) (by omega) (by omega)
  omega

lemma Within.hasRoom {ids : List String} (h : a.Within ids) (hl : ids.length < 2 ^ 62) :
    a.HasRoom := by
  have hnext := h.nextId_le
  have hsize := h.size_le
  rw [HasRoom]
  omega

lemma Retries.active (h : a.Retries n k m) :
    ∀ j, k.toNat ≤ j → j < m.toNat → (a.servant? (toString j)).isSome := by
  induction h with
  | taken => exact fun j hk hm => absurd hk (Nat.not_le_of_lt hm)
  | @refused k m text h _ ih =>
    intro j hk hm
    rcases Nat.eq_or_lt_of_le hk with rfl | hlt
    · exact active_of_insert h
    · have hsucc : (k + 1).toNat = k.toNat + 1 := toNat_succ (by have := m.toNat_lt; omega)
      exact ih j (by omega) hm

lemma Within.mem_cons {ids : List String} (h : a.Within ids) {i : String}
    (hi : (servant? { a with servants := (id, n) :: a.servants } i).isSome) : i ∈ id :: ids := by
  rw [servant?, lookup_cons_ite] at hi
  split at hi
  · next heq => exact heq ▸ List.mem_cons_self
  · exact List.mem_cons_of_mem _ (h.active i hi)

lemma Within.numbered {ids : List String} (h : a.Within ids) (hretries : a.Retries n a.nextId m)
    (hsucc : (m + 1).toNat = m.toNat + 1) :
    Within { a with servants := (toString m, n) :: a.servants, nextId := m + 1 }
      (toString m :: ids) where
  running := h.running
  size_le := Nat.succ_le_succ h.size_le
  active _ hid := h.mem_cons hid
  passed j hj hlt := by
    rw [show (UInt64.toNat _) = m.toNat + 1 from hsucc] at hlt
    rcases Nat.lt_or_ge j a.nextId.toNat with hold | hold
    · exact List.mem_cons_of_mem _ (h.passed j hj hold)
    · rcases Nat.eq_or_lt_of_le (Nat.le_of_lt_succ hlt) with rfl | hpassed
      · exact List.mem_cons_self
      · exact List.mem_cons_of_mem _ (h.active _ (hretries.active j hold hpassed))

lemma Within.perform {ids : List String} (h : a.Within ids) (hl : ids.length < 2 ^ 62)
    (c : Command) : ∃ ids', ids'.length ≤ ids.length + 1 ∧ (a.perform c).Within ids' := by
  cases hattempt : a.attempt c with
  | error e =>
    have hother : ∀ n, c ≠ .activate n := by
      rintro n rfl
      obtain ⟨m, -, -, -, -, hactivate⟩ := activate_of_room h.running (h.hasRoom hl) n
      cases hattempt.symm.trans hactivate
    obtain ⟨k, hk, hperform⟩ := perform_of_error h.running hattempt
    rw [hk hother] at hperform
    exact ⟨ids, Nat.le_succ _, hperform.symm ▸ h⟩
  | ok r =>
    obtain ⟨id, a'⟩ := r
    rw [perform_of_ok h.running hattempt]
    cases effect_of_attempt hattempt with
    | @numbered m n hfree =>
      obtain ⟨l, hretries, -, -, hsucc, hactivate⟩ := activate_of_room h.running (h.hasRoom hl) n
      obtain ⟨hid, ha'⟩ := Prod.mk.inj (Except.ok.inj (hattempt.symm.trans hactivate))
      exact ⟨toString l :: ids, Nat.le_refl _, ha' ▸ h.numbered hretries hsucc⟩
    | named hplain hfree =>
      exact ⟨id :: ids, Nat.le_refl _, h.running, Nat.succ_le_succ h.size_le,
        fun _ hi => h.mem_cons hi, fun k hk hlt => List.mem_cons_of_mem _ (h.passed k hk hlt)⟩
    | removed hactive =>
      refine ⟨ids, Nat.le_succ _, h.running, Nat.le_trans (List.length_filter_le _ _) h.size_le,
        fun i hi => h.active i ?_, h.passed⟩
      rw [servant?, lookup_filter_key (· != id)] at hi
      split at hi
      · exact hi
      · cases hi

lemma Within.run {ids : List String} (h : a.Within ids) {cs : List Command}
    (hl : ids.length + cs.length < 2 ^ 62) :
    ∃ ids', ids'.length ≤ ids.length + cs.length ∧ (a.run cs).Within ids' := by
  induction cs generalizing a ids with
  | nil => exact ⟨ids, Nat.le_refl _, h⟩
  | cons c cs ih =>
    rw [List.length_cons] at hl ⊢
    obtain ⟨ids', hlength, hwithin⟩ := h.perform (by omega) c
    obtain ⟨ids'', hlength', hwithin'⟩ := ih hwithin (by omega)
    exact ⟨ids'', by omega, hwithin'⟩

lemma roomy_of_length (name : String) (isBidirectional : Bool) {cs : List Command}
    (h : cs.length < 2 ^ 62) : Roomy { name, isBidirectional } cs := by
  have hstart : Within { name, isBidirectional } [] := {
    running := rfl
    size_le := Nat.le_refl _
    active := fun _ hid => absurd hid Bool.false_ne_true
    passed := fun _ hk hlt => absurd hk (Nat.not_le_of_lt hlt) }
  rintro before n after rfl
  rw [List.length_append, List.length_cons] at h
  have hlength : ([] : List String).length + before.length < 2 ^ 62 := by
    rw [List.length_nil]
    omega
  obtain ⟨ids, hids, hwithin⟩ := hstart.run hlength
  exact hwithin.hasRoom (Nat.lt_of_le_of_lt hids hlength)

/-- Activation in an adapter that was used in any way. -/
theorem activation_fresh (name : String) (isBidirectional : Bool) :
    let start : Adapter := { name, isBidirectional }
    (∀ cs n, (start.run cs).HasRoom →
      let a := start.run cs
      ∃ m a', a.Retries n a.nextId m ∧ m.toNat ≤ a.nextId.toNat + a.size ∧
        a.activate n = .ok (toString m, a') ∧ a.servant? (toString m) = none ∧
        a'.servants = (toString m, n) :: a.servants ∧
        ∀ id, a'.servant? id = if id = toString m then some n else a.servant? id) ∧
    (∀ cs, start.Roomy cs → (start.record cs).Pairwise fun x y => ∀ n k i j,
      x = (.activate n, .ok i) → y = (.activate k, .ok j) → i ≠ j) ∧
    (∀ cs c, (start.run cs).answer c = ((start.run cs).attempt c).map Prod.fst ∧
      ∀ e, (start.run cs).attempt c = .error e →
        ((start.run cs).perform c).servants = (start.run cs).servants ∧
        ((∀ n, c ≠ .activate n) → (start.run cs).perform c = start.run cs)) ∧
    (∀ cs id n, (∃ e, (start.run cs).attempt (.activateWithId id n) = .error e) ↔
      isPlain id = false ∨ ((start.run cs).servant? id).isSome) ∧
    (∀ cs id, (∃ e, (start.run cs).attempt (.deactivate id) = .error e) ↔
      (start.run cs).servant? id = none) := by
  intro start
  have hrun (cs : List Command) : (start.run cs).isRunning = true := isRunning_run rfl cs
  refine ⟨fun cs n hroom => ?_, fun cs => pairwise_record rfl,
    fun cs c => ⟨answer_eq (hrun cs) c, fun e he => ?_⟩,
    fun cs id n => activateWithId_error_iff (hrun cs), fun cs id => deactivate_error_iff⟩
  · obtain ⟨m, hretries, -, hlt, -, hactivate⟩ := activate_of_room (hrun cs) hroom n
    exact ⟨m, _, hretries, hlt, hactivate, hretries.free, rfl, fun id => lookup_cons_ite id _ _⟩
  · obtain ⟨k, hk, hperform⟩ := perform_of_error (hrun cs) he
    rw [hperform]
    refine ⟨rfl, fun hother => ?_⟩
    rw [hk hother]

def busy : List Command :=
  [.activateWithId "1" 7, .activateWithId "3" 8, .activate 0, .deactivate "2", .activate 1,
    .activateWithId "3" 9, .deactivate "9"]

theorem activation_fresh_busy :
    let start : Adapter := { name := "Shop" }
    let a := start.run busy
    a.servants = [("4", 1), ("3", 8), ("1", 7)] ∧ a.HasRoom ∧
      (∃ a', a.activate 5 = .ok ("5", a') ∧ a.servant? "5" = none ∧ a'.servant? "3" = some 8) ∧
      start.Roomy busy ∧ (start.record busy).Pairwise fun x y => ∀ n k i j,
        x = (.activate n, .ok i) → y = (.activate k, .ok j) → i ≠ j := by
  intro start a
  have hservants : a.servants = [("4", 1), ("3", 8), ("1", 7)] := by decide +kernel
  have hroom : a.HasRoom := by
    have hsum : a.nextId.toNat + a.size + 1 = 9 := by decide +kernel
    rw [HasRoom, hsum]
    decide
  have hroomy : start.Roomy busy := roomy_of_length "Shop" false (by decide)
  obtain ⟨hnew, hdistinct, -⟩ := activation_fresh "Shop" false
  obtain ⟨m, a', -, -, hactivate, hfree, -, htable⟩ := hnew busy 5 hroom
  have hfive : (a.activate 5).map Prod.fst = .ok "5" := by decide +kernel
  have hm : toString m = "5" := by
    rw [hactivate] at hfive
    exact Except.ok.inj hfive
  rw [hm] at hactivate hfree
  refine ⟨hservants, hroom, ⟨a', hactivate, hfree, ?_⟩, hroomy, hdistinct busy hroomy⟩
  rw [htable, hm]
  decide +kernel

end Adapter

end ObjectBroker
