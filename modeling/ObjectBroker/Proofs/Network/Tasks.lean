import ObjectBroker.Proofs.Network.Seats

/-!
Those who are at work in a network. Each has a number of its own and looks after its own place, so
nobody waits for a response that is neither there nor still to come.
-/

namespace ObjectBroker

variable {σ ρ : Type}

def Ready.task? : Ready σ ρ → Option (Nat × Activity σ (Option ρ))
  | .reader _ => none
  | .task id a => some (id, a)

def Parked.task (k : Parked σ ρ) : Nat × Activity σ (Option ρ) :=
  (k.id, .await k.wait k.deadline k.next)

def Activity.Stop.left [Servant σ] : Activity.Stop σ (Option ρ) → Option (Activity σ (Option ρ))
  | .done _ => none
  | .waiting wait deadline next => some (.await wait deadline next)
  | .calling call next => some ((Dispatch.serve call).bind next)

namespace Network

def tasks (n : Network σ ρ) : List (Nat × Activity σ (Option ρ)) :=
  n.queue.filterMap Ready.task? ++ n.parked.map Parked.task

def workers (n : Network σ ρ) : List Nat :=
  n.tasks.map (·.1)

lemma mem_workers {n : Network σ ρ} {x : Nat × Activity σ (Option ρ)} (h : x ∈ n.tasks) :
    x.1 ∈ n.workers :=
  List.mem_map_of_mem h

lemma tasks_enqueue_reader (n : Network σ ρ) (p : Port) :
    (n.enqueue (.reader p)).tasks = n.tasks := by
  rw [tasks, enqueue, List.filterMap_append]
  exact congrArg (· ++ _) (List.append_nil _)

lemma tasks_start (n : Network σ ρ) (a : Activity σ (Option ρ)) :
    (n.start a).2.tasks.Perm (n.tasks ++ [(n.nextTask, a)]) := by
  have hqueue : (n.start a).2.tasks =
      n.queue.filterMap Ready.task? ++ [(n.nextTask, a)] ++ n.parked.map Parked.task := by
    rw [tasks, start, enqueue, List.filterMap_append]
    rfl
  rw [hqueue, tasks, List.append_assoc, List.append_assoc]
  exact List.perm_append_comm.append_left _

lemma tasks_wake (n : Network σ ρ) (due : Parked σ ρ → Bool) : (n.wake due).tasks.Perm n.tasks := by
  have hwoken : ((n.parked.filter due).map resume).filterMap Ready.task? =
      (n.parked.filter due).map Parked.task := by
    rw [List.filterMap_map]
    exact congrFun List.filterMap_eq_map _
  rw [tasks, wake, List.filterMap_append, hwoken, List.append_assoc, ← List.map_append]
  exact ((List.filter_append_perm due n.parked).map _).append_left _

structure Grows (n n' : Network σ ρ) : Prop where
  tasks : ∃ new, n'.tasks.Perm (n.tasks ++ new) ∧ (new.map (·.1)).Nodup ∧
    ∀ x ∈ new, n.nextTask ≤ x.1 ∧ x.1 < n'.nextTask ∧ x.2.MadeOf Activity.Primitive
  results : n'.results ⊆ n.results
  nextTask : n.nextTask ≤ n'.nextTask

namespace Grows

variable {n n' n'' : Network σ ρ}

lemma of_perm (htasks : n'.tasks.Perm n.tasks) (hresults : n'.results ⊆ n.results)
    (hnext : n'.nextTask = n.nextTask) : n.Grows n' := by
  refine ⟨⟨[], ?_, List.nodup_nil, fun x hx => absurd hx List.not_mem_nil⟩, hresults,
    Nat.le_of_eq hnext.symm⟩
  rw [List.append_nil]
  exact htasks

lemma trans (h : n.Grows n') (h' : n'.Grows n'') : n.Grows n'' := by
  obtain ⟨new, hperm, hnodup, hnew⟩ := h.tasks
  obtain ⟨new', hperm', hnodup', hnew'⟩ := h'.tasks
  refine ⟨⟨new ++ new', ?_, ?_, fun x hx => ?_⟩, List.Subset.trans h'.results h.results,
    Nat.le_trans h.nextTask h'.nextTask⟩
  · rw [← List.append_assoc]
    exact hperm'.trans (hperm.append_right _)
  · rw [List.map_append, List.nodup_append]
    refine ⟨hnodup, hnodup', fun id hid id' hid' => ?_⟩
    obtain ⟨x, hx, rfl⟩ := List.mem_map.mp hid
    obtain ⟨y, hy, rfl⟩ := List.mem_map.mp hid'
    exact Nat.ne_of_lt (Nat.lt_of_lt_of_le (hnew x hx).2.1 (hnew' y hy).1)
  · rcases List.mem_append.mp hx with hx | hx
    · obtain ⟨hold, hlt, hmade⟩ := hnew x hx
      exact ⟨hold, Nat.lt_of_lt_of_le hlt h'.nextTask, hmade⟩
    · obtain ⟨hold, hlt, hmade⟩ := hnew' x hx
      exact ⟨Nat.le_trans h.nextTask hold, hlt, hmade⟩

lemma start (n : Network σ ρ) {a : Activity σ (Option ρ)} (ha : a.MadeOf Activity.Primitive) :
    n.Grows (n.start a).2 := by
  refine ⟨⟨[(n.nextTask, a)], n.tasks_start a, List.nodup_singleton _, fun x hx => ?_⟩,
    List.Subset.refl _, Nat.le_succ _⟩
  obtain rfl := List.mem_singleton.mp hx
  exact ⟨Nat.le_refl _, Nat.lt_succ_self _, ha⟩

lemma wake (n : Network σ ρ) (due : Parked σ ρ → Bool) : n.Grows (n.wake due) :=
  of_perm (n.tasks_wake due) (List.Subset.refl _) rfl

lemma mem (h : n.Grows n') {x : Nat × Activity σ (Option ρ)} (hx : x ∈ n.tasks) : x ∈ n'.tasks := by
  obtain ⟨new, hperm, -⟩ := h.tasks
  exact hperm.mem_iff.mpr (List.mem_append_left _ hx)

variable [Servant σ]
  (hs : ∀ c operation, (Servant.invoke c operation : Serving σ Unit).MadeOf Activity.Primitive)
include hs

lemma absorb (n : Network σ ρ) (e : Event) : n.Grows (n.absorb e) := by
  cases e with
  | readable p =>
    rw [Network.absorb]
    split
    · exact of_perm (.refl _) (List.Subset.refl _) rfl
    · refine of_perm ?_ (List.Subset.refl _) rfl
      rw [tasks_enqueue_reader]
  | started job =>
    have hjob : (job.activity : Activity σ Unit).MadeOf Activity.Primitive :=
      Job.madeOf_activity hs fun p exit _ => .base (.finish p exit)
    exact start n (hjob.bind fun _ => .pure _)
  | responded p waiter => exact wake n _
  | idle p => exact wake n _
  | closed pipe => exact wake n _

lemma absorbAll (n : Network σ ρ) : n.Grows n.absorbAll := by
  have hfold : ∀ (events : List Event) (n : Network σ ρ), n.Grows (events.foldl Network.absorb n) := by
    intro events
    induction events with
    | nil => exact fun n => of_perm (.refl _) (List.Subset.refl _) rfl
    | cons e events ih => exact fun n => (absorb hs n e).trans (ih _)
  have hcleared : n.Grows { n with world := { n.world.collect with events := [] } } :=
    of_perm (.refl _) (List.Subset.refl _) rfl
  exact hcleared.trans (hfold _ _)

end Grows

def afterTask [Servant σ] (n : Network σ ρ) (id : Nat) (a : Activity σ (Option ρ))
    (rest : List (Ready σ ρ)) : Network σ ρ :=
  ({ n with queue := rest, world := (a.run n.world).2 } : Network σ ρ).settleTask id
    (a.run n.world).1

section Task

variable {n n' : Network σ ρ} {id : Nat} {a : Activity σ (Option ρ)} {rest : List (Ready σ ρ)}

lemma tasks_of_queue (hq : n.queue = .task id a :: rest) :
    n.tasks = (id, a) :: ({ n with queue := rest } : Network σ ρ).tasks := by
  rw [tasks, hq]
  rfl

variable [Servant σ]

lemma tasks_settleTask (n : Network σ ρ) (id : Nat) (stop : Activity.Stop σ (Option ρ)) :
    (n.settleTask id stop).tasks.Perm (stop.left.toList.map (Prod.mk id) ++ n.tasks) := by
  cases stop with
  | done r =>
    cases r with
    | none => exact .refl _
    | some r => exact .refl _
  | waiting wait deadline next =>
    have hparked : (n.settleTask id (.waiting wait deadline next)).tasks =
        n.tasks ++ [(id, .await wait deadline next)] := by
      rw [tasks, settleTask, List.map_append, ← List.append_assoc]
      rfl
    rw [hparked]
    exact List.perm_append_comm
  | calling call next => exact .refl _

lemma results_settleTask (n : Network σ ρ) (id : Nat) (stop : Activity.Stop σ (Option ρ))
    {r : Nat × ρ} (hr : r ∈ (n.settleTask id stop).results) :
    r ∈ n.results ∨ r.1 = id ∧ stop = .done (some r.2) := by
  cases stop with
  | done result =>
    cases result with
    | none => exact .inl hr
    | some x =>
      refine (List.mem_append.mp hr).imp_right fun hr => ?_
      obtain rfl := List.mem_singleton.mp hr
      exact ⟨rfl, rfl⟩
  | waiting wait deadline next => exact .inl hr
  | calling call next => exact .inl hr

lemma settleTask_eq (n : Network σ ρ) (id : Nat) (stop : Activity.Stop σ (Option ρ)) :
    (n.settleTask id stop).world = n.world ∧ (n.settleTask id stop).nextTask = n.nextTask := by
  cases stop with
  | done r => cases r <;> exact ⟨rfl, rfl⟩
  | waiting wait deadline next => exact ⟨rfl, rfl⟩
  | calling call next => exact ⟨rfl, rfl⟩

lemma tasks_afterTask (n : Network σ ρ) (id : Nat) (a : Activity σ (Option ρ))
    (rest : List (Ready σ ρ)) :
    (n.afterTask id a rest).tasks.Perm ((a.run n.world).1.left.toList.map (Prod.mk id) ++
      ({ n with queue := rest } : Network σ ρ).tasks) :=
  tasks_settleTask _ id _

lemma step_task_eq (hq : n.queue = .task id a :: rest) :
    n.step = (n.afterTask id a rest).absorbAll := by
  rw [step, hq]
  rfl

lemma step_reader_eq {p : Port} (hq : n.queue = .reader p :: rest) :
    n.step = ({ n with queue := rest, world := n.world.receive p } : Network σ ρ).absorbAll := by
  rw [step, hq]
  rfl

end Task

structure Staffed (n : Network σ ρ) : Prop where
  nodup : n.workers.Nodup
  known : ∀ id ∈ n.workers, id < n.nextTask
  results : ∀ r ∈ n.results, r.1 < n.nextTask ∧ r.1 ∉ n.workers

namespace Staffed

variable {n n' : Network σ ρ} {id : Nat} {a : Activity σ (Option ρ)} {rest : List (Ready σ ρ)}

lemma grows (h : n.Staffed) (hg : n.Grows n') : n'.Staffed := by
  obtain ⟨new, hperm, hnodup, hnew⟩ := hg.tasks
  have hworkers : n'.workers.Perm (n.workers ++ new.map (·.1)) := by
    rw [workers, workers, ← List.map_append]
    exact hperm.map _
  have hfresh : ∀ id ∈ new.map (·.1), n.nextTask ≤ id ∧ id < n'.nextTask := by
    intro id hid
    obtain ⟨x, hx, rfl⟩ := List.mem_map.mp hid
    exact ⟨(hnew x hx).1, (hnew x hx).2.1⟩
  refine ⟨?_, fun id hid => ?_, fun r hr => ?_⟩
  · rw [hworkers.nodup_iff, List.nodup_append]
    exact ⟨h.nodup, hnodup, fun id hid id' hid' =>
      Nat.ne_of_lt (Nat.lt_of_lt_of_le (h.known id hid) (hfresh id' hid').1)⟩
  · rcases List.mem_append.mp (hworkers.mem_iff.mp hid) with hid | hid
    · exact Nat.lt_of_lt_of_le (h.known id hid) hg.nextTask
    · exact (hfresh id hid).2
  · obtain ⟨hlt, hnot⟩ := h.results r (hg.results hr)
    refine ⟨Nat.lt_of_lt_of_le hlt hg.nextTask, fun hin => ?_⟩
    rcases List.mem_append.mp (hworkers.mem_iff.mp hin) with hin | hin
    · exact hnot hin
    · exact Nat.not_lt.mpr (hfresh _ hin).1 hlt

lemma afterTask [Servant σ] (h : n.Staffed) (hq : n.queue = .task id a :: rest) :
    (n.afterTask id a rest).Staffed := by
  let others : Network σ ρ := { n with queue := rest }
  have hworkers : n.workers = id :: others.workers := by
    rw [workers, tasks_of_queue hq]
    rfl
  have hnodup := h.nodup
  rw [hworkers, List.nodup_cons] at hnodup
  have hafter : (n.afterTask id a rest).workers.Perm
      (((a.run n.world).1.left.toList.map fun _ => id) ++ others.workers) := by
    have hperm := (n.tasks_afterTask id a rest).map Prod.fst
    rw [List.map_append, List.map_map] at hperm
    exact hperm
  have hsub : ∀ id' ∈ (n.afterTask id a rest).workers, id' ∈ n.workers := by
    intro id' hid'
    rw [hworkers]
    rcases List.mem_append.mp (hafter.mem_iff.mp hid') with hid' | hid'
    · obtain ⟨_, -, rfl⟩ := List.mem_map.mp hid'
      exact List.mem_cons_self
    · exact List.mem_cons_of_mem _ hid'
  obtain ⟨-, hnext⟩ := settleTask_eq
    ({ n with queue := rest, world := (a.run n.world).2 } : Network σ ρ) id (a.run n.world).1
  have hknown : ∀ id' ∈ n.workers, id' < (n.afterTask id a rest).nextTask := by
    rw [Network.afterTask, hnext]
    exact h.known
  refine ⟨?_, fun id' hid' => hknown id' (hsub id' hid'), fun r hr => ?_⟩
  · rw [hafter.nodup_iff]
    cases (a.run n.world).1.left with
    | none => exact hnodup.2
    | some _ => exact List.nodup_cons.mpr hnodup
  · rcases results_settleTask _ id _ hr with hr | ⟨hid, hdone⟩
    · obtain ⟨hlt, hnot⟩ := h.results r hr
      rw [Network.afterTask, hnext]
      exact ⟨hlt, fun hin => hnot (hsub _ hin)⟩
    · refine ⟨hid ▸ hknown id (hworkers ▸ List.mem_cons_self), fun hin => ?_⟩
      rw [hafter.mem_iff, hdone, hid] at hin
      exact hnodup.1 hin

end Staffed

structure Attended (n : Network σ ρ) (seat : Nat → Option Seat) : Prop where
  staffed : n.Staffed
  sound : n.world.Sound
  seated : n.world.Seated
  minds : ∀ x ∈ n.tasks, ∀ w : World σ, w.Sound → w.Seated → (∀ t ∈ seat x.1, w.Keeps t) →
    x.2.Minds (fun _ => none) (seat x.1) w
  free : ∀ id, id ∉ n.workers → seat id = none
  keeps : ∀ id, ∀ t ∈ seat id, n.world.Keeps t
  apart : ∀ id id', ∀ t ∈ seat id, ∀ u ∈ seat id', t.Same u → id = id'

namespace Attended

variable {n n' : Network σ ρ} {seat : Nat → Option Seat} {id : Nat} {a : Activity σ (Option ρ)}
  {rest : List (Ready σ ρ)}

lemma empty : ({} : Network σ ρ).Attended fun _ => none where
  staffed := ⟨List.nodup_nil, fun _ h => absurd h List.not_mem_nil,
    fun _ h => absurd h List.not_mem_nil⟩
  sound _ := ⟨⟨fun _ h => absurd h List.not_mem_nil, List.nodup_nil⟩,
    fun _ h => absurd h List.not_mem_nil⟩
  seated _ _ _ h := absurd h List.not_mem_nil
  minds _ h := absurd h List.not_mem_nil
  free _ _ := rfl
  keeps _ _ h := by cases h
  apart _ _ _ h := by cases h

lemma grows (h : n.Attended seat) (hg : n.Grows n') (hsound : n'.world.Sound)
    (hseated : n'.world.Seated) (hkeeps : ∀ t, n.world.Keeps t → n'.world.Keeps t) :
    n'.Attended seat := by
  obtain ⟨new, hperm, -, hnew⟩ := hg.tasks
  refine ⟨h.staffed.grows hg, hsound, hseated, fun x hx => ?_, fun id hid => ?_,
    fun id t ht => hkeeps t (h.keeps id t ht), h.apart⟩
  · rcases List.mem_append.mp (hperm.mem_iff.mp hx) with hx | hx
    · exact h.minds x hx
    · -- Whoever has just come has no place yet.
      obtain ⟨hge, -, hmade⟩ := hnew x hx
      rw [h.free x.1 fun hin => Nat.not_lt.mpr hge (h.staffed.known _ hin)]
      exact hmade.spares
  · refine h.free id fun hin => hid ?_
    obtain ⟨x, hx, rfl⟩ := List.mem_map.mp hin
    exact mem_workers (hg.mem hx)

lemma grows_silent (h : n.Attended seat) (hg : n.Grows n') (hw : n.world.Silent n'.world) :
    n'.Attended seat :=
  h.grows hg (hw.sound h.sound) (hw.seated h.sound h.seated) fun _ => hw.keeps h.sound

variable [Servant σ]
  (hs : ∀ c operation, (Servant.invoke c operation : Serving σ Unit).MadeOf Activity.Primitive)
include hs

lemma absorbAll (h : n.Attended seat) : n.absorbAll.Attended seat := by
  refine h.grows_silent (.absorbAll hs n) ?_
  rw [n.absorbAll_eq.1]
  exact (World.Silent.collect _).trans (.of_brokers rfl)

omit hs in
lemma seat_of_left_none {stop : Activity.Stop σ (Option ρ)} {s : Option Seat}
    (hstop : stop.Minds (fun _ => none) s) (hleft : stop.left = none) : s = none := by
  cases stop with
  | done r => exact hstop
  | waiting wait deadline next => cases hleft
  | calling call next => cases hleft

lemma minds_left {stop : Activity.Stop σ (Option ρ)} {s : Option Seat} {w : World σ}
    (hstop : stop.Minds (fun _ => none) s) (hw : w.Sound) (hseated : w.Seated)
    (hkeeps : ∀ t ∈ s, w.Keeps t) : ∀ b ∈ stop.left, b.Minds (fun _ => none) s w := by
  intro b hb
  cases stop with
  | done r => cases hb
  | waiting wait deadline next =>
    cases hb
    exact ⟨hseated, hstop⟩
  | calling call next =>
    cases hb
    obtain ⟨rfl, hnext⟩ := hstop
    exact ((Dispatch.madeOf_serve hs call).spares w hw hseated hkeeps).bind hw hkeeps
      fun r w' hw' hseated' _ => hnext r w' hw' hseated'

lemma afterTask (h : n.Attended seat) (hq : n.queue = .task id a :: rest) :
    ∃ s, (n.afterTask id a rest).Attended (Function.update seat id s) := by
  let others : Network σ ρ := { n with queue := rest }
  have htasks := tasks_of_queue hq
  have hmine : (id, a) ∈ n.tasks := htasks ▸ List.mem_cons_self
  have hnodup := h.staffed.nodup
  rw [workers, htasks, List.map_cons, List.nodup_cons] at hnodup
  obtain ⟨s, hreseats, hseated, hstop⟩ :=
    (h.minds _ hmine n.world h.sound h.seated (h.keeps id)).run h.sound (h.keeps id)
  obtain ⟨hworld, -⟩ := settleTask_eq
    ({ n with queue := rest, world := (a.run n.world).2 } : Network σ ρ) id (a.run n.world).1
  have hperm := n.tasks_afterTask id a rest
  have hne : ∀ x ∈ others.tasks, x.1 ≠ id := by
    rintro x hx rfl
    exact hnodup.1 (List.mem_map.mpr ⟨x, hx, rfl⟩)
  have hothers : ∀ id' ≠ id, ∀ t ∈ seat id',
      (a.run n.world).2.Keeps t ∧ ∀ u ∈ s, ¬ u.Same t := by
    refine fun id' hid' t ht => hreseats.others t (h.keeps id' t ht) fun u hu hsame => hid' ?_
    exact (h.apart id id' u hu t ht hsame).symm
  refine ⟨s, h.staffed.afterTask hq, hworld ▸ hreseats.sound, hworld ▸ hseated, fun x hx => ?_,
    fun id' hid' => ?_, fun id' t ht => ?_, fun id₁ id₂ t ht u hu hsame => ?_⟩
  · rcases List.mem_append.mp (hperm.mem_iff.mp hx) with hx | hx
    · obtain ⟨b, hb, rfl⟩ := List.mem_map.mp hx
      rw [Function.update_self]
      exact fun w hw hseated hkeeps =>
        minds_left hs hstop hw hseated hkeeps b (Option.mem_toList.mp hb)
    · rw [Function.update_of_ne (hne x hx)]
      exact h.minds x (htasks ▸ List.mem_cons_of_mem _ hx)
  · -- Whoever is not at work now was not before, or has just been done.
    by_cases heq : id' = id
    · subst heq
      rw [Function.update_self]
      cases hleft : (a.run n.world).1.left with
      | some b =>
        rw [hleft] at hperm
        exact absurd (mem_workers (hperm.mem_iff.mpr List.mem_cons_self)) hid'
      | none => exact seat_of_left_none hstop hleft
    · rw [Function.update_of_ne heq]
      refine h.free id' fun hin => hid' ?_
      obtain ⟨x, hx, rfl⟩ := List.mem_map.mp hin
      rw [htasks] at hx
      rcases List.mem_cons.mp hx with rfl | hx
      · exact absurd rfl heq
      · exact mem_workers (hperm.mem_iff.mpr (List.mem_append_right _ hx))
  · rw [Network.afterTask, hworld]
    by_cases heq : id' = id
    · subst heq
      rw [Function.update_self] at ht
      exact hreseats.own (h.keeps id') t ht
    · rw [Function.update_of_ne heq] at ht
      exact (hothers id' heq t ht).1
  · -- The new place is nobody else's, and those of others are apart as before.
    by_cases h₁ : id₁ = id <;> by_cases h₂ : id₂ = id
    · exact h₁.trans h₂.symm
    · subst h₁
      rw [Function.update_self] at ht
      rw [Function.update_of_ne h₂] at hu
      exact absurd hsame ((hothers id₂ h₂ u hu).2 t ht)
    · subst h₂
      rw [Function.update_self] at hu
      rw [Function.update_of_ne h₁] at ht
      exact absurd ⟨hsame.1.symm, hsame.2.symm⟩ ((hothers id₁ h₁ t ht).2 u hu)
    · rw [Function.update_of_ne h₁] at ht
      rw [Function.update_of_ne h₂] at hu
      exact h.apart id₁ id₂ t ht u hu hsame

lemma step (h : n.Attended seat) : ∃ seat', n.step.Attended seat' := by
  cases hq : n.queue with
  | nil =>
    rw [Network.step, hq]
    exact ⟨seat, h⟩
  | cons r rest =>
    cases r with
    | reader p =>
      have hf := World.follows_receive n.world p
      have hg : n.Grows { n with queue := rest, world := n.world.receive p } := by
        refine .of_perm ?_ (List.Subset.refl _) rfl
        rw [tasks, tasks, hq]
        exact .refl _
      have hclaims : ∀ b, ∀ m ∈ World.only p.broker ((n.world.requests p).flatMap fun r =>
          r.2.claims (n.world.broker p.broker).config.acceptBidirectional r.1 p.connection) b,
          ∃ e id, m = .claim e id := by
        intro b m hm
        rw [World.only] at hm
        split at hm
        · obtain ⟨r, -, hm⟩ := List.mem_flatMap.mp hm
          exact r.2.mem_claims hm
        · cases hm
      rw [step_reader_eq hq]
      refine ⟨seat, absorbAll hs (h.grows hg (hf.sound h.sound) ?_ fun t => ?_)⟩
      · refine hf.seated h.sound h.seated fun b id hm => ?_
        obtain ⟨e, id', heq⟩ := hclaims b _ hm
        cases heq
      · refine hf.keeps h.sound fun b m hm => ?_
        obtain ⟨e, id', rfl⟩ := hclaims b m hm
        rfl
    | task id a =>
      obtain ⟨s, hafter⟩ := afterTask hs h hq
      rw [step_task_eq hq]
      exact ⟨_, absorbAll hs hafter⟩

omit [Servant σ] hs in
lemma create (h : n.Attended seat) (id : String) (config : Config) :
    ({ n with world := (n.world.addBroker (.new id config)).2 } : Network σ ρ).Attended seat := by
  have hnew : (Broker.new id config).connections = [] := rfl
  refine h.grows (.of_perm (.refl _) (List.Subset.refl _) rfl) (fun b => ?_) (fun b => ?_)
    fun t ht => ?_
  · rw [World.broker_addBroker]
    split
    · exact ⟨⟨fun _ hin => absurd hin List.not_mem_nil, List.nodup_nil⟩,
        fun _ hin => absurd hin List.not_mem_nil⟩
    · exact h.sound b
  · rw [World.broker_addBroker]
    split
    · exact fun _ _ hin => absurd hin List.not_mem_nil
    · exact h.seated b
  · obtain ⟨c, hc, hheld⟩ := ht.exists_held
    refine ⟨c, ?_, hheld⟩
    rw [World.broker_addBroker, if_neg (Nat.ne_of_lt (World.lt_size_of_connection? hc))]
    exact hc

omit [Servant σ] hs in
lemma attach {b : BrokerId} {role : Role} {peer : Endpoint} {inbound outbound : Nat} {p : Port}
    {w : World σ} (h : n.Attended seat)
    (ha : n.world.attach b role peer inbound outbound = .ok (p, w)) :
    ({ n with world := w } : Network σ ρ).Attended seat := by
  have hf := World.follows_attach ha
  have hclaims : ∀ b, ∀ m ∈ World.only p.broker
      (if role = .initiator then [.claim peer p.connection] else []) b,
      m = .claim peer p.connection := by
    intro b m hm
    rw [World.only] at hm
    split at hm
    · split at hm
      · exact List.mem_singleton.mp hm
      · cases hm
    · cases hm
  refine h.grows (.of_perm (.refl _) (List.Subset.refl _) rfl) (hf.sound h.sound) ?_ fun t => ?_
  · refine hf.seated h.sound h.seated fun b id hm => ?_
    cases hclaims b _ hm
  · refine hf.keeps h.sound fun b m hm => ?_
    rw [hclaims b m hm]
    rfl

lemma occurs {more : List Incident} (h : n.Attended seat) (ho : Occurs n more n') :
    ∃ seat', n'.Attended seat' := by
  have hsame : ∀ w : World σ, n.Grows { n with world := w } :=
    fun _ => .of_perm (.refl _) (List.Subset.refl _) rfl
  cases ho with
  | step => exact step hs h
  | elapse time =>
    exact ⟨seat, h.grows_silent ((hsame _).trans (.wake _ _)) (.of_brokers rfl)⟩
  | absorb => exact ⟨seat, absorbAll hs h⟩
  | create id config => exact ⟨seat, h.create id config⟩
  | attach ha => exact ⟨seat, h.attach ha⟩
  | host hb => exact ⟨seat, h.grows_silent (hsame _) (.move hb.move)⟩
  | outside hw => exact ⟨seat, h.grows_silent (hsame _) (.of_brokers hw)⟩
  | start ha => exact ⟨seat, h.grows_silent (.start n ha) (.refl _)⟩
  | take id =>
    exact ⟨seat, h.grows_silent (.of_perm (.refl _) List.filter_sublist.subset rfl) (.refl _)⟩

lemma history {log : List Incident} (h : n.Attended seat) (hh : History n log n') :
    ∃ seat', n'.Attended seat' := by
  induction hh with
  | refl => exact ⟨seat, h⟩
  | tail _ ho ih =>
    obtain ⟨seat', h'⟩ := ih
    exact occurs hs h' ho

omit [Servant σ] hs in
lemma keeps_response (h : n.Attended seat) {id : Nat} {p : Port} {x : WaiterId}
    {deadline : Option Nat} {next : Bool → Activity σ (Option ρ)}
    (ht : (id, .await (.response p x) deadline next) ∈ n.tasks) :
    ∃ request, n.world.Keeps (p, ⟨request, x⟩) := by
  obtain ⟨-, hwait, -⟩ := h.minds _ ht n.world h.sound h.seated (h.keeps id)
  obtain ⟨request, hseat⟩ := hwait p x rfl
  exact ⟨request, h.keeps id _ hseat⟩

end Attended

end Network

end ObjectBroker
