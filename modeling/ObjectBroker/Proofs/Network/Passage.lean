import ObjectBroker.Proofs.Network.Shift

/-!
What one step of the network does to the calls under way: whoever is first in the queue has its turn,
and the calls go on from one place to the next.
-/

namespace ObjectBroker

variable {σ α : Type}

namespace Network

variable [Servant σ] {ρ : Type}

lemma step_reader {n : Network σ ρ} {p : Port} {rest : List (Ready σ ρ)}
    (h : n.queue = .reader p :: rest) :
    n.step = { n with queue := rest, world := n.world.receive p }.absorbAll := by
  rw [step, h]
  rfl

lemma step_task {n : Network σ ρ} {id : Nat} {a : Activity σ (Option ρ)} {rest : List (Ready σ ρ)}
    {stop : Activity.Stop σ (Option ρ)} {w : World σ} (h : n.queue = .task id a :: rest)
    (ha : a.run n.world = (stop, w)) :
    n.step = ({ n with queue := rest, world := w }.settleTask id stop).absorbAll := by
  rw [step, h]
  dsimp only
  rw [ha]

lemma absorb_readable {n : Network σ (Except BrokerError α)} {slots : List (Slot σ α)}
    (h : n.queue = slots.map Slot.ready) (p : Port) :
    n.absorb (.readable p) = { n with queue := (slots ++ Slot.summons slots p).map Slot.ready } := by
  have hqueued : n.isQueued p = slots.any (Slot.isReader p) := by
    rw [isQueued, h, List.any_map]
    congr 1
    funext y
    cases y <;> rfl
  rw [absorb, hqueued, Slot.summons]
  split
  · rw [List.append_nil, ← h]
  · rw [List.map_append, ← h]
    rfl

lemma foldl_absorb_responded {p : Port} {ys : List (Flight σ α × ReplyContent)}
    {rest : Multiset (Parked σ (Except BrokerError α))} {n : Network σ (Except BrokerError α)}
    (h : (n.parked : Multiset (Parked σ (Except BrokerError α))) =
      (ys.map fun y => {y.1.parked}).sum + rest)
    (hwait : ∀ y ∈ ys, y.1.parked.wait = .response p y.1.waiter)
    (hnodup : (ys.map fun y => y.1.waiter).Nodup)
    (hrest : ∀ z ∈ rest, ∀ y ∈ ys, z.wait.concerns (.responded p y.1.waiter) = false) :
    let n' := (ys.map fun y => Event.responded p y.1.waiter).foldl absorb n
    n'.queue = n.queue ++ (ys.map fun y => Slot.resume y.1 y.2).map Slot.ready ∧
      (n'.parked : Multiset (Parked σ (Except BrokerError α))) = rest ∧ n'.world = n.world ∧
      n'.results = n.results ∧ n'.nextTask = n.nextTask := by
  induction ys generalizing n with
  | nil => exact ⟨(List.append_nil _).symm, h.trans (zero_add rest), rfl, rfl, rfl⟩
  | cons y ys ih =>
    rw [List.map_cons, List.sum_cons, add_assoc] at h
    rw [List.map_cons, List.nodup_cons] at hnodup
    have hdue : y.1.parked.wait.concerns (.responded p y.1.waiter) = true := by
      rw [hwait y List.mem_cons_self, Wait.concerns]
      simp
    have hothers : ∀ z ∈ (ys.map fun y =>
          ({y.1.parked} : Multiset (Parked σ (Except BrokerError α)))).sum + rest,
        z.wait.concerns (.responded p y.1.waiter) = false := by
      intro z hz
      rcases Multiset.mem_add.mp hz with hz | hz
      · obtain ⟨y', hy', hz⟩ := Traffic.mem_sum_map.mp hz
        obtain rfl := Multiset.mem_singleton.mp hz
        have hne : y.1.waiter ≠ y'.1.waiter := fun heq =>
          hnodup.1 (heq ▸ List.mem_map_of_mem (f := fun y => y.1.waiter) hy')
        rw [hwait y' (List.mem_cons_of_mem _ hy'), Wait.concerns]
        simp [hne]
      · exact hrest z hz y List.mem_cons_self
    obtain ⟨hqueue, hparked⟩ := wake_one h hdue hothers
    obtain ⟨hqueue', hparked', hworld, hresults, hnext⟩ := @ih (n.absorb (.responded p y.1.waiter))
      hparked (fun y' hy' => hwait y' (List.mem_cons_of_mem _ hy')) hnodup.2
      fun z hz y' hy' => hrest z hz y' (List.mem_cons_of_mem _ hy')
    refine ⟨hqueue'.trans ?_, hparked', hworld, hresults, hnext⟩
    have hfirst : (n.absorb (.responded p y.1.waiter)).queue = n.queue ++ [resume y.1.parked] :=
      hqueue
    rw [hfirst, List.append_assoc]
    rfl

end Network

namespace Site

open Dispatch (Gives Served Admits)
open Traffic (Shift)

variable [Servant σ] {x : Site σ α} {issued : List (Nat × Trip σ α)}
  {g g' gone come : Traffic σ α} {n n' : Network σ (Except BrokerError α)} {l : Line}
  {rest : List (Slot σ α)} {w w' : World σ}

lemma Stands.clear (h : x.Stands g w) : x.Stands g { w with events := [] } :=
  h.quiet (.of_same rfl rfl) h.holdings h.served fun _ _ => ⟨rfl, rfl, rfl, rfl⟩

omit [Servant σ] in
lemma Fair.shift (h : x.Fair issued g) (hs : Shift g g' gone come)
    {log finished : List ((Nat × Trip σ α) × ReplyContent)} (hlog : g'.log = g.log ++ log)
    (hfinished : g'.finished = g.finished ++ finished)
    (hwaiting : g'.waiting + (log.map Prod.fst : List _) = g.waiting)
    (hanswered : g'.answered + finished = g.answered + log)
    (hslots : ∀ y ∈ come.slots, x.Fits y) (hrequests : ∀ f ∈ come.requests, x.Flies f)
    (hreplies : ∀ y ∈ come.replies, x.Flies y.1)
    (hasks : ∀ f ∈ g'.requests, .reader f.line.far ∈ g'.slots)
    (hanswers : ∀ y ∈ g'.replies, .reader y.1.line.near ∈ g'.slots) : x.Fair issued g' where
  slots y hy := (hs.mem_slots hy).elim (h.slots y) (hslots y)
  requests f hf := (hs.mem_requests hf).elim (h.requests f) (hrequests f)
  replies y hy := (hs.mem_replies hy).elim (h.replies y) (hreplies y)
  asks := hasks
  answers := hanswers
  calls := by
    rw [h.calls, hlog, ← hwaiting, List.map_append, ← Multiset.coe_add]
    abel
  log := by
    rw [hlog, hfinished, ← Multiset.coe_add, ← Multiset.coe_add, h.log]
    calc g.answered + g.finished + log = g.answered + log + g.finished := by abel
      _ = g'.answered + (g.finished + finished) := by rw [← hanswered]; abel
  few := by
    rw [hfinished, List.length_append]
    exact h.few.trans (by omega)

def Advances (x : Site σ α) (issued : List (Nat × Trip σ α)) (g : Traffic σ α)
    (n : Network σ (Except BrokerError α)) : Prop :=
  ∃ g', x.Holds issued g' n ∧ g.log <+: g'.log ∧ g'.weight < g.weight

lemma Holds.queue_cons (h : x.Holds issued g n) {s : Slot σ α} (hg : g.slots = s :: rest) :
    n.queue = s.ready :: rest.map Slot.ready := by
  rw [h.queue, hg, List.map_cons]

lemma Holds.waiting_mem (h : x.Holds issued g n) {i : Nat × Trip σ α} (hi : i ∈ g.waiting) :
    i ∈ issued := by
  have hmem : i ∈ (issued : Multiset (Nat × Trip σ α)) := by
    rw [h.fair.calls]
    exact Multiset.mem_add.mpr (.inl hi)
  exact hmem

lemma Flies.on (hx : x.Sound) {f : Flight σ α} (hf : x.Flies f) (hl : l ∈ x.lines)
    (h : f.on l = true) : f.line = l := by
  rw [Flight.on, decide_eq_true_eq] at h
  exact hx.eq_of_near hf.mem hl h

lemma Fair.asked (h : x.Fair issued g) (hx : x.Sound) (hl : l ∈ x.lines) :
    ∀ f ∈ g.asked l, x.Flies f ∧ f.line = l := by
  intro f hf
  obtain ⟨hmem, hon⟩ := Traffic.mem_asked hf
  have hflies := h.requests f hmem
  exact ⟨hflies, hflies.on hx hl hon⟩

omit [Servant σ] in
lemma Fair.flies (h : x.Fair issued g) {f : Flight σ α}
    (hf : (∃ k, .serve k f ∈ g.slots) ∨ f ∈ g.requests ∨ ∃ a, (f, a) ∈ g.replies) : x.Flies f := by
  rcases hf with ⟨k, hf⟩ | hf | ⟨a, hf⟩
  · exact h.slots _ hf
  · exact h.requests f hf
  · exact h.replies _ hf

lemma Fair.accepted (h : x.Fair issued g) (hx : x.Sound) (hl : l ∈ x.lines)
    (hg : g.slots = .reader l.far :: rest) (k : Nat) : x.Fair issued (g.accepted rest l k) := by
  refine h.shift (Traffic.shift_accepted hg k) (List.append_nil _).symm (List.append_nil _).symm
    ?_ ?_ ?_ ?_ ?_ ?_ ?_
  · exact (add_zero _).trans (Traffic.waiting_accepted hg k)
  · exact congrArg (· + 0) (Traffic.answered_accepted hg k)
  · intro y hy
    obtain ⟨z, hz, rfl⟩ := List.mem_map.mp hy
    exact (h.asked hx hl z.1 (List.fst_mem_of_mem_zipIdx hz)).1
  · exact fun f hf => absurd hf List.not_mem_nil
  · exact fun y hy => absurd hy List.not_mem_nil
  · intro f hf
    obtain ⟨hmem, hon⟩ := List.mem_filter.mp hf
    have hslot := h.asks f hmem
    rw [hg, List.mem_cons] at hslot
    rcases hslot with hslot | hslot
    · have hfar : f.line.far = l.far := Slot.reader.inj hslot
      have hsame := List.inj_on_of_nodup_map hx.fars (h.requests f hmem).mem hl hfar
      simp [Flight.on, hsame] at hon
    · exact List.mem_append_left _ hslot
  · intro y hy
    have hslot := h.answers y hy
    rw [hg, List.mem_cons] at hslot
    rcases hslot with hslot | hslot
    · have hport : y.1.line.near = l.far := Slot.reader.inj hslot
      have haway := (hx.laid _ (h.replies y hy).mem).away
      exact absurd ((congrArg Port.broker hport).trans (hx.laid l hl).home) haway
    · exact List.mem_append_left _ hslot

lemma Stands.accepted (h : x.Stands g w) (hx : x.Sound) (hl : l ∈ x.lines)
    (hg : g.slots = .reader l.far :: rest) (k : Nat) :
    x.Stands (g.accepted rest l k) (w.receive l.far) ∧ (w.receive l.far).events = w.events ++
      (g.asked l).map fun f => .started (.serve l.far f.request l.client.order) := by
  have hlaid := hx.laid l hl
  obtain ⟨c, d, hline⟩ := h.lines l hl
  have hreads : d.isReading = true := by
    rw [hline.host.isReading]
    exact hlaid.serves
  obtain ⟨d', hline', hstirs⟩ := hline.accept hreads hlaid.ne
  rw [hlaid.home, hline.client.order] at hstirs
  obtain ⟨hlanding, hreturning, hserving, hasked⟩ := Traffic.accepted_self hg k
  refine ⟨h.turn hx hl (hstirs.toBeside.mono fun p hp => .inr hp) ?_ ?_ ⟨c, d', ?_⟩
    fun l' hne => Traffic.accepted_other hg k hne, hstirs.events⟩
  · rw [hstirs.holdings, ← Multiset.coe_add, h.holdings, Traffic.holds_accepted hg, add_assoc]
  · rw [hstirs.objects]
    exact h.served
  · rw [hlanding, hreturning, hserving, hasked]
    exact hline'

lemma Holds.step_far (h : x.Holds issued g n) (hx : x.Sound) (hl : l ∈ x.lines)
    (hg : g.slots = .reader l.far :: rest) : x.Advances issued g n.step := by
  obtain ⟨hworld, hevents⟩ := h.world.accepted hx hl hg n.nextTask
  let jobs := (g.asked l).map fun f => Job.serve l.far f.request l.client.order
  have hevents' : (n.world.receive l.far).events = jobs.map Event.started := by
    rw [hevents, h.events, List.nil_append, List.map_map]
    rfl
  have hqueue : n.queue = .reader l.far :: rest.map Slot.ready := h.queue_cons hg
  have hready : (jobs.zipIdx n.nextTask).map (fun y => (.task y.2 (do y.1.activity; return none) :
        Ready σ (Except BrokerError α))) =
      ((((g.asked l).zipIdx n.nextTask).map fun y => Slot.serve y.2 y.1).map Slot.ready) := by
    rw [List.zipIdx_map, List.map_map, List.map_map]
    refine List.map_congr_left fun y hy => ?_
    have hline := (h.fair.asked hx hl y.1 (List.fst_mem_of_mem_zipIdx hy)).2
    simp only [Function.comp_apply, Slot.ready, hline, Prod.map, id]
  refine ⟨g.accepted rest l n.nextTask, ?_, List.prefix_rfl,
    Traffic.weight_accepted_lt hg n.nextTask⟩
  rw [Network.step_reader hqueue, Network.absorbAll_of_tidy (hworld.tidy hx), hevents',
    Network.foldl_absorb_started]
  refine ⟨hworld.clear, h.fair.accepted hx hl hg n.nextTask, rfl, ?_, ?_, h.results, h.numbers,
    fun i hi => ?_, ?_⟩
  · rw [hready, ← List.map_append]
    rfl
  · rw [Traffic.parked_accepted hg]
    exact h.parked
  · exact ⟨(h.below i hi).1, Nat.lt_of_lt_of_le (h.below i hi).2 (Nat.le_add_right _ _)⟩
  · exact h.nextTask.trans (Nat.le_add_right _ _)

omit [Servant σ] in
lemma Fair.unfinished_le (h : x.Fair issued g) :
    g.waiting.card + g.answered.card ≤ Connection.idSpan := by
  have hcalls := congrArg Multiset.card h.calls
  have hlog := congrArg Multiset.card h.log
  have hfew := h.few
  simp only [Multiset.coe_card, Multiset.card_add, List.length_map] at hcalls hlog
  omega

lemma Fair.heard (h : x.Fair issued g) (hx : x.Sound) (hl : l ∈ x.lines)
    (hg : g.slots = .reader l.near :: rest) : x.Fair issued (g.heard rest l) := by
  refine h.shift (Traffic.shift_heard hg) (List.append_nil _).symm (List.append_nil _).symm
    ?_ ?_ ?_ ?_ ?_ ?_ ?_
  · exact (add_zero _).trans (Traffic.waiting_heard hg)
  · exact congrArg (· + 0) (Traffic.answered_heard hg)
  · intro y hy
    obtain ⟨z, hz, rfl⟩ := List.mem_map.mp hy
    exact h.replies z (Traffic.mem_returning hz).1
  · exact fun f hf => absurd hf List.not_mem_nil
  · exact fun y hy => absurd hy List.not_mem_nil
  · intro f hf
    have hslot := h.asks f hf
    rw [hg, List.mem_cons] at hslot
    rcases hslot with hslot | hslot
    · have hport : f.line.far = l.near := Slot.reader.inj hslot
      have hhome := (hx.laid _ (h.requests f hf).mem).home
      exact absurd ((congrArg Port.broker hport.symm).trans hhome) (hx.laid l hl).away
    · exact List.mem_append_left _ hslot
  · intro y hy
    obtain ⟨hmem, hon⟩ := List.mem_filter.mp hy
    have hslot := h.answers y hmem
    rw [hg, List.mem_cons] at hslot
    rcases hslot with hslot | hslot
    · have hnear : y.1.line.near = l.near := Slot.reader.inj hslot
      simp [Flight.on, hnear] at hon
    · exact List.mem_append_left _ hslot

lemma Stands.heard (h : x.Stands g w) (hfair : x.Fair issued g) (hx : x.Sound) (hl : l ∈ x.lines)
    (hg : g.slots = .reader l.near :: rest) :
    x.Stands (g.heard rest l) (w.receive l.near) ∧ (w.receive l.near).events = w.events ++
      (g.returning l).map fun y => .responded l.near y.1.waiter := by
  have hlaid := hx.laid l hl
  obtain ⟨c, d, hline⟩ := h.lines l hl
  have hreads : c.isReading = true := by
    rw [hline.client.isReading]
    exact hlaid.hears
  have hlen := (Nat.le_add_right _ _).trans ((g.pending_le l).trans hfair.unfinished_le)
  obtain ⟨c', hline', hstirs⟩ := hline.hear (s := x.server) hreads hlaid.ne hlen
  obtain ⟨hlanding, hreturning, hserving, hasked⟩ := Traffic.heard_self hg
  refine ⟨h.turn hx hl (hstirs.toBeside.mono fun p hp => .inl hp) ?_ ?_ ⟨c', d, ?_⟩
    fun l' hne => Traffic.heard_other hg hne, hstirs.events⟩
  · rw [hstirs.holdings, List.nil_append, h.holdings, Traffic.holds_heard hg]
  · rw [hstirs.objects]
    exact h.served
  · rw [hlanding, hreturning, hserving, hasked]
    exact hline'

lemma Stands.apart (h : x.Stands g w) (hl : l ∈ x.lines) {y : Flight σ α × ReplyContent}
    (hy : y ∈ g.returning l) {f : Flight σ α} (hf : f ∈ g.serving l ++ g.asked l) :
    y.1.waiter ≠ f.waiter := by
  obtain ⟨c, d, hline⟩ := h.lines l hl
  obtain ⟨first, hserials, -⟩ := hline.serials
  have hwaiters := hserials.nodup_waiters hline.numbered
  rw [Line.fleet, List.map_append, List.map_append] at hwaiters
  have hpending := hwaiters.of_append_right
  have hreturned : y.1.waiter ∈ ((g.returning l).map Prod.fst).map Flight.waiter :=
    List.mem_map_of_mem (List.mem_map_of_mem hy)
  exact fun hsame => (List.nodup_append.mp hpending).2.2 _ hreturned _
    (List.mem_map_of_mem hf) hsame

lemma Holds.unconcerned (h : x.Holds issued g n) (hx : x.Sound) (hl : l ∈ x.lines)
    (hg : g.slots = .reader l.near :: rest) {z : Parked σ (Except BrokerError α)}
    (hz : z ∈ (g.heard rest l).parked + x.base.parked) {y : Flight σ α × ReplyContent}
    (hy : y ∈ g.returning l) : z.wait.concerns (.responded l.near y.1.waiter) = false := by
  rcases Multiset.mem_add.mp hz with hz | hz
  · obtain ⟨f, rfl, hplace⟩ := Traffic.mem_parked hz
    have hflies := (h.fair.heard hx hl hg).flies hplace
    rw [hflies.wait, Wait.concerns, Bool.and_eq_false_iff]
    by_cases hon : f.on l = true
    · have hpending : f ∈ g.serving l ++ g.asked l := by
        obtain ⟨-, -, hserving, hasked⟩ := Traffic.heard_self hg
        rw [← hserving, ← hasked]
        rcases hplace with ⟨k, hf⟩ | hf | ⟨a, hf⟩
        · refine List.mem_append_left _ (List.mem_flatMap.mpr ⟨_, hf, ?_⟩)
          rw [Slot.serving, if_pos hon]
          exact List.mem_cons_self
        · exact List.mem_append_right _ (List.mem_filter.mpr ⟨hf, hon⟩)
        · have hoff := (List.mem_filter.mp hf).2
          rw [hon] at hoff
          cases hoff
      right
      exact beq_false_of_ne (h.world.apart hl hy hpending)
    · left
      rw [Flight.on, decide_eq_true_eq] at hon
      exact beq_false_of_ne fun hsame => hon hsame.symm
  · exact hx.responded z hz l hl _

lemma Holds.step_near (h : x.Holds issued g n) (hx : x.Sound) (hl : l ∈ x.lines)
    (hg : g.slots = .reader l.near :: rest) : x.Advances issued g n.step := by
  obtain ⟨hworld, hevents⟩ := h.world.heard h.fair hx hl hg
  have hqueue : n.queue = .reader l.near :: rest.map Slot.ready := h.queue_cons hg
  let n₁ : Network σ (Except BrokerError α) := { n with
    queue := rest.map Slot.ready
    world := { n.world.receive l.near with events := [] } }
  have hparked : (n₁.parked : Multiset (Parked σ (Except BrokerError α))) =
      ((g.returning l).map fun y => {y.1.parked}).sum +
        ((g.heard rest l).parked + x.base.parked) := by
    rw [← add_assoc, ← Traffic.parked_heard hg]
    exact h.parked
  have hwait : ∀ y ∈ g.returning l, y.1.parked.wait = .response l.near y.1.waiter := by
    intro y hy
    obtain ⟨hmem, hon⟩ := Traffic.mem_returning hy
    have hflies := h.fair.replies y hmem
    rw [hflies.wait, hflies.on hx hl hon]
  have hnodup : ((g.returning l).map fun y => y.1.waiter).Nodup := by
    obtain ⟨c, d, hline⟩ := h.world.lines l hl
    obtain ⟨first, hserials, -⟩ := hline.serials
    have hwaiters := hserials.nodup_waiters hline.numbered
    rw [Line.fleet, List.map_append, List.map_append] at hwaiters
    have hreturning := hwaiters.of_append_right.of_append_left
    rw [List.map_map] at hreturning
    exact hreturning
  obtain ⟨hqueue', hparked', hworld', hresults, hnext⟩ := Network.foldl_absorb_responded hparked
    hwait hnodup fun z hz y hy => h.unconcerned hx hl hg hz hy
  refine ⟨g.heard rest l, ?_, List.prefix_rfl, Traffic.weight_heard_lt hg⟩
  rw [Network.step_reader hqueue, Network.absorbAll_of_tidy (hworld.tidy hx), hevents, h.events,
    List.nil_append]
  refine ⟨?_, h.fair.heard hx hl hg, ?_, ?_, hparked', ?_, h.numbers, fun i hi => ?_, ?_⟩
  · rw [hworld']
    exact hworld.clear
  · rw [hworld']
  · rw [hqueue', ← List.map_append]
    rfl
  · rw [hresults]
    exact h.results
  · rw [hnext]
    exact h.below i hi
  · rw [hnext]
    exact h.nextTask

end Site

end ObjectBroker
