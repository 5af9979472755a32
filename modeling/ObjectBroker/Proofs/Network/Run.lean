import ObjectBroker.Proofs.Network.History
import ObjectBroker.Proofs.Network.Turn

/-!
Runs in which calls are started at any time. At every moment of a run there is an order in which the
broker has answered calls so far; it only grows, every result that is there comes from it, and once
nothing can go on every call is in it. A run in which no more calls are started comes to that point.
-/

namespace ObjectBroker

variable {σ α : Type}

namespace Network

variable [Servant σ] {ι κ : Type}

/-- What may happen in a network where nothing but calls is started; beside it stand those that have
been. A call is started while there are ids for it, and the clock moves as long as nobody's time is
over. -/
inductive Move (holding : ι → Holding) (call : ι → Call σ α) :
    List (Nat × ι) × Network σ (Except BrokerError α) →
    List (Nat × ι) × Network σ (Except BrokerError α) → Prop
  | step (issued : List (Nat × ι)) (n : Network σ (Except BrokerError α)) :
    Move holding call (issued, n) (issued, n.step)
  | start (issued : List (Nat × ι)) (n : Network σ (Except BrokerError α)) (i : ι)
    (h : issued.length < n.results.length + Connection.idSpan) :
    Move holding call (issued, n)
      (issued ++ [((n.startCall (holding i) (call i)).1, i)], (n.startCall (holding i) (call i)).2)
  | wait (issued : List (Nat × ι)) (n : Network σ (Except BrokerError α)) (time : Nat)
    (h : ∀ y ∈ n.parked, y.deadline.any (· ≤ time) = false) :
    Move holding call (issued, n) (issued, n.setTime time)

abbrev Moves (holding : ι → Holding) (call : ι → Call σ α) :=
  Relation.ReflTransGen (Move holding call)

variable {holding : ι → Holding} {call : ι → Call σ α}
  {y y' : List (Nat × ι) × Network σ (Except BrokerError α)}

lemma Move.issued_prefix (h : Move holding call y y') : y.1 <+: y'.1 := by
  cases h with
  | step => exact List.prefix_rfl
  | start issued n i h => exact List.prefix_append _ _
  | wait issued n time h => exact List.prefix_rfl

lemma Moves.issued_prefix (h : Moves holding call y y') : y.1 <+: y'.1 := by
  induction h with
  | refl => exact List.prefix_rfl
  | tail _ hmove ih => exact ih.trans hmove.issued_prefix

lemma Moves.settle (issued : List (Nat × ι)) (n : Network σ (Except BrokerError α)) (fuel : Nat) :
    Moves holding call (issued, n) (issued, n.settle fuel) := by
  induction fuel generalizing n with
  | zero => exact .refl
  | succ fuel ih =>
    rw [Network.settle]
    split
    · exact .refl
    · exact .head (.step issued n) (ih n.step)

lemma Moves.map {holding' : κ → Holding} {call' : κ → Call σ α} (f : ι → κ)
    (hh : ∀ i, holding' (f i) = holding i) (hc : ∀ i, call' (f i) = call i)
    (h : Moves holding call y y') :
    Moves holding' call' (y.1.map (Prod.map id f), y.2) (y'.1.map (Prod.map id f), y'.2) := by
  induction h with
  | refl => exact .refl
  | tail _ hmove ih =>
    apply ih.tail
    cases hmove with
    | step issued n => exact .step _ n
    | start issued n i h =>
      have hroom : (issued.map (Prod.map id f)).length < n.results.length + Connection.idSpan := by
        rwa [List.length_map]
      have hmove : Move holding' call' (issued.map (Prod.map id f), n) _ := .start _ n (f i) hroom
      rw [hh, hc] at hmove
      rw [List.map_append]
      exact hmove
    | wait issued n time h => exact .wait _ n time h

/-- Runs of calls are histories: all that holds of these holds of them. -/
lemma Moves.history (hcall : ∀ i, (call i).MadeOf Activity.Primitive)
    (h : Moves holding call y y') : ∃ log, History y.2 log y'.2 := by
  induction h with
  | refl => exact ⟨[], .refl⟩
  | tail _ hmove ih =>
    obtain ⟨log, hlog⟩ := ih
    cases hmove with
    | step issued n => exact ⟨_, hlog.tail .step⟩
    | wait issued n time h => exact ⟨_, hlog.tail (.elapse time)⟩
    | start issued n i h =>
      have hheld := hlog.tail (.outside (w := n.world.hold (holding i)) rfl)
      have hleave : (Activity.update fun w : World σ => w.unhold (holding i)).MadeOf
          Activity.Primitive := .update fun _ => .of_brokers rfl
      exact ⟨_, (hheld.tail .absorb).tail
        (.start (.bind (hcall i) fun _ => hleave.bind fun _ => .pure _))⟩

end Network

namespace Traffic

def called (g : Traffic σ α) (k : Nat) (t : Trip σ α) : Traffic σ α :=
  { g with slots := g.slots ++ [.call k t] }

lemma total_called {M : Type} [AddCommMonoid M] (g : Traffic σ α) (k : Nat) (t : Trip σ α)
    (slot : Slot σ α → M) (request : Flight σ α → M) (reply : Flight σ α × ReplyContent → M) :
    (g.called k t).total slot request reply = slot (.call k t) + g.total slot request reply := by
  rw [total, total, called, List.map_append, List.sum_append, List.map_singleton,
    List.sum_singleton, ← add_assoc, ← add_assoc, add_comm (slot (.call k t))]

lemma flatMap_called {β : Type} (g : Traffic σ α) (k : Nat) (t : Trip σ α)
    {f : Slot σ α → List β} (hf : f (.call k t) = []) :
    (g.called k t).slots.flatMap f = g.slots.flatMap f := by
  rw [called, List.flatMap_append, List.flatMap_singleton, hf, List.append_nil]

end Traffic

namespace Site

open Dispatch (Gives Served)
open Network (Move Moves)

variable [Servant σ] {x : Site σ α} {issued issued' : List (Nat × Trip σ α)}
  {g : Traffic σ α} {n n' : Network σ (Except BrokerError α)}

lemma Stands.called {w : World σ} (h : x.Stands g w) (k : Nat) (t : Trip σ α) :
    x.Stands (g.called k t) (w.hold t.errand.holding) := by
  refine h.quiet (.of_same rfl rfl) ?_ h.served fun l _ => ⟨?_, rfl, ?_, rfl⟩
  · have hholds : (g.called k t).holds x.server = {t.errand.holding} + g.holds x.server :=
      Traffic.total_called ..
    rw [hholds, add_assoc, ← h.holdings]
    rfl
  · exact Traffic.flatMap_called g k t rfl
  · exact Traffic.flatMap_called g k t rfl

lemma Holds.startCall (h : x.Holds issued g n) (hx : x.Sound) (t : Trip σ α) :
    n.startCall t.errand.holding t.errand.call = (n.nextTask, { n with
      queue := n.queue ++ [.task n.nextTask t.errand.activity]
      world := { n.world.hold t.errand.holding with events := [] }
      nextTask := n.nextTask + 1 }) := by
  let n₁ : Network σ (Except BrokerError α) := { n with world := n.world.hold t.errand.holding }
  have hchange : n.change (·.hold t.errand.holding) =
      { n with world := { n.world.hold t.errand.holding with events := [] } } := by
    have hevents : n₁.world.events = [] := h.events
    have htidy := Network.absorbAll_of_tidy (n := n₁) ((h.world.called 0 t).tidy hx)
    rw [hevents] at htidy
    exact htidy
  rw [Network.startCall, hchange]
  rfl

lemma Holds.start (h : x.Holds issued g n) (hx : x.Sound) (t : Trip σ α)
    (hfew : issued.length < n.results.length + Connection.idSpan) :
    x.Holds (issued ++ [((n.startCall t.errand.holding t.errand.call).1, t)])
      (g.called n.nextTask t) (n.startCall t.errand.holding t.errand.call).2 := by
  have hworld := h.world.called n.nextTask t
  have hresults : n.results.length = g.finished.length := by
    rw [h.results, hx.results, List.nil_append, List.length_map]
  rw [h.startCall hx t]
  refine ⟨hworld.clear, ⟨fun y hy => ?_, h.fair.requests, h.fair.replies, fun f hf => ?_,
    fun y hy => ?_, ?_, ?_, ?_⟩, rfl, ?_, ?_, h.results, ?_, fun i hi => ?_, ?_⟩
  · rcases List.mem_append.mp hy with hy | hy
    · exact h.fair.slots y hy
    · rw [List.mem_singleton.mp hy]
      exact trivial
  · exact List.mem_append_left _ (h.fair.asks f hf)
  · exact List.mem_append_left _ (h.fair.answers y hy)
  · have hwaiting : (g.called n.nextTask t).waiting = {(n.nextTask, t)} + g.waiting :=
      Traffic.total_called ..
    rw [hwaiting, ← Multiset.coe_add, h.fair.calls, Multiset.coe_singleton, add_comm, add_assoc]
    rfl
  · have hanswered : (g.called n.nextTask t).answered = g.answered :=
      (Traffic.total_called ..).trans (zero_add _)
    rw [hanswered]
    exact h.fair.log
  · rw [List.length_append, List.length_singleton]
    have hfinished : (g.called n.nextTask t).finished = g.finished := rfl
    rw [hfinished]
    omega
  · rw [h.queue, Traffic.called, List.map_append]
    rfl
  · have hparked : (g.called n.nextTask t).parked = g.parked :=
      (Traffic.total_called ..).trans (zero_add _)
    rw [hparked]
    exact h.parked
  · rw [List.map_append, List.pairwise_append]
    refine ⟨h.numbers, List.pairwise_singleton _ _, fun k hk k' hk' => ?_⟩
    obtain ⟨i, hi, rfl⟩ := List.mem_map.mp hk
    rw [List.mem_singleton.mp hk']
    exact (h.below i hi).2
  · rcases List.mem_append.mp hi with hi | hi
    · exact ⟨(h.below i hi).1, Nat.lt_succ_of_lt (h.below i hi).2⟩
    · rw [List.mem_singleton.mp hi]
      exact ⟨h.nextTask, Nat.lt_succ_self _⟩
  · exact Nat.le_succ_of_le h.nextTask

lemma Holds.wait (h : x.Holds issued g n) {time : Nat}
    (ht : ∀ y ∈ n.parked, y.deadline.any (· ≤ time) = false) : x.Holds issued g (n.setTime time) := by
  have hwake : n.setTime time = { n with world := { n.world with now := time } } :=
    Network.wake_none ht
  rw [hwake]
  refine ⟨?_, h.fair, h.events, h.queue, h.parked, h.results, h.numbers, h.below, h.nextTask⟩
  exact h.world.quiet (.of_same rfl rfl) h.world.holdings h.world.served
    fun _ _ => ⟨rfl, rfl, rfl, rfl⟩

lemma Sound.holds (hx : x.Sound) : x.Holds [] {} x.base where
  world := {
    beside := .refl _
    holdings := (zero_add _).symm
    served := .nil
    lines := fun l hl => ⟨l.client, l.host, (hx.laid l hl).bears⟩ }
  fair := {
    slots := fun _ hy => absurd hy List.not_mem_nil
    requests := fun _ hy => absurd hy List.not_mem_nil
    replies := fun _ hy => absurd hy List.not_mem_nil
    asks := fun _ hy => absurd hy List.not_mem_nil
    answers := fun _ hy => absurd hy List.not_mem_nil
    calls := rfl
    log := rfl
    few := Nat.zero_le _ }
  events := hx.events
  queue := hx.queue
  parked := (zero_add _).symm
  results := (List.append_nil _).symm
  numbers := .nil
  below _ hi := absurd hi List.not_mem_nil
  nextTask := Nat.le_refl _

lemma Able.mono {trips trips' : List (Trip σ α)} (h : x.Able trips')
    (hs : trips.Subperm trips') : x.Able trips :=
  fun log objects hserved t ht => h log objects hserved t (ht.trans hs)

lemma Holds.queue_eq_nil (h : x.Holds issued g n) : n.queue = [] ↔ g.slots = [] := by
  rw [h.queue, List.map_eq_nil_iff]

lemma Holds.move {y : List (Nat × Trip σ α) × Network σ (Except BrokerError α)}
    (h : x.Holds issued g n) (hx : x.Sound) (htakes : ∀ i ∈ issued, x.Takes i.2)
    (hable : x.Able (issued.map Prod.snd))
    (hm : Move (fun t : Trip σ α => t.errand.holding) (fun t => t.errand.call) (issued, n) y) :
    ∃ g', x.Holds y.1 g' y.2 ∧ g.log <+: g'.log := by
  cases hm with
  | step =>
    by_cases hslots : g.slots = []
    · have hstep : n.step = n := by
        rw [Network.step, h.queue_eq_nil.mpr hslots]
      rw [hstep]
      exact ⟨g, h, List.prefix_rfl⟩
    · obtain ⟨g', hg', hlog, -⟩ := h.step hx htakes hable hslots
      exact ⟨g', hg', hlog⟩
  | start _ _ t hfew => exact ⟨_, h.start hx t hfew, List.prefix_rfl⟩
  | wait _ _ time ht => exact ⟨g, h.wait ht, List.prefix_rfl⟩

lemma Holds.moves {y : List (Nat × Trip σ α) × Network σ (Except BrokerError α)}
    (h : x.Holds issued g n) (hx : x.Sound)
    (hm : Moves (fun t : Trip σ α => t.errand.holding) (fun t => t.errand.call) (issued, n) y)
    (htakes : ∀ i ∈ y.1, x.Takes i.2) (hable : x.Able (y.1.map Prod.snd)) :
    ∃ g', x.Holds y.1 g' y.2 ∧ g.log <+: g'.log := by
  induction hm with
  | refl => exact ⟨g, h, List.prefix_rfl⟩
  | @tail y y' hms hmove ih =>
    have hissued := hmove.issued_prefix
    have htakes' : ∀ i ∈ y.1, x.Takes i.2 := fun i hi => htakes i (hissued.subset hi)
    have hable' : x.Able (y.1.map Prod.snd) :=
      hable.mono (hissued.sublist.map Prod.snd).subperm
    obtain ⟨g', hg', hlog⟩ := ih htakes' hable'
    obtain ⟨g'', hg'', hlog'⟩ := hg'.move hx htakes' hable' hmove
    exact ⟨g'', hg'', hlog.trans hlog'⟩

lemma Holds.settle (h : x.Holds issued g n) (hx : x.Sound) (htakes : ∀ i ∈ issued, x.Takes i.2)
    (hable : x.Able (issued.map Prod.snd)) {fuel : Nat} (hf : g.weight ≤ fuel) :
    (n.settle fuel).queue = [] := by
  induction fuel generalizing g n with
  | zero =>
    rw [Network.settle, h.queue_eq_nil]
    by_contra hslots
    obtain ⟨g', -, -, hweight⟩ := h.step hx htakes hable hslots
    omega
  | succ fuel ih =>
    by_cases hslots : g.slots = []
    · have hqueue := h.queue_eq_nil.mpr hslots
      rw [Network.settle, hqueue]
      exact hqueue
    · obtain ⟨g', hg', -, hweight⟩ := h.step hx htakes hable hslots
      have hqueue : ¬ n.queue.isEmpty = true := by
        rw [List.isEmpty_iff, h.queue_eq_nil]
        exact hslots
      rw [Network.settle, if_neg hqueue]
      exact ih hg' (by omega)

lemma Holds.rest (h : x.Holds issued g n) (hs : g.slots = []) :
    (g.log.map Prod.fst).Perm issued ∧ g.finished.Perm g.log := by
  have hrequests : g.requests = [] := by
    rw [List.eq_nil_iff_forall_not_mem]
    intro f hf
    have hslot := h.fair.asks f hf
    rw [hs] at hslot
    cases hslot
  have hreplies : g.replies = [] := by
    rw [List.eq_nil_iff_forall_not_mem]
    intro y hy
    have hslot := h.fair.answers y hy
    rw [hs] at hslot
    cases hslot
  have hwaiting : g.waiting = 0 := by
    simp [Traffic.waiting, Traffic.total, hs, hrequests, hreplies]
  have hanswered : g.answered = 0 := by
    simp [Traffic.answered, Traffic.total, hs, hrequests, hreplies]
  have hcalls := h.fair.calls
  have hlog := h.fair.log
  rw [hwaiting, zero_add] at hcalls
  rw [hanswered, zero_add] at hlog
  exact ⟨(Multiset.coe_eq_coe.mp hcalls).symm, (Multiset.coe_eq_coe.mp hlog).symm⟩

/-- An order in which the broker has answered calls so far. Every result that is there comes from
it, and once nothing can go on it has every call. -/
structure Tells (x : Site σ α) (issued : List (Nat × Trip σ α))
    (n : Network σ (Except BrokerError α)) (log : List ((Nat × Trip σ α) × ReplyContent)) :
    Prop where
  numbers : (issued.map Prod.fst).Nodup
  calls : (log.map Prod.fst).Subperm issued
  served : Served x.host x.base.world.objects
    (log.map fun y => (y.1.2.errand.question, y.2)) n.world.objects
  results : (n.results.Subperm (log.map fun y => (y.1.1, x.result y.1.2 y.2)))
  rest : n.queue = [] → (log.map Prod.fst).Perm issued ∧
    n.results.Perm (log.map fun y => (y.1.1, x.result y.1.2 y.2))

lemma Holds.tells (h : x.Holds issued g n) (hx : x.Sound) : x.Tells issued n g.log := by
  have hresults : n.results = g.finished.map fun y => (y.1.1, x.result y.1.2 y.2) := by
    rw [h.results, hx.results, List.nil_append]
  have hcalls : ((g.log.map Prod.fst : List _) : Multiset (Nat × Trip σ α)) ≤ issued := by
    rw [h.fair.calls]
    exact Multiset.le_add_left _ _
  have hfinished : (g.finished : Multiset ((Nat × Trip σ α) × ReplyContent)) ≤ g.log := by
    rw [h.fair.log]
    exact Multiset.le_add_left _ _
  refine ⟨h.numbers.imp fun hlt => Nat.ne_of_lt hlt, Multiset.coe_le.mp hcalls, h.world.served,
    ?_, fun hq => ?_⟩
  · have hmap := Multiset.map_le_map (f := fun y : (Nat × Trip σ α) × ReplyContent =>
      (y.1.1, x.result y.1.2 y.2)) hfinished
    rw [Multiset.map_coe, Multiset.map_coe, Multiset.coe_le, ← hresults] at hmap
    exact hmap
  · obtain ⟨hissued, hdone⟩ := h.rest (h.queue_eq_nil.mp hq)
    rw [hresults]
    exact ⟨hissued, hdone.map _⟩

lemma Sound.run (hx : x.Sound)
    (hm : Moves (fun t : Trip σ α => t.errand.holding) (fun t => t.errand.call)
      ([], x.base) (issued, n))
    (hm' : Moves (fun t : Trip σ α => t.errand.holding) (fun t => t.errand.call)
      (issued, n) (issued', n'))
    (htakes : ∀ i ∈ issued', x.Takes i.2) (hable : x.Able (issued'.map Prod.snd)) :
    ∃ log log', x.Tells issued n log ∧ x.Tells issued' n' log' ∧ log <+: log' ∧
      ∃ enough, ∀ fuel, enough ≤ fuel → (n'.settle fuel).queue = [] := by
  have hissued : issued <+: issued' := hm'.issued_prefix
  obtain ⟨g, hg, -⟩ := hx.holds.moves hx hm (fun i hi => htakes i (hissued.subset hi))
    (hable.mono (hissued.sublist.map Prod.snd).subperm)
  obtain ⟨g', hg', hlog⟩ := hg.moves hx hm' htakes hable
  exact ⟨g.log, g'.log, hg.tells hx, hg'.tells hx, hlog, g'.weight,
    fun fuel hf => hg'.settle hx htakes hable hf⟩

lemma able_one {t : Trip σ α} {a : ReplyContent} {objects : Array (Object σ)}
    (hgives : Gives x.host t.errand.question x.base.world.objects a objects)
    (hpass : ∀ l, t.line = some l → ∀ id,
      World.Passes l.client l.host (.reply { id, status := a.1, body := a.2 })) : x.Able [t] := by
  intro log mid hserved t' ht
  have hlog : log = [] := by
    have hlength := ht.length_le
    rw [List.length_cons, List.length_map, List.length_singleton] at hlength
    exact List.eq_nil_of_length_eq_zero (by omega)
  subst hlog
  obtain rfl : t' = t := List.mem_singleton.mp (ht.subset List.mem_cons_self)
  obtain rfl : mid = x.base.world.objects := Dispatch.served_nil_iff.mp hserved
  exact ⟨a, objects, hgives, hpass⟩

lemma Sound.run_one (hx : x.Sound) {t : Trip σ α} (ht : x.Takes t) (hable : x.Able [t])
    {a : ReplyContent} {objects : Array (Object σ)}
    (hgives : Gives x.host t.errand.question x.base.world.objects a objects) :
    ∃ enough, ∀ fuel, enough ≤ fuel →
      let n := (x.base.startCall t.errand.holding t.errand.call).2.settle fuel
      n.queue = [] ∧ n.results = [(x.base.nextTask, x.result t a)] ∧ n.world.objects = objects := by
  let n := (x.base.startCall t.errand.holding t.errand.call).2
  let holding := fun t : Trip σ α => t.errand.holding
  let call := fun t : Trip σ α => t.errand.call
  have hroom : ([] : List (Nat × Trip σ α)).length <
      x.base.results.length + Connection.idSpan :=
    Nat.lt_of_lt_of_le (by decide : 0 < Connection.idSpan) (Nat.le_add_left _ _)
  have hstart : Moves holding call ([], x.base) ([(x.base.nextTask, t)], n) := by
    have hmove : Move holding call ([], x.base) _ := .start [] x.base t hroom
    have hnumber : (x.base.startCall (holding t) (call t)).1 = x.base.nextTask :=
      congrArg Prod.fst (hx.holds.startCall hx t)
    rw [hnumber] at hmove
    exact .single hmove
  have htakes : ∀ i ∈ [(x.base.nextTask, t)], x.Takes i.2 := by
    intro i hi
    rw [List.mem_singleton.mp hi]
    exact ht
  obtain ⟨-, -, -, -, -, enough, henough⟩ := hx.run .refl hstart htakes hable
  refine ⟨enough, fun fuel hf => ?_⟩
  obtain ⟨-, log, -, htells, -⟩ := hx.run hstart (.settle _ n fuel) htakes hable
  have hqueue := henough fuel hf
  obtain ⟨hcalls, hresults⟩ := htells.rest hqueue
  -- The order has this call and no other.
  have hlog : ∃ a', log = [((x.base.nextTask, t), a')] := by
    have hfirst := List.perm_singleton.mp hcalls
    obtain ⟨y, rfl, hy⟩ := List.map_eq_singleton_iff.mp hfirst
    exact ⟨y.2, by rw [← hy]⟩
  obtain ⟨a', rfl⟩ := hlog
  have hserved : Served x.host x.base.world.objects ([] ++ [(t.errand.question, a')])
      (n.settle fuel).world.objects := htells.served
  obtain ⟨mid, hnone, hone⟩ := Dispatch.served_snoc_iff.mp hserved
  rw [Dispatch.served_nil_iff] at hnone
  rw [hnone] at hone
  obtain ⟨rfl, hobjects⟩ := hone.unique hgives
  exact ⟨hqueue, List.perm_singleton.mp hresults, hobjects⟩

end Site

/-! Two brokers of different byte orders that cut their messages into fragments of different sizes. -/

namespace Site

def caller : Broker :=
  .new "a" { name := "a", order := .bigEndian, fragmentSize := 24 }

def keeper : Broker :=
  { Broker.new "b" { name := "b", order := .littleEndian, fragmentSize := 32 } with
    adapters := { adapters := [
      { name := Adapter.rootName, servants := [("tally", 0), ("NameService", 1)] }] } }

def onlyLine : Line where
  near := { broker := 0, connection := 1 }
  far := { broker := 1, connection := 1 }
  client := caller.entrant .initiator { host := "b", port := 7 } 1 0
  host := keeper.entrant .acceptor { host := "a", port := 7 } 0 1

def pair (objects : Array (Object σ)) : Site σ α where
  base :=
    let apart : World σ :=
      { brokers := #[caller, keeper], objects, holdings := [.broker 0, .broker 1] }
    let joined := (apart.link 0 { host := "b", port := 7 } 1 { host := "a", port := 7 }).2
    { world := { joined with events := [] } }
  server := 1
  lines := [onlyLine]

lemma sound_pair [Servant σ] (objects : Array (Object σ)) :
    (pair objects : Site σ α).Sound where
  queue := rfl
  results := rfl
  events := rfl
  tidy := ⟨rfl, by rintro (_ | _ | b) <;> rfl⟩
  numbered := by
    have hone : ∀ b : Broker, b.connections.map (·.id) = [1] → b.lastConnection = 1 →
        b.Numbered := by
      intro b hids hlast
      refine ⟨?_, ?_⟩
      · rw [hids, hlast]
        decide
      · rw [hids]
        exact List.nodup_singleton 1
    rintro (_ | _ | b)
    · exact hone _ rfl rfl
    · exact hone _ rfl rfl
    · exact .of_nil rfl
  nears := List.nodup_singleton _
  fars := List.nodup_singleton _
  laid l hl := by
    obtain rfl := List.mem_singleton.mp hl
    exact
      { away := Nat.zero_ne_one
        home := rfl
        near := ⟨rfl, rfl⟩
        far := ⟨rfl, rfl⟩
        established := rfl
        hears := rfl
        serves := rfl
        order := rfl
        pending := rfl
        responses := rfl
        out := ⟨rfl, rfl, Nat.zero_lt_two, rfl, (fun _ h => by cases h), ⟨fun _ => rfl, rfl⟩,
          (fun _ h => by cases h), rfl⟩
        back := ⟨rfl, rfl, Nat.one_lt_two, rfl, (fun _ h => by cases h), ⟨fun _ => rfl, rfl⟩,
          (fun _ h => by cases h), rfl⟩ }
  responded _ h := by cases h
  idle _ h := by cases h

end Site

end ObjectBroker
