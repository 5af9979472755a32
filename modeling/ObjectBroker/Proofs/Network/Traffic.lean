import Mathlib.Algebra.Order.Group.Multiset
import Mathlib.Data.Multiset.Filter
import ObjectBroker.Proofs.Network.Line
import ObjectBroker.Proofs.World.Tidy

/-!
Many calls to one broker, over some connections and from inside. What stands in the queue of the
network, what is on the streams and who waits are given by the calls that are under way; the objects
of the broker are those that the answers so far have left.
-/

namespace ObjectBroker

variable {σ α : Type}

namespace Dispatch

variable [Servant σ]

inductive Served (b : Broker) (objects : Array (Object σ)) :
    List (Question × ReplyContent) → Array (Object σ) → Prop
  | nil : Served b objects [] objects
  | snoc {log : List (Question × ReplyContent)} {q : Question} {a : ReplyContent}
      {objects' objects'' : Array (Object σ)} (h : Served b objects log objects')
      (hq : Gives b q objects' a objects'') : Served b objects (log ++ [(q, a)]) objects''

lemma served_nil_iff {b : Broker} {objects objects' : Array (Object σ)} :
    Served b objects [] objects' ↔ objects' = objects := by
  constructor
  · generalize hlog : ([] : List (Question × ReplyContent)) = log
    intro h
    cases h with
    | nil => rfl
    | snoc h hq => exact absurd hlog.symm (List.append_ne_nil_of_right_ne_nil _ (List.cons_ne_nil _ _))
  · rintro rfl
    exact .nil

lemma served_snoc_iff {b : Broker} {objects objects' : Array (Object σ)}
    {log : List (Question × ReplyContent)} {q : Question} {a : ReplyContent} :
    Served b objects (log ++ [(q, a)]) objects' ↔
      ∃ mid, Served b objects log mid ∧ Gives b q mid a objects' := by
  constructor
  · generalize hlog : log ++ [(q, a)] = log'
    intro h
    cases h with
    | nil => exact absurd hlog (List.append_ne_nil_of_right_ne_nil _ (List.cons_ne_nil _ _))
    | snoc h hq =>
      obtain ⟨rfl, hlast⟩ := List.append_inj' hlog rfl
      obtain ⟨rfl, rfl⟩ := Prod.mk.inj (List.singleton_inj.mp hlast)
      exact ⟨_, h, hq⟩
  · rintro ⟨mid, h, hq⟩
    exact h.snoc hq

lemma Served.brokers {b : Broker} {objects objects' : Array (Object σ)}
    {log : List (Question × ReplyContent)} (h : Served b objects log objects') :
    objects'.map Object.brokers = objects.map Object.brokers := by
  induction h with
  | nil => rfl
  | snoc _ hq ih => exact hq.brokers.trans ih

end Dispatch

open Dispatch (Gives Served Admits)

structure Line.Laid (l : Line) (w : World σ) (s : BrokerId) : Prop where
  away : l.near.broker ≠ s
  home : l.far.broker = s
  near : w.Has l.near l.client
  far : w.Has l.far l.host
  established : l.client.isEstablished = true
  hears : l.client.isReading = true
  serves : l.host.isReading = true
  order : l.host.order = (w.broker s).config.order
  pending : l.client.pending = []
  responses : l.client.responses = []
  out : w.Wire l.client l.host l.far []
  back : w.Wire l.host l.client l.near []

lemma Line.Laid.ne {l : Line} {w : World σ} {s : BrokerId} (h : l.Laid w s) : l.near ≠ l.far :=
  fun hne => h.away ((congrArg Port.broker hne).trans h.home)

lemma Line.Laid.bears {l : Line} {w : World σ} {s : BrokerId} (h : l.Laid w s) :
    l.Bears (α := α) w l.client l.host [] [] [] [] where
  near := h.near
  far := h.far
  client := .refl _
  host := .refl _
  out := h.out
  back := h.back
  pending := h.pending
  responses := h.responses
  numbered _ hf := absurd hf List.not_mem_nil
  serials := ⟨0, rfl, l.client.requestId_zero.symm, rfl⟩

/-- A network, the broker that serves, and the connections over which it does so. -/
structure Site (σ α : Type) where
  base : Network σ (Except BrokerError α)
  server : BrokerId
  lines : List Line

namespace Site

def broker (x : Site σ α) (b : BrokerId) : Broker :=
  x.base.world.broker b

def host (x : Site σ α) : Broker :=
  x.broker x.server

def Port (x : Site σ α) (p : ObjectBroker.Port) : Prop :=
  ∃ l ∈ x.lines, p = l.near ∨ p = l.far

/-- The network is at rest, and those who wait in it wait for something else. -/
structure Sound [Servant σ] (x : Site σ α) : Prop where
  queue : x.base.queue = []
  results : x.base.results = []
  events : x.base.world.events = []
  tidy : x.base.world.Tidy
  numbered : ∀ b, (x.broker b).Numbered
  nears : (x.lines.map Line.near).Nodup
  fars : (x.lines.map Line.far).Nodup
  laid : ∀ l ∈ x.lines, l.Laid x.base.world x.server
  responded : ∀ y ∈ x.base.parked, ∀ l ∈ x.lines, ∀ waiter,
    y.wait.concerns (.responded l.near waiter) = false
  idle : ∀ y ∈ x.base.parked, ∀ p, x.Port p → y.wait.concerns (.idle p) = false

structure Inside (x : Site σ α) (e : Errand σ α) : Prop where
  broker : e.broker = x.server
  isLocal : e.target.isLocal = true
  running : x.host.isRunning = true
  blank : x.host.marshaller = e.blank

/-- A call that goes over a connection. Its request can be sent and will be let in. -/
structure Over (x : Site σ α) (e : Errand σ α) (l : Line) : Prop where
  mem : l ∈ x.lines
  broker : e.broker = l.near.broker
  isLocal : e.target.isLocal = false
  running : (x.broker e.broker).isRunning = true
  blank : (x.broker e.broker).marshaller = e.blank
  timeout : (x.broker e.broker).config.requestTimeout ≠ some 0
  route : (x.broker e.broker).route? e.target.endpoint = some l.client
  order : e.args.output.order = l.client.order
  admits : Admits x.host e.target.key (Job.origin l.host)
  passes : ∀ r, Invocation.Sends (x.broker e.broker) l.client.order e.target e.operation e.args r →
    World.Passes l.host l.client (.request r)

def Takes (x : Site σ α) (t : Trip σ α) : Prop :=
  match t.line with
  | none => x.Inside t.errand
  | some l => x.Over t.errand l

def result (x : Site σ α) (t : Trip σ α) (a : ReplyContent) : Except BrokerError α :=
  t.errand.result (x.broker t.errand.broker) x.host.config.order a

/-- In whatever order some of the calls are served, the next one is answered, and the reply can be
sent. -/
def Able [Servant σ] (x : Site σ α) (trips : List (Trip σ α)) : Prop :=
  ∀ (log : List (Trip σ α × ReplyContent)) (objects : Array (Object σ)),
    Served x.host x.base.world.objects (log.map fun y => (y.1.errand.question, y.2)) objects →
    ∀ t, (t :: log.map Prod.fst).Subperm trips →
    ∃ a objects', Gives x.host t.errand.question objects a objects' ∧
      ∀ l, t.line = some l → ∀ id,
        World.Passes l.client l.host (.reply { id, status := a.1, body := a.2 })

end Site

def Flight.issue (f : Flight σ α) : Nat × Trip σ α :=
  (f.number, f.trip)

def Flight.on (l : Line) (f : Flight σ α) : Bool :=
  decide (f.line.near = l.near)

/-- A place in the queue. -/
inductive Slot (σ α : Type) where
  | reader (p : Port)
  | call (k : Nat) (t : Trip σ α)
  | inside (k : Nat) (t : Trip σ α) (next : ReplyContent → Activity σ (Option (Except BrokerError α)))
  | serve (k : Nat) (f : Flight σ α)
  | resume (f : Flight σ α) (a : ReplyContent)

namespace Slot

def ready [Servant σ] : Slot σ α → Ready σ (Except BrokerError α)
  | reader p => .reader p
  | call k t => .task k t.errand.activity
  | inside k t next => .task k ((Dispatch.serve t.errand.inbound).bind next)
  | serve k f =>
    .task k (do (Job.serve f.line.far f.request f.line.client.order).activity; return none)
  | resume f _ => Network.resume f.parked

def waiting : Slot σ α → Multiset (Nat × Trip σ α)
  | reader _ => 0
  | call k t => {(k, t)}
  | inside k t _ => {(k, t)}
  | serve _ f => {f.issue}
  | resume _ _ => 0

def answered : Slot σ α → Multiset ((Nat × Trip σ α) × ReplyContent)
  | resume f a => {(f.issue, a)}
  | _ => 0

def parked : Slot σ α → Multiset (Parked σ (Except BrokerError α))
  | serve _ f => {f.parked}
  | _ => 0

def holds (s : BrokerId) : Slot σ α → Multiset Holding
  | reader _ => 0
  | call _ t => {t.errand.holding}
  | inside _ t _ => {t.errand.holding}
  | serve _ f => {.broker s} + {f.trip.errand.holding}
  | resume f _ => {f.trip.errand.holding}

def landing (l : Line) : Slot σ α → List (Flight σ α × ReplyContent)
  | resume f a => if f.on l then [(f, a)] else []
  | _ => []

def serving (l : Line) : Slot σ α → List (Flight σ α)
  | serve _ f => if f.on l then [f] else []
  | _ => []

def weight : Slot σ α → Nat
  | call _ _ => 9
  | serve _ _ => 4
  | _ => 1

end Slot

/-- The calls under way, those that have been answered in the order of their answers, and those that
have come to their end. -/
structure Traffic (σ α : Type) where
  slots : List (Slot σ α) := []
  requests : List (Flight σ α) := []
  replies : List (Flight σ α × ReplyContent) := []
  log : List ((Nat × Trip σ α) × ReplyContent) := []
  finished : List ((Nat × Trip σ α) × ReplyContent) := []

namespace Traffic

def total {M : Type} [AddCommMonoid M] (g : Traffic σ α) (slot : Slot σ α → M)
    (request : Flight σ α → M) (reply : Flight σ α × ReplyContent → M) : M :=
  (g.slots.map slot).sum + (g.requests.map request).sum + (g.replies.map reply).sum

def waiting (g : Traffic σ α) : Multiset (Nat × Trip σ α) :=
  g.total Slot.waiting (fun f => {f.issue}) fun _ => 0

def answered (g : Traffic σ α) : Multiset ((Nat × Trip σ α) × ReplyContent) :=
  g.total Slot.answered (fun _ => 0) fun y => {(y.1.issue, y.2)}

def parked (g : Traffic σ α) : Multiset (Parked σ (Except BrokerError α)) :=
  g.total Slot.parked (fun f => {f.parked}) fun y => {y.1.parked}

def holds (g : Traffic σ α) (s : BrokerId) : Multiset Holding :=
  g.total (Slot.holds s) (fun f => {f.trip.errand.holding}) fun y => {y.1.trip.errand.holding}

def weight (g : Traffic σ α) : Nat :=
  g.total Slot.weight (fun _ => 6) fun _ => 2

def landing (g : Traffic σ α) (l : Line) : List (Flight σ α × ReplyContent) :=
  g.slots.flatMap (Slot.landing l)

def returning (g : Traffic σ α) (l : Line) : List (Flight σ α × ReplyContent) :=
  g.replies.filter fun y => y.1.on l

def serving (g : Traffic σ α) (l : Line) : List (Flight σ α) :=
  g.slots.flatMap (Slot.serving l)

def asked (g : Traffic σ α) (l : Line) : List (Flight σ α) :=
  g.requests.filter (Flight.on l)

end Traffic

namespace Site

structure Flies (x : Site σ α) (f : Flight σ α) : Prop where
  crosses : x.Over f.trip.errand f.line
  line : f.trip.line = some f.line
  sends : Invocation.Sends (x.broker f.trip.errand.broker) f.line.client.order
    f.trip.errand.target f.trip.errand.operation f.trip.errand.args f.request
  number : f.parked.id = f.number
  wait : f.parked.wait = .response f.line.near f.waiter
  waits : f.trip.errand.Waits (x.broker f.trip.errand.broker) f.line.near f.waiter f.parked.next

lemma Flies.mem {x : Site σ α} {f : Flight σ α} (h : x.Flies f) : f.line ∈ x.lines :=
  h.crosses.mem

def Fits (x : Site σ α) : Slot σ α → Prop
  | .reader p => x.Port p
  | .call _ _ => True
  | .inside _ t next => t.line = none ∧ t.errand.Ends x.host next
  | .serve _ f => x.Flies f
  | .resume f _ => x.Flies f

variable [Servant σ]

structure Stands (x : Site σ α) (g : Traffic σ α) (w : World σ) : Prop where
  beside : World.Beside x.Port x.server x.base.world w
  holdings : (w.holdings : Multiset Holding) = g.holds x.server + x.base.world.holdings
  served : Served x.host x.base.world.objects
    (g.log.map fun y => (y.1.2.errand.question, y.2)) w.objects
  lines : ∀ l ∈ x.lines, ∃ c d,
    l.Bears w c d (g.landing l) (g.returning l) (g.serving l) (g.asked l)

structure Fair (x : Site σ α) (issued : List (Nat × Trip σ α)) (g : Traffic σ α) : Prop where
  slots : ∀ slot ∈ g.slots, x.Fits slot
  requests : ∀ f ∈ g.requests, x.Flies f
  replies : ∀ y ∈ g.replies, x.Flies y.1
  asks : ∀ f ∈ g.requests, .reader f.line.far ∈ g.slots
  answers : ∀ y ∈ g.replies, .reader y.1.line.near ∈ g.slots
  calls : (issued : Multiset (Nat × Trip σ α)) = g.waiting + (g.log.map Prod.fst : List _)
  log : (g.log : Multiset ((Nat × Trip σ α) × ReplyContent)) = g.answered + g.finished
  few : issued.length ≤ g.finished.length + Connection.idSpan

/-- The network while these calls are under way. -/
structure Holds (x : Site σ α) (issued : List (Nat × Trip σ α)) (g : Traffic σ α)
    (n : Network σ (Except BrokerError α)) : Prop where
  world : x.Stands g n.world
  fair : x.Fair issued g
  events : n.world.events = []
  queue : n.queue = g.slots.map Slot.ready
  parked : (n.parked : Multiset (Parked σ (Except BrokerError α))) = g.parked + x.base.parked
  results : n.results =
    x.base.results ++ g.finished.map fun y => (y.1.1, x.result y.1.2 y.2)
  numbers : (issued.map Prod.fst).Pairwise (· < ·)
  below : ∀ i ∈ issued, x.base.nextTask ≤ i.1 ∧ i.1 < n.nextTask
  nextTask : x.base.nextTask ≤ n.nextTask

lemma Sound.eq_of_near {x : Site σ α} (hx : x.Sound) {l l' : Line} (hl : l ∈ x.lines)
    (hl' : l' ∈ x.lines) (h : l.near = l'.near) : l = l' :=
  List.inj_on_of_nodup_map hx.nears hl hl' h

namespace Stands

variable {x : Site σ α} {g g' : Traffic σ α} {w w' : World σ} {l : Line}

lemma reading (h : x.Stands g w) (hx : x.Sound) {p : ObjectBroker.Port} (hp : x.Port p) :
    ∃ c, w.connection? p = some c ∧ c.isReading = true := by
  obtain ⟨l, hl, rfl | rfl⟩ := hp
  · obtain ⟨c, d, hline⟩ := h.lines l hl
    refine ⟨c, hline.near.found, ?_⟩
    rw [hline.client.isReading]
    exact (hx.laid l hl).hears
  · obtain ⟨c, d, hline⟩ := h.lines l hl
    refine ⟨d, hline.far.found, ?_⟩
    rw [hline.host.isReading]
    exact (hx.laid l hl).serves

lemma tidy (h : x.Stands g w) (hx : x.Sound) : w.Tidy := by
  refine hx.tidy.beside hx.numbered h.beside (fun y hy => ?_) h.served.brokers
    fun p hp => h.reading hx hp
  have hmem : y ∈ (w.holdings : Multiset Holding) := by
    rw [h.holdings]
    exact Multiset.mem_add.mpr (.inr hy)
  exact hmem

lemma quiet (h : x.Stands g w) (hw : World.Beside (fun _ => False) x.server w w')
    (hh : (w'.holdings : Multiset Holding) = g'.holds x.server + x.base.world.holdings)
    (hs : Served x.host x.base.world.objects
      (g'.log.map fun y => (y.1.2.errand.question, y.2)) w'.objects)
    (hg : ∀ l ∈ x.lines, g'.landing l = g.landing l ∧ g'.returning l = g.returning l ∧
      g'.serving l = g.serving l ∧ g'.asked l = g.asked l) : x.Stands g' w' where
  beside := h.beside.trans (hw.mono fun _ hf => hf.elim)
  holdings := hh
  served := hs
  lines l hl := by
    obtain ⟨c, d, hline⟩ := h.lines l hl
    obtain ⟨hlanding, hreturning, hserving, hasked⟩ := hg l hl
    rw [hlanding, hreturning, hserving, hasked]
    exact ⟨c, d, hline.beside hw id id⟩

lemma turn (h : x.Stands g w) (hx : x.Sound) (hl : l ∈ x.lines)
    (hw : World.Beside (fun p => p = l.near ∨ p = l.far) x.server w w')
    (hh : (w'.holdings : Multiset Holding) = g'.holds x.server + x.base.world.holdings)
    (hs : Served x.host x.base.world.objects
      (g'.log.map fun y => (y.1.2.errand.question, y.2)) w'.objects)
    (hline : ∃ c d,
      l.Bears w' c d (g'.landing l) (g'.returning l) (g'.serving l) (g'.asked l))
    (hg : ∀ l', l'.near ≠ l.near → g'.landing l' = g.landing l' ∧
      g'.returning l' = g.returning l' ∧ g'.serving l' = g.serving l' ∧
      g'.asked l' = g.asked l') : x.Stands g' w' where
  beside := by
    refine h.beside.trans (hw.mono fun p hp => ?_)
    exact ⟨l, hl, hp⟩
  holdings := hh
  served := hs
  lines l' hl' := by
    by_cases hne : l'.near = l.near
    · rw [hx.eq_of_near hl' hl hne]
      exact hline
    · obtain ⟨c, d, hbears⟩ := h.lines l' hl'
      obtain ⟨hlanding, hreturning, hserving, hasked⟩ := hg l' hne
      rw [hlanding, hreturning, hserving, hasked]
      refine ⟨c, d, hbears.beside hw ?_ ?_⟩
      · rintro (hp | hp)
        · exact hne hp
        · exact (hx.laid l' hl').away ((congrArg Port.broker hp).trans (hx.laid l hl).home)
      · rintro (hp | hp)
        · exact (hx.laid l hl).away
            ((congrArg Port.broker hp.symm).trans (hx.laid l' hl').home)
        · exact hne (congrArg Line.near (List.inj_on_of_nodup_map hx.fars hl' hl hp))

end Stands

end Site

namespace Network

variable [Servant σ] {ρ : Type} {n : Network σ ρ}

lemma absorbAll_of_tidy (h : n.world.Tidy) :
    n.absorbAll = n.world.events.foldl absorb { n with world := { n.world with events := [] } } := by
  rw [absorbAll, h.collect]

omit [Servant σ] in
lemma wake_none {due : Parked σ ρ → Bool} (h : ∀ y ∈ n.parked, due y = false) : n.wake due = n := by
  have hdue : n.parked.filter due = [] := by
    rw [List.filter_eq_nil_iff]
    intro y hy
    rw [h y hy]
    decide
  have hrest : (n.parked.filter fun y => !due y) = n.parked := by
    rw [List.filter_eq_self]
    intro y hy
    rw [h y hy]
    rfl
  rw [wake, hdue, hrest, List.map_nil, List.append_nil]

omit [Servant σ] in
lemma wake_one {due : Parked σ ρ → Bool} {y : Parked σ ρ} {rest : Multiset (Parked σ ρ)}
    (h : (n.parked : Multiset (Parked σ ρ)) = {y} + rest) (hy : due y = true)
    (hrest : ∀ z ∈ rest, due z = false) :
    (n.wake due).queue = n.queue ++ [resume y] ∧
      ((n.wake due).parked : Multiset (Parked σ ρ)) = rest := by
  have hdue : rest.filter (due · = true) = 0 := by
    rw [Multiset.filter_eq_nil]
    intro z hz
    rw [hrest z hz]
    decide
  have hkeep : (rest.filter fun z => (!due z) = true) = rest := by
    rw [Multiset.filter_eq_self]
    intro z hz
    rw [hrest z hz]
    rfl
  have hcoe : ∀ f : Parked σ ρ → Bool, Multiset.filter (f · = true) ↑n.parked =
      (n.parked.filter f : List (Parked σ ρ)) := by
    intro f
    simp only [Multiset.filter_coe, Bool.decide_eq_true]
  have hone : n.parked.filter due = [y] := by
    have hfilter := congrArg (Multiset.filter (due · = true)) h
    rw [Multiset.filter_add, hdue, Multiset.filter_singleton, if_pos hy, hcoe, add_zero] at hfilter
    exact List.perm_singleton.mp (Multiset.coe_eq_coe.mp hfilter)
  refine ⟨?_, ?_⟩
  · rw [wake, hone, List.map_singleton]
  · have hfilter := congrArg (Multiset.filter fun z => (!due z) = true) h
    have hno : ¬ (!due y) = true := by
      rw [hy]
      decide
    rw [Multiset.filter_add, hkeep, Multiset.filter_singleton, if_neg hno,
      hcoe fun z => !due z] at hfilter
    exact hfilter.trans (zero_add rest)

lemma foldl_absorb_started (jobs : List Job) (n : Network σ ρ) :
    (jobs.map Event.started).foldl absorb n =
      { n with
        queue := n.queue ++ (jobs.zipIdx n.nextTask).map fun y =>
          .task y.2 (do y.1.activity; return none)
        nextTask := n.nextTask + jobs.length } := by
  induction jobs generalizing n with
  | nil => simp
  | cons job jobs ih =>
    rw [List.map_cons, List.foldl_cons, ih, absorb, start, enqueue]
    simp only [List.zipIdx_cons, List.map_cons, List.append_assoc, List.singleton_append,
      List.length_cons, Nat.add_assoc, Nat.add_comm 1]

end Network

end ObjectBroker
