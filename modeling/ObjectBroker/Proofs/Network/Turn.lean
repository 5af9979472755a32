import ObjectBroker.Proofs.Network.Passage

/-!
The turns of callers and of objects: a call is sent or goes to its object inside the broker, an object
answers, and a caller takes its answer.
-/

namespace ObjectBroker

variable {σ α : Type}

lemma World.coe_unhold {w : World σ} {y : Holding} {holds : Multiset Holding}
    (h : (w.holdings : Multiset Holding) = {y} + holds) :
    ((w.unhold y).holdings : Multiset Holding) = holds := by
  have herase : ((w.unhold y).holdings : Multiset Holding) = (w.holdings : Multiset Holding).erase y :=
    (Multiset.coe_erase _ _).symm
  rw [herase, h, Multiset.singleton_add, Multiset.erase_cons_head]

lemma Job.evaluates_serve [Servant σ] {w v : World σ} {p : Port} {d : Connection} {r : Request}
    {order : ByteOrder} {a : ReplyContent} (hd : w.connection? p = some d)
    (hs : (Dispatch.serve (Job.inbound p d r order)).Evaluates w a v)
    (hr : r.responseExpected = true) {u : World σ} {isWritten : Bool}
    (hu : (v.send p (.reply { id := r.id, status := a.1, body := a.2 })).2 = u)
    (hw : (Activity.written p).Evaluates u isWritten u) :
    (Job.serve p r order).activity.Evaluates w () ((u.untrack p).unhold (.broker p.broker)) := by
  refine .bind (.world w) ?_
  rw [hd]
  refine .bind hs ?_
  dsimp only
  rw [if_pos hr]
  subst hu
  exact .bind (.update _ v) (.bind hw (.update _ _))

namespace Site

open Dispatch (Gives Served Admits)
open Traffic (Shift Pop)

variable [Servant σ] {x : Site σ α} {issued : List (Nat × Trip σ α)}
  {g g' : Traffic σ α} {n : Network σ (Except BrokerError α)} {l : Line}
  {first : Slot σ α} {rest readers : List (Slot σ α)} {requests : List (Flight σ α)}
  {replies : List (Flight σ α × ReplyContent)} {w : World σ} {k : Nat} {t : Trip σ α}
  {f : Flight σ α} {a : ReplyContent}

omit [Servant σ] in
lemma Fair.pop (h : x.Fair issued g) (hp : Pop g g' first rest readers requests replies)
    {log finished : List ((Nat × Trip σ α) × ReplyContent)} (hlog : g'.log = g.log ++ log)
    (hfinished : g'.finished = g.finished ++ finished)
    (hwaiting : first.waiting = (requests.map fun f => {f.issue}).sum + (log.map Prod.fst : List _))
    (hanswered : first.answered + log =
      (replies.map fun y => {(y.1.issue, y.2)}).sum + finished)
    (hreaders : ∀ y ∈ readers, x.Fits y)
    (hrequests : ∀ f ∈ requests, x.Flies f ∧ .reader f.line.far ∈ g'.slots)
    (hreplies : ∀ y ∈ replies, x.Flies y.1 ∧ .reader y.1.line.near ∈ g'.slots) :
    x.Fair issued g' := by
  have hwaiting' := hp.total Slot.waiting (fun f => {f.issue}) (fun _ => 0) fun _ => rfl
  have hanswered' := hp.total Slot.answered (fun _ => 0) (fun y => {(y.1.issue, y.2)}) fun _ => rfl
  simp only [List.map_const', List.sum_replicate, nsmul_zero, add_zero, zero_add]
    at hwaiting' hanswered'
  refine h.shift hp.shift hlog hfinished ?_ ?_ hreaders (fun f hf => (hrequests f hf).1)
    (fun y hy => (hreplies y hy).1) (fun f hf => ?_) fun y hy => ?_
  · rw [hwaiting, add_comm (List.sum _), ← add_assoc] at hwaiting'
    exact add_right_cancel hwaiting'
  · apply add_right_cancel (b := (replies.map fun y => {(y.1.issue, y.2)}).sum)
    rw [add_right_comm g.answered, Traffic.answered, Traffic.answered, ← hanswered', add_assoc,
      add_assoc, hanswered, add_comm (List.sum _)]
  · rw [hp.requests] at hf
    rcases List.mem_append.mp hf with hf | hf
    · exact hp.mem_reader (h.asks f hf)
    · exact (hrequests f hf).2
  · rw [hp.replies] at hy
    rcases List.mem_append.mp hy with hy | hy
    · exact hp.mem_reader (h.answers y hy)
    · exact (hreplies y hy).2

lemma Fair.absorb_idle (h : x.Fair issued g) (hx : x.Sound) {p : ObjectBroker.Port} (hp : x.Port p)
    (hn : (n.parked : Multiset (Parked σ (Except BrokerError α))) = g.parked + x.base.parked) :
    n.absorb (.idle p) = n := by
  refine Network.wake_none fun z hz => ?_
  have hmem : z ∈ g.parked + x.base.parked := by
    rw [← hn]
    exact hz
  rcases Multiset.mem_add.mp hmem with hz | hz
  · obtain ⟨f, rfl, hplace⟩ := Traffic.mem_parked hz
    rw [(h.flies hplace).wait]
    rfl
  · exact hx.idle z hz p hp

lemma Holds.step_enter (h : x.Holds issued g n) (hx : x.Sound) (hg : g.slots = .call k t :: rest)
    (ht : t.line = none) (hin : x.Inside t.errand) : x.Advances issued g n.step := by
  have hrun : (n.world.broker t.errand.broker).isRunning = true := by
    rw [hin.broker, (h.world.beside.kin x.server).isRunning]
    exact hin.running
  have hblank : (n.world.broker t.errand.broker).marshaller = t.errand.blank := by
    rw [hin.broker, (h.world.beside.kin x.server).marshaller]
    exact hin.blank
  obtain ⟨next, hcall, hends⟩ := t.errand.run_inside hin.isLocal hrun hblank x.host
  have hqueue : n.queue = .task k t.errand.activity :: rest.map Slot.ready := h.queue_cons hg
  have hworld : x.Stands (g.entered rest k t next) n.world := by
    refine h.world.quiet (.refl _) ?_ h.world.served fun l _ => ⟨?_, rfl, ?_, rfl⟩
    · rw [h.world.holdings, Traffic.holds_entered hg]
    · exact Traffic.flatMap_entered hg rfl
    · exact Traffic.flatMap_entered hg rfl
  have hreader : ∀ p, .reader p ∈ g.slots → .reader p ∈ (g.entered rest k t next).slots := by
    intro p hp
    rw [hg, List.mem_cons] at hp
    exact List.mem_cons_of_mem _ (hp.resolve_left fun hsame => by cases hsame)
  have hfair : x.Fair issued (g.entered rest k t next) := by
    refine h.fair.shift (Traffic.shift_entered hg) (List.append_nil _).symm
      (List.append_nil _).symm ?_ ?_ ?_ (fun f hf => absurd hf List.not_mem_nil)
      (fun y hy => absurd hy List.not_mem_nil) (fun f hf => hreader _ (h.fair.asks f hf))
      fun y hy => hreader _ (h.fair.answers y hy)
    · exact (add_zero _).trans (Traffic.waiting_entered hg)
    · exact congrArg (· + 0) (Traffic.answered_entered hg)
    · intro y hy
      rw [List.mem_singleton.mp hy]
      exact ⟨ht, hends⟩
  let n₁ : Network σ (Except BrokerError α) :=
    { n with queue := (g.entered rest k t next).slots.map Slot.ready }
  have hstep : n.step = n₁.absorbAll := Network.step_task hqueue hcall
  refine ⟨g.entered rest k t next, ?_, List.prefix_rfl, Traffic.weight_entered_lt hg⟩
  rw [hstep, Network.absorbAll_of_tidy (n := n₁) (h.world.tidy hx), h.events, List.foldl_nil]
  refine ⟨hworld.clear, hfair, rfl, rfl, ?_, h.results, h.numbers, h.below, h.nextTask⟩
  rw [Traffic.parked_entered hg]
  exact h.parked

lemma Stands.route (h : x.Stands g w) (hx : x.Sound) {e : Errand σ α} (he : x.Over e l)
    {c : Connection} (hc : w.Has l.near c) (hk : l.client.Kin c) :
    (w.broker l.near.broker).route? e.target.endpoint = some c := by
  have hlaid := hx.laid l he.mem
  have hroutes : (w.broker l.near.broker).routes = (x.broker l.near.broker).routes :=
    h.beside.routes _ hlaid.away
  have htable : (w.broker l.near.broker).table = (x.broker l.near.broker).table :=
    (h.beside.kin l.near.broker).table
  have hbase := he.route
  rw [he.broker, Broker.route?, Option.bind_eq_bind, Option.bind_eq_some_iff] at hbase
  obtain ⟨id, hid, hfound⟩ := hbase
  by_cases hmem : (x.broker l.near.broker).table.contains id = true
  · rw [if_pos hmem, Option.filter_eq_some_iff] at hfound
    have hport : id = l.near.connection :=
      (Broker.id_of_connection? hfound.1).symm.trans hlaid.near.id_eq
    have hfound' : (w.broker l.near.broker).connection? id = some c := by
      rw [hport]
      exact hc.found
    have hestablished : c.isEstablished = true := by
      rw [hk.isEstablished]
      exact hlaid.established
    rw [Broker.route?, hroutes, hid, Option.bind_eq_bind, Option.bind_some, htable, if_pos hmem,
      hfound', Option.filter_some, if_pos hestablished]
  · rw [if_neg hmem] at hfound
    cases hfound

omit [Servant σ] in
lemma Fair.room (h : x.Fair issued g) (hg : g.slots = .call k t :: rest) (l : Line) :
    ((g.returning l).map Prod.fst ++ (g.serving l ++ g.asked l)).length < Connection.idSpan := by
  have hcall : 1 ≤ (g.slots.map Slot.calls).sum := by
    rw [hg, List.map_cons, List.sum_cons]
    exact Nat.le_add_right 1 _
  have hle := (g.pending_le l).trans h.unfinished_le
  omega

omit [Servant σ] in
lemma Fair.sent (h : x.Fair issued g) (hg : g.slots = .call k t :: rest) (hf : x.Flies f)
    (hi : f.issue = (k, t)) : x.Fair issued (g.sent rest f) := by
  refine h.pop (Traffic.pop_sent hg f) (List.append_nil _).symm (List.append_nil _).symm ?_ rfl
    (fun y hy => ?_) (fun f' hf' => ?_) fun y hy => absurd hy List.not_mem_nil
  · simp [Slot.waiting, hi]
  · rw [Slot.eq_reader_of_mem_summons hy]
    exact ⟨f.line, hf.mem, .inr rfl⟩
  · rw [List.mem_singleton.mp hf']
    exact ⟨hf, Slot.mem_summons rest f.line.far⟩

lemma Stands.sent {w' : World σ} {c d : Connection} {flag : Bool} (h : x.Stands g w) (hx : x.Sound)
    (hg : g.slots = .call k t :: rest) (hf : x.Flies f) (hi : f.issue = (k, t))
    (hline : f.line.Bears w c d (g.landing f.line) (g.returning f.line) (g.serving f.line)
      (g.asked f.line))
    (hid : f.request.id = c.nextRequest) (hwaiter : f.waiter = c.nextWaiter)
    (hnear : w'.Has f.line.near { c.enrolled with isBidirectional := flag })
    (hkept : World.Wire.Kept f.line.near f.line.far w w')
    (hwire : w'.Wire { c.enrolled with isBidirectional := flag } d f.line.far
      (((g.asked f.line).map fun f => .request f.request) ++ [.request f.request]))
    (hstirs : World.Stirs (fun p => p = f.line.near ∨ p = f.line.far) x.server []
      [.readable f.line.far] w w') :
    x.Stands (g.sent rest f) w' := by
  have hon : f.on f.line = true := decide_eq_true rfl
  have hpop := Traffic.pop_sent hg f
  have hlanding : (g.sent rest f).landing f.line = g.landing f.line := (hpop.landing _).symm
  have hserving : (g.sent rest f).serving f.line = g.serving f.line := (hpop.serving _).symm
  have hasked : (g.sent rest f).asked f.line = g.asked f.line ++ [f] := by
    rw [hpop.asked, List.filter_singleton, hon]
    rfl
  have hbears := hline.ask (f := f) rfl hid hwaiter hnear hkept hwire (hx.laid _ hf.mem).ne
  rw [← hlanding, ← hserving, ← hasked] at hbears
  refine h.turn hx hf.mem hstirs.toBeside ?_ ?_ ⟨_, d, hbears⟩ fun l' hne => ?_
  · rw [hstirs.holdings, List.nil_append, h.holdings, Traffic.holds_sent hg hi]
  · rw [hstirs.objects]
    exact h.served
  · refine hpop.other rfl rfl (fun f' hf' => ?_) fun y hy => absurd hy List.not_mem_nil
    rw [List.mem_singleton.mp hf']
    exact Traffic.not_on hne hon

lemma Holds.sends (h : x.Holds issued g n) (hx : x.Sound) (hg : g.slots = .call k t :: rest)
    (ht : t.line = some l) (hover : x.Over t.errand l) :
    ∃ f w', f.issue = (k, t) ∧ x.Flies f ∧
      t.errand.activity.run n.world = (.waiting f.parked.wait f.parked.deadline f.parked.next, w') ∧
      x.Stands (g.sent rest f) w' ∧ w'.events = [.readable f.line.far] := by
  have hlaid := hx.laid l hover.mem
  obtain ⟨c, d, hline⟩ := h.world.lines l hover.mem
  have hkin : (x.broker t.errand.broker).Kin (n.world.broker l.near.broker) := by
    rw [hover.broker]
    exact h.world.beside.kin _
  have hblank : (n.world.broker t.errand.broker).marshaller = t.errand.blank := by
    rw [hover.broker, hkin.marshaller]
    exact hover.blank
  have hpass : ∀ r, Invocation.Sends (x.broker t.errand.broker) c.order t.errand.target
      t.errand.operation t.errand.args r → World.Passes d c (.request r) := by
    intro r hr
    rw [hline.client.order] at hr
    exact (hover.passes r hr).kin hline.client hline.host
  have hout : n.world.Wire c d l.far (((g.asked l).map (·.request)).map .request) := by
    rw [List.map_map]
    exact hline.out
  have hreads : d.isReading = true := by
    rw [hline.host.isReading]
    exact hlaid.serves
  obtain ⟨deadline, next, w', flag, r, hcall, hwaits, hsends, hid, hnear, hstirs, hkept, hwire⟩ :=
    t.errand.run_away (P := fun p => p = l.near ∨ p = l.far) (s := x.server) hover.isLocal
      hover.broker hblank (hkin.isRunning.trans hover.running) hkin hline.near
      (h.world.route hx hover hline.near hline.client)
      (hover.order.trans hline.client.order.symm) hover.timeout
      (hline.client.isEstablished.trans hlaid.established)
      (hline.lookup_nextRequest (h.fair.room hg l)) hline.response?_nextWaiter hout hpass
      hline.far hreads hlaid.ne.symm (.inl rfl) (.inr rfl)
  rw [List.map_append, List.map_map] at hwire
  obtain ⟨serial, -, hwaiter⟩ := hline.next
  let f : Flight σ α := {
    number := k, trip := t, line := l, serial, request := r
    parked := { id := k, wait := .response l.near c.nextWaiter, deadline, next } }
  have hf : x.Flies f := by
    rw [hline.client.order] at hsends
    rw [hwaiter] at hwaits
    exact ⟨hover, ht, hsends, rfl, congrArg (Wait.response l.near) hwaiter, hwaits⟩
  have hworld : x.Stands (g.sent rest f) w' :=
    h.world.sent hx hg hf rfl hline hid hwaiter.symm hnear hkept hwire hstirs
  refine ⟨f, w', rfl, hf, hcall, hworld, ?_⟩
  rw [hstirs.events, h.events]
  rfl

lemma Holds.step_send (h : x.Holds issued g n) (hx : x.Sound) (hg : g.slots = .call k t :: rest)
    (ht : t.line = some l) (hover : x.Over t.errand l) : x.Advances issued g n.step := by
  obtain ⟨f, w', hissue, hf, hcall, hworld, hevents⟩ := h.sends hx hg ht hover
  have hnumber : f.parked.id = k := hf.number.trans (congrArg Prod.fst hissue)
  have hqueue : n.queue = .task f.parked.id t.errand.activity :: rest.map Slot.ready := by
    rw [h.queue, hg, hnumber]
    rfl
  let n₁ : Network σ (Except BrokerError α) := { n with
    queue := rest.map Slot.ready, world := w', parked := n.parked ++ [f.parked] }
  have hstep : n.step = n₁.absorbAll := Network.step_task hqueue hcall
  refine ⟨g.sent rest f, ?_, List.prefix_rfl, Traffic.weight_sent_lt hg f⟩
  rw [hstep, Network.absorbAll_of_tidy (n := n₁) (hworld.tidy hx), hevents, List.foldl_cons,
    List.foldl_nil, Network.absorb_readable rfl f.line.far]
  refine ⟨hworld.clear, h.fair.sent hg hf hissue, rfl, rfl, ?_, h.results, h.numbers, h.below,
    h.nextTask⟩
  rw [Traffic.parked_sent hg, add_right_comm, ← h.parked]
  rfl

lemma Holds.able (h : x.Holds issued g n) (hable : x.Able (issued.map Prod.snd))
    {i : Nat × Trip σ α} (hi : i ∈ g.waiting) :
    ∃ a objects', Gives x.host i.2.errand.question n.world.objects a objects' ∧
      ∀ l, i.2.line = some l → ∀ id,
        World.Passes l.client l.host (.reply { id, status := a.1, body := a.2 }) := by
  refine hable (g.log.map fun y => (y.1.2, y.2)) n.world.objects ?_ i.2 ?_
  · rw [List.map_map]
    exact h.world.served
  · have hsub : ((i :: g.log.map Prod.fst : List _) : Multiset (Nat × Trip σ α)) ≤ issued := by
      rw [h.fair.calls, ← Multiset.cons_coe, ← Multiset.singleton_add]
      exact add_le_add_left (Multiset.singleton_le.mpr hi) _
    have hmap := Multiset.map_le_map (f := Prod.snd) hsub
    rw [Multiset.map_coe, Multiset.map_coe, Multiset.coe_le, List.map_cons, List.map_map] at hmap
    rw [List.map_map]
    exact hmap

variable {next : ReplyContent → Activity σ (Option (Except BrokerError α))}

lemma Holds.settles (h : x.Holds issued g n) (hable : x.Able (issued.map Prod.snd))
    (hg : g.slots = .inside k t next :: rest) (hin : x.Inside t.errand) :
    ∃ a w', ((Dispatch.serve t.errand.inbound).bind next).run n.world =
        (.done (some (x.result t a)), w') ∧
      x.Stands (g.settled rest (k, t) a) w' ∧ w'.events = [] := by
  have hfirst : .inside k t next ∈ g.slots := by
    rw [hg]
    exact List.mem_cons_self
  obtain ⟨a, objects, hgives, -⟩ :=
    h.able hable (Traffic.mem_waiting hfirst (Multiset.mem_singleton_self (k, t)))
  have hkin : x.host.Kin (n.world.broker t.errand.broker) := by
    rw [hin.broker]
    exact h.world.beside.kin _
  have hresult : x.result t a = t.errand.result x.host x.host.config.order a := by
    rw [result, hin.broker]
    rfl
  obtain ⟨stats, hserve⟩ := hgives.serve t.errand.inbound n.world rfl
    (Dispatch.admits_collocated _ _) hkin rfl
  let v : World σ := { n.world.count t.errand.broker stats with objects }
  have hends := (h.fair.slots _ hfirst).2 a v (hkin.trans (n.world.kin_count _ _ _))
  have hpop := Traffic.pop_settled hg a
  refine ⟨a, v.unhold t.errand.holding, ?_, ?_, h.events⟩
  · rw [hresult]
    exact hserve.bind hends
  · have hbeside : World.Beside (fun _ => False) x.server n.world (v.unhold t.errand.holding) :=
      (World.Beside.count _ _ _).trans (.of_same rfl rfl)
    refine h.world.quiet hbeside (World.coe_unhold ?_) ?_ fun l _ => ?_
    · rw [← add_assoc, ← Traffic.holds_settled hg]
      exact h.world.holdings
    · rw [Traffic.settled, List.map_append]
      exact h.world.served.snoc hgives
    · exact hpop.other rfl rfl (fun f hf => absurd hf List.not_mem_nil)
        fun y hy => absurd hy List.not_mem_nil

lemma Holds.step_settle (h : x.Holds issued g n) (hx : x.Sound)
    (hable : x.Able (issued.map Prod.snd)) (hg : g.slots = .inside k t next :: rest)
    (hin : x.Inside t.errand) : x.Advances issued g n.step := by
  obtain ⟨a, w', hcall, hworld, hevents⟩ := h.settles hable hg hin
  have hqueue : n.queue =
      .task k ((Dispatch.serve t.errand.inbound).bind next) :: rest.map Slot.ready :=
    h.queue_cons hg
  let n₁ : Network σ (Except BrokerError α) := { n with
    queue := rest.map Slot.ready, world := w', results := n.results ++ [(k, x.result t a)] }
  have hstep : n.step = n₁.absorbAll := Network.step_task hqueue hcall
  have hfair : x.Fair issued (g.settled rest (k, t) a) :=
    h.fair.pop (Traffic.pop_settled hg a) rfl rfl (zero_add _).symm rfl
      (fun y hy => absurd hy List.not_mem_nil) (fun f hf => absurd hf List.not_mem_nil)
      fun y hy => absurd hy List.not_mem_nil
  refine ⟨g.settled rest (k, t) a, ?_, List.prefix_append _ _, Traffic.weight_settled_lt hg a⟩
  rw [hstep, Network.absorbAll_of_tidy (n := n₁) (hworld.tidy hx), hevents, List.foldl_nil]
  refine ⟨hworld.clear, hfair, rfl, rfl, ?_, ?_, h.numbers, h.below, h.nextTask⟩
  · rw [Traffic.parked_settled hg]
    exact h.parked
  · rw [Traffic.settled, List.map_append, ← List.append_assoc, ← h.results]
    rfl

lemma Stands.landed (h : x.Stands g w) (hx : x.Sound) (hg : g.slots = .resume f a :: rest)
    (hf : x.Flies f) :
    (∃ c, w.Has f.line.near c ∧
      c.response? f.waiter = some (.ok (.reply (f.delivery a).reply, f.line.host.order))) ∧
    ∃ events, (events = [] ∨ events = [.idle f.line.near]) ∧
      x.Stands (g.landed rest f a)
        ((w.landed f.line.near f.waiter).unhold f.trip.errand.holding) ∧
      ((w.landed f.line.near f.waiter).unhold f.trip.errand.holding).events =
        w.events ++ events := by
  have hon : f.on f.line = true := decide_eq_true rfl
  have hpop := Traffic.pop_landed hg
  have hlanding : g.landing f.line = (f, a) :: (g.landed rest f a).landing f.line := by
    rw [hpop.landing, Slot.landing, if_pos hon]
    rfl
  have hserving : (g.landed rest f a).serving f.line = g.serving f.line := (hpop.serving _).symm
  obtain ⟨c, d, hline⟩ := h.lines f.line hf.mem
  rw [hlanding] at hline
  obtain ⟨hresponse, hbears⟩ := hline.land (hx.laid f.line hf.mem).ne
  rw [← hserving] at hbears
  obtain ⟨events, hevents, hstirs⟩ := World.Stirs.landed
    (P := fun p => p = f.line.near ∨ p = f.line.far) (s := x.server) w (.inl rfl) f.waiter
  refine ⟨⟨c, hline.near, hresponse⟩, events, hevents, ?_⟩
  generalize w.landed f.line.near f.waiter = v at hbears hstirs
  have hbeside := hstirs.toBeside.trans (.unhold v f.trip.errand.holding)
  have hbears' := hbears.beside (World.Beside.unhold v f.trip.errand.holding)
    (P := fun _ => False) (s := x.server) id id
  refine ⟨h.turn hx hf.mem hbeside (World.coe_unhold ?_) ?_ ⟨_, d, hbears'⟩ fun l' hne => ?_,
    hstirs.events⟩
  · rw [← add_assoc, ← Traffic.holds_landed hg, hstirs.holdings]
    exact h.holdings
  · have hobjects : (v.unhold f.trip.errand.holding).objects = w.objects := hstirs.objects
    rw [hobjects]
    exact h.served
  · refine hpop.other ?_ rfl (fun f hf => absurd hf List.not_mem_nil)
      fun y hy => absurd hy List.not_mem_nil
    rw [Slot.landing, Traffic.not_on hne hon]
    rfl

lemma Holds.lands (h : x.Holds issued g n) (hx : x.Sound) (hg : g.slots = .resume f a :: rest)
    (hf : x.Flies f) :
    ∃ w' events, (Activity.await f.parked.wait f.parked.deadline f.parked.next).run n.world =
        (.done (some (x.result f.trip a)), w') ∧ x.Stands (g.landed rest f a) w' ∧
      w'.events = events ∧ (events = [] ∨ events = [.idle f.line.near]) := by
  obtain ⟨⟨c, hc, hresponse⟩, events, hkinds, hworld, hevents⟩ := h.world.landed hx hg hf
  have hkin : (x.broker f.trip.errand.broker).Kin (n.world.broker f.line.near.broker) := by
    rw [hf.crosses.broker]
    exact h.world.beside.kin _
  have hmet : (Wait.response f.line.near f.waiter).isMet n.world = true := by
    rw [Wait.isMet, hc.found, Option.bind_some, hresponse]
    rfl
  have hrun := hf.waits n.world c _ _ hkin hc hresponse
  rw [(hx.laid f.line hf.mem).order] at hrun
  refine ⟨_, events, ?_, hworld, ?_, hkinds⟩
  · rw [hf.wait, Activity.run, if_pos hmet]
    exact hrun
  · rw [h.events] at hevents
    exact hevents

lemma Holds.step_land (h : x.Holds issued g n) (hx : x.Sound)
    (hg : g.slots = .resume f a :: rest) : x.Advances issued g n.step := by
  have hf : x.Flies f := h.fair.slots (.resume f a) (hg ▸ List.mem_cons_self)
  obtain ⟨w', events, hcall, hworld, hevents, hkinds⟩ := h.lands hx hg hf
  have hqueue : n.queue = Network.resume f.parked :: rest.map Slot.ready := h.queue_cons hg
  let n₁ : Network σ (Except BrokerError α) := { n with
    queue := rest.map Slot.ready, world := w'
    results := n.results ++ [(f.parked.id, x.result f.trip a)] }
  have hstep : n.step = n₁.absorbAll := Network.step_task hqueue hcall
  have hfair : x.Fair issued (g.landed rest f a) :=
    h.fair.pop (Traffic.pop_landed hg) (List.append_nil _).symm rfl rfl (zero_add _).symm
      (fun y hy => absurd hy List.not_mem_nil) (fun f hf => absurd hf List.not_mem_nil)
      fun y hy => absurd hy List.not_mem_nil
  have hparked : (n.parked : Multiset (Parked σ (Except BrokerError α))) =
      (g.landed rest f a).parked + x.base.parked := by
    rw [Traffic.parked_landed hg]
    exact h.parked
  have habsorb : n₁.absorbAll = { n₁ with world := { w' with events := [] } } := by
    rw [Network.absorbAll_of_tidy (n := n₁) (hworld.tidy hx), hevents]
    rcases hkinds with rfl | rfl
    · rfl
    · exact hfair.absorb_idle hx ⟨f.line, hf.mem, .inl rfl⟩ hparked
  refine ⟨g.landed rest f a, ?_, List.prefix_rfl, Traffic.weight_landed_lt hg⟩
  rw [hstep, habsorb]
  refine ⟨hworld.clear, hfair, rfl, rfl, hparked, ?_, h.numbers, h.below, h.nextTask⟩
  have hissue : f.issue = (f.parked.id, f.trip) := by
    rw [hf.number]
    rfl
  rw [Traffic.landed, List.map_append, ← List.append_assoc, ← h.results, hissue]
  rfl

omit [Servant σ] in
lemma Flies.question (hf : x.Flies f) (d : Connection) :
    (Job.inbound f.line.far d f.request f.line.client.order).question = f.trip.errand.question := by
  have hsame : (Job.inbound f.line.far d f.request f.line.client.order).question =
      Question.mk f.request.key f.request.operation f.request.body f.line.client.order := rfl
  rw [hsame, hf.sends.key, hf.sends.operation, hf.sends.body, ← hf.crosses.order]
  rfl

omit [Servant σ] in
lemma Flies.admits (hf : x.Flies f) {d : Connection} (hk : f.line.host.Kin d) :
    Admits x.host f.trip.errand.question.key (Job.origin d) := by
  have horigin : Job.origin d = Job.origin f.line.host := by
    rw [Job.origin, hk.role, Job.origin]
  rw [horigin]
  exact hf.crosses.admits

lemma Stands.replied (h : x.Stands g w) (hfair : x.Fair issued g) (hx : x.Sound) (hg : g.slots = .serve k f :: rest)
    (hf : x.Flies f) {objects : Array (Object σ)}
    (hgives : Gives x.host f.trip.errand.question w.objects a objects)
    (hpass : World.Passes f.line.client f.line.host (.reply (f.delivery a).reply)) :
    ∃ w' events,
      (Job.serve f.line.far f.request f.line.client.order).activity.Evaluates w () w' ∧
      x.Stands (g.replied rest f a) w' ∧ w'.events = w.events ++ .readable f.line.near :: events ∧
      (events = [] ∨ events = [.idle f.line.far]) := by
  have hlaid := hx.laid f.line hf.mem
  have hon : f.on f.line = true := decide_eq_true rfl
  have hpop := Traffic.pop_replied hg a
  have hserving : g.serving f.line = f :: (g.replied rest f a).serving f.line := by
    rw [hpop.serving, Slot.serving, if_pos hon]
    rfl
  have hlanding : (g.replied rest f a).landing f.line = g.landing f.line := (hpop.landing _).symm
  have hreturning : (g.replied rest f a).returning f.line = g.returning f.line ++ [(f, a)] := by
    rw [hpop.returning, List.filter_singleton, hon]
    rfl
  obtain ⟨c, d, hline⟩ := h.lines f.line hf.mem
  have hreads : c.isReading = true := by
    rw [hline.client.isReading]
    exact hlaid.hears
  have hlen := (Nat.le_add_right _ _).trans ((g.pending_le f.line).trans hfair.unfinished_le)
  rw [hserving] at hline hlen
  let call := Job.inbound f.line.far d f.request f.line.client.order
  have hkin : x.host.Kin (w.broker call.broker) := by
    have hbroker : call.broker = x.server := hlaid.home
    rw [hbroker]
    exact h.beside.kin _
  obtain ⟨stats, hserve⟩ :=
    hgives.serve call w (hf.question d) (hf.admits hline.host) hkin rfl
  have hcounted : World.Beside (fun _ => False) x.server w
      { w.count call.broker stats with objects } :=
    (World.Beside.count _ _ _).trans (.of_same rfl rfl)
  have hholdings : ({ w.count call.broker stats with objects } : World σ).holdings = w.holdings := rfl
  have hevents : ({ w.count call.broker stats with objects } : World σ).events = w.events := rfl
  have hobjects : ({ w.count call.broker stats with objects } : World σ).objects = objects := rfl
  generalize ({ w.count call.broker stats with objects } : World σ) = v
    at hserve hcounted hholdings hevents hobjects
  obtain ⟨u, isWritten, v', events, hsent, hwritten, rfl, hkinds, hstirs, hbears⟩ :=
    (hline.beside hcounted id id).respond (s := x.server) hpass hreads hlen hlaid.ne
  rw [← hlanding, ← hreturning] at hbears
  let v' := u.untrack f.line.far
  have hbeside := ((hcounted.mono fun _ hp => hp.elim).trans hstirs.toBeside).trans
    (.unhold v' (.broker f.line.far.broker))
  have hbears' := hbears.beside (World.Beside.unhold v' (.broker f.line.far.broker))
    (P := fun _ => False) (s := x.server) id id
  refine ⟨v'.unhold (.broker f.line.far.broker), events, ?_, ?_, ?_, hkinds⟩
  · exact Job.evaluates_serve hline.far.found hserve hf.sends.responseExpected hsent hwritten
  · refine h.turn hx hf.mem hbeside (World.coe_unhold ?_) ?_ ⟨_, _, hbears'⟩ fun l' hne => ?_
    · rw [hlaid.home, ← add_assoc, ← Traffic.holds_replied hg, hstirs.holdings, hholdings]
      exact h.holdings
    · have hobjects' : (v'.unhold (.broker f.line.far.broker)).objects = objects :=
        hstirs.objects.trans hobjects
      rw [hobjects', Traffic.replied, List.map_append]
      exact h.served.snoc hgives
    · refine hpop.other rfl ?_ (fun f hf => absurd hf List.not_mem_nil) fun y hy => ?_
      · rw [Slot.serving, Traffic.not_on hne hon]
        rfl
      · rw [List.mem_singleton.mp hy]
        exact Traffic.not_on hne hon
  · have hall : v'.events = w.events ++ .readable f.line.near :: events := by
      rw [hstirs.events, hevents]
    exact hall

lemma Holds.step_reply (h : x.Holds issued g n) (hx : x.Sound)
    (hable : x.Able (issued.map Prod.snd)) (hg : g.slots = .serve k f :: rest) :
    x.Advances issued g n.step := by
  have hfirst : .serve k f ∈ g.slots := by
    rw [hg]
    exact List.mem_cons_self
  have hf : x.Flies f := h.fair.slots _ hfirst
  obtain ⟨a, objects, hgives, hpass⟩ :=
    h.able hable (Traffic.mem_waiting hfirst (Multiset.mem_singleton_self f.issue))
  obtain ⟨w', events, hserve, hworld, hevents, hkinds⟩ :=
    h.world.replied h.fair hx hg hf hgives (hpass f.line hf.line _)
  have hcall : (do
      (Job.serve f.line.far f.request f.line.client.order).activity
      return none : Activity σ (Option (Except BrokerError α))).run n.world = (.done none, w') :=
    hserve.bind (.pure none w')
  have hqueue : n.queue = .task k (do
      (Job.serve f.line.far f.request f.line.client.order).activity
      return none) :: rest.map Slot.ready := h.queue_cons hg
  let n₁ : Network σ (Except BrokerError α) := { n with
    queue := rest.map Slot.ready, world := w' }
  have hstep : n.step = n₁.absorbAll := Network.step_task hqueue hcall
  have hfair : x.Fair issued (g.replied rest f a) := by
    refine h.fair.pop (Traffic.pop_replied hg a) rfl (List.append_nil _).symm (zero_add _).symm rfl
      (fun y hy => ?_) (fun f hf => absurd hf List.not_mem_nil) fun y hy => ?_
    · rw [Slot.eq_reader_of_mem_summons hy]
      exact ⟨f.line, hf.mem, .inl rfl⟩
    · rw [List.mem_singleton.mp hy]
      exact ⟨hf, Slot.mem_summons rest f.line.near⟩
  have hparked : (n.parked : Multiset (Parked σ (Except BrokerError α))) =
      (g.replied rest f a).parked + x.base.parked := by
    rw [Traffic.parked_replied hg]
    exact h.parked
  let n₂ : Network σ (Except BrokerError α) := { n₁ with
    queue := (g.replied rest f a).slots.map Slot.ready, world := { w' with events := [] } }
  have habsorb : n₁.absorbAll = n₂ := by
    rw [Network.absorbAll_of_tidy (n := n₁) (hworld.tidy hx), hevents, h.events, List.nil_append,
      List.foldl_cons, Network.absorb_readable rfl f.line.near]
    rcases hkinds with rfl | rfl
    · rfl
    · exact hfair.absorb_idle (n := n₂) hx ⟨f.line, hf.mem, .inr rfl⟩ hparked
  refine ⟨g.replied rest f a, ?_, List.prefix_append _ _, Traffic.weight_replied_lt hg a⟩
  rw [hstep, habsorb]
  exact ⟨hworld.clear, hfair, rfl, rfl, hparked, h.results, h.numbers, h.below, h.nextTask⟩

lemma Holds.step (h : x.Holds issued g n) (hx : x.Sound) (htakes : ∀ i ∈ issued, x.Takes i.2)
    (hable : x.Able (issued.map Prod.snd)) (hg : g.slots ≠ []) : x.Advances issued g n.step := by
  obtain ⟨first, rest, hg⟩ := List.exists_cons_of_ne_nil hg
  have hfirst : first ∈ g.slots := by
    rw [hg]
    exact List.mem_cons_self
  cases first with
  | reader p =>
    obtain ⟨l, hl, rfl | rfl⟩ := h.fair.slots _ hfirst
    · exact h.step_near hx hl hg
    · exact h.step_far hx hl hg
  | call k t =>
    have htake := htakes (k, t) (h.waiting_mem (Traffic.mem_waiting hfirst
      (Multiset.mem_singleton_self (k, t))))
    rw [Takes] at htake
    cases hline : t.line with
    | none =>
      rw [hline] at htake
      exact h.step_enter hx hg hline htake
    | some l =>
      rw [hline] at htake
      exact h.step_send hx hg hline htake
  | inside k t next =>
    have htake := htakes (k, t) (h.waiting_mem (Traffic.mem_waiting hfirst
      (Multiset.mem_singleton_self (k, t))))
    have hline : t.line = none := (h.fair.slots _ hfirst).1
    rw [Takes, hline] at htake
    exact h.step_settle hx hable hg htake
  | serve k f => exact h.step_reply hx hable hg
  | resume f a => exact h.step_land hx hg

end Site

end ObjectBroker
