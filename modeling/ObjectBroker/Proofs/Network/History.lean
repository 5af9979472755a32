import ObjectBroker.Proofs.Network

/-!
Histories: all that can happen in a network from the first broker on, with what its brokers learn
about the ways to their peers. The routes of a broker follow from what it has learnt.
-/

namespace ObjectBroker

variable {σ ρ : Type}

/-- What programs are made of besides looks at the world: calls, waits and the ends of connections. -/
inductive Activity.Primitive : (α : Type) → Activity σ α → Prop
  | invoke (b : BrokerId) (target : Reference) (operation : String) (args : Marshaller) :
      Primitive _ (Invocation.invoke b target operation args).run
  | invokeOneway (b : BrokerId) (target : Reference) (operation : String) (args : Marshaller) :
      Primitive _ (Invocation.invokeOneway b target operation args).run
  | locate (b : BrokerId) (target : Reference) : Primitive _ (Invocation.locate b target).run
  | pause (deadline : Option Nat) : Primitive _ (waitFor .forever deadline)
  | close (ports : List Port) (drained : Bool) (timeout : Nat) :
      Primitive _ (Closing.closeAll ports drained timeout)
  | closeIdle (b : BrokerId) : Primitive _ (Closing.closeIdle b)
  | shutdown (b : BrokerId) (drained : Bool) : Primitive _ (Closing.shutdown b drained)
  | finish (p : Port) (exit : Connection.Exit) : Primitive _ (update (·.finishLate p exit))

lemma Activity.Primitive.quiet {α : Type} {a : Activity σ α} (h : Primitive α a) :
    a.Respects World.Quiet := by
  have hsilent : ∀ w w' : World σ, w.Silent w' → w.Quiet w' := fun _ _ => .of_silent
  cases h with
  | invoke b target operation args => exact (Invocation.madeOf_invoke b target operation args).quiet_busy
  | invokeOneway b target operation args =>
    exact (Invocation.madeOf_invokeOneway b target operation args).silent.mono hsilent
  | locate b target => exact (Invocation.madeOf_locate b target).quiet_busy
  | pause deadline => exact .waitFor _ _
  | close ports drained timeout =>
    exact (Closing.madeOf_closeAll ports drained timeout).silent.mono hsilent
  | closeIdle b => exact Closing.quiet_closeIdle b
  | shutdown b drained => exact (Closing.madeOf_shutdown b drained).silent.mono hsilent
  | finish p exit => exact .update fun w => .of_silent (.of_ends (.finishLate w exit))

lemma Activity.MadeOf.quiet {α : Type} {a : Activity σ α} (h : a.MadeOf Primitive) :
    a.Respects World.Quiet :=
  h.respects (fun _ _ h => .of_silent (.calm h)) fun _ _ => Primitive.quiet

namespace Directory

variable {d : Directory} {a a' : Adapter} {name : String}

lemma mem_of_get? (h : d.get? name = some a) : a ∈ d.adapters :=
  List.mem_of_find?_eq_some h

lemma IsStopped.put (h : d.IsStopped) (ha : a.isRunning = false ∧ a.servants = []) :
    (d.put a).IsStopped := by
  intro a' ha'
  obtain ⟨a'', hmem, rfl⟩ := List.mem_map.mp ha'
  split
  · exact ha
  · exact h a'' hmem

lemma IsStopped.insert (h : d.IsStopped) (hg : d.get? name = some a) {id : String} {n : ObjectId} :
    ∃ e, a.insert id n = .error e := by
  obtain ⟨hrun, -⟩ := h a (mem_of_get? hg)
  rw [Adapter.insert, hrun]
  exact ⟨_, rfl⟩

end Directory

inductive Broker.Hosts (b : Broker) : Broker → Prop
  | createAdapter {name : String} {isBidirectional : Bool} {b' : Broker}
      (h : b.createAdapter name isBidirectional = .ok b') : Hosts b b'
  | activate {name id : String} {a a' : Adapter} {n : ObjectId}
      (ha : b.adapters.get? name = some a) (h : a.activate n = .ok (id, a')) :
      Hosts b (b.putAdapter a')
  | activateWithId {name id : String} {a a' : Adapter} {n : ObjectId}
      (ha : b.adapters.get? name = some a) (h : a.activateWithId id n = .ok a') :
      Hosts b (b.putAdapter a')
  | deactivate {name id : String} {a a' : Adapter} (ha : b.adapters.get? name = some a)
      (h : a.deactivate id = .ok a') : Hosts b (b.putAdapter a')
  | retire (a : Adapter) : Hosts b (b.putAdapter a.shutdown)
  | name (naming : Option ObjectId) : Hosts b { b with naming }
  | register (registry : Registry) : Hosts b { b with registry }

lemma Broker.Hosts.move {b b' : Broker} (h : b.Hosts b') : b.Move [] b' := by
  cases h with
  | createAdapter h =>
    rw [Broker.createAdapter, ensureRunning] at h
    by_cases hrun : b.isRunning = true
    · rw [if_pos hrun] at h
      cases hd : b.adapters.create _ _ with
      | error e =>
        rw [hd] at h
        cases h
      | ok d =>
        rw [hd] at h
        cases h
        refine .house fun hb => ?_
        rw [hrun] at hb
        cases hb
    · rw [if_neg hrun] at h
      cases h
  | activate ha h =>
    refine .house fun _ hstopped => ?_
    obtain ⟨e, he⟩ := hstopped.insert ha
    rw [Adapter.activate] at h
    rw [he] at h
    cases h
  | activateWithId ha h =>
    refine .house fun _ hstopped => ?_
    obtain ⟨e, he⟩ := hstopped.insert ha
    rw [Adapter.activateWithId] at h
    split at h
    · rw [he] at h
      cases h
    · cases h
  | deactivate ha h =>
    refine .house fun _ hstopped => ?_
    obtain ⟨hrun, hservants⟩ := hstopped _ (Directory.mem_of_get? ha)
    rw [Adapter.deactivate] at h
    split at h
    · cases h
    · cases h
      exact hstopped.put ⟨hrun, by simp [hservants]⟩
  | retire a => exact .house fun _ hstopped => hstopped.put ⟨rfl, rfl⟩
  | name naming => exact .aside b b.registry naming b.isGone b.stats
  | register registry => exact .aside b registry b.naming b.isGone b.stats

/-- What a broker learns about the way to a peer: it gets a connection, or a request on one. -/
inductive Incident where
  | opened (port : Port) (role : Role) (peer : Endpoint)
  | heard (port : Port) (role : Role) (request : Request)
  deriving DecidableEq

namespace Incident

def port : Incident → Port
  | opened port _ _ | heard port _ _ => port

def claims (b : BrokerId) (accept : Bool) : Incident → List (Endpoint × Nat)
  | opened port role peer =>
    if port.broker = b ∧ role = .initiator then [(peer, port.connection)] else []
  | heard port role request =>
    if port.broker = b ∧ accept = true ∧ role = .acceptor then
      request.offered.map (·, port.connection)
    else []

def Stands (w : World σ) : Incident → Prop
  | opened port role peer => ∃ c, w.connection? port = some c ∧ c.role = role ∧ c.peer = peer
  | heard port role _ => ∃ c, w.connection? port = some c ∧ c.role = role

lemma Stands.exists_connection? {w : World σ} {i : Incident} (h : i.Stands w) :
    ∃ c, w.connection? i.port = some c := by
  cases i with
  | opened port role peer =>
    obtain ⟨c, hc, -⟩ := h
    exact ⟨c, hc⟩
  | heard port role request =>
    obtain ⟨c, hc, -⟩ := h
    exact ⟨c, hc⟩

lemma Stands.of_connection? {w w' : World σ} {i : Incident} (h : i.Stands w)
    (hw : w'.connection? i.port = w.connection? i.port) : i.Stands w' := by
  cases i with
  | opened port role peer =>
    obtain ⟨c, hc, hrest⟩ := h
    exact ⟨c, hw.trans hc, hrest⟩
  | heard port role request =>
    obtain ⟨c, hc, hrole⟩ := h
    exact ⟨c, hw.trans hc, hrole⟩

lemma claims_of_ne {i : Incident} {b : BrokerId} (h : i.port.broker ≠ b) (accept : Bool) :
    i.claims b accept = [] := by
  cases i with
  | opened port role peer => exact if_neg fun hb => h hb.1
  | heard port role request => exact if_neg fun hb => h hb.1

end Incident

lemma Request.claims_claims (r : Request) (accept : Bool) (role : Role) (id : Nat) :
    Broker.claims (r.claims accept role id) =
      if accept = true ∧ role = .acceptor then r.offered.map (·, id) else [] := by
  rw [Request.claims]
  split
  · exact Broker.claims_points r.offered id
  · rfl

namespace World

variable {w w' : World σ} {p : Port} {log more : List Incident} {marks : BrokerId → List Broker.Mark}

lemma role_of_mem_requestsUpTo {m : Nat} (hn : (w.broker p.broker).Numbered) {r : Role × Request}
    (hr : r ∈ w.requestsUpTo p m) : ∃ c, w.connection? p = some c ∧ c.role = r.1 := by
  induction m generalizing w with
  | zero => cases hr
  | succ m ih =>
    rw [requestsUpTo] at hr
    cases hc : w.connection? p with
    | none => simp [hc] at hr
    | some c =>
      rw [hc] at hr
      dsimp only at hr
      cases hreading : c.isReading with
      | false => simp [hreading] at hr
      | true =>
        have hread := Silent.readNext w p c
        have hd := connection?_readNext hc
        rcases hnext : w.readNext p c with ⟨result, v⟩
        rw [hnext] at hread hd
        simp only [hreading, hnext, Bool.not_true, Bool.false_eq_true, if_false] at hr
        cases result with
        | waiting => cases hr
        | failed e => cases hr
        | done message =>
          obtain ⟨m, order⟩ := message
          dsimp only at hr
          rcases hhandle : v.handle p c order m with ⟨v', exit⟩
          rw [hhandle] at hr
          cases exit with
          | some exit => cases hr
          | none =>
            have htaken := follows_handle hd (Broker.id_of_connection? hc) rfl hreading hhandle
            rcases List.mem_append.mp hr with hr | hr
            · obtain ⟨r, -, rfl⟩ := List.mem_map.mp hr
              exact ⟨c, rfl, rfl⟩
            · -- The connection is the same one after the message has been taken.
              have hpath := (hread.follows htaken).path p.broker
              obtain ⟨d, hd, hrole⟩ := ih (hpath.course hn).2 hr
              obtain ⟨d', hd', hstays⟩ := hpath.stays hn hc
              obtain rfl := Option.some.inj (hd.symm.trans hd')
              exact ⟨c, rfl, hstays.role.symm.trans hrole⟩

lemma role_of_mem_requests (hn : (w.broker p.broker).Numbered) {r : Role × Request}
    (hr : r ∈ w.requests p) : ∃ c, w.connection? p = some c ∧ c.role = r.1 := by
  rw [requests] at hr
  split at hr
  · cases hr
  · split at hr
    · exact role_of_mem_requestsUpTo hn hr
    · cases hr

def claims (w : World σ) (log : List Incident) (b : BrokerId) : List (Endpoint × Nat) :=
  log.flatMap (Incident.claims b (w.broker b).config.acceptBidirectional)

inductive Goes (w : World σ) : List Incident → World σ → Prop
  | follow {more : List Incident} {marks : BrokerId → List Broker.Mark} {w' : World σ}
      (hf : w.Follows marks w') (hmarks : ∀ b, Broker.claims (marks b) = w'.claims more b)
      (hmore : ∀ i ∈ more, i.Stands w') : Goes w more w'
  | create (id : String) (config : Config) : Goes w [] (w.addBroker (.new id config)).2

lemma broker_addBroker (w : World σ) (broker : Broker) (b : BrokerId) :
    (w.addBroker broker).2.broker b = if b = w.brokers.size then broker else w.broker b := by
  change (w.brokers.push broker)[b]?.getD default = _
  rw [Array.getElem?_push]
  split <;> rfl

namespace Goes

lemma of_quiet (h : w.Quiet w') : w.Goes [] w' := by
  obtain ⟨marks, hmarks, hf⟩ := h
  exact .follow hf hmarks fun i hi => absurd hi List.not_mem_nil

lemma of_silent (h : w.Silent w') : w.Goes [] w' :=
  of_quiet (.of_silent h)

lemma size_le (h : w.Goes more w') : w.brokers.size ≤ w'.brokers.size := by
  cases h with
  | follow hf _ _ => exact Nat.le_of_eq hf.size.symm
  | create id config =>
    change w.brokers.size ≤ (w.brokers.push _).size
    rw [Array.size_push]
    exact Nat.le_succ _

lemma path (h : w.Goes more w') {b : BrokerId} (hb : b < w.brokers.size) :
    ∃ marks, (w.broker b).Path marks (w'.broker b) := by
  cases h with
  | follow hf _ _ => exact ⟨_, hf.path b⟩
  | create id config =>
    rw [broker_addBroker, if_neg (Nat.ne_of_lt hb)]
    exact ⟨_, .refl⟩

lemma leads (h : w.Goes more w') : w.Leads w' := by
  refine ⟨h.size_le, fun b hb hn => ?_⟩
  obtain ⟨marks, hpath⟩ := h.path hb
  exact ⟨_, (hpath.course hn).1⟩

lemma attach {b : BrokerId} {role : Role} {peer : Endpoint} {inbound outbound : Nat}
    (h : w.attach b role peer inbound outbound = .ok (p, w')) :
    w.Goes [.opened p role peer] w' := by
  refine .follow (follows_attach h) (fun b' => ?_) fun i hi => ?_
  · rw [claims, only, List.flatMap_singleton, Incident.claims]
    by_cases hb : p.broker = b'
    · subst hb
      rw [if_pos rfl, Broker.claims_adopt]
      simp
    · rw [if_neg fun h => hb h.symm, if_neg fun h => hb h.1]
      rfl
  · rw [List.mem_singleton.mp hi]
    obtain ⟨rfl, hbrokers, hrun⟩ := attach_eq_ok h
    have hsize : b < w.brokers.size := lt_size_of_isRunning hrun
    refine ⟨(w.broker b).entrant role peer inbound outbound, ?_, rfl, rfl⟩
    rw [connection?, broker_of_brokers hbrokers, broker_updateBroker, if_pos ⟨rfl, hsize⟩,
      Broker.connection?, Broker.connections_adopt, List.find?_cons]
    simp [Broker.entrant]

end Goes

lemma claims_requests (l : List (Role × Request)) (accept : Bool) (p : Port) (b : BrokerId) :
    Broker.claims (only p.broker (l.flatMap fun r => r.2.claims accept r.1 p.connection) b) =
      (l.map fun r => .heard p r.1 r.2).flatMap (Incident.claims b accept) := by
  induction l with
  | nil =>
    rw [List.flatMap_nil, only_nil]
    rfl
  | cons r l ih =>
    rw [List.flatMap_cons, only_append, Broker.claims_append, ih, List.map_cons, List.flatMap_cons,
      only, Incident.claims]
    congr 1
    split
    · next hb => simp [Request.claims_claims, hb]
    · next hb => simp [Broker.claims, Ne.symm hb]

structure Reflects (w : World σ) (log : List Incident) : Prop where
  stands : ∀ i ∈ log, i.Stands w
  routed : ∀ b, (w.broker b).Routed (w.claims log b)

namespace Reflects

lemma stands_follows (h : w.Reflects log) (hf : w.Follows marks w') {i : Incident}
    (hi : i.Stands w) : i.Stands w' := by
  have hstays : ∀ (p : Port) (c : Connection), w.connection? p = some c →
      ∃ d, w'.connection? p = some d ∧ c.Stays d :=
    fun p c hc => (hf.path p.broker).stays (h.routed p.broker).numbered hc
  cases i with
  | opened port role peer =>
    obtain ⟨c, hc, hrole, hpeer⟩ := hi
    obtain ⟨d, hd, hcd⟩ := hstays port c hc
    exact ⟨d, hd, hcd.role.trans hrole, hcd.peer.trans hpeer⟩
  | heard port role request =>
    obtain ⟨c, hc, hrole⟩ := hi
    obtain ⟨d, hd, hcd⟩ := hstays port c hc
    exact ⟨d, hd, hcd.role.trans hrole⟩

lemma receive (h : w.Reflects log) (p : Port) (hw' : (w.receive p).Silent w') :
    w.Goes ((w.requests p).map fun r => .heard p r.1 r.2) w' := by
  have hf := (follows_receive w p).silent hw'
  refine .follow hf (fun b => ?_) fun i hi => ?_
  · rw [claims, (hf.path b).config]
    by_cases hb : b = p.broker
    · subst hb
      exact claims_requests _ _ p _
    · rw [only, if_neg hb, ← claims_requests, only, if_neg hb]
  · obtain ⟨r, hr, rfl⟩ := List.mem_map.mp hi
    exact h.stands_follows hf (role_of_mem_requests (h.routed p.broker).numbered hr)

lemma ne_size (h : w.Reflects log) {i : Incident} (hi : i ∈ log) :
    i.port.broker ≠ w.brokers.size := by
  obtain ⟨c, hc⟩ := (h.stands i hi).exists_connection?
  exact Nat.ne_of_lt (lt_size_of_connection? hc)

lemma goes (h : w.Reflects log) (hg : w.Goes more w') : w'.Reflects (log ++ more) := by
  cases hg with
  | follow hf hmarks hmore =>
    refine ⟨fun i hi => ?_, fun b => ?_⟩
    · rcases List.mem_append.mp hi with hi | hi
      · exact h.stands_follows hf (h.stands i hi)
      · exact hmore i hi
    · have hrouted := (h.routed b).path (hf.path b)
      rw [hmarks b, claims, ← (hf.path b).config] at hrouted
      rw [claims, List.flatMap_append]
      exact hrouted
  | create id config =>
    rw [List.append_nil]
    refine ⟨fun i hi => ?_, fun b => ?_⟩
    · refine (h.stands i hi).of_connection? ?_
      rw [connection?, broker_addBroker, if_neg (h.ne_size hi), connection?]
    · rw [claims, broker_addBroker]
      split
      · next hb =>
        -- Nothing has been learnt yet by a broker that is new.
        subst hb
        have hnone : log.flatMap (Incident.claims w.brokers.size
            (Broker.new id config).config.acceptBidirectional) = [] :=
          List.flatMap_eq_nil_iff.mpr fun i hi => Incident.claims_of_ne (h.ne_size hi) _
        rw [hnone]
        exact .of_new rfl rfl rfl
      · exact h.routed b

lemma empty : ({} : World σ).Reflects [] := by
  refine ⟨fun i hi => absurd hi List.not_mem_nil, fun b => ?_⟩
  exact .of_new rfl rfl rfl

end Reflects

end World

namespace Network

def incidents (n : Network σ ρ) : List Incident :=
  match n.queue with
  | .reader p :: _ => (n.world.requests p).map fun r => .heard p r.1 r.2
  | _ => []

variable [Servant σ]

/-- One thing that happens in a network: it goes on, time passes, its owner makes brokers, gives
them streams, sets them up, starts programs or takes their results, or something changes that is no
broker's. -/
inductive Occurs (n : Network σ ρ) : List Incident → Network σ ρ → Prop
  | step : Occurs n n.incidents n.step
  | elapse (time : Nat) : Occurs n [] (n.setTime time)
  | absorb : Occurs n [] n.absorbAll
  | create (id : String) (config : Config) :
      Occurs n [] { n with world := (n.world.addBroker (.new id config)).2 }
  | attach {b : BrokerId} {role : Role} {peer : Endpoint} {inbound outbound : Nat} {p : Port}
      {w : World σ} (h : n.world.attach b role peer inbound outbound = .ok (p, w)) :
      Occurs n [.opened p role peer] { n with world := w }
  | host {b : BrokerId} {broker : Broker} (h : (n.world.broker b).Hosts broker) :
      Occurs n [] { n with world := n.world.updateBroker b fun _ => broker }
  | outside {w : World σ} (h : w.brokers = n.world.brokers) : Occurs n [] { n with world := w }
  | start {a : Activity σ (Option ρ)} (h : a.MadeOf Activity.Primitive) : Occurs n [] (n.start a).2
  | take (id : Nat) : Occurs n [] (n.takeResult id).2

/-- A network later on, with what its brokers have learnt since. -/
inductive History (n : Network σ ρ) : List Incident → Network σ ρ → Prop
  | refl : History n [] n
  | tail {log more : List Incident} {n' n'' : Network σ ρ} (h : History n log n')
      (ho : Occurs n' more n'') : History n (log ++ more) n''

namespace Abides

variable {n n' : Network σ ρ} {log more : List Incident}
  (hs : ∀ c operation, (Servant.invoke c operation : Serving σ Unit).Respects World.Leads)
include hs

lemma step_leads (h : n.Abides World.Leads) :
    n.step.Abides World.Leads ∧ n.world.Leads n.step.world := by
  cases hq : n.queue with
  | nil =>
    rw [Network.step, hq]
    exact ⟨h, .refl _⟩
  | cons r rest =>
    cases r with
    | reader p =>
      obtain ⟨hstep, hw⟩ := h.step_reader (fun _ _ => .of_silent) hs hq
      rw [hw]
      exact ⟨hstep, ((World.Leads.receive n.world p).trans (.collect _)).trans (.of_brokers rfl)⟩
    | task id a =>
      obtain ⟨hstep, w, hrun, hw⟩ :=
        h.step_task (fun _ _ => .of_silent) hs .refl (fun _ _ _ => .trans) hq
      rw [hw]
      exact ⟨hstep, (hrun.trans (.collect _)).trans (.of_brokers rfl)⟩

lemma occurs_leads (h : n.Abides World.Leads) (ho : Occurs n more n') :
    n'.Abides World.Leads ∧ n.world.Leads n'.world := by
  have hsame : ∀ w : World σ, ({ n with world := w } : Network σ ρ).Abides World.Leads :=
    fun w => ⟨h.queue, h.parked⟩
  cases ho with
  | step => exact step_leads hs h
  | elapse time => exact ⟨h.setTime time, .of_brokers rfl⟩
  | absorb =>
    obtain ⟨habides, hw⟩ := h.absorbAll (fun _ _ => .of_silent) hs
    rw [hw]
    exact ⟨habides, (World.Leads.collect _).trans (.of_brokers rfl)⟩
  | create id config => exact ⟨hsame _, (World.Goes.create id config).leads⟩
  | attach ha => exact ⟨hsame _, .attach ha⟩
  | host hb => exact ⟨hsame _, .of_silent (.move hb.move)⟩
  | outside hw => exact ⟨hsame _, .of_brokers hw⟩
  | start ha => exact ⟨h.start (ha.quiet.mono fun _ _ => .of_quiet), .refl _⟩
  | take id => exact ⟨⟨h.queue, h.parked⟩, .refl _⟩

/-- Whatever happens in a network, each broker takes its course as long as the tasks let it. -/
lemma history_leads (h : n.Abides World.Leads) (hh : History n log n') :
    n'.Abides World.Leads ∧ n.world.Leads n'.world := by
  induction hh with
  | refl => exact ⟨h, .refl _⟩
  | tail _ ho ih =>
    obtain ⟨habides, hw⟩ := occurs_leads hs ih.1 ho
    exact ⟨habides, ih.2.trans hw⟩

end Abides

/-- Nobody in the network makes routes but its readers, and the world is what its history has made
of it. -/
structure Recorded (n : Network σ ρ) (log : List Incident) : Prop where
  abides : n.Abides World.Quiet
  reflects : n.world.Reflects log

omit [Servant σ] in
lemma Recorded.empty : ({} : Network σ ρ).Recorded [] :=
  ⟨⟨fun _ _ h => absurd h List.not_mem_nil, fun _ h => absurd h List.not_mem_nil⟩, .empty⟩

variable {n n' : Network σ ρ} {log more : List Incident}
  (hs : ∀ c operation, (Servant.invoke c operation : Serving σ Unit).MadeOf Activity.Primitive)
include hs

namespace Recorded

lemma goes_step (h : n.Recorded log) :
    n.step.Abides World.Quiet ∧ n.world.Goes n.incidents n.step.world := by
  have hsilent : ∀ w w' : World σ, w.Silent w' → w.Quiet w' := fun _ _ => .of_silent
  have hquiet : ∀ c operation, (Servant.invoke c operation : Serving σ Unit).Respects World.Quiet :=
    fun c operation x => (hs c operation x).quiet
  have hcollect : ∀ w : World σ, w.Silent { w.collect with events := [] } :=
    fun w => (World.Silent.collect w).trans (.of_brokers rfl)
  cases hq : n.queue with
  | nil =>
    rw [Network.step, incidents, hq]
    exact ⟨h.abides, .of_silent (.refl _)⟩
  | cons r rest =>
    cases r with
    | reader p =>
      obtain ⟨habides, hw⟩ := h.abides.step_reader hsilent hquiet hq
      rw [incidents, hq, hw]
      exact ⟨habides, h.reflects.receive p (hcollect _)⟩
    | task id a =>
      obtain ⟨habides, w, hrun, hw⟩ :=
        h.abides.step_task hsilent hquiet (fun w => .of_silent (.refl w)) (fun _ _ _ => .trans) hq
      rw [incidents, hq, hw]
      exact ⟨habides, .of_quiet (hrun.trans (.of_silent (hcollect _)))⟩

lemma goes (h : n.Recorded log) (ho : Occurs n more n') :
    n'.Abides World.Quiet ∧ n.world.Goes more n'.world := by
  have hsame : ∀ w : World σ, ({ n with world := w } : Network σ ρ).Abides World.Quiet :=
    fun w => ⟨h.abides.queue, h.abides.parked⟩
  cases ho with
  | step => exact goes_step hs h
  | attach ha => exact ⟨hsame _, .attach ha⟩
  | elapse time => exact ⟨h.abides.setTime time, .of_silent (.of_brokers rfl)⟩
  | absorb =>
    obtain ⟨habides, hw⟩ := h.abides.absorbAll (fun _ _ => .of_silent)
      fun c operation x => (hs c operation x).quiet
    rw [hw]
    exact ⟨habides, .of_silent ((World.Silent.collect _).trans (.of_brokers rfl))⟩
  | create id config => exact ⟨hsame _, .create id config⟩
  | host hb => exact ⟨hsame _, .of_silent (.move hb.move)⟩
  | outside hw => exact ⟨hsame _, .of_silent (.of_brokers hw)⟩
  | start ha => exact ⟨h.abides.start ha.quiet, .of_silent (.refl _)⟩
  | take id => exact ⟨⟨h.abides.queue, h.abides.parked⟩, .of_silent (.refl _)⟩

lemma history (h : n.Recorded log) (hh : History n more n') : n'.Recorded (log ++ more) := by
  induction hh with
  | refl =>
    rw [List.append_nil]
    exact h
  | tail _ ho ih =>
    obtain ⟨habides, hgoes⟩ := goes hs ih ho
    rw [← List.append_assoc]
    exact ⟨habides, ih.reflects.goes hgoes⟩

lemma path (h : n.Recorded log) (hh : History n more n') {b : BrokerId}
    (hb : b < n.world.brokers.size) :
    b < n'.world.brokers.size ∧ ∃ marks, (n.world.broker b).Path marks (n'.world.broker b) := by
  induction hh with
  | refl => exact ⟨hb, _, .refl⟩
  | tail hh ho ih =>
    obtain ⟨hb', marks, hpath⟩ := ih
    obtain ⟨-, hgoes⟩ := goes hs (history hs h hh) ho
    obtain ⟨more, hmore⟩ := hgoes.path hb'
    exact ⟨Nat.lt_of_lt_of_le hb' hgoes.size_le, _, hpath.trans hmore⟩

end Recorded

end Network

end ObjectBroker
