import ObjectBroker.Proofs.World.Connection

/-!
Worlds whose connections are related, one by one. A connection is steady where neither its state nor
those who wait there are touched.
-/

namespace ObjectBroker

/-- The connection stays in its state, and nobody who waits there comes, goes or is told anything. -/
structure Connection.Steady (c d : Connection) : Prop where
  state : d.state = c.state
  pending : d.pending = c.pending
  responses : d.responses = c.responses

namespace Connection.Steady

variable {c d e : Connection}

lemma refl (c : Connection) : c.Steady c := ⟨rfl, rfl, rfl⟩

lemma trans (h : c.Steady d) (h' : d.Steady e) : c.Steady e :=
  ⟨h'.state.trans h.state, h'.pending.trans h.pending, h'.responses.trans h.responses⟩

end Connection.Steady

lemma Broker.connection?_update_map (b : Broker) {id : Nat} {f : Connection → Connection}
    (hf : ∀ c, c.id = id → (f c).id = id) (id' : Nat) :
    (b.update id f).connection? id' =
      (b.connection? id').map fun c => if c.id = id then f c else c := by
  rw [connection?, update, List.find?_map]
  congr 2
  funext c
  by_cases hc : c.id = id
  · simp [hc, hf]
  · simp [hc]

lemma Broker.connection?_registerPoints {id : Nat} {c : Connection} (b : Broker) (n : Nat)
    (points : List Endpoint) (h : b.connection? id = some c) :
    ∃ flag, (b.registerPoints n points).connection? id = some { c with isBidirectional := flag } := by
  rw [registerPoints]
  split
  · exact ⟨c.isBidirectional, h⟩
  · have hpoints : (points.foldl (registerPoint n) b).connection? id = some c := by
      obtain ⟨routes, stats, hb⟩ := foldl_registerPoint b n points
      rw [hb]
      exact h
    rw [connection?_update_map (f := fun c => { c with isBidirectional := true }) _
      (fun _ h => h), hpoints]
    by_cases hc : c.id = n
    · exact ⟨true, congrArg some (if_pos hc)⟩
    · exact ⟨c.isBidirectional, congrArg some (if_neg hc)⟩

namespace World

variable {σ : Type} {w w' w'' : World σ} {p : Port}

lemma broker_updateBroker (w : World σ) (b b' : BrokerId) (f : Broker → Broker) :
    (w.updateBroker b f).broker b' =
      if b = b' ∧ b' < w.brokers.size then f (w.broker b') else w.broker b' := by
  simp only [updateBroker, broker, Array.getElem?_modify]
  by_cases hs : b' < w.brokers.size
  · by_cases hb : b = b'
    · simp [hb, hs]
    · simp [hb]
  · simp [hs]

def Relates (R : Port → Connection → Connection → Prop) (w w' : World σ) : Prop :=
  ∀ p c, w.connection? p = some c → ∃ d, w'.connection? p = some d ∧ R p c d

variable {R : Port → Connection → Connection → Prop}

namespace Relates

lemma trans (hR : ∀ p c d e, R p c d → R p d e → R p c e) (h : w.Relates R w')
    (h' : w'.Relates R w'') : w.Relates R w'' := by
  intro p c hc
  obtain ⟨d, hd, hcd⟩ := h p c hc
  obtain ⟨e, he, hde⟩ := h' p d hd
  exact ⟨e, he, hR p c d e hcd hde⟩

lemma of_brokers (hR : ∀ p c, R p c c) (h : w'.brokers = w.brokers) : w.Relates R w' := by
  intro p c hc
  refine ⟨c, ?_, hR p c⟩
  rw [← hc, connection?, connection?, broker_of_brokers h]

lemma updateBroker (hR : ∀ p c, R p c c) {b : BrokerId} {f : Broker → Broker}
    (h : ∀ id c, (w.broker b).connection? id = some c →
      ∃ d, (f (w.broker b)).connection? id = some d ∧ R { broker := b, connection := id } c d) :
    w.Relates R (w.updateBroker b f) := by
  rintro ⟨b', id⟩ c hc
  rw [connection?, broker_updateBroker]
  split
  · next hb =>
    obtain ⟨rfl, -⟩ := hb
    exact h id c hc
  · exact ⟨c, hc, hR _ c⟩

lemma updateConnection (hR : ∀ p c, R p c c) {f : Connection → Connection}
    (hf : ∀ c, c.id = p.connection → (f c).id = p.connection)
    (h : ∀ c, w.connection? p = some c → R p c (f c)) :
    w.Relates R (w.updateConnection p f) := by
  refine updateBroker hR fun id c hc => ?_
  rw [Broker.connection?_update_map _ hf, hc]
  refine ⟨if c.id = p.connection then f c else c, rfl, ?_⟩
  have hid : c.id = id := by simpa using List.find?_some hc
  by_cases hp : c.id = p.connection
  · rw [if_pos hp]
    have hport : ({ broker := p.broker, connection := id } : Port) = p := by rw [← hid, hp]
    rw [hport]
    rw [← hid, hp] at hc
    exact h c hc
  · rw [if_neg hp]
    exact hR _ c

end Relates

def Steady (w w' : World σ) : Prop :=
  w.Relates (fun _ => Connection.Steady) w'

namespace Steady

lemma trans (h : w.Steady w') (h' : w'.Steady w'') : w.Steady w'' :=
  Relates.trans (fun _ _ _ _ => Connection.Steady.trans) h h'

lemma of_brokers (h : w'.brokers = w.brokers) : w.Steady w' :=
  Relates.of_brokers (fun _ => .refl) h

lemma updateBroker {b : BrokerId} {f : Broker → Broker}
    (h : ∀ b : Broker, (f b).connections = b.connections) : w.Steady (w.updateBroker b f) := by
  refine Relates.updateBroker (fun _ => .refl) fun id c hc => ⟨c, ?_, .refl c⟩
  rw [Broker.connection?, h]
  exact hc

lemma updateConnection {f : Connection → Connection} (hf : ∀ c, (f c).id = c.id)
    (h : ∀ c : Connection, c.Steady (f c)) : w.Steady (w.updateConnection p f) :=
  Relates.updateConnection (fun _ => .refl) (fun c hc => (hf c).trans hc) fun c _ => h c

lemma untrack (w : World σ) (p : Port) : w.Steady (w.untrack p) := by
  rw [World.untrack]
  split
  · exact of_brokers rfl
  · have hu : w.Steady (w.updateConnection p Connection.untrack) :=
      updateConnection (fun _ => rfl) fun _ => ⟨rfl, rfl, rfl⟩
    dsimp only
    split
    · exact hu.trans (of_brokers rfl)
    · exact hu

end Steady

inductive Calm : World σ → World σ → Prop
  | of_brokers {w w' : World σ} (h : w'.brokers = w.brokers) : Calm w w'
  | count (w : World σ) (b : BrokerId) (f : Stats → Stats) :
      Calm w (w.updateBroker b fun broker => { broker with stats := f broker.stats })
  | untrack (w : World σ) (p : Port) : Calm w (w.untrack p)
  | trans {w w' w'' : World σ} (h : Calm w w') (h' : Calm w' w'') : Calm w w''

lemma connection?_updateConnection (w : World σ) {f : Connection → Connection}
    (hf : ∀ c, c.id = p.connection → (f c).id = p.connection) :
    (w.updateConnection p f).connection? p = (w.connection? p).map f := by
  rw [connection?, updateConnection, broker_updateBroker]
  split
  · rw [Broker.connection?_update_map _ hf, connection?]
    cases hc : (w.broker p.broker).connection? p.connection with
    | none => rfl
    | some c => exact congrArg some (if_pos (Broker.id_of_connection? hc))
  · next hb =>
    have hn : w.broker p.broker = default := by
      rw [broker, Array.getElem?_eq_none (Nat.le_of_not_lt fun h => hb ⟨rfl, h⟩)]
      rfl
    rw [connection?, hn]
    rfl

/-- What is done to a connection on the way to its end: it is closed, those who wait there are told,
and when its reader has gone it leaves the table. -/
inductive Ends (p : Port) : World σ → World σ → Prop
  | of_brokers {w w' : World σ} (h : w'.brokers = w.brokers) : Ends p w w'
  | fail (w : World σ) (e : BrokerError) : Ends p w (w.updateConnection p (·.failPending e))
  | part (w : World σ) : Ends p w (w.updateConnection p Connection.parted)
  | quit (w : World σ) (s : ReaderState) (h : s ≠ .reading) :
      Ends p w (w.updateConnection p (·.quit s))
  | remove {w : World σ} {c : Connection} (hc : w.connection? p = some c)
      (hstate : c.state = .closed) (hreading : c.isReading = false) :
      Ends p w (w.updateBroker p.broker (·.remove p.connection))
  | trans {w w' w'' : World σ} (h : Ends p w w') (h' : Ends p w' w'') : Ends p w w''

namespace Ends

variable {c : Connection}

lemma found (h : Ends p w w') (hc : w.connection? p = some c) :
    ∃ d, w'.connection? p = some d := by
  have hupdate : ∀ (w : World σ) {c : Connection} (f : Connection → Connection),
      (∀ c, (f c).id = c.id) → w.connection? p = some c →
      ∃ d, (w.updateConnection p f).connection? p = some d := by
    intro w c f hf hc
    refine ⟨f c, ?_⟩
    rw [connection?_updateConnection w fun c h => (hf c).trans h, hc]
    rfl
  induction h generalizing c with
  | of_brokers h =>
    rw [connection?, broker_of_brokers h]
    exact ⟨c, hc⟩
  | fail w e => exact hupdate w (·.failPending e) (fun _ => rfl) hc
  | part w => exact hupdate w Connection.parted Connection.id_parted hc
  | quit w s _ => exact hupdate w (·.quit s) (fun c => c.id_quit s) hc
  | @remove w _ _ _ _ =>
    have hkept : w.Relates (fun _ _ _ => True)
        (w.updateBroker p.broker (·.remove p.connection)) :=
      Relates.updateBroker (fun _ _ => trivial) fun _ c hc =>
        ⟨c, Broker.connection?_remove hc _, trivial⟩
    obtain ⟨d, hd, -⟩ := hkept p c hc
    exact ⟨d, hd⟩
  | trans _ _ ih ih' =>
    obtain ⟨d, hd⟩ := ih hc
    exact ih' hd

lemma failPending (w : World σ) (e : BrokerError) : Ends p w (w.failPending p e) := by
  rw [World.failPending]
  split
  · exact .of_brokers rfl
  · exact (fail w e).trans (.of_brokers rfl)

lemma tell (w : World σ) (exit : Connection.Exit) : Ends p w (w.tell p exit) := by
  rw [World.tell]
  split
  · exact .of_brokers rfl
  · exact (of_brokers (brokers_report w p exit)).trans (failPending _ _)

lemma shut (hc : w.connection? p = some c) : Ends p w (w.shut p) := by
  have hquit : Ends p w (w.updateConnection p Connection.depart) := quit w .gone (by decide)
  have hgone : ((w.updateConnection p Connection.depart).shutWriter p).connection? p =
      some c.depart := by
    rw [connection?, broker_of_brokers (brokers_shutWriter _ p), ← connection?,
      connection?_updateConnection (f := Connection.depart) w
        fun c h => (c.id_quit .gone).trans h, hc]
    rfl
  refine (hquit.trans (of_brokers (brokers_shutWriter _ p))).trans ?_
  rw [World.shut, discard]
  split
  · exact remove hgone c.state_setState_closed rfl
  · exact .of_brokers rfl

lemma finish (w : World σ) (exit : Connection.Exit) : Ends p w (w.finish p exit) := by
  rw [World.finish]
  split
  · exact .of_brokers rfl
  · next c hc =>
    have hleft : Ends p w (w.updateConnection p Connection.leave) := quit w .finishing (by decide)
    have htold := hleft.trans (tell (p := p) _ exit)
    dsimp only
    split
    · split
      · exact hleft.trans (.of_brokers rfl)
      · exact htold.trans (.of_brokers rfl)
    · obtain ⟨d, hd⟩ := htold.found hc
      exact htold.trans (shut hd)

lemma finishLate (w : World σ) (exit : Connection.Exit) : Ends p w (w.finishLate p exit) := by
  rw [World.finishLate]
  split
  · exact .of_brokers rfl
  · next c hc =>
    split
    · split
      · obtain ⟨d, hd⟩ := (tell w exit).found hc
        exact (tell w exit).trans (shut hd)
      · exact shut hc
    · exact .of_brokers rfl

lemma parted (w : World σ) (isFree : Bool) : Ends p w (w.part p isFree) := by
  have hlast : ∀ w' : World σ, w'.brokers = w.brokers →
      Ends p w ((w'.updateConnection p fun c => (c.setState .closed).stopReading).emit
        (.readable p)) :=
    fun w' h => ((of_brokers h).trans (part w')).trans (.of_brokers rfl)
  rw [World.part]
  cases isFree with
  | false => exact hlast w rfl
  | true =>
    have hsent := brokers_send w p .closeConnection
    rcases hs : w.send p .closeConnection with ⟨result, w'⟩
    rw [hs] at hsent
    cases result with
    | ok _ => exact hlast _ ((brokers_shutWriter w' p).trans hsent)
    | error _ => exact hlast _ hsent

lemma goodbye (w : World σ) : Ends p w (w.goodbye p) := by
  rw [World.goodbye]
  split
  · exact .of_brokers rfl
  · next c _ =>
    dsimp only
    split
    · exact failPending w _
    · exact (failPending w c.shutDownError).trans (parted _ true)

end Ends

end World

end ObjectBroker
