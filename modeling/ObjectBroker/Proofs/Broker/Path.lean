import ObjectBroker.Proofs.Broker.Routes

/-!
All that is done to a broker and to its connections, one change at a time, and what follows for its
routes: the newest connection that was made the route to an endpoint is the route for as long as it
stands in the table, and there is no other.
-/

namespace ObjectBroker

namespace Connection

inductive Change (c : Connection) : Connection → Prop
  | aside (reader : Reader) (nextRequest : UInt32) (isBidirectional : Bool) (outstanding : Nat)
      (isReleased : Bool) :
      Change c { c with reader, nextRequest, isBidirectional, outstanding, isReleased }
  | place (h : c.checkOpen = .ok ()) : Change c c.register.2.2
  | refuse : Change c (c.register.2.2.forget c.register.1)
  | complete (request : UInt32) (r : Response) : Change c (c.complete request r)
  | fail (e : BrokerError) : Change c (c.failPending e)
  | beginClose {d : Connection} (h : c.beginClose? = some d) : Change c d
  | part : Change c (c.setState .closed).stopReading
  | quit (s : ReaderState) (h : s ≠ .reading) : Change c (c.quit s)

/-- The same connection later on, to the same peer; a reader that has stopped does not start again. -/
structure Stays (c d : Connection) : Prop extends c.Becomes d where
  id : d.id = c.id
  peer : d.peer = c.peer
  reading : d.isReading = true → c.isReading = true

namespace Stays

variable {c d e : Connection}

lemma refl (c : Connection) : c.Stays c := ⟨.refl c, rfl, rfl, fun h => h⟩

lemma trans (h : c.Stays d) (h' : d.Stays e) : c.Stays e :=
  ⟨h.toBecomes.trans h'.toBecomes, h'.id.trans h.id, h'.peer.trans h.peer,
    fun he => h.reading (h'.reading he)⟩

end Stays

variable (c : Connection)

lemma stays_setState (s : ConnectionState) : c.Stays (c.setState s) := by
  rw [setState]
  split
  · next h => exact ⟨⟨rfl, rfl, rfl, Nat.le_of_lt h⟩, rfl, rfl, fun h => h⟩
  · exact .refl c

lemma stays_stopReading : c.Stays c.stopReading := by
  rw [stopReading]
  split
  · exact .refl c
  · exact ⟨.of_state rfl rfl rfl rfl, rfl, rfl, fun h => by cases h⟩

lemma stays_register : c.Stays c.register.2.2 := by
  rw [register]
  dsimp only [takeRequestId, respond, forget]
  split <;> exact ⟨.of_state rfl rfl rfl rfl, rfl, rfl, fun h => h⟩

lemma stays_register_state : c.register.2.2.state = c.state := by
  rw [register]
  dsimp only [takeRequestId, respond, forget]
  split <;> rfl

lemma checkOpen_of_state {c d : Connection} (h : d.state = c.state) (hd : d.checkOpen = .ok ()) :
    c.checkOpen = .ok () := by
  rw [checkOpen, h] at hd
  rw [checkOpen]
  cases hs : c.state <;> simp_all

lemma Change.stays {c d : Connection} (h : c.Change d) : c.Stays d := by
  cases h with
  | aside reader nextRequest isBidirectional outstanding isReleased =>
    exact ⟨.of_state rfl rfl rfl rfl, rfl, rfl, fun h => h⟩
  | place _ => exact c.stays_register
  | refuse => exact c.stays_register.trans ⟨.of_state rfl rfl rfl rfl, rfl, rfl, fun h => h⟩
  | complete request r =>
    rw [Connection.complete]
    split <;> exact ⟨.of_state rfl rfl rfl rfl, rfl, rfl, fun h => h⟩
  | fail e => exact ⟨.of_state rfl rfl rfl rfl, rfl, rfl, fun h => h⟩
  | beginClose h =>
    rw [beginClose?] at h
    cases hs : c.state with
    | closing | closed =>
      rw [hs] at h
      cases h
    | connecting | established =>
      rw [hs] at h
      cases h
      refine ⟨⟨rfl, rfl, rfl, ?_⟩, rfl, rfl, fun h => h⟩
      simp [hs, ConnectionState.rank]
  | part => exact (c.stays_setState .closed).trans (stays_stopReading _)
  | quit s hs =>
    exact (c.stays_setState .closed).trans
      ⟨.of_state rfl rfl rfl rfl, rfl, rfl, fun h => absurd (beq_iff_eq.mp h) hs⟩

end Connection

def Directory.IsStopped (d : Directory) : Prop :=
  ∀ a ∈ d.adapters, a.isRunning = false ∧ a.servants = []

namespace Broker

/-- What is worth noting about a change: a connection is made the route to an endpoint, a caller
leaves, with its answer or without, or a connection is taken from the table before it is closed. -/
inductive Mark where
  | claim (endpoint : Endpoint) (id : Nat)
  | collect (id : Nat) (waiter : WaiterId)
  | abandon (id : Nat) (request : UInt32)
  | retire (id : Nat)

/-- One change of a broker. A connection leaves the table when its reader has gone, or when the
broker opened it itself and is about to close it for want of use. -/
inductive Move : Broker → List Mark → Broker → Prop
  | aside (b : Broker) (registry : Registry) (naming : Option ObjectId) (isGone : Bool)
      (stats : Stats) : Move b [] { b with registry, naming, isGone, stats }
  | house {b} {d : Directory}
      (h : b.isRunning = false → b.adapters.IsStopped → d.IsStopped) :
      Move b [] { b with adapters := d }
  | change {b} (id : Nat) (f : Connection → Connection) (hid : ∀ c, c.id = id → (f c).id = id)
      (h : ∀ c, b.connection? id = some c → c.Change (f c)) : Move b [] (b.update id f)
  | collect (b : Broker) (id : Nat) (waiter : WaiterId) :
      Move b [.collect id waiter] (b.update id (·.takeResponse waiter))
  | abandon (b : Broker) (id : Nat) (request : UInt32) :
      Move b [.abandon id request] (b.update id (·.forget request))
  | adopt {b} (role : Role) (peer : Endpoint) (inbound outbound : Nat) (h : b.isRunning = true) :
      Move b (if role = .initiator then [.claim peer (b.lastConnection + 1)] else [])
        (b.adopt role peer inbound outbound).2
  | register {b} {id : Nat} {c : Connection} (points : List Endpoint)
      (ha : b.config.acceptBidirectional = true) (hc : b.connection? id = some c)
      (hrole : c.role = .acceptor) (hreading : c.isReading = true) :
      Move b (points.map (.claim · id)) (b.registerPoints id points)
  | remove {b} {c : Connection} (hc : c ∈ b.connections) (hstate : c.state = .closed)
      (hreading : c.isReading = false) : Move b [] (b.remove c.id)
  | retire {b} {c : Connection} (hc : c ∈ b.connections) (hrole : c.role = .initiator) :
      Move b [.retire c.id] (b.remove c.id)
  | stop (b : Broker) : Move b [] (Closing.stop b)

inductive Path (b : Broker) : List Mark → Broker → Prop
  | refl : Path b [] b
  | tail {marks more b' b''} (h : Path b marks b') (hm : Move b' more b'') :
      Path b (marks ++ more) b''

variable {b b' b'' : Broker} {marks more : List Mark} {id : Nat} {c d : Connection} {e : Endpoint}

lemma Move.path (h : Move b marks b') : Path b marks b' :=
  .tail .refl h

lemma Path.trans (h : Path b marks b') (h' : Path b' more b'') : Path b (marks ++ more) b'' := by
  induction h' with
  | refl =>
    rw [List.append_nil]
    exact h
  | tail _ hm ih =>
    rw [← List.append_assoc]
    exact .tail ih hm

def claims (marks : List Mark) : List (Endpoint × Nat) :=
  marks.filterMap fun
    | .claim e id => some (e, id)
    | _ => none

lemma claims_append : claims (marks ++ more) = claims marks ++ claims more :=
  List.filterMap_append

lemma claims_points (points : List Endpoint) (id : Nat) :
    claims (points.map (.claim · id)) = points.map (·, id) := by
  induction points with
  | nil => rfl
  | cons e points ih => exact congrArg ((e, id) :: ·) ih

lemma claims_adopt (role : Role) (peer : Endpoint) (id : Nat) :
    claims (if role = .initiator then [.claim peer id] else []) =
      if role = .initiator then [(peer, id)] else [] := by
  split <;> rfl

lemma Move.turn (h : Move b marks b') (hb : b.Numbered) : Turn b (claims marks) b' := by
  cases h with
  | aside registry naming isGone stats => exact .aside ⟨rfl, rfl, rfl, rfl, rfl⟩
  | house _ => exact .aside ⟨rfl, rfl, rfl, rfl, rfl⟩
  | change id f hid h => exact .update id f hid fun c hc => (h c hc).stays.toBecomes
  | collect id waiter =>
    exact .update id _ (fun _ h => h) fun c _ => .of_state rfl rfl rfl rfl
  | abandon id request =>
    exact .update id _ (fun _ h => h) fun c _ => .of_state rfl rfl rfl rfl
  | adopt role peer inbound outbound _ =>
    rw [claims_adopt]
    exact .adopt b role peer inbound outbound
  | register points ha hc hrole hreading =>
    rw [claims_points]
    exact .register _ points ha
  | remove hc hstate _ =>
    refine .remove _ fun d hd => .inl ?_
    obtain rfl := Option.some.inj ((hb.connection?_of_mem hc).symm.trans hd)
    exact hstate
  | retire hc hrole =>
    refine .remove _ fun d hd => .inr ?_
    obtain rfl := Option.some.inj ((hb.connection?_of_mem hc).symm.trans hd)
    exact hrole
  | stop => exact .stop b

lemma Path.course (h : Path b marks b') (hb : b.Numbered) :
    Course b (claims marks) b' ∧ b'.Numbered := by
  induction h with
  | refl => exact ⟨.refl, hb⟩
  | tail _ hm ih =>
    rw [claims_append]
    exact ⟨.tail ih.1 (hm.turn ih.2), (hm.turn ih.2).numbered ih.2⟩

lemma connection?_update_ite {f : Connection → Connection} (hid : ∀ c, c.id = id → (f c).id = id)
    {n : Nat} (hc : b.connection? n = some c) :
    (b.update id f).connection? n = some (if n = id then f c else c) := by
  rw [connection?_update_map b hid, hc, Option.map_some, id_of_connection? hc]

def ids (b : Broker) : List Nat :=
  b.connections.map (·.id)

lemma mem_listed_iff : c ∈ b.listed ↔ c ∈ b.connections ∧ c.id ∈ b.table := by
  simp [listed]

lemma exists_connection?_iff : (∃ c, b.connection? id = some c) ↔ id ∈ b.ids := by
  rw [← Option.isSome_iff_exists, connection?, List.find?_isSome, ids, List.mem_map]
  simp

inductive Alters (id : Nat) (marks : List Mark) (c : Connection) : Connection → Prop
  | change {d : Connection} (h : c.Change d) : Alters id marks c d
  | collect {waiter : WaiterId} (h : .collect id waiter ∈ marks) :
      Alters id marks c (c.takeResponse waiter)
  | abandon {request : UInt32} (h : .abandon id request ∈ marks) :
      Alters id marks c (c.forget request)

lemma Alters.refl : Alters id marks c c :=
  .change (.aside c.reader c.nextRequest c.isBidirectional c.outstanding c.isReleased)

lemma Alters.stays (h : Alters id marks c d) : c.Stays d := by
  cases h with
  | change h => exact h.stays
  | collect h => exact ⟨.of_state rfl rfl rfl rfl, rfl, rfl, fun h => h⟩
  | abandon h => exact ⟨.of_state rfl rfl rfl rfl, rfl, rfl, fun h => h⟩

namespace Move

lemma alters (h : Move b marks b') (hb : b.Numbered) (hc : b.connection? id = some c) :
    ∃ d, b'.connection? id = some d ∧ Alters id marks c d := by
  cases h with
  | change n f hid hf =>
    refine ⟨_, connection?_update_ite hid hc, ?_⟩
    split
    · next hn => exact .change (hf c (hn ▸ hc))
    · exact .refl
  | collect n waiter =>
    refine ⟨_, connection?_update_ite (f := (·.takeResponse waiter)) (fun _ h => h) hc, ?_⟩
    split
    · next hn => exact .collect (hn ▸ List.mem_singleton_self _)
    · exact .refl
  | abandon n request =>
    refine ⟨_, connection?_update_ite (f := (·.forget request)) (fun _ h => h) hc, ?_⟩
    split
    · next hn => exact .abandon (hn ▸ List.mem_singleton_self _)
    · exact .refl
  | adopt role peer inbound outbound _ =>
    have hne : ((b.entrant role peer inbound outbound).id == id) = false :=
      beq_eq_false_iff_ne.mpr (Nat.ne_of_gt (Nat.lt_succ_of_le (hb.id_le hc)))
    refine ⟨c, ?_, .refl⟩
    rw [connection?, connections_adopt, List.find?_cons, hne]
    exact hc
  | register points _ _ _ _ =>
    obtain ⟨flag, hd⟩ := connection?_registerPoints b _ points hc
    exact ⟨_, hd, .change (.aside c.reader c.nextRequest flag c.outstanding c.isReleased)⟩
  | remove _ _ _ => exact ⟨c, connection?_remove hc _, .refl⟩
  | retire _ _ => exact ⟨c, connection?_remove hc _, .refl⟩
  | _ => exact ⟨c, hc, .refl⟩

lemma stays (h : Move b marks b') (hb : b.Numbered) (hc : b.connection? id = some c) :
    ∃ d, b'.connection? id = some d ∧ c.Stays d := by
  obtain ⟨d, hd, halters⟩ := h.alters hb hc
  exact ⟨d, hd, halters.stays⟩

lemma ids (h : Move b marks b') : b'.ids = b.ids ∨
    ∃ role peer inbound outbound, b' = (b.adopt role peer inbound outbound).2 := by
  cases h with
  | change n f hid _ => exact .inl (ids_update b hid)
  | collect n waiter => exact .inl (ids_update b fun _ h => h)
  | abandon n request => exact .inl (ids_update b fun _ h => h)
  | adopt role peer inbound outbound _ => exact .inr ⟨role, peer, inbound, outbound, rfl⟩
  | register points _ _ _ _ => exact .inl (ids_registerPoints b _ points)
  | remove _ _ _ | retire _ _ =>
    rw [Broker.ids, connections_remove]
    exact .inl rfl
  | _ => exact .inl rfl

lemma stays_of_ids (h : Move b marks b') (hb : b.Numbered) (hids : b'.ids = b.ids)
    (hd : b'.connection? id = some d) : ∃ c, b.connection? id = some c ∧ c.Stays d := by
  have hmem : id ∈ b.ids := hids ▸ exists_connection?_iff.mp ⟨d, hd⟩
  obtain ⟨c, hc⟩ := exists_connection?_iff.mpr hmem
  obtain ⟨d', hd', hcd⟩ := h.stays hb hc
  obtain rfl := Option.some.inj (hd.symm.trans hd')
  exact ⟨c, hc, hcd⟩

lemma config (h : Move b marks b') : b'.config = b.config := by
  cases h with
  | adopt role peer inbound outbound _ =>
    rw [Broker.adopt]
    dsimp only
    split <;> rfl
  | register points _ _ _ _ =>
    rw [registerPoints]
    split
    · rfl
    · obtain ⟨routes, stats, hb⟩ := foldl_registerPoint b _ points
      rw [hb]
      rfl
  | remove _ _ _ | retire _ _ =>
    rw [Broker.remove]
    split <;> rfl
  | _ => rfl

lemma table (h : Move b marks b') :
    b.lastConnection ≤ b'.lastConnection ∧
      ∀ id ∈ b'.table, id ∈ b.table ∨ b.lastConnection < id := by
  cases h with
  | adopt role peer inbound outbound _ =>
    rw [lastConnection_adopt, table_adopt]
    refine ⟨Nat.le_succ _, fun id hid => ?_⟩
    rcases List.mem_cons.mp hid with rfl | hid
    · exact .inr (Nat.lt_succ_self _)
    · exact .inl hid
  | register points _ _ _ _ =>
    obtain ⟨htable, -, hlast⟩ := registerPoints_table b ‹_› points
    rw [htable, hlast]
    exact ⟨Nat.le_refl _, fun _ h => .inl h⟩
  | remove _ _ _ | retire _ _ =>
    rw [Broker.remove]
    split
    · exact ⟨Nat.le_refl _, fun _ h => .inl (List.mem_of_mem_filter h)⟩
    · exact ⟨Nat.le_refl _, fun _ h => .inl h⟩
  | stop => exact ⟨Nat.le_refl _, fun _ h => by cases h⟩
  | _ => exact ⟨Nat.le_refl _, fun _ h => .inl h⟩

end Move

namespace Path

lemma stays (h : Path b marks b') (hb : b.Numbered) (hc : b.connection? id = some c) :
    ∃ d, b'.connection? id = some d ∧ c.Stays d := by
  induction h with
  | refl => exact ⟨c, hc, .refl c⟩
  | tail h hm ih =>
    obtain ⟨d, hd, hcd⟩ := ih
    obtain ⟨e, he, hde⟩ := hm.stays (h.course hb).2 hd
    exact ⟨e, he, hcd.trans hde⟩

lemma config (h : Path b marks b') : b'.config = b.config := by
  induction h with
  | refl => rfl
  | tail _ hm ih => exact hm.config.trans ih

lemma table (h : Path b marks b') :
    b.lastConnection ≤ b'.lastConnection ∧
      ∀ id ∈ b'.table, id ∈ b.table ∨ b.lastConnection < id := by
  induction h with
  | refl => exact ⟨Nat.le_refl _, fun _ h => .inl h⟩
  | tail _ hm ih =>
    refine ⟨Nat.le_trans ih.1 hm.table.1, fun id hid => ?_⟩
    rcases hm.table.2 id hid with hid | hid
    · exact ih.2 id hid
    · exact .inr (Nat.lt_of_le_of_lt ih.1 hid)

end Path

def newest (k : List (Endpoint × Nat)) (e : Endpoint) : Option Nat :=
  k.reverse.lookup e

section Newest

variable {k m : List (Endpoint × Nat)}

lemma newest_append : newest (k ++ m) e = (newest m e).or (newest k e) := by
  rw [newest, List.reverse_append, List.lookup_append, newest, newest]

lemma newest_points (points : List Endpoint) (id : Nat) :
    newest (points.map (·, id)) e = if e ∈ points then some id else none := by
  induction points with
  | nil => rfl
  | cons e' points ih =>
    change newest ([(e', id)] ++ points.map (·, id)) e = _
    rw [newest_append, ih, newest, List.reverse_singleton, lookup_cons_ite]
    by_cases hp : e ∈ points
    · simp [hp]
    · rw [if_neg hp]
      by_cases he : e = e' <;> simp [hp, he]

lemma exists_newest (h : (e, id) ∈ k) : ∃ id', newest k e = some id' :=
  Option.isSome_iff_exists.mp
    (List.lookup_isSome_iff.mpr ⟨_, List.mem_reverse.mpr h, beq_self_eq_true e⟩)

lemma mem_of_newest (h : newest k e = some id) : (e, id) ∈ k := by
  obtain ⟨front, back, hk, -⟩ := List.lookup_eq_some_iff.mp h
  rw [← List.mem_reverse, hk]
  simp

end Newest

section Lookup

lemma routes_adopt (b : Broker) (role : Role) (peer : Endpoint) (inbound outbound : Nat) :
    (b.adopt role peer inbound outbound).2.routes = if role = .initiator then
      (b.insertRoute peer (b.lastConnection + 1)).routes else b.routes := by
  rw [Broker.adopt]
  dsimp only
  split <;> rfl

lemma nodup_insertRoute (h : (b.routes.map (·.1)).Nodup) :
    ((b.insertRoute e id).routes.map (·.1)).Nodup := by
  rw [insertRoute, List.map_cons, List.nodup_cons]
  refine ⟨?_, h.sublist (List.filter_sublist.map _)⟩
  simp

lemma nodup_registerPoints (h : (b.routes.map (·.1)).Nodup) (id : Nat) (points : List Endpoint) :
    ((b.registerPoints id points).routes.map (·.1)).Nodup := by
  have hfold : ∀ (points : List Endpoint) (b : Broker), (b.routes.map (·.1)).Nodup →
      ((points.foldl (registerPoint id) b).routes.map (·.1)).Nodup := by
    intro points
    induction points with
    | nil => exact fun b h => h
    | cons e points ih =>
      intro b h
      refine ih _ ?_
      rw [registerPoint]
      split
      · exact h
      · exact nodup_insertRoute h
  rw [registerPoints]
  split
  · exact h
  · exact hfold points b h

end Lookup

structure Routed (b : Broker) (k : List (Endpoint × Nat)) : Prop where
  numbered : b.Numbered
  listed : ∀ id ∈ b.table, ∃ c, b.connection? id = some c
  claimed : ∀ r ∈ k, ∃ c, b.connection? r.2 = some c
  /-- A connection on which offers can come stands in the table. -/
  seated : b.isRunning = true → ∀ id c, b.connection? id = some c → c.role = .acceptor →
    c.isReading = true → id ∈ b.table
  unique : (b.routes.map (·.1)).Nodup
  lookup : b.isRunning = true → ∀ e, b.routes.lookup e = (newest k e).filter (· ∈ b.table)

namespace Routed

variable {k : List (Endpoint × Nat)}

lemma of_new (hc : b.connections = []) (ht : b.table = []) (hr : b.routes = []) : b.Routed [] := by
  have hnone : ∀ id, b.connection? id = none := fun id => by rw [connection?, hc]; rfl
  refine ⟨.of_nil hc, ?_, by simp, ?_, by simp [hr], ?_⟩
  · simp [ht]
  · simp [hnone]
  · simp [hr, newest]

lemma of_same (h : b.Routed k) (hm : Move b marks b') (hids : b'.ids = b.ids)
    (hrun : b'.isRunning = b.isRunning) (htable : b'.table = b.table)
    (hroutes : b'.routes = b.routes) : b'.Routed k := by
  refine ⟨(hm.turn h.numbered).numbered h.numbered, ?_, ?_, ?_, hroutes ▸ h.unique, ?_⟩
  · intro id hid
    rw [exists_connection?_iff, hids, ← exists_connection?_iff]
    exact h.listed id (htable ▸ hid)
  · intro r hr
    rw [exists_connection?_iff, hids, ← exists_connection?_iff]
    exact h.claimed r hr
  · intro hb' id d hd hrole hreading
    obtain ⟨c, hc, hcd⟩ := hm.stays_of_ids h.numbered hids hd
    rw [htable]
    exact h.seated (hrun ▸ hb') id c hc (hcd.role ▸ hrole) (hcd.reading hreading)
  · rw [hrun, htable, hroutes]
    exact h.lookup

lemma ne_next (h : b.Routed k) (hn : newest k e = some id) : id ≠ b.lastConnection + 1 := by
  obtain ⟨c, hc⟩ := h.claimed _ (mem_of_newest hn)
  exact Nat.ne_of_lt (Nat.lt_succ_of_le (h.numbered.id_le hc))

lemma adopt (h : b.Routed k) (role : Role) (peer : Endpoint) (inbound outbound : Nat)
    (hrun : b.isRunning = true) : (b.adopt role peer inbound outbound).2.Routed
      (k ++ if role = .initiator then [(peer, b.lastConnection + 1)] else []) := by
  have hm := Move.adopt role peer inbound outbound hrun
  have hids : (b.adopt role peer inbound outbound).2.ids = (b.lastConnection + 1) :: b.ids := by
    rw [ids, connections_adopt]
    rfl
  refine ⟨(hm.turn h.numbered).numbered h.numbered, ?_, ?_, ?_, ?_, ?_⟩
  · intro id hid
    rw [exists_connection?_iff, hids, List.mem_cons]
    rw [table_adopt, List.mem_cons] at hid
    exact hid.imp_right fun hid => exists_connection?_iff.mp (h.listed id hid)
  · intro r hr
    rw [exists_connection?_iff, hids, List.mem_cons]
    rcases List.mem_append.mp hr with hr | hr
    · exact .inr (exists_connection?_iff.mp (h.claimed r hr))
    · split at hr
      · rw [List.mem_singleton.mp hr]
        exact .inl rfl
      · cases hr
  · intro _ id d hd hrole hreading
    rw [table_adopt, List.mem_cons]
    rw [connection?, connections_adopt, List.find?_cons] at hd
    split at hd
    · next hid => exact .inl (beq_iff_eq.mp hid).symm
    · exact .inr (h.seated hrun id d hd hrole hreading)
  · rw [routes_adopt]
    split
    · exact nodup_insertRoute h.unique
    · exact h.unique
  · intro _ e
    have hold : (newest k e).filter (· ∈ (b.lastConnection + 1) :: b.table) =
        (newest k e).filter (· ∈ b.table) := by
      cases hn : newest k e with
      | none => rfl
      | some id => simp [Option.filter_some, h.ne_next hn]
    rw [routes_adopt, table_adopt, newest_append]
    split
    · rw [lookup_insertRoute, newest, List.reverse_singleton, lookup_cons_ite]
      split
      · simp [Option.filter_some]
      · simpa [h.lookup hrun e] using hold.symm
    · simpa [newest, h.lookup hrun e] using hold.symm

lemma register (h : b.Routed k) (points : List Endpoint)
    (ha : b.config.acceptBidirectional = true) (hc : b.connection? id = some c)
    (hrole : c.role = .acceptor) (hreading : c.isReading = true) :
    (b.registerPoints id points).Routed (k ++ points.map (·, id)) := by
  have hm := Move.register points ha hc hrole hreading
  have hids : (b.registerPoints id points).ids = b.ids := ids_registerPoints b id points
  obtain ⟨htable, hrun, -⟩ := registerPoints_table b id points
  refine ⟨(hm.turn h.numbered).numbered h.numbered, ?_, ?_, ?_, ?_, ?_⟩
  · intro id hid
    rw [exists_connection?_iff, hids, ← exists_connection?_iff]
    exact h.listed id (htable ▸ hid)
  · intro r hr
    rw [exists_connection?_iff, hids, ← exists_connection?_iff]
    rcases List.mem_append.mp hr with hr | hr
    · exact h.claimed r hr
    · obtain ⟨e, -, rfl⟩ := List.mem_map.mp hr
      exact ⟨c, hc⟩
  · intro hb' id d hd hrole hreading
    obtain ⟨c, hc, hcd⟩ := hm.stays_of_ids h.numbered hids hd
    rw [htable]
    exact h.seated (hrun ▸ hb') id c hc (hcd.role ▸ hrole) (hcd.reading hreading)
  · exact nodup_registerPoints h.unique id points
  · intro hb' e
    have hid : id ∈ b.table := h.seated (hrun ▸ hb') id c hc hrole hreading
    rw [lookup_registerPoints b id e ha, newest_append, newest_points, htable,
      h.lookup (hrun ▸ hb') e]
    split
    · simp [Option.filter_some, hid]
    · simp

lemma remove (h : b.Routed k) (hc : c ∈ b.connections)
    (hgone : c.isReading = false ∨ c.role = .initiator)
    (hnumbered : (b.remove c.id).Numbered) : (b.remove c.id).Routed k := by
  rw [Broker.remove] at hnumbered ⊢
  split
  · next hlisted =>
    rw [if_pos hlisted] at hnumbered
    refine ⟨hnumbered, ?_, h.claimed, ?_, h.unique.sublist (List.filter_sublist.map _), ?_⟩
    · intro id hid
      exact h.listed id (List.mem_of_mem_filter hid)
    · intro hrun id d hd hrole hreading
      refine List.mem_filter.mpr ⟨h.seated hrun id d hd hrole hreading, bne_iff_ne.mpr ?_⟩
      rintro rfl
      obtain rfl := Option.some.inj ((h.numbered.connection?_of_mem hc).symm.trans hd)
      rcases hgone with hstopped | hinitiator
      · rw [hstopped] at hreading
        cases hreading
      · rw [hinitiator] at hrole
        cases hrole
    · intro hrun e
      rw [lookup_filter_value h.unique, h.lookup hrun e, Option.filter_filter]
      cases newest k e with
      | none => rfl
      | some id => simp [Option.filter_some, and_comm]
  · exact h

lemma move (h : b.Routed k) (hm : Move b marks b') : b'.Routed (k ++ claims marks) := by
  cases hm with
  | aside registry naming isGone stats =>
    rw [claims, List.filterMap_nil, List.append_nil]
    exact h.of_same (.aside b registry naming isGone stats) rfl rfl rfl rfl
  | house hd =>
    rw [claims, List.filterMap_nil, List.append_nil]
    exact h.of_same (.house hd) rfl rfl rfl rfl
  | change id f hid hf =>
    rw [claims, List.filterMap_nil, List.append_nil]
    exact h.of_same (.change id f hid hf) (ids_update b hid) rfl rfl rfl
  | collect id waiter =>
    rw [show claims [.collect id waiter] = [] from rfl, List.append_nil]
    exact h.of_same (.collect b id waiter) (ids_update b fun _ h => h) rfl rfl rfl
  | abandon id request =>
    rw [show claims [.abandon id request] = [] from rfl, List.append_nil]
    exact h.of_same (.abandon b id request) (ids_update b fun _ h => h) rfl rfl rfl
  | adopt role peer inbound outbound hrun =>
    rw [claims_adopt]
    exact h.adopt role peer inbound outbound hrun
  | register points ha hc hrole hreading =>
    rw [claims_points]
    exact h.register points ha hc hrole hreading
  | remove hc hstate hreading =>
    rw [claims, List.filterMap_nil, List.append_nil]
    exact h.remove hc (.inl hreading)
      (((Move.remove hc hstate hreading).turn h.numbered).numbered h.numbered)
  | retire hc hrole =>
    rw [show claims [.retire _] = [] from rfl, List.append_nil]
    exact h.remove hc (.inr hrole) (((Move.retire hc hrole).turn h.numbered).numbered h.numbered)
  | stop =>
    rw [claims, List.filterMap_nil, List.append_nil]
    exact ⟨((Move.stop b).turn h.numbered).numbered h.numbered, by simp [Closing.stop], h.claimed,
      by simp [Closing.stop], by simp [Closing.stop], by simp [Closing.stop]⟩

lemma path (h : b.Routed k) (hp : Path b marks b') : b'.Routed (k ++ claims marks) := by
  induction hp with
  | refl =>
    rw [claims, List.filterMap_nil, List.append_nil]
    exact h
  | tail _ hm ih =>
    rw [claims_append, ← List.append_assoc]
    exact ih.move hm

end Routed

end Broker

end ObjectBroker
