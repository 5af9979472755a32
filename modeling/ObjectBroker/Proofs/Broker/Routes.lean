import ObjectBroker.Closing
import ObjectBroker.Proofs.Lookup
import ObjectBroker.Proofs.World.Steady

/-!
How a broker comes by its routes and loses them. A route goes when its connection leaves the table,
and is replaced when another connection is made the route to the same endpoint.
-/

namespace ObjectBroker

structure Connection.Becomes (c d : Connection) : Prop where
  role : d.role = c.role
  inbound : d.inbound = c.inbound
  outbound : d.outbound = c.outbound
  rank : c.state.rank ≤ d.state.rank

namespace Connection.Becomes

variable {c d e : Connection}

lemma refl (c : Connection) : c.Becomes c := ⟨rfl, rfl, rfl, Nat.le_refl _⟩

lemma trans (h : c.Becomes d) (h' : d.Becomes e) : c.Becomes e :=
  ⟨h'.role.trans h.role, h'.inbound.trans h.inbound, h'.outbound.trans h.outbound,
    Nat.le_trans h.rank h'.rank⟩

lemma of_state (hr : d.role = c.role) (hi : d.inbound = c.inbound) (ho : d.outbound = c.outbound)
    (hs : d.state = c.state) : c.Becomes d :=
  ⟨hr, hi, ho, Nat.le_of_eq (congrArg ConnectionState.rank hs.symm)⟩

lemma isEstablished (h : c.Becomes d) (hc : c.state ≠ .connecting) (hd : d.isEstablished = true) :
    c.isEstablished = true := by
  have hstate : d.state = .established := by simpa [Connection.isEstablished] using hd
  have hrank := h.rank
  rw [hstate] at hrank
  rw [Connection.isEstablished]
  cases hs : c.state with
  | connecting => exact absurd hs hc
  | established => rfl
  | closing | closed =>
    rw [hs] at hrank
    exact absurd hrank (by decide)

lemma ne_connecting (h : c.Becomes d) (hc : c.state ≠ .connecting) : d.state ≠ .connecting := by
  intro hd
  have hrank := h.rank
  rw [hd] at hrank
  cases hs : c.state with
  | connecting => exact hc hs
  | _ =>
    rw [hs] at hrank
    exact absurd hrank (by decide)

end Connection.Becomes

namespace Broker

structure Alike (b b' : Broker) : Prop where
  connections : b'.connections = b.connections
  table : b'.table = b.table
  routes : b'.routes = b.routes
  lastConnection : b'.lastConnection = b.lastConnection
  isRunning : b'.isRunning = b.isRunning

/-- One step of a broker, with the endpoints for which it makes a connection the route. A
connection leaves the table when it is closed, or when the broker opened it itself and closes it
for want of use. -/
inductive Turn : Broker → List (Endpoint × Nat) → Broker → Prop
  | aside {b b'} (h : b.Alike b') : Turn b [] b'
  | update {b} (id : Nat) (f : Connection → Connection) (hid : ∀ c, c.id = id → (f c).id = id)
      (hf : ∀ c, b.connection? id = some c → c.Becomes (f c)) : Turn b [] (b.update id f)
  | adopt (b : Broker) (role : Role) (peer : Endpoint) (inbound outbound : Nat) :
      Turn b (if role = .initiator then [(peer, b.lastConnection + 1)] else [])
        (b.adopt role peer inbound outbound).2
  | register {b} (id : Nat) (points : List Endpoint) (h : b.config.acceptBidirectional = true) :
      Turn b (points.map (·, id)) (b.registerPoints id points)
  | remove {b} (id : Nat)
      (h : ∀ c, b.connection? id = some c → c.state = .closed ∨ c.role = .initiator) :
      Turn b [] (b.remove id)
  | stop (b : Broker) : Turn b [] (Closing.stop b)

/-- A broker later on, with the endpoints for which connections were made the route since. -/
inductive Course (b : Broker) : List (Endpoint × Nat) → Broker → Prop
  | refl : Course b [] b
  | tail {claims more b' b''} (h : Course b claims b') (ht : Turn b' more b'') :
      Course b (claims ++ more) b''

variable {b b' b'' : Broker} {claims more : List (Endpoint × Nat)} {id : Nat} {e : Endpoint}
  {c d : Connection}

lemma Turn.course (h : Turn b claims b') : Course b claims b' :=
  .tail .refl h

lemma Course.trans (h : Course b claims b') (h' : Course b' more b'') :
    Course b (claims ++ more) b'' := by
  induction h' with
  | refl =>
    rw [List.append_nil]
    exact h
  | tail _ ht ih =>
    rw [← List.append_assoc]
    exact .tail ih ht

section Adopt

variable (b : Broker) (role : Role) (peer : Endpoint) (inbound outbound : Nat)

def entrant : Connection where
  id := b.lastConnection + 1
  role := role
  peer := peer
  order := b.config.order
  fragmentSize := b.config.fragmentSize
  reader := .new b.config.receiveLimit
  inbound := inbound
  outbound := outbound
  state := .established
  nextRequest := Connection.firstRequest role

lemma connections_adopt : (b.adopt role peer inbound outbound).2.connections =
    b.entrant role peer inbound outbound :: b.connections := by
  rw [adopt]
  dsimp only
  split <;> rfl

lemma table_adopt :
    (b.adopt role peer inbound outbound).2.table = (b.lastConnection + 1) :: b.table := by
  rw [adopt]
  dsimp only
  split <;> rfl

lemma lastConnection_adopt :
    (b.adopt role peer inbound outbound).2.lastConnection = b.lastConnection + 1 := by
  rw [adopt]
  dsimp only
  split <;> rfl

lemma isRunning_adopt : (b.adopt role peer inbound outbound).2.isRunning = b.isRunning := by
  rw [adopt]
  dsimp only
  split <;> rfl

end Adopt

lemma registerPoints_table (b : Broker) (n : Nat) (points : List Endpoint) :
    (b.registerPoints n points).table = b.table ∧
      (b.registerPoints n points).isRunning = b.isRunning ∧
      (b.registerPoints n points).lastConnection = b.lastConnection := by
  rw [registerPoints]
  split
  · exact ⟨rfl, rfl, rfl⟩
  · obtain ⟨routes, stats, hb⟩ := foldl_registerPoint b n points
    rw [hb]
    exact ⟨rfl, rfl, rfl⟩

structure Numbered (b : Broker) : Prop where
  le_last : ∀ id ∈ b.connections.map (·.id), id ≤ b.lastConnection
  nodup : (b.connections.map (·.id)).Nodup

lemma Numbered.of_nil (h : b.connections = []) : b.Numbered := by
  refine ⟨fun id hid => ?_, ?_⟩
  · rw [h] at hid
    cases hid
  · rw [h]
    exact List.nodup_nil

lemma Numbered.of_ids (h : b.Numbered)
    (hi : b'.connections.map (·.id) = b.connections.map (·.id))
    (hl : b'.lastConnection = b.lastConnection) : b'.Numbered := by
  refine ⟨?_, ?_⟩
  · rw [hi, hl]
    exact h.le_last
  · rw [hi]
    exact h.nodup

lemma ids_update (b : Broker) {n : Nat} {f : Connection → Connection}
    (hf : ∀ c, c.id = n → (f c).id = n) :
    (b.update n f).connections.map (·.id) = b.connections.map (·.id) := by
  rw [update, List.map_map]
  refine List.map_congr_left fun c _ => ?_
  rw [Function.comp_apply]
  split
  · next hc => rw [hf c hc, hc]
  · rfl

lemma ids_registerPoints (b : Broker) (n : Nat) (points : List Endpoint) :
    (b.registerPoints n points).connections.map (·.id) = b.connections.map (·.id) := by
  rw [registerPoints]
  split
  · rfl
  · obtain ⟨routes, stats, hb⟩ := foldl_registerPoint b n points
    rw [ids_update (f := fun c => { c with isBidirectional := true }) _ fun _ h => h, hb]

lemma Numbered.id_le (h : b.Numbered) (hc : b.connection? id = some c) :
    id ≤ b.lastConnection := by
  have hmem : c ∈ b.connections := List.mem_of_find?_eq_some hc
  rw [← id_of_connection? hc]
  exact h.le_last _ (List.mem_map_of_mem hmem)

lemma Numbered.connection?_of_mem (h : b.Numbered) (hc : c ∈ b.connections) :
    b.connection? c.id = some c := by
  have hfind : ∀ l : List Connection, (l.map (·.id)).Nodup → c ∈ l →
      l.find? (·.id == c.id) = some c := by
    intro l hl hmem
    induction l with
    | nil => cases hmem
    | cons d l ih =>
      rw [List.map_cons, List.nodup_cons] at hl
      rw [List.find?_cons]
      rcases List.mem_cons.mp hmem with rfl | hmem
      · rw [beq_self_eq_true]
      · have hne : d.id ≠ c.id := by
          intro hd
          exact hl.1 (hd ▸ List.mem_map_of_mem hmem)
        rw [beq_eq_false_iff_ne.mpr hne]
        exact ih hl.2 hmem
  exact hfind b.connections h.nodup hc

namespace Turn

lemma numbered (ht : Turn b claims b') (h : b.Numbered) : b'.Numbered := by
  cases ht with
  | aside hb => exact h.of_ids (by rw [hb.connections]) hb.lastConnection
  | update n f hf _ => exact h.of_ids (ids_update b hf) rfl
  | adopt role peer inbound outbound =>
    refine ⟨?_, ?_⟩
    · rw [connections_adopt, lastConnection_adopt, List.map_cons]
      intro id hid
      rcases List.mem_cons.mp hid with rfl | hid
      · exact Nat.le_refl _
      · exact Nat.le_succ_of_le (h.le_last id hid)
    · rw [connections_adopt, List.map_cons, List.nodup_cons]
      refine ⟨fun hmem => ?_, h.nodup⟩
      exact Nat.not_succ_le_self _ (h.le_last _ hmem)
  | register n points _ =>
    exact h.of_ids (ids_registerPoints b n points) (registerPoints_table b n points).2.2
  | remove n _ =>
    rw [Broker.remove]
    split
    · exact h.of_ids rfl rfl
    · exact h
  | stop => exact h.of_ids rfl rfl

lemma isRunning_of (ht : Turn b claims b') (h : b'.isRunning = true) : b.isRunning = true := by
  cases ht with
  | aside hb => rw [← hb.isRunning, h]
  | update => exact h
  | adopt role peer inbound outbound => rw [← isRunning_adopt b role peer inbound outbound, h]
  | register n points _ => rw [← (registerPoints_table b n points).2.1, h]
  | remove n _ =>
    rw [Broker.remove] at h
    split at h <;> exact h
  | stop => cases h

lemma connection (ht : Turn b claims b') (hb : b.Numbered) (hc : b.connection? id = some c) :
    ∃ d, b'.connection? id = some d ∧ c.Becomes d := by
  cases ht with
  | aside ha =>
    rw [connection?, ha.connections]
    exact ⟨c, hc, .refl c⟩
  | update n f hf hn =>
    refine ⟨if c.id = n then f c else c, ?_, ?_⟩
    · rw [connection?_update_map b hf, hc]
      rfl
    · split
      · next hcn =>
        rw [id_of_connection? hc] at hcn
        rw [hcn] at hc
        exact hn c hc
      · exact .refl c
  | adopt role peer inbound outbound =>
    have hle := hb.id_le hc
    have hne : ((b.entrant role peer inbound outbound).id == id) = false :=
      beq_eq_false_iff_ne.mpr (Nat.ne_of_gt (Nat.lt_succ_of_le hle))
    refine ⟨c, ?_, .refl c⟩
    rw [connection?, connections_adopt, List.find?_cons, hne]
    exact hc
  | register n points _ =>
    obtain ⟨flag, hd⟩ := connection?_registerPoints b n points hc
    exact ⟨_, hd, .of_state rfl rfl rfl rfl⟩
  | remove n _ => exact ⟨c, connection?_remove hc n, .refl c⟩
  | stop => exact ⟨c, hc, .refl c⟩

end Turn

namespace Course

lemma numbered (h : Course b claims b') (hb : b.Numbered) : b'.Numbered := by
  induction h with
  | refl => exact hb
  | tail _ ht ih => exact ht.numbered ih

lemma connection (h : Course b claims b') (hb : b.Numbered) (hc : b.connection? id = some c) :
    ∃ d, b'.connection? id = some d ∧ c.Becomes d := by
  induction h with
  | refl => exact ⟨c, hc, .refl c⟩
  | tail h ht ih =>
    obtain ⟨d, hd, hbecomes⟩ := ih
    obtain ⟨d', hd', hbecomes'⟩ := ht.connection (h.numbered hb) hd
    exact ⟨d', hd', hbecomes.trans hbecomes'⟩

end Course

structure IsUp (b : Broker) (id : Nat) : Prop where
  isRunning : b.isRunning = true
  established : ∃ c, b.connection? id = some c ∧ c.isEstablished = true

structure Seats (b : Broker) (id : Nat) (c : Connection) : Prop where
  numbered : b.Numbered
  found : b.connection? id = some c
  role : c.role = .acceptor
  state : c.state ≠ .connecting
  listed : b.IsUp id → id ∈ b.table

lemma Turn.isUp_of (ht : Turn b claims b') (h : b.Seats id c) (hup : b'.IsUp id) : b.IsUp id := by
  obtain ⟨d, hd, hestablished⟩ := hup.established
  obtain ⟨d', hd', hbecomes⟩ := ht.connection h.numbered h.found
  obtain rfl : d' = d := Option.some.inj (hd'.symm.trans hd)
  exact ⟨ht.isRunning_of hup.isRunning, c, h.found, hbecomes.isEstablished h.state hestablished⟩

lemma Seats.ne_removed (h : b.Seats id c) (hup : b.IsUp id) {n : Nat}
    (hn : ∀ d, b.connection? n = some d → d.state = .closed ∨ d.role = .initiator) : id ≠ n := by
  rintro rfl
  obtain ⟨d, hd, hestablished⟩ := hup.established
  obtain rfl : c = d := Option.some.inj (h.found.symm.trans hd)
  rcases hn c hd with hclosed | hinitiator
  · rw [Connection.isEstablished, hclosed] at hestablished
    cases hestablished
  · rw [h.role] at hinitiator
    cases hinitiator

lemma Seats.turn (h : b.Seats id c) (ht : Turn b claims b') : ∃ d, b'.Seats id d ∧ c.Becomes d := by
  obtain ⟨d, hd, hbecomes⟩ := ht.connection h.numbered h.found
  refine ⟨d, ⟨ht.numbered h.numbered, hd, hbecomes.role.trans h.role,
    hbecomes.ne_connecting h.state, ?_⟩, hbecomes⟩
  intro hup
  have hbefore : b.IsUp id := ht.isUp_of h hup
  have hlisted : id ∈ b.table := h.listed hbefore
  cases ht with
  | aside hb =>
    rw [hb.table]
    exact hlisted
  | update => exact hlisted
  | adopt role peer inbound outbound =>
    rw [table_adopt]
    exact List.mem_cons_of_mem _ hlisted
  | register n points _ =>
    rw [(registerPoints_table b n points).1]
    exact hlisted
  | remove n hn =>
    have hne : id ≠ n := h.ne_removed hbefore hn
    rw [Broker.remove]
    split
    · exact List.mem_filter.mpr ⟨hlisted, bne_iff_ne.mpr hne⟩
    · exact hlisted
  | stop => cases hup.isRunning

lemma Seats.course (h : b.Seats id c) (hc : Course b claims b') :
    ∃ d, b'.Seats id d ∧ c.Becomes d := by
  induction hc with
  | refl => exact ⟨c, h, .refl c⟩
  | tail _ ht ih =>
    obtain ⟨d, hd, hbecomes⟩ := ih
    obtain ⟨d', hd', hbecomes'⟩ := hd.turn ht
    exact ⟨d', hd', hbecomes.trans hbecomes'⟩

section Routes

lemma lookup_insertRoute (b : Broker) (e e' : Endpoint) (id : Nat) :
    (b.insertRoute e' id).routes.lookup e = if e = e' then some id else b.routes.lookup e := by
  rw [insertRoute, lookup_cons_ite, lookup_filter_key (· != e')]
  by_cases he : e = e' <;> simp [he]

lemma lookup_registerPoint (b : Broker) (e e' : Endpoint) (id : Nat) :
    (registerPoint id b e').routes.lookup e = if e = e' then some id else b.routes.lookup e := by
  rw [registerPoint]
  split
  · next h =>
    split
    · next he => rw [he, h]
    · rfl
  · exact lookup_insertRoute b e e' id

lemma lookup_registerPoints {points : List Endpoint} (b : Broker) (id : Nat) (e : Endpoint)
    (ha : b.config.acceptBidirectional = true) :
    (b.registerPoints id points).routes.lookup e =
      if e ∈ points then some id else b.routes.lookup e := by
  have hfold : ∀ (points : List Endpoint) (b : Broker),
      (points.foldl (registerPoint id) b).routes.lookup e =
        if e ∈ points then some id else b.routes.lookup e := by
    intro points
    induction points with
    | nil => simp
    | cons e' points ih =>
      intro b
      rw [List.foldl_cons, ih, lookup_registerPoint]
      by_cases hp : e ∈ points <;> by_cases he : e = e' <;> simp [hp, he]
  rw [registerPoints]
  split
  · next h =>
    have hnil : points = [] := by simpa [ha] using h
    rw [hnil]
    simp
  · exact hfold points b

end Routes

def Undisputed (claims : List (Endpoint × Nat)) (e : Endpoint) (id : Nat) : Prop :=
  ∀ n, (e, n) ∈ claims → n = id

lemma Turn.lookup (ht : Turn b claims b') (h : b.Seats id c) (hclaims : Undisputed claims e id)
    (hup : b'.IsUp id) (hroute : b.routes.lookup e = some id) : b'.routes.lookup e = some id := by
  have hbefore : b.IsUp id := ht.isUp_of h hup
  cases ht with
  | aside hb =>
    rw [hb.routes]
    exact hroute
  | update => exact hroute
  | adopt role peer inbound outbound =>
    rw [Broker.adopt]
    dsimp only
    split
    · next hrole =>
      rw [lookup_insertRoute]
      split
      · next he =>
        subst he
        rw [if_pos hrole] at hclaims
        exact congrArg some (hclaims _ List.mem_cons_self)
      · exact hroute
    · exact hroute
  | register n points ha =>
    rw [lookup_registerPoints _ _ _ ha]
    split
    · next he => exact congrArg some (hclaims n (List.mem_map_of_mem he))
    · exact hroute
  | remove n hn =>
    have hne : id ≠ n := h.ne_removed hbefore hn
    rw [Broker.remove]
    split
    · exact lookup_filter hroute (bne_iff_ne.mpr hne)
    · exact hroute
  | stop => cases hup.isRunning

lemma Course.lookup (hc : Course b claims b') (h : b.Seats id c)
    (hclaims : Undisputed claims e id) (hup : b'.IsUp id)
    (hroute : b.routes.lookup e = some id) : b'.routes.lookup e = some id := by
  induction hc with
  | refl => exact hroute
  | tail hc ht ih =>
    obtain ⟨d, hd, -⟩ := h.course hc
    have hlast := ih (fun n hn => hclaims n (List.mem_append_left _ hn)) (ht.isUp_of hd hup)
    exact ht.lookup hd (fun n hn => hclaims n (List.mem_append_right _ hn)) hup hlast

lemma Seats.route? (h : b.Seats id c) (hroute : b.routes.lookup e = some id) (hup : b.IsUp id) :
    b.route? e = some c := by
  obtain ⟨d, hd, hestablished⟩ := hup.established
  obtain rfl : c = d := Option.some.inj (h.found.symm.trans hd)
  have hlisted : b.table.contains id = true := List.contains_iff_mem.mpr (h.listed hup)
  rw [Broker.route?, hroute, Option.bind_eq_bind, Option.bind_some, if_pos hlisted, h.found]
  exact Option.filter_some_pos hestablished

end Broker

end ObjectBroker
