import Mathlib.Algebra.BigOperators.Group.List.Basic
import ObjectBroker.Proofs.Connection.Ticket
import ObjectBroker.Proofs.World.Wire

/-!
Reading a stream to its end. Requests are put to work one by one, and replies are handed to those
who wait for them.
-/

namespace ObjectBroker

lemma lookup_concat_of_forall_ne {α β : Type} [BEq α] [LawfulBEq α] {l : List (α × β)} {a : α}
    (h : ∀ x ∈ l, x.1 ≠ a) (b : β) : (l ++ [(a, b)]).lookup a = some b := by
  induction l with
  | nil => simp
  | cons x l ih =>
    have hx : (a == x.1) = false := beq_false_of_ne (h x List.mem_cons_self).symm
    rw [List.cons_append, List.lookup_cons, hx]
    exact ih fun y hy => h y (List.mem_cons_of_mem x hy)

lemma filter_concat_of_forall_ne {α β : Type} [BEq α] [LawfulBEq α] {l : List (α × β)} {a : α}
    (h : ∀ x ∈ l, x.1 ≠ a) (b : β) : (l ++ [(a, b)]).filter (·.1 != a) = l := by
  have hl : l.filter (·.1 != a) = l :=
    List.filter_eq_self.mpr fun x hx => bne_iff_ne.mpr (h x hx)
  rw [List.filter_append, hl]
  simp

structure Delivery where
  reply : Reply
  waiter : WaiterId

def Delivery.key (x : Delivery) : UInt32 × WaiterId :=
  (x.reply.id, x.waiter)

def Delivery.response (order : ByteOrder) (x : Delivery) : WaiterId × Response :=
  (x.waiter, .ok (.reply x.reply, order))

lemma Connection.complete_last {c : Connection} {rest : List (UInt32 × WaiterId)} {x : Delivery}
    (h : c.pending = rest ++ [x.key]) (hne : ∀ y ∈ rest, y.1 ≠ x.reply.id) (order : ByteOrder) :
    c.complete x.reply.id (.ok (.reply x.reply, order)) =
      { c with pending := rest, responses := x.response order :: c.responses } := by
  have hlookup : c.pending.lookup x.reply.id = some x.waiter := by
    rw [h]
    exact lookup_concat_of_forall_ne hne x.waiter
  have hfilter : c.pending.filter (·.1 != x.reply.id) = rest := by
    rw [h]
    exact filter_concat_of_forall_ne hne x.waiter
  rw [Connection.complete, hlookup]
  dsimp only
  rw [Connection.forget, hfilter]
  rfl

namespace World

variable {σ : Type} {w v u : World σ} {p q : Port} {c c' d d' : Connection} {m : Message}
  {ms : List Message} {P : Port → Prop} {s : BrokerId} {order : ByteOrder}

lemma Passes.frames_ne_nil (h : Passes d c m) : c.frames m ≠ [] := by
  intro hnil
  obtain ⟨octets, hoctets, hread⟩ :=
    Reader.readMessage_written h.fragmentSize h.kind h.length h.limit
  obtain rfl : c.frames m = octets := Except.ok.inj (h.frames.symm.trans hoctets)
  rw [hnil] at hread
  -- A fresh reader at the end of its stream would have to find a message there.
  let r : Reader := .new d.reader.limit
  have hat : r.At ⟨[], true⟩ c.order d.reader.limit ([] ++ []) :=
    ⟨rfl, rfl, fun known hknown => absurd hknown (Option.not_mem_none known), rfl⟩
  obtain ⟨r', source', hdone, -⟩ := hread hat ⟨fun _ => rfl, rfl⟩
  rw [Reader.readMessage, Reader.readFrames, Reader.readFrame_end hat] at hdone
  cases hdone

lemma Wire.length_le (h : w.Wire c d q ms) : ms.length ≤ d.reader.available (w.inlet d) := by
  have hlength : ms.length ≤ (ms.flatMap c.frames).length := by
    have hone := List.length_le_sum_of_one_le (ms.map fun m => (c.frames m).length)
    rw [List.length_map] at hone
    rw [List.length_flatMap]
    refine hone fun n hn => ?_
    obtain ⟨m, hm, rfl⟩ := List.mem_map.mp hn
    exact List.length_pos_of_ne_nil (h.passes m hm).frames_ne_nil
  rw [← h.rest, List.length_append] at hlength
  rw [Reader.available, Octets.total_eq]
  exact hlength

lemma receiveUpTo_done (hd : w.Has q d) (hr : d.isReading = true)
    (hread : w.readNext q d = (.done (m, order), v)) (hhandle : v.handle q d order m = (u, none))
    (k : Nat) : w.receiveUpTo q (k + 1) = u.receiveUpTo q k := by
  rw [receiveUpTo, hd.found]
  dsimp only
  rw [hr, hread]
  dsimp only
  rw [hhandle]
  rfl

lemma Wire.receiveUpTo_empty (h : w.Wire c d q []) (hd : w.Has q d) (hr : d.isReading = true)
    (hq : P q) (k : Nat) :
    ∃ reader, reader.limit = d.reader.limit ∧ (w.receiveUpTo q (k + 1)).Has q { d with reader } ∧
      (w.receiveUpTo q (k + 1)).Wire c { d with reader } q [] ∧
      Stirs P s [] [] w (w.receiveUpTo q (k + 1)) := by
  obtain ⟨hread, hwire⟩ := h.readNext_empty
  have hreceive : w.receiveUpTo q (k + 1) = Wire.read w q d { d.reader with buffer := [] } [] := by
    rw [receiveUpTo, hd.found]
    dsimp only
    rw [hr, hread]
    rfl
  rw [hreceive]
  exact ⟨{ d.reader with buffer := [] }, rfl, Wire.has_read hd _ _, hwire, h.stirs_read hq _ _⟩

lemma Stirs.acceptRequest (w : World σ) (hq : P q) (hd : d.id = q.connection) (r : Request)
    (order : ByteOrder) :
    Stirs P q.broker [.broker q.broker] [.started (.serve q r order)] w
      (w.acceptRequest q d r order) := by
  have hoffer : Stirs P q.broker [] [] w
      (w.updateBroker q.broker fun b => b.takeOffer d r.contexts) :=
    .still (.takeOffer hq hd r.contexts) rfl rfl rfl
  have htrack := hoffer.trans (.updateConnection hq (f := Connection.track) fun _ h => h)
  exact (htrack.trans (.hold _ (.broker q.broker))).trans (.emit _ _)

lemma Wire.receiveUpTo_request {r : Request} {ms : List Message}
    (h : w.Wire c d q (.request r :: ms)) (hd : w.Has q d) (hr : d.isReading = true) (hq : P q) :
    ∃ u d', d.Kin d' ∧ d'.isReading = true ∧ (∀ k, w.receiveUpTo q (k + 1) = u.receiveUpTo q k) ∧
      u.Has q d' ∧ u.Wire c d' q ms ∧
      Stirs P q.broker [.broker q.broker] [.started (.serve q r c.order)] w u := by
  obtain ⟨reader, chunks, hread, hlimit, hwire⟩ := h.readNext
  let v := Wire.read w q d reader chunks
  have hv : v.Has q { d with reader } := Wire.has_read hd reader chunks
  have hhandle : v.handle q d c.order (.request r) = (v.acceptRequest q d r c.order, none) := by
    rw [handle, if_pos hv.alive]
  obtain ⟨flag, hu⟩ := hv.acceptRequest hd.id_eq r c.order
  let e := { { d with reader } with isBidirectional := flag }.track
  have hkin : d.Kin e := .trans (.of_reader hlimit) rfl
  have hwire' : (v.acceptRequest q d r c.order).Wire c e q ms :=
    hwire.of_pipes rfl (.refl c) rfl rfl
  refine ⟨v.acceptRequest q d r c.order, e, hkin, hr, receiveUpTo_done hd hr hread hhandle, hu,
    hwire', ?_⟩
  exact (h.stirs_read hq reader chunks).trans (.acceptRequest v hq hd.id_eq r c.order)

lemma Wire.receiveUpTo_requests {rs : List Request} (h : w.Wire c d q (rs.map .request))
    (hd : w.Has q d) (hr : d.isReading = true) (hq : P q) {k : Nat} (hk : rs.length < k) :
    ∃ d', d.Kin d' ∧ (w.receiveUpTo q k).Has q d' ∧ (w.receiveUpTo q k).Wire c d' q [] ∧
      Stirs P q.broker (List.replicate rs.length (.broker q.broker))
        (rs.map fun r => .started (.serve q r c.order)) w (w.receiveUpTo q k) := by
  induction rs generalizing w d k with
  | nil =>
    obtain ⟨k, rfl⟩ := Nat.exists_eq_add_one_of_ne_zero (Nat.ne_zero_of_lt hk)
    obtain ⟨reader, hlimit, hd', hwire, hstirs⟩ := h.receiveUpTo_empty hd hr hq k
    exact ⟨_, .of_reader hlimit, hd', hwire, hstirs⟩
  | cons r rs ih =>
    obtain ⟨k, rfl⟩ := Nat.exists_eq_add_one_of_ne_zero (Nat.ne_zero_of_lt hk)
    obtain ⟨u, e, hkin, hr', hnext, hu, hwire, hstep⟩ := h.receiveUpTo_request hd hr hq
    obtain ⟨d', hkin', hd', hdone, hstirs⟩ := ih hwire hu hr' (Nat.lt_of_succ_lt_succ hk)
    rw [hnext]
    refine ⟨d', hkin.trans hkin', hd', hdone, ?_⟩
    rw [List.length_cons, List.replicate_succ']
    exact hstep.trans hstirs

lemma receive_eq (hd : w.Has q d) (hr : d.isReading = true) :
    w.receive q = w.receiveUpTo q (d.reader.available (w.inlet d) + 1) := by
  have hstate : d.readerState = .reading := beq_iff_eq.mp hr
  rw [receive, hd.found]
  dsimp only
  rw [hstate]

lemma Wire.receive_requests {rs : List Request} (h : w.Wire c d q (rs.map .request))
    (hd : w.Has q d) (hr : d.isReading = true) (hq : P q) :
    ∃ d', d.Kin d' ∧ (w.receive q).Has q d' ∧ (w.receive q).Wire c d' q [] ∧
      Stirs P q.broker (List.replicate rs.length (.broker q.broker))
        (rs.map fun r => .started (.serve q r c.order)) w (w.receive q) := by
  have hlength := h.length_le
  rw [List.length_map] at hlength
  rw [receive_eq hd hr]
  exact h.receiveUpTo_requests hd hr hq (Nat.lt_succ_of_le hlength)

lemma Wire.isFull_of_empty (h : w.Wire c d q []) : (w.pipe d.inbound).isFull = false := by
  have hnil : (w.pipe d.inbound).chunks.flatten = [] := (List.append_eq_nil_iff.mp h.rest).2
  have hload : (w.pipe d.inbound).load = 0 := by
    rw [Pipe.load, Octets.total_eq, hnil]
    rfl
  rw [Pipe.isFull, hload]
  simp

/-- Whoever reads a stream takes all that is on it, and nobody waits at its other end. -/
lemma Wire.isStuck_of_receive (h : w.Wire c d q ms) (h' : (w.receive q).Wire c d' q [])
    (hd : d'.inbound = d.inbound) : w.isStuck c.outbound = false := by
  have hfull := h'.isFull_of_empty
  rw [hd] at hfull
  rw [isStuck, h.joined, h.reader]
  dsimp only
  rw [hfull, Bool.and_false]

lemma Wire.isStuck_requests {rs : List Request} (h : w.Wire c d q (rs.map .request))
    (hd : w.Has q d) (hr : d.isReading = true) : w.isStuck c.outbound = false := by
  obtain ⟨d', hkin, -, hwire, -⟩ := h.receive_requests (P := fun _ => True) hd hr trivial
  exact h.isStuck_of_receive hwire hkin.inbound

lemma complete_eq (hd : w.Has p c) {request : UInt32} {waiter : WaiterId}
    (h : c.pending.lookup request = some waiter) (r : Response) :
    w.complete p request r =
      (w.updateConnection p (·.complete request r)).emit (.responded p waiter) := by
  rw [complete, hd.found, Option.bind_some, h]

lemma Wire.receiveUpTo_reply {x : Delivery} {ms : List Message} {rest : List (UInt32 × WaiterId)}
    (h : w.Wire c d q (.reply x.reply :: ms)) (hd : w.Has q d) (hr : d.isReading = true) (hq : P q)
    (hlast : d.pending = rest ++ [x.key]) (hne : ∀ y ∈ rest, y.1 ≠ x.reply.id) :
    ∃ u reader, reader.limit = d.reader.limit ∧
      (∀ k, w.receiveUpTo q (k + 1) = u.receiveUpTo q k) ∧
      let d' := { d with
        reader, pending := rest, responses := x.response c.order :: d.responses }
      u.Has q d' ∧ u.Wire c d' q ms ∧ Stirs P s [] [.responded q x.waiter] w u := by
  obtain ⟨reader, chunks, hread, hlimit, hwire⟩ := h.readNext
  let v := Wire.read w q d reader chunks
  have hv : v.Has q { d with reader } := Wire.has_read hd reader chunks
  have hlookup : d.pending.lookup x.reply.id = some x.waiter := by
    rw [hlast]
    exact lookup_concat_of_forall_ne hne x.waiter
  let u := v.complete q x.reply.id (.ok (.reply x.reply, c.order))
  have hu : u = (v.updateConnection q fun d =>
      d.complete x.reply.id (.ok (.reply x.reply, c.order))).emit (.responded q x.waiter) :=
    complete_eq hv hlookup _
  have hpipes : u.pipes = v.pipes := by
    rw [hu]
    rfl
  refine ⟨u, reader, hlimit, receiveUpTo_done hd hr hread rfl, ?_,
    hwire.of_pipes hpipes (.refl c) rfl rfl, ?_⟩
  · have hdone := hv.complete x.reply.id (.ok (.reply x.reply, c.order))
    rw [Connection.complete_last (c := { d with reader }) hlast hne c.order] at hdone
    exact hdone
  · rw [hu]
    refine ((h.stirs_read hq reader chunks).trans (.updateConnection hq fun c hc => ?_)).trans
      (.emit _ _)
    rw [Connection.complete]
    split <;> exact hc

lemma Wire.receiveUpTo_replies {xs : List Delivery} {rest : List (UInt32 × WaiterId)}
    (h : w.Wire c d q (xs.map fun x => .reply x.reply)) (hd : w.Has q d)
    (hr : d.isReading = true) (hq : P q)
    (hpending : d.pending = rest ++ (xs.map Delivery.key).reverse)
    (hids : d.Distinct) {k : Nat} (hk : xs.length < k) :
    ∃ reader, reader.limit = d.reader.limit ∧
      let d' := { d with
        reader, pending := rest,
        responses := (xs.map (Delivery.response c.order)).reverse ++ d.responses }
      (w.receiveUpTo q k).Has q d' ∧ (w.receiveUpTo q k).Wire c d' q [] ∧
      Stirs P s [] (xs.map fun x => .responded q x.waiter) w (w.receiveUpTo q k) := by
  induction xs generalizing w d k with
  | nil =>
    obtain ⟨k, rfl⟩ := Nat.exists_eq_add_one_of_ne_zero (Nat.ne_zero_of_lt hk)
    obtain ⟨reader, hlimit, hd', hwire, hstirs⟩ := h.receiveUpTo_empty hd hr hq k
    rw [List.map_nil, List.reverse_nil, List.append_nil] at hpending
    rw [← hpending]
    exact ⟨reader, hlimit, hd', hwire, hstirs⟩
  | cons x xs ih =>
    obtain ⟨k, rfl⟩ := Nat.exists_eq_add_one_of_ne_zero (Nat.ne_zero_of_lt hk)
    have hlast : d.pending = (rest ++ (xs.map Delivery.key).reverse) ++ [x.key] := by
      rw [hpending, List.map_cons, List.reverse_cons, List.append_assoc]
    rw [Connection.Distinct, hlast, List.map_append, List.nodup_append] at hids
    have hne : ∀ y ∈ rest ++ (xs.map Delivery.key).reverse, y.1 ≠ x.reply.id := by
      intro y hy
      exact hids.2.2 y.1 (List.mem_map_of_mem hy) x.reply.id (List.mem_singleton_self _)
    obtain ⟨u, reader, hlimit, hnext, hu, hwire, hstep⟩ :=
      h.receiveUpTo_reply (s := s) hd hr hq hlast hne
    obtain ⟨reader', hlimit', hd', hdone, hstirs⟩ := ih hwire hu hr rfl hids.1
      (Nat.lt_of_succ_lt_succ hk)
    rw [hnext]
    refine ⟨reader', hlimit'.trans hlimit, ?_⟩
    rw [List.map_cons, List.map_cons, List.reverse_cons, List.append_assoc]
    exact ⟨hd', hdone, hstep.trans hstirs⟩

lemma Wire.receive_replies {xs : List Delivery} {rest : List (UInt32 × WaiterId)}
    (h : w.Wire c d q (xs.map fun x => .reply x.reply)) (hd : w.Has q d)
    (hr : d.isReading = true) (hq : P q)
    (hpending : d.pending = rest ++ (xs.map Delivery.key).reverse)
    (hids : d.Distinct) :
    ∃ reader, reader.limit = d.reader.limit ∧
      let d' := { d with
        reader, pending := rest,
        responses := (xs.map (Delivery.response c.order)).reverse ++ d.responses }
      (w.receive q).Has q d' ∧ (w.receive q).Wire c d' q [] ∧
      Stirs P s [] (xs.map fun x => .responded q x.waiter) w (w.receive q) := by
  have hlength := h.length_le
  rw [List.length_map] at hlength
  rw [receive_eq hd hr]
  exact h.receiveUpTo_replies hd hr hq hpending hids (Nat.lt_succ_of_le hlength)

lemma Wire.isStuck_replies {xs : List Delivery} {rest : List (UInt32 × WaiterId)}
    (h : w.Wire c d q (xs.map fun x => .reply x.reply)) (hd : w.Has q d)
    (hr : d.isReading = true) (hpending : d.pending = rest ++ (xs.map Delivery.key).reverse)
    (hids : d.Distinct) : w.isStuck c.outbound = false := by
  obtain ⟨reader, -, -, hwire, -⟩ := h.receive_replies (P := fun _ => True) (s := q.broker) hd hr
    trivial hpending hids
  exact h.isStuck_of_receive hwire rfl

end World

end ObjectBroker
