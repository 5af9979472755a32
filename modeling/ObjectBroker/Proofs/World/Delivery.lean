import ObjectBroker.Proofs.Transport.Pipeline
import ObjectBroker.Proofs.World.Course

/-!
From one end of a stream to the other. What is sent on a connection is put on one pipe, and comes
out as it was for whoever reads that pipe, after all that was there before.
-/

namespace ObjectBroker

variable {σ : Type} {w w' w'' : World σ} {p q : Port} {c d : Connection}

lemma Connection.register_fields (c : Connection) :
    c.register.2.2.fragmentSize = c.fragmentSize ∧ c.register.2.2.order = c.order ∧
      c.register.2.2.outbound = c.outbound ∧ c.register.2.2.state = c.state := by
  rw [register]
  dsimp only [takeRequestId, respond, forget]
  split <;> exact ⟨rfl, rfl, rfl, rfl⟩

namespace World

structure Carries (w : World σ) (n : Nat) (octets : Octets) (w' : World σ) : Prop where
  put : ∃ chunks, chunks.flatten = octets ∧
    w'.pipe n = { w.pipe n with chunks := (w.pipe n).chunks ++ chunks }
  size : w'.pipes.size = w.pipes.size
  others : ∀ k ≠ n, w'.pipe k = w.pipe k

lemma pipe_of_pipes (h : w'.pipes = w.pipes) (n : Nat) : w'.pipe n = w.pipe n := by
  rw [pipe, h, pipe]

lemma Carries.of_pipes {v v' : World σ} {n : Nat} {octets : Octets} (h : w.Carries n octets w')
    (hv : v.pipes = w.pipes) (hv' : v'.pipes = w'.pipes) : v.Carries n octets v' := by
  refine ⟨?_, ?_, fun k hk => ?_⟩
  · rw [pipe_of_pipes hv', pipe_of_pipes hv]
    exact h.put
  · rw [hv, hv', h.size]
  · rw [pipe_of_pipes hv', pipe_of_pipes hv, h.others k hk]

lemma pipes_notifyReader (w : World σ) (n : Nat) : (w.notifyReader n).pipes = w.pipes := by
  rw [notifyReader]
  split <;> rfl

lemma pipes_untrack (w : World σ) (p : Port) : (w.untrack p).pipes = w.pipes := by
  rw [untrack]
  split
  · rfl
  · dsimp only
    split <;> rfl

lemma carries_writePipe {n : Nat} (hopen : (w.pipe n).isClosed = false) (hn : n < w.pipes.size)
    (chunks : List Octets) : (w.writePipe n chunks).1 = .ok () ∧
      w.Carries n chunks.flatten (w.writePipe n chunks).2 := by
  have hwrite : w.writePipe n chunks = (.ok (),
      (w.setPipe n { w.pipe n with chunks := (w.pipe n).chunks ++ chunks }).notifyReader n) := by
    have hnot : ¬ (w.pipe n).isClosed = true := by
      rw [hopen]
      decide
    exact if_neg hnot
  rw [hwrite]
  refine ⟨rfl, ⟨chunks, rfl, ?_⟩, ?_, fun k hk => ?_⟩
  · rw [pipe_of_pipes (pipes_notifyReader _ n), pipe, setPipe]
    simp [hn]
  · rw [pipes_notifyReader, setPipe, Array.size_setIfInBounds]
  · rw [pipe_of_pipes (pipes_notifyReader _ n), pipe, setPipe, pipe, pipe]
    rw [Array.getElem?_setIfInBounds, if_neg hk.symm]

lemma exists_frames {limit : Nat} {m : Message} {order : ByteOrder} {octets : Octets}
    (h : Writer.octets limit m order = .ok octets) :
    ∃ frames, Writer.frames limit m order = .ok frames ∧ frames.flatten = octets := by
  rw [Writer.octets] at h
  cases hf : Writer.frames limit m order with
  | error e =>
    rw [hf] at h
    cases h
  | ok frames =>
    rw [hf] at h
    exact ⟨frames, rfl, Except.ok.inj h⟩

lemma carries_send (h : w.connection? p = some c) {m : Message} {octets : Octets}
    (hm : Writer.octets c.fragmentSize m c.order = .ok octets)
    (hopen : (w.pipe c.outbound).isClosed = false) (hn : c.outbound < w.pipes.size) :
    (w.send p m).1 = .ok () ∧ w.Carries c.outbound octets (w.send p m).2 := by
  obtain ⟨frames, hframes, rfl⟩ := exists_frames hm
  obtain ⟨hok, hcarries⟩ := carries_writePipe hopen hn frames
  rw [send, h]
  dsimp only
  rw [hframes]
  dsimp only
  rw [hok]
  exact ⟨rfl, hcarries⟩

lemma connection?_track (h : w.connection? p = some c) :
    (w.track p).connection? p = some c.track := by
  have hmap := connection?_updateConnection (f := Connection.track) (p := p) w fun _ h => h
  rw [h] at hmap
  exact hmap

lemma connection?_replace (h : w.connection? p = some c) {d : Connection} (hd : d.id = c.id) :
    (w.updateConnection p fun _ => d).connection? p = some d := by
  have hid : d.id = p.connection := hd.trans (Broker.id_of_connection? h)
  rw [connection?_updateConnection w fun _ _ => hid, h]
  rfl

lemma carries_sendTracked (h : w.connection? p = some c) (he : c.isEstablished = true)
    {message : UInt32 → Message} {octets : Octets}
    (hm : Writer.octets c.fragmentSize (message c.nextRequest) c.order = .ok octets)
    (hopen : (w.pipe c.outbound).isClosed = false) (hn : c.outbound < w.pipes.size) :
    ∃ waiter, (w.sendTracked p message).1 = .ok (c.nextRequest, waiter) ∧
      w.Carries c.outbound octets (w.sendTracked p message).2 := by
  let d := c.track.register.2.2
  let w₁ := (w.track p).updateConnection p fun _ => d
  let w₂ := w₁.notifyWaiters p (c.track.pending.lookup c.nextRequest).toList
  have htracked := connection?_track h
  have hregister : (w.track p).register p = some (c.nextRequest, c.track.register.2.1, w₂) := by
    rw [register, htracked]
    rfl
  have hplaced : w₂.connection? p = some d := connection?_replace htracked c.track.id_register
  obtain ⟨hsize, horder, hout, hstate⟩ := c.track.register_fields
  have hcheck : d.checkOpen = .ok () := by
    rw [Connection.isEstablished, beq_iff_eq] at he
    rw [Connection.checkOpen, hstate.trans he]
  obtain ⟨hok, hcarries⟩ := @carries_send σ w₂ p d hplaced (message c.nextRequest) octets
    (by rw [hsize, horder]; exact hm) (by rw [hout]; exact hopen) (by rw [hout]; exact hn)
  rw [hout] at hcarries
  have hsend : w₂.sendOpen p (message c.nextRequest) = w₂.send p (message c.nextRequest) := by
    rw [sendOpen, hplaced, Option.map_some, hcheck]
  refine ⟨c.track.register.2.1, ?_⟩
  rw [sendTracked, hregister]
  dsimp only
  rw [hsend]
  rcases hs : w₂.send p (message c.nextRequest) with ⟨result, w₃⟩
  rw [hs] at hok hcarries
  obtain rfl : result = .ok () := hok
  exact ⟨rfl, hcarries.of_pipes rfl rfl⟩

lemma carries_sendOneway (h : w.connection? p = some c) (he : c.isEstablished = true)
    {r : Request} {octets : Octets}
    (hm : Writer.octets c.fragmentSize (.request { r with id := c.nextRequest, responseExpected := false })
      c.order = .ok octets)
    (hopen : (w.pipe c.outbound).isClosed = false) (hn : c.outbound < w.pipes.size) :
    (w.sendOneway p r).1 = .ok () ∧ w.Carries c.outbound octets (w.sendOneway p r).2 := by
  let m : Message := .request { r with id := c.nextRequest, responseExpected := false }
  let w₁ := (w.updateConnection p fun _ => c.takeRequestId.2).track p
  have hnumbered : w₁.connection? p = some c.takeRequestId.2.track :=
    connection?_track (connection?_replace h rfl)
  have hcheck : c.checkOpen = .ok () := by
    rw [Connection.isEstablished, beq_iff_eq] at he
    rw [Connection.checkOpen, he]
  obtain ⟨hok, hcarries⟩ := @carries_send σ w₁ p c.takeRequestId.2.track hnumbered m octets hm
    hopen hn
  rcases hs : w₁.send p m with ⟨result, w₂⟩
  rw [hs] at hok hcarries
  obtain rfl : result = .ok () := hok
  have hsent : ((w.updateConnection p fun _ => c.takeRequestId.2).track p).send p (.request
      { r with id := c.takeRequestId.1, responseExpected := false }) = (.ok (), w₂) := hs
  have hsend : w.sendOneway p r = (.ok (), w₂) := by
    rw [sendOneway, h]
    dsimp only
    rw [hcheck]
    dsimp only
    rw [hsent]
  rw [hsend]
  exact ⟨rfl, hcarries.of_pipes rfl rfl⟩

def TouchesOnly (w : World σ) (q : Port) (w' : World σ) : Prop :=
  w.Relates (fun p c d => p ≠ q → d = c) w'

namespace TouchesOnly

lemma trans (h : w.TouchesOnly q w') (h' : w'.TouchesOnly q w'') : w.TouchesOnly q w'' :=
  Relates.trans (fun _ _ _ _ hcd hde hp => (hde hp).trans (hcd hp)) h h'

lemma of_brokers (h : w'.brokers = w.brokers) : w.TouchesOnly q w' :=
  Relates.of_brokers (fun _ _ _ => rfl) h

lemma updateConnection (w : World σ) {f : Connection → Connection}
    (hf : ∀ c, c.id = q.connection → (f c).id = q.connection) :
    w.TouchesOnly q (w.updateConnection q f) :=
  Relates.updateConnection (fun _ _ _ => rfl) hf fun _ _ h => absurd rfl h

lemma untrack (w : World σ) (q : Port) : w.TouchesOnly q (w.untrack q) := by
  rw [World.untrack]
  split
  · exact of_brokers rfl
  · have hu : w.TouchesOnly q (w.updateConnection q Connection.untrack) :=
      updateConnection w fun _ h => h
    dsimp only
    split
    · exact hu.trans (of_brokers rfl)
    · exact hu

lemma register {request : UInt32} {waiter : WaiterId}
    (h : w.register q = some (request, waiter, w')) : w.TouchesOnly q w' := by
  rw [World.register, Option.bind_eq_bind, Option.bind_eq_some_iff] at h
  obtain ⟨c, hc, hrest⟩ := h
  cases hrest
  have hid : c.register.2.2.id = q.connection :=
    c.id_register.trans (Broker.id_of_connection? hc)
  exact (updateConnection w fun _ _ => hid).trans (of_brokers rfl)

lemma sendOpen (w : World σ) (q : Port) (m : Message) : w.TouchesOnly q (w.sendOpen q m).2 := by
  rw [World.sendOpen]
  split
  · exact of_brokers rfl
  · exact of_brokers (brokers_send w q m)

lemma sendTracked (w : World σ) (q : Port) (message : UInt32 → Message) :
    w.TouchesOnly q (w.sendTracked q message).2 := by
  rw [World.sendTracked]
  split
  · exact of_brokers rfl
  · next request waiter w₁ hregister =>
    have htrack : w.TouchesOnly q (w.track q) := updateConnection w fun _ h => h
    have hsent := (htrack.trans (register hregister)).trans (sendOpen w₁ q (message request))
    rcases hs : w₁.sendOpen q (message request) with ⟨result, w₂⟩
    rw [hs] at hsent
    cases result with
    | ok _ => exact hsent
    | error e =>
      have hforget := updateConnection (f := (·.forget request)) w₂ (q := q) fun _ h => h
      exact (hsent.trans hforget).trans (untrack _ q)

lemma sendOneway (w : World σ) (q : Port) (r : Request) : w.TouchesOnly q (w.sendOneway q r).2 := by
  rw [World.sendOneway]
  split
  · exact of_brokers rfl
  · next c hc =>
    split
    · exact of_brokers rfl
    · have hid : c.id = q.connection := Broker.id_of_connection? hc
      have htrack : w.TouchesOnly q ((w.updateConnection q fun _ => c.takeRequestId.2).track q) :=
        (updateConnection (f := fun _ => c.takeRequestId.2) w fun _ _ => hid).trans
          (updateConnection (f := Connection.track) _ fun _ h => h)
      have hsent := htrack.trans (of_brokers (brokers_send _ q
        (.request { r with id := c.takeRequestId.1, responseExpected := false })))
      dsimp only
      split
      · next hs =>
        rw [hs] at hsent
        exact hsent
      · next hs =>
        rw [hs] at hsent
        exact hsent.trans (untrack _ q)

lemma connection? (h : w.TouchesOnly q w') (hp : p ≠ q) (hc : w.connection? p = some c) :
    w'.connection? p = some c := by
  obtain ⟨d, hd, hsame⟩ := h p c hc
  rw [hd, hsame hp]

end TouchesOnly

/-- A message that a connection can send and its peer will take. -/
structure Passes (c d : Connection) (m : Message) : Prop where
  fragmentSize : 24 ≤ d.fragmentSize
  kind : m.kind ≠ .fragment
  length : (m.encode d.order).length < 2 ^ 32
  limit : (m.encode d.order).length ≤ c.reader.limit

/-- The stream from `d` to `c` is open, and these messages are on it that have not been read. -/
structure Behind (w : World σ) (c d : Connection) (backlog : List Message) : Prop where
  isOpen : (w.pipe c.inbound).isClosed = false
  lt_size : c.inbound < w.pipes.size
  passes : ∀ m ∈ backlog, Passes c d m
  written : ∃ written, backlog.mapM (Writer.octets d.fragmentSize · d.order) = .ok written ∧
    c.reader.buffer ++ (w.pipe c.inbound).chunks.flatten = written.flatten
  order : ∀ known ∈ c.reader.peerOrder, known = d.order
  idle : c.reader.Idle c.reader.limit

lemma Passes.octets {m : Message} (h : Passes c d m) :
    ∃ octets, Writer.octets d.fragmentSize m d.order = .ok octets := by
  obtain ⟨octets, hm, -⟩ := Reader.readMessage_written h.fragmentSize h.kind h.length h.limit
  exact ⟨octets, hm⟩

lemma Behind.put {backlog : List Message} {m : Message} {octets : Octets}
    (h : w.Behind c d backlog) (hp : Passes c d m)
    (hm : Writer.octets d.fragmentSize m d.order = .ok octets)
    (hw : w.Carries c.inbound octets w') : w'.Behind c d (backlog ++ [m]) := by
  obtain ⟨written, hwritten, hheld⟩ := h.written
  obtain ⟨chunks, rfl, hpipe⟩ := hw.put
  refine ⟨?_, hw.size ▸ h.lt_size, fun m' hm' => ?_, ⟨written ++ [chunks.flatten], ?_, ?_⟩,
    h.order, h.idle⟩
  · rw [hpipe]
    exact h.isOpen
  · rcases List.mem_append.mp hm' with hm' | hm'
    · exact h.passes m' hm'
    · obtain rfl := List.mem_singleton.mp hm'
      exact hp
  · rw [List.mapM_append, hwritten, List.mapM_cons, hm]
    rfl
  · rw [hpipe, List.flatten_append, List.flatten_append, List.flatten_singleton,
      ← List.append_assoc, hheld]

/-- What is read at a port, one message after another. -/
def Reads (w : World σ) (p : Port) (order : ByteOrder) : List Message → Prop
  | [] => True
  | m :: ms => ∃ c, w.connection? p = some c ∧ (w.readNext p c).1 = .done (m, order) ∧
      Reads (w.readNext p c).2 p order ms

lemma Behind.readNext {backlog : List Message} {m : Message} (h : w.Behind c d (m :: backlog))
    (p : Port) : (w.readNext p c).1 = .done (m, d.order) ∧
      (w.readNext p c).2.Behind { c with reader := (c.reader.readMessage (w.inlet c)).2.1 } d
        backlog := by
  obtain ⟨written, hwritten, hheld⟩ := h.written
  have hp := h.passes m List.mem_cons_self
  obtain ⟨octets, hm, hread⟩ :=
    Reader.readMessage_written hp.fragmentSize hp.kind hp.length hp.limit
  obtain ⟨rest, hrest, rfl⟩ : ∃ rest,
      backlog.mapM (Writer.octets d.fragmentSize · d.order) = .ok rest ∧ octets :: rest = written := by
    rw [List.mapM_cons, hm] at hwritten
    cases hb : backlog.mapM (Writer.octets d.fragmentSize · d.order) with
    | error e =>
      rw [hb] at hwritten
      cases hwritten
    | ok rest =>
      rw [hb] at hwritten
      exact ⟨rest, rfl, Except.ok.inj hwritten⟩
  obtain ⟨reader, source, hdone, hat, hidle⟩ := @hread c.reader
    ⟨(w.pipe c.inbound).chunks, true⟩ rest.flatten ⟨hheld, rfl, h.order, rfl⟩ h.idle
  have hmessage : c.reader.readMessage (w.inlet c) =
      (.done (m, d.order), reader, { source with ended := false }) := by
    rw [inlet, h.isOpen]
    exact Reader.readFrames_ended hdone false
  have hpipe : (w.readNext p c).2.pipe c.inbound =
      { w.pipe c.inbound with chunks := source.chunks } := by
    rw [World.readNext, hmessage]
    change (w.setPipe c.inbound _).pipe c.inbound = _
    rw [pipe, setPipe]
    simp [h.lt_size]
  refine ⟨?_, ?_⟩
  · rw [World.readNext, hmessage]
  · rw [hmessage]
    refine ⟨?_, ?_, fun m' hm' => ?_, ⟨rest, hrest, ?_⟩, hat.order, ?_⟩
    · rw [hpipe]
      exact h.isOpen
    · rw [World.readNext, hmessage]
      change c.inbound < (w.pipes.setIfInBounds _ _).size
      rw [Array.size_setIfInBounds]
      exact h.lt_size
    · have hpass := h.passes m' (List.mem_cons_of_mem _ hm')
      exact ⟨hpass.fragmentSize, hpass.kind, hpass.length, hat.limit ▸ hpass.limit⟩
    · rw [hpipe]
      exact hat.rest
    · exact hat.limit ▸ hidle

lemma Behind.reads {backlog : List Message} (h : w.Behind c d backlog)
    (hc : w.connection? p = some c) : w.Reads p d.order backlog := by
  induction backlog generalizing w c with
  | nil => trivial
  | cons m backlog ih =>
    obtain ⟨hread, hrest⟩ := h.readNext p
    exact ⟨c, hc, hread, ih hrest (connection?_readNext hc)⟩

/-- What is sent at `q` is read at `p` after what has not been read there yet. -/
structure Delivers (w : World σ) (q : Port) (d : Connection) (p : Port) (c : Connection)
    (backlog : List Message) : Prop where
  tracked : ∀ message : UInt32 → Message, Passes c d (message d.nextRequest) →
    ∃ waiter w', w.sendTracked q message = (.ok (d.nextRequest, waiter), w') ∧
      w'.connection? p = some c ∧ w'.Reads p d.order (backlog ++ [message d.nextRequest])
  oneway : ∀ r : Request,
    Passes c d (.request { r with id := d.nextRequest, responseExpected := false }) →
    ∃ w', w.sendOneway q r = (.ok (), w') ∧ w'.connection? p = some c ∧
      w'.Reads p d.order
        (backlog ++ [.request { r with id := d.nextRequest, responseExpected := false }])

lemma Behind.delivers {backlog : List Message} (h : w.Behind c d backlog) (hpq : p ≠ q)
    (hc : w.connection? p = some c) (hd : w.connection? q = some d) (he : d.isEstablished = true)
    (hpipe : d.outbound = c.inbound) : w.Delivers q d p c backlog where
  tracked message hpass := by
    obtain ⟨octets, hm⟩ := hpass.octets
    obtain ⟨waiter, hok, hcarries⟩ := carries_sendTracked hd he hm (hpipe ▸ h.isOpen)
      (hpipe ▸ h.lt_size)
    rw [hpipe] at hcarries
    have hkept := (TouchesOnly.sendTracked w q message).connection? hpq hc
    exact ⟨waiter, _, Prod.ext hok rfl, hkept, (h.put hpass hm hcarries).reads hkept⟩
  oneway r hpass := by
    obtain ⟨octets, hm⟩ := hpass.octets
    obtain ⟨hok, hcarries⟩ := carries_sendOneway hd he hm (hpipe ▸ h.isOpen) (hpipe ▸ h.lt_size)
    rw [hpipe] at hcarries
    have hkept := (TouchesOnly.sendOneway w q r).connection? hpq hc
    exact ⟨_, Prod.ext hok rfl, hkept, (h.put hpass hm hcarries).reads hkept⟩

end World

end ObjectBroker
