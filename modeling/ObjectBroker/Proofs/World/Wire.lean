import ObjectBroker.Proofs.Connection.Scope
import ObjectBroker.Proofs.World.Beside

/-!
Streams with messages on them. A stream takes what is sent at one end and gives it out at the other,
message by message; whoever reads takes all that is there.
-/

namespace ObjectBroker

namespace Reader

lemma readMessage_empty {r : Reader} {source : Inlet} (h : r.buffer ++ source.chunks.flatten = [])
    (he : source.ended = false) :
    r.readMessage source = (.waiting, { r with buffer := [] }, { source with chunks := [] }) := by
  have hframe : r.readFrame source =
      (.waiting, { r with buffer := [] }, { source with chunks := [] }) := by
    rw [readFrame, fill_nil h (by decide)]
    dsimp only
    rw [he]
    rfl
  rw [readMessage, readFrames, hframe]

end Reader

def Connection.bare (c : Connection) : Connection :=
  { c with
    reader := .new c.reader.limit, nextRequest := 0, nextWaiter := 0, pending := [],
    responses := [], isBidirectional := false, outstanding := 0 }

def Connection.Kin (c c' : Connection) : Prop :=
  c'.bare = c.bare

namespace Connection.Kin

variable {α : Type} {c c' c'' : Connection}

lemma refl (c : Connection) : c.Kin c := rfl

lemma trans (h : c.Kin c') (h' : c'.Kin c'') : c.Kin c'' := Eq.trans h' h

lemma bare_eq (h : c.Kin c') (f : Connection → α) : f c'.bare = f c.bare := congrArg f h

lemma role (h : c.Kin c') : c'.role = c.role := h.bare_eq Connection.role

lemma order (h : c.Kin c') : c'.order = c.order := h.bare_eq Connection.order

lemma fragmentSize (h : c.Kin c') : c'.fragmentSize = c.fragmentSize :=
  h.bare_eq Connection.fragmentSize

lemma inbound (h : c.Kin c') : c'.inbound = c.inbound := h.bare_eq Connection.inbound

lemma outbound (h : c.Kin c') : c'.outbound = c.outbound := h.bare_eq Connection.outbound

lemma limit (h : c.Kin c') : c'.reader.limit = c.reader.limit := h.bare_eq (·.reader.limit)

lemma isReading (h : c.Kin c') : c'.isReading = c.isReading := h.bare_eq Connection.isReading

lemma isEstablished (h : c.Kin c') : c'.isEstablished = c.isEstablished :=
  h.bare_eq Connection.isEstablished

lemma of_reader {reader : Reader} (h : reader.limit = c.reader.limit) : c.Kin { c with reader } := by
  rw [Connection.Kin, bare, bare, h]

end Connection.Kin

def Connection.frames (c : Connection) (m : Message) : Octets :=
  (Writer.octets c.fragmentSize m c.order).toOption.getD []

namespace World

variable {σ : Type} {w w' w'' : World σ} {p q : Port} {c c' d d' : Connection} {m : Message}
  {ms : List Message}

lemma Passes.frames (h : Passes d c m) :
    Writer.octets c.fragmentSize m c.order = .ok (c.frames m) := by
  obtain ⟨octets, hm⟩ := h.octets
  rw [Connection.frames, hm]
  rfl

lemma Passes.kin (h : Passes d c m) (hc : c.Kin c') (hd : d.Kin d') : Passes d' c' m := by
  obtain ⟨hsize, hkind, hlength, hlimit⟩ := h
  refine ⟨?_, hkind, ?_, ?_⟩
  · rw [hc.fragmentSize]
    exact hsize
  · rw [hc.order]
    exact hlength
  · rw [hc.order, hd.limit]
    exact hlimit

structure Wire (w : World σ) (c d : Connection) (q : Port) (ms : List Message) : Prop where
  joined : c.outbound = d.inbound
  isOpen : (w.pipe d.inbound).isClosed = false
  lt_size : d.inbound < w.pipes.size
  reader : (w.pipe d.inbound).reader = some q
  order : ∀ known ∈ d.reader.peerOrder, known = c.order
  idle : d.reader.Idle d.reader.limit
  passes : ∀ m ∈ ms, Passes d c m
  rest : d.reader.buffer ++ (w.pipe d.inbound).chunks.flatten = ms.flatMap c.frames

/-- What has happened where nothing but the ports in `P` and the routes of `s` were touched: objects
stay, and there are new holds and events. -/
structure Stirs (P : Port → Prop) (s : BrokerId) (holds : List Holding) (events : List Event)
    (w w' : World σ) : Prop extends Beside P s w w' where
  objects : w'.objects = w.objects
  holdings : w'.holdings = holds ++ w.holdings
  events : w'.events = w.events ++ events

namespace Stirs

variable {P P' : Port → Prop} {s : BrokerId} {holds holds' : List Holding}
  {events events' : List Event}

lemma refl (w : World σ) : Stirs P s [] [] w w :=
  ⟨.refl w, rfl, rfl, (List.append_nil _).symm⟩

lemma trans (h : Stirs P s holds events w w') (h' : Stirs P s holds' events' w' w'') :
    Stirs P s (holds' ++ holds) (events ++ events') w w'' := by
  refine ⟨h.toBeside.trans h'.toBeside, h'.objects.trans h.objects, ?_, ?_⟩
  · rw [h'.holdings, h.holdings, List.append_assoc]
  · rw [h'.events, h.events, List.append_assoc]

lemma mono (h : Stirs P s holds events w w') (hP : ∀ p, P p → P' p) :
    Stirs P' s holds events w w' :=
  ⟨h.toBeside.mono hP, h.objects, h.holdings, h.events⟩

lemma emit (w : World σ) (e : Event) : Stirs P s [] [e] w (w.emit e) :=
  ⟨.of_same rfl rfl, rfl, rfl, rfl⟩

lemma hold (w : World σ) (h : Holding) : Stirs P s [h] [] w (w.hold h) :=
  ⟨.of_same rfl rfl, rfl, rfl, (List.append_nil _).symm⟩

lemma still (hb : Beside P s w w') (ho : w'.objects = w.objects) (hh : w'.holdings = w.holdings)
    (he : w'.events = w.events) : Stirs P s [] [] w w' :=
  ⟨hb, ho, hh, he.trans (List.append_nil _).symm⟩

lemma updateConnection (hp : P p) {f : Connection → Connection}
    (hf : ∀ c, c.id = p.connection → (f c).id = p.connection) :
    Stirs P s [] [] w (w.updateConnection p f) :=
  still (.updateConnection hp hf) rfl rfl rfl

lemma count (w : World σ) (b : BrokerId) (f : Stats → Stats) : Stirs P s [] [] w (w.count b f) :=
  still (.count w b f) rfl rfl rfl

end Stirs

namespace Wire

variable {P : Port → Prop} {s : BrokerId}

lemma beside (h : w.Wire c d q ms) (hw : Beside P s w w') (hq : ¬ P q) : w'.Wire c d q ms where
  joined := h.joined
  isOpen := (hw.isClosed _).trans h.isOpen
  lt_size := hw.pipes.symm ▸ h.lt_size
  reader := (hw.reader _).trans h.reader
  order := h.order
  idle := h.idle
  passes := h.passes
  rest := by
    have hchunks := hw.chunks d.inbound fun p hp => by
      rw [h.reader] at hp
      cases hp
      exact hq
    rw [hchunks]
    exact h.rest

lemma of_pipes (h : w.Wire c d q ms) (hw : w'.pipes = w.pipes) (hc : c.Kin c') (hd : d.Kin d')
    (hr : d'.reader = d.reader) : w'.Wire c' d' q ms where
  joined := by rw [hc.outbound, hd.inbound, h.joined]
  isOpen := by
    rw [hd.inbound, pipe_of_pipes hw]
    exact h.isOpen
  lt_size := by
    rw [hd.inbound, hw]
    exact h.lt_size
  reader := by
    rw [hd.inbound, pipe_of_pipes hw]
    exact h.reader
  order := by
    rw [hr, hc.order]
    exact h.order
  idle := by
    rw [hr]
    exact h.idle
  passes m hm := (h.passes m hm).kin hc hd
  rest := by
    have hframes : c'.frames = c.frames := by
      funext m
      rw [Connection.frames, hc.fragmentSize, hc.order, Connection.frames]
    rw [hr, hd.inbound, pipe_of_pipes hw, hframes]
    exact h.rest

/-- What was sent at `p` and is read at `q` leaves other connections as they are, and streams that are
read elsewhere. -/
structure Kept (p q : Port) (w w' : World σ) : Prop where
  wires : ∀ (c d : Connection) (r : Port) (ms : List Message),
    r ≠ q → w.Wire c d r ms → w'.Wire c d r ms
  has : ∀ (r : Port) (c : Connection), r ≠ p → w.Has r c → w'.Has r c

lemma send (h : w.Wire c d q ms) (hc : w.connection? p = some c) (hm : Passes d c m) (hq : P q) :
    ∃ w', w.send p m = (.ok (), w') ∧ w'.brokers = w.brokers ∧
      Stirs P s [] [.readable q] w w' ∧ Kept p q w w' ∧ w'.Wire c d q (ms ++ [m]) := by
  obtain ⟨frames, hframes, hflatten⟩ := exists_frames hm.frames
  let chunks := (w.pipe d.inbound).chunks ++ frames
  let v := w.setPipe d.inbound { w.pipe d.inbound with chunks }
  have hnot : ¬ (w.pipe d.inbound).isClosed = true := by
    rw [h.isOpen]
    decide
  have hpipe : v.pipe d.inbound = { w.pipe d.inbound with chunks } := by
    rw [pipe_setPipe, if_pos ⟨rfl, h.lt_size⟩]
  have hwrite : w.writePipe c.outbound frames = (.ok (), v.emit (.readable q)) := by
    have hnotify : v.notifyReader d.inbound = v.emit (.readable q) := by
      rw [notifyReader, hpipe]
      dsimp only
      rw [h.reader]
    rw [h.joined, writePipe, if_neg hnot]
    exact congrArg (Prod.mk _) hnotify
  have hbeside : Beside P s w v := .setChunks ⟨q, h.reader, hq⟩ chunks
  have hpipes : Beside (· = q) s w v := .setChunks (P := (· = q)) ⟨q, h.reader, rfl⟩ chunks
  refine ⟨v.emit (.readable q), ?_, rfl, ?_, ⟨fun c' d' r ms' hr h' => ?_, fun r c' _ h' => ?_⟩, ?_⟩
  · rw [World.send, hc]
    dsimp only
    rw [hframes]
    dsimp only
    rw [hwrite]
    rfl
  · exact (Stirs.still hbeside rfl rfl rfl).trans (.emit v _)
  · exact h'.beside (hpipes.trans (.of_same rfl rfl)) hr
  · exact h'.of_brokers rfl
  · refine ⟨h.joined, (hbeside.isClosed _).trans h.isOpen, hbeside.pipes.symm ▸ h.lt_size,
      (hbeside.reader _).trans h.reader, h.order, h.idle, fun m' hm' => ?_, ?_⟩
    · rcases List.mem_append.mp hm' with hm' | hm'
      · exact h.passes m' hm'
      · rw [List.mem_singleton.mp hm']
        exact hm
    · have hemit : (v.emit (.readable q)).pipe d.inbound = v.pipe d.inbound := rfl
      rw [hemit, hpipe]
      dsimp only [chunks]
      rw [List.flatten_append, hflatten, ← List.append_assoc, h.rest, List.flatMap_append,
        List.flatMap_singleton]

def read (w : World σ) (q : Port) (d : Connection) (reader : Reader) (chunks : List Octets) :
    World σ :=
  (w.setPipe d.inbound { w.pipe d.inbound with chunks }).updateConnection q fun c =>
    { c with reader }

lemma stirs_read (h : w.Wire c d q ms) (hq : P q) (reader : Reader) (chunks : List Octets) :
    Stirs P s [] [] w (read w q d reader chunks) :=
  .still (.trans (.setChunks ⟨q, h.reader, hq⟩ chunks) (.updateConnection hq fun _ h => h)) rfl rfl
    rfl

lemma has_read (hd : w.Has q d) (reader : Reader) (chunks : List Octets) :
    (read w q d reader chunks).Has q { d with reader } :=
  (hd.of_brokers (brokers_setPipe w _ _)).update rfl

lemma wire_read (h : w.Wire c d q ms) {reader : Reader} {chunks : List Octets}
    {rest : List Message} (hrest : rest ⊆ ms) (hlimit : reader.limit = d.reader.limit)
    (ho : ∀ known ∈ reader.peerOrder, known = c.order) (hi : reader.Idle d.reader.limit)
    (hr : reader.buffer ++ chunks.flatten = rest.flatMap c.frames) :
    (read w q d reader chunks).Wire c { d with reader } q rest := by
  have hpipe : (read w q d reader chunks).pipe d.inbound = { w.pipe d.inbound with chunks } := by
    have hset := pipe_setPipe w d.inbound { w.pipe d.inbound with chunks } d.inbound
    rw [if_pos ⟨rfl, h.lt_size⟩] at hset
    exact hset
  have hsize : (read w q d reader chunks).pipes.size = w.pipes.size := Array.size_setIfInBounds
  refine ⟨h.joined, ?_, ?_, ?_, ho, ?_, fun m hm => ?_, ?_⟩
  · rw [hpipe]
    exact h.isOpen
  · rw [hsize]
    exact h.lt_size
  · rw [hpipe]
    exact h.reader
  · dsimp only
    rw [hlimit]
    exact hi
  · exact (h.passes m (hrest hm)).kin (.refl c) (.of_reader hlimit)
  · rw [hpipe]
    exact hr

lemma readNext (h : w.Wire c d q (m :: ms)) :
    ∃ reader chunks, w.readNext q d = (.done (m, c.order), read w q d reader chunks) ∧
      reader.limit = d.reader.limit ∧ (read w q d reader chunks).Wire c { d with reader } q ms := by
  have hm := h.passes m List.mem_cons_self
  obtain ⟨octets, hoctets, hread⟩ :=
    Reader.readMessage_written hm.fragmentSize hm.kind hm.length hm.limit
  obtain rfl : c.frames m = octets := Except.ok.inj (hm.frames.symm.trans hoctets)
  have hat : d.reader.At ⟨(w.pipe d.inbound).chunks, true⟩ c.order d.reader.limit
      (c.frames m ++ ms.flatMap c.frames) := ⟨h.rest, rfl, h.order, rfl⟩
  obtain ⟨reader, source, hdone, hat', hidle⟩ := hread hat h.idle
  obtain ⟨chunks, ended⟩ := source
  obtain rfl : ended = true := hat'.ended
  have hmessage := Reader.readFrames_ended hdone false
  have hinlet : w.inlet d = ⟨(w.pipe d.inbound).chunks, false⟩ := by
    rw [inlet, h.isOpen]
  have hmessage' : d.reader.readMessage (w.inlet d) = (.done (m, c.order), reader, ⟨chunks, false⟩) := by
    rw [hinlet]
    exact hmessage
  refine ⟨reader, chunks, ?_, hat'.limit,
    h.wire_read (List.subset_cons_self m ms) hat'.limit hat'.order hidle hat'.rest⟩
  rw [World.readNext, hmessage']
  rfl

lemma readNext_empty (h : w.Wire c d q []) :
    w.readNext q d = (.waiting, read w q d { d.reader with buffer := [] } []) ∧
      (read w q d { d.reader with buffer := [] } []).Wire c
        { d with reader := { d.reader with buffer := [] } } q [] := by
  have hmessage := @Reader.readMessage_empty d.reader (w.inlet d) h.rest h.isOpen
  refine ⟨?_, h.wire_read (List.Subset.refl _) rfl h.order ⟨h.idle.1, h.idle.2⟩ rfl⟩
  rw [World.readNext, hmessage]
  rfl

end Wire

end World

end ObjectBroker
