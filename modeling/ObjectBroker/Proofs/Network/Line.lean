import ObjectBroker.Proofs.Invocation.Errand

/-!
A connection and the calls that are on their way over it. Requests, work, replies and callers that
have been woken follow each other in the order in which the calls were sent; each step moves the
front of one group to the end of the group before it.
-/

namespace ObjectBroker

namespace Connection

def idSpan : Nat := 0x80000000

def requestId (c : Connection) (k : Nat) : UInt32 :=
  c.nextRequest + UInt32.ofNat (2 * k)

lemma requestId_zero (c : Connection) : c.requestId 0 = c.nextRequest := by
  simp [requestId]

lemma requestId_succ (c : Connection) (k : Nat) : c.requestId (k + 1) = c.requestId k + 2 := by
  rw [requestId, requestId, Nat.mul_add, UInt32.ofNat_add, ← UInt32.add_assoc]
  rfl

lemma requestId_ne (c : Connection) {i j : Nat} (hi : i < j) (hj : j < i + idSpan) :
    c.requestId i ≠ c.requestId j := by
  intro h
  rw [requestId, requestId, UInt32.add_right_inj] at h
  have hmod := congrArg UInt32.toNat h
  rw [UInt32.toNat_ofNat', UInt32.toNat_ofNat'] at hmod
  rw [idSpan] at hj
  omega

end Connection

/-- A connection between a caller and the broker that serves it: its ports, and both of its ends
before any call. -/
structure Line where
  near : Port
  far : Port
  client : Connection
  host : Connection

abbrev ReplyContent := ReplyStatus × Octets

structure Trip (σ α : Type) where
  errand : Errand σ α
  line : Option Line

structure Flight (σ α : Type) where
  number : Nat
  trip : Trip σ α
  line : Line
  serial : Nat
  request : Request
  parked : Parked σ (Except BrokerError α)

namespace Flight

variable {σ α : Type}

def waiter (f : Flight σ α) : WaiterId :=
  f.line.client.nextWaiter + f.serial

def key (f : Flight σ α) : UInt32 × WaiterId :=
  (f.request.id, f.waiter)

def delivery (f : Flight σ α) (a : ReplyContent) : Delivery :=
  { reply := { id := f.request.id, status := a.1, body := a.2 }, waiter := f.waiter }

def Consecutive (fs : List (Flight σ α)) (first : Nat) : Prop :=
  fs.map serial = List.range' first fs.length

variable {fs gs : List (Flight σ α)} {first : Nat}

lemma consecutive_append :
    Consecutive (fs ++ gs) first ↔ Consecutive fs first ∧ Consecutive gs (first + fs.length) := by
  have hrange : List.range' first (fs ++ gs).length =
      List.range' first fs.length ++ List.range' (first + fs.length) gs.length := by
    rw [List.length_append, ← List.range'_append_1]
  rw [Consecutive, Consecutive, Consecutive, hrange, List.map_append]
  constructor
  · intro h
    exact List.append_inj h (by rw [List.length_map, List.length_range'])
  · rintro ⟨hf, hg⟩
    rw [hf, hg]

lemma consecutive_singleton {f : Flight σ α} : Consecutive [f] first ↔ f.serial = first := by
  simp [Consecutive]

lemma Consecutive.mem (h : Consecutive fs first) {f : Flight σ α} (hf : f ∈ fs) :
    first ≤ f.serial ∧ f.serial < first + fs.length := by
  have hserial : f.serial ∈ fs.map serial := List.mem_map_of_mem hf
  rw [h, List.mem_range'_1] at hserial
  exact hserial

def Numbered (l : Line) (fs : List (Flight σ α)) : Prop :=
  ∀ f ∈ fs, f.line = l ∧ f.request.id = l.client.requestId f.serial

variable {l : Line}

lemma Consecutive.nodup_ids (h : Consecutive fs first) (hn : Numbered l fs)
    (hlen : fs.length ≤ Connection.idSpan) : (fs.map (·.request.id)).Nodup := by
  have hids : fs.map (·.request.id) =
      (List.range' first fs.length).map l.client.requestId := by
    rw [← h, List.map_map]
    exact List.map_congr_left fun f hf => (hn f hf).2
  rw [hids]
  refine List.Nodup.map_on ?_ List.nodup_range'
  intro i hi j hj hij
  rw [List.mem_range'_1] at hi hj
  rcases Nat.lt_trichotomy i j with hlt | heq | hlt
  · exact absurd hij (l.client.requestId_ne hlt (by omega))
  · exact heq
  · exact absurd hij.symm (l.client.requestId_ne hlt (by omega))

lemma Consecutive.nodup_waiters (h : Consecutive fs first) (hn : Numbered l fs) :
    (fs.map waiter).Nodup := by
  have hwaiters : fs.map waiter =
      (List.range' first fs.length).map (l.client.nextWaiter + ·) := by
    rw [← h, List.map_map]
    refine List.map_congr_left fun f hf => ?_
    rw [waiter, (hn f hf).1]
    rfl
  rw [hwaiters]
  exact List.Nodup.map (fun _ _ h => Nat.add_left_cancel h) List.nodup_range'

end Flight

namespace Line

variable {σ α : Type} {w w' : World σ} {l : Line} {c d : Connection}
  {landing returning : List (Flight σ α × ReplyContent)} {serving asked : List (Flight σ α)}

/-- All calls on a connection, the oldest first: those that have their reply, those whose reply is on
its way, those that are being served, and those whose request is on its way. -/
def fleet (landing returning : List (Flight σ α × ReplyContent)) (serving asked : List (Flight σ α)) :
    List (Flight σ α) :=
  landing.map Prod.fst ++ (returning.map Prod.fst ++ (serving ++ asked))

structure Bears (l : Line) (w : World σ) (c d : Connection)
    (landing returning : List (Flight σ α × ReplyContent)) (serving asked : List (Flight σ α)) :
    Prop where
  near : w.Has l.near c
  far : w.Has l.far d
  client : l.client.Kin c
  host : l.host.Kin d
  out : w.Wire c d l.far (asked.map fun f => .request f.request)
  back : w.Wire d c l.near (returning.map fun x => .reply (x.1.delivery x.2).reply)
  pending : c.pending = ((returning.map Prod.fst ++ (serving ++ asked)).map Flight.key).reverse
  responses : c.responses =
    (landing.map fun x => (x.1.delivery x.2).response l.host.order).reverse
  numbered : Flight.Numbered l (fleet landing returning serving asked)
  serials : ∃ first, Flight.Consecutive (fleet landing returning serving asked) first ∧
    c.nextRequest = l.client.requestId (first + (fleet landing returning serving asked).length) ∧
    c.nextWaiter = l.client.nextWaiter + (first + (fleet landing returning serving asked).length)

namespace Bears

lemma serials_pending (h : l.Bears w c d landing returning serving asked) :
    ∃ first, Flight.Consecutive (returning.map Prod.fst ++ (serving ++ asked)) first ∧
      c.nextRequest = l.client.requestId
        (first + (returning.map Prod.fst ++ (serving ++ asked)).length) := by
  obtain ⟨first, hserials, hnext, -⟩ := h.serials
  refine ⟨first + (landing.map Prod.fst).length, (Flight.consecutive_append.mp hserials).2, ?_⟩
  rw [hnext, fleet, List.length_append, Nat.add_assoc]

lemma numbered_pending (h : l.Bears w c d landing returning serving asked) :
    Flight.Numbered l (returning.map Prod.fst ++ (serving ++ asked)) :=
  fun f hf => h.numbered f (List.mem_append_right _ hf)

lemma distinct (h : l.Bears w c d landing returning serving asked)
    (hlen : (returning.map Prod.fst ++ (serving ++ asked)).length ≤ Connection.idSpan) :
    c.Distinct := by
  obtain ⟨first, hserials, -⟩ := h.serials_pending
  have hids := hserials.nodup_ids h.numbered_pending hlen
  rw [Connection.Distinct, h.pending, List.map_reverse, List.map_map, List.nodup_reverse]
  exact hids

lemma lookup_nextRequest (h : l.Bears w c d landing returning serving asked)
    (hlen : (returning.map Prod.fst ++ (serving ++ asked)).length < Connection.idSpan) :
    c.pending.lookup c.nextRequest = none := by
  obtain ⟨first, hserials, hnext⟩ := h.serials_pending
  rw [List.lookup_eq_none_iff, h.pending]
  intro x hx
  obtain ⟨f, hf, rfl⟩ := List.mem_map.mp (List.mem_reverse.mp hx)
  have hserial := hserials.mem hf
  rw [hnext, bne_iff_ne, Flight.key, (h.numbered_pending f hf).2]
  exact (l.client.requestId_ne hserial.2 (by omega)).symm

lemma response?_nextWaiter (h : l.Bears w c d landing returning serving asked) :
    c.response? c.nextWaiter = none := by
  obtain ⟨first, hserials, -, hnext⟩ := h.serials
  rw [Connection.response?, List.lookup_eq_none_iff, h.responses]
  intro x hx
  obtain ⟨y, hy, rfl⟩ := List.mem_map.mp (List.mem_reverse.mp hx)
  have hmem : y.1 ∈ fleet landing returning serving asked :=
    List.mem_append_left _ (List.mem_map_of_mem hy)
  have hserial := hserials.mem hmem
  have hwaiter : ((y.1.delivery y.2).response l.host.order).1 = y.1.waiter := rfl
  rw [hnext, bne_iff_ne, hwaiter, Flight.waiter, (h.numbered y.1 hmem).1]
  intro hsame
  have hlast := Nat.add_left_cancel hsame
  omega

lemma next (h : l.Bears w c d landing returning serving asked) :
    ∃ serial, c.nextRequest = l.client.requestId serial ∧
      c.nextWaiter = l.client.nextWaiter + serial := by
  obtain ⟨first, -, hnext⟩ := h.serials
  exact ⟨_, hnext⟩

lemma of_far (h : l.Bears w c d landing returning serving asked) {d' : Connection}
    (hn : w'.Has l.near c) (hf : w'.Has l.far d') (hk : d.Kin d') (hr : d'.reader = d.reader)
    (hp : w'.pipes = w.pipes) : l.Bears w' c d' landing returning serving asked where
  near := hn
  far := hf
  client := h.client
  host := h.host.trans hk
  out := h.out.of_pipes hp (.refl c) hk hr
  back := h.back.of_pipes hp hk (.refl c) rfl
  pending := h.pending
  responses := h.responses
  numbered := h.numbered
  serials := h.serials

lemma beside {P : Port → Prop} {s : BrokerId} (h : l.Bears w c d landing returning serving asked)
    (hw : World.Beside P s w w') (hn : ¬ P l.near) (hf : ¬ P l.far) :
    l.Bears w' c d landing returning serving asked where
  near := h.near.beside hw hn
  far := h.far.beside hw hf
  client := h.client
  host := h.host
  out := h.out.beside hw hf
  back := h.back.beside hw hn
  pending := h.pending
  responses := h.responses
  numbered := h.numbered
  serials := h.serials

lemma ask (h : l.Bears w c d landing returning serving asked) {f : Flight σ α} {flag : Bool}
    (hl : f.line = l) (hid : f.request.id = c.nextRequest)
    (hwaiter : f.waiter = c.nextWaiter)
    (hn : w'.Has l.near { c.enrolled with isBidirectional := flag })
    (hk : World.Wire.Kept l.near l.far w w')
    (hwire : w'.Wire { c.enrolled with isBidirectional := flag } d l.far
      ((asked.map fun f => .request f.request) ++ [.request f.request]))
    (hne : l.near ≠ l.far) :
    l.Bears w' { c.enrolled with isBidirectional := flag } d landing returning serving
      (asked ++ [f]) := by
  obtain ⟨first, hserials, hrequest, hnext⟩ := h.serials
  have hserial : f.serial = first + (fleet landing returning serving asked).length := by
    have hsame := hwaiter.trans hnext
    rw [Flight.waiter, hl] at hsame
    exact Nat.add_left_cancel hsame
  have hfleet : fleet landing returning serving (asked ++ [f]) =
      fleet landing returning serving asked ++ [f] := by
    simp only [fleet, List.append_assoc]
  refine ⟨hn, hk.has l.far d hne.symm h.far, h.client, h.host, ?_, ?_, ?_, h.responses, ?_, first,
    ?_, ?_, ?_⟩
  · rw [List.map_append]
    exact hwire
  · exact (hk.wires d c l.near _ hne h.back).of_pipes rfl (.refl d) rfl rfl
  · have hkey : f.key = (c.nextRequest, c.nextWaiter) := by
      rw [Flight.key, hid, hwaiter]
    have hpending : c.enrolled.pending = f.key :: c.pending := by
      rw [hkey]
      rfl
    rw [← List.append_assoc serving, ← List.append_assoc, List.map_append, List.reverse_append]
    exact hpending.trans (congrArg (f.key :: ·) h.pending)
  · rw [hfleet]
    intro g hg
    rcases List.mem_append.mp hg with hg | hg
    · exact h.numbered g hg
    · rw [List.mem_singleton.mp hg, hserial, ← hrequest]
      exact ⟨hl, hid⟩
  · rw [hfleet, Flight.consecutive_append, Flight.consecutive_singleton]
    exact ⟨hserials, hserial⟩
  · rw [hfleet, List.length_append, List.length_singleton, ← Nat.add_assoc,
      Connection.requestId_succ, ← hrequest]
    rfl
  · rw [hfleet, List.length_append, List.length_singleton, ← Nat.add_assoc, ← Nat.add_assoc,
      Nat.add_assoc _ first, ← hnext]
    rfl

lemma accept (h : l.Bears w c d landing returning serving asked) (hr : d.isReading = true)
    (hne : l.near ≠ l.far) :
    ∃ d', l.Bears (w.receive l.far) c d' landing returning (serving ++ asked) [] ∧
      World.Stirs (· = l.far) l.far.broker
        (List.replicate asked.length (.broker l.far.broker))
        (asked.map fun f => .started (.serve l.far f.request c.order)) w (w.receive l.far) := by
  have hout : w.Wire c d l.far ((asked.map (·.request)).map .request) := by
    rw [List.map_map]
    exact h.out
  obtain ⟨d', hkin, hd', hwire, hstirs⟩ :=
    hout.receive_requests (P := (· = l.far)) h.far hr rfl
  rw [List.length_map, List.map_map] at hstirs
  have hback : (w.receive l.far).Wire d' c l.near _ :=
    (h.back.beside hstirs.toBeside hne).of_pipes rfl hkin (.refl c) rfl
  have hfleet : fleet landing returning (serving ++ asked) [] =
      fleet landing returning serving asked := by
    rw [fleet, List.append_nil]
    rfl
  refine ⟨d', ⟨h.near.beside hstirs.toBeside hne, hd', h.client, h.host.trans hkin, hwire, hback,
    ?_, h.responses, ?_, ?_⟩, hstirs⟩
  · rw [List.append_nil]
    exact h.pending
  · rw [hfleet]
    exact h.numbered
  · rw [hfleet]
    exact h.serials

lemma deliveries (h : l.Bears w c d landing returning serving asked) :
    let xs := returning.map fun x => x.1.delivery x.2
    w.Wire d c l.near (xs.map fun x => .reply x.reply) ∧
      c.pending = ((serving ++ asked).map Flight.key).reverse ++
        (xs.map Delivery.key).reverse := by
  refine ⟨?_, ?_⟩
  · rw [List.map_map]
    exact h.back
  · rw [h.pending, List.map_append, List.reverse_append, List.map_map, List.map_map]
    rfl

lemma hear {s : BrokerId} (h : l.Bears w c d landing returning serving asked)
    (hr : c.isReading = true) (hne : l.near ≠ l.far)
    (hlen : (returning.map Prod.fst ++ (serving ++ asked)).length ≤ Connection.idSpan) :
    ∃ c', l.Bears (w.receive l.near) c' d (landing ++ returning) [] serving asked ∧
      World.Stirs (· = l.near) s []
        (returning.map fun x => .responded l.near x.1.waiter) w (w.receive l.near) := by
  let xs := returning.map fun x => x.1.delivery x.2
  obtain ⟨hback, hpending⟩ := h.deliveries
  obtain ⟨reader, hlimit, hc', hwire, hstirs⟩ := hback.receive_replies (P := (· = l.near))
    (s := s) h.near hr rfl hpending (h.distinct hlen)
  rw [List.map_map] at hstirs
  have hresponses : (xs.map (Delivery.response d.order)).reverse ++ c.responses =
      ((landing ++ returning).map fun x => (x.1.delivery x.2).response l.host.order).reverse := by
    rw [h.responses, h.host.order, List.map_append, List.reverse_append, List.map_map]
    rfl
  refine ⟨_, ⟨hc', h.far.beside hstirs.toBeside hne.symm, ?_, h.host, ?_, hwire, rfl,
    hresponses, ?_, ?_⟩, hstirs⟩
  · exact h.client.trans (.trans (.of_reader hlimit) rfl)
  · exact (h.out.beside hstirs.toBeside hne.symm).of_pipes rfl (.trans (.of_reader hlimit) rfl)
      (.refl d) rfl
  · intro f hf
    refine h.numbered f ?_
    simpa [fleet, or_assoc] using hf
  · simpa only [fleet, List.map_append, List.map_nil, List.nil_append, List.append_assoc] using
      h.serials

lemma reply {s : BrokerId} {f : Flight σ α} (h : l.Bears w c d landing returning (f :: serving) asked)
    {a : ReplyContent} (hm : World.Passes l.client l.host (.reply (f.delivery a).reply))
    (hne : l.near ≠ l.far) :
    ∃ w', w.send l.far (.reply (f.delivery a).reply) = (.ok (), w') ∧ w'.brokers = w.brokers ∧
      World.Stirs (· = l.near) s [] [.readable l.near] w w' ∧
      l.Bears w' c d landing (returning ++ [(f, a)]) serving asked := by
  obtain ⟨w', hsend, hbrokers, hstirs, -, hwire⟩ := h.back.send (P := (· = l.near)) (s := s)
    h.far.found (hm.kin h.host h.client) rfl
  have hfleet : fleet landing (returning ++ [(f, a)]) serving asked =
      fleet landing returning (f :: serving) asked := by
    simp only [fleet, List.map_append, List.map_cons, List.map_nil, List.append_assoc,
      List.cons_append, List.nil_append]
  refine ⟨w', hsend, hbrokers, hstirs, h.near.of_brokers hbrokers, h.far.of_brokers hbrokers,
    h.client, h.host, h.out.beside hstirs.toBeside hne.symm, ?_, ?_, h.responses, ?_, ?_⟩
  · rw [List.map_append]
    exact hwire
  · rw [h.pending]
    simp only [List.map_append, List.map_cons, List.map_nil, List.append_assoc,
      List.cons_append, List.nil_append]
  · rw [hfleet]
    exact h.numbered
  · rw [hfleet]
    exact h.serials

lemma respond {s : BrokerId} {f : Flight σ α}
    (h : l.Bears w c d landing returning (f :: serving) asked) {a : ReplyContent}
    (hm : World.Passes l.client l.host (.reply (f.delivery a).reply)) (hr : c.isReading = true)
    (hlen : (returning.map Prod.fst ++ (f :: serving ++ asked)).length ≤ Connection.idSpan)
    (hne : l.near ≠ l.far) :
    ∃ u isWritten w' events, (w.send l.far (.reply (f.delivery a).reply)).2 = u ∧
      (Activity.written l.far).Evaluates u isWritten u ∧ u.untrack l.far = w' ∧
      (events = [] ∨ events = [.idle l.far]) ∧
      World.Stirs (fun p => p = l.near ∨ p = l.far) s [] (.readable l.near :: events) w w' ∧
      l.Bears w' c d.untrack landing (returning ++ [(f, a)]) serving asked := by
  obtain ⟨w', hsend, -, hstirs, hbears⟩ := h.reply (s := s) hm hne
  obtain ⟨events, hevents, huntrack⟩ := World.Stirs.untrack (P := (· = l.far)) (s := s) w' rfl
  have hstuck : w'.isStuck d.outbound = false := by
    obtain ⟨hback, hpending⟩ := hbears.deliveries
    refine hback.isStuck_replies hbears.near hr hpending (hbears.distinct ?_)
    rw [List.map_append, List.append_assoc]
    exact hlen
  refine ⟨w', _, w'.untrack l.far, events, ?_, .written hbears.far.found hstuck, rfl, hevents, ?_,
    ?_⟩
  · rw [hsend]
  · exact (hstirs.mono fun _ => .inl).trans (huntrack.mono fun _ => .inr)
  · exact hbears.of_far (hbears.near.beside huntrack.toBeside hne) hbears.far.untrack rfl rfl
      (World.pipes_untrack _ _)

lemma land {f : Flight σ α} {a : ReplyContent}
    (h : l.Bears w c d ((f, a) :: landing) returning serving asked) (hne : l.near ≠ l.far) :
    c.response? f.waiter = some (.ok (.reply (f.delivery a).reply, l.host.order)) ∧
      l.Bears (w.landed l.near f.waiter) (c.takeResponse f.waiter).untrack d landing returning
        serving asked := by
  obtain ⟨first, hserials, hrequest, hnext⟩ := h.serials
  have hfleet : fleet ((f, a) :: landing) returning serving asked =
      [f] ++ fleet landing returning serving asked := rfl
  have hwaiters := hserials.nodup_waiters h.numbered
  rw [hfleet, List.map_append, List.map_singleton, List.singleton_append, List.nodup_cons]
    at hwaiters
  let rest := (landing.map fun x => (x.1.delivery x.2).response l.host.order).reverse
  have hlast : c.responses = rest ++ [(f.delivery a).response l.host.order] := by
    rw [h.responses, List.map_cons, List.reverse_cons]
  have hother : ∀ x ∈ rest, x.1 ≠ f.waiter := by
    intro x hx hsame
    obtain ⟨y, hy, rfl⟩ := List.mem_map.mp (List.mem_reverse.mp hx)
    refine hwaiters.1 (hsame ▸ List.mem_map_of_mem ?_)
    exact List.mem_append_left _ (List.mem_map_of_mem hy)
  refine ⟨?_, ?_⟩
  · rw [Connection.response?, hlast]
    exact lookup_concat_of_forall_ne hother _
  · obtain ⟨events, -, hstirs⟩ :=
      World.Stirs.landed (P := (· = l.near)) (s := l.far.broker) w rfl f.waiter
    have hpipes := w.pipes_landed l.near f.waiter
    refine ⟨h.near.landed f.waiter, h.far.beside hstirs.toBeside hne.symm, h.client, h.host,
      h.out.of_pipes hpipes rfl (.refl d) rfl, h.back.of_pipes hpipes (.refl d) rfl rfl, h.pending,
      ?_, fun g hg => h.numbered g ?_, first + 1, ?_, ?_, ?_⟩
    · have hfilter : c.responses.filter (·.1 != f.waiter) = rest := by
        rw [hlast]
        exact filter_concat_of_forall_ne hother _
      exact hfilter
    · rw [hfleet]
      exact List.mem_append_right _ hg
    · rw [hfleet, Flight.consecutive_append] at hserials
      exact hserials.2
    · rw [Nat.add_assoc, Nat.add_comm 1]
      exact hrequest
    · rw [Nat.add_assoc, Nat.add_comm 1]
      exact hnext

end Bears

end Line

end ObjectBroker
