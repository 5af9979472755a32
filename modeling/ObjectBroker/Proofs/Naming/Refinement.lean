import Mathlib.Data.List.Induction
import ObjectBroker.Proofs.Naming.Room
import ObjectBroker.Proofs.Network.Answers
import ObjectBroker.Service.Probe

/-!
A naming context is a finite map to its clients. However their calls come, over connections or from
inside the broker, there is an order of them in which a map gives every client what it is told.
-/

namespace ObjectBroker

variable {σ : Type}

/-- A call that a client makes to a naming context, and what the client holds meanwhile. -/
structure NamingTask where
  broker : BrokerId
  target : Reference
  call : NamingCall
  holding : Holding

def NamingTask.send (u : NamingTask) : Call σ NamingAnswer :=
  u.call.send u.broker u.target

namespace Site

open Dispatch (Gives Served Admits)
open Network (Moves)

variable {x : Site σ NamingAnswer} {u : NamingTask} {l : Line} {n : ObjectId}

structure Shares (x : Site σ NamingAnswer) (u : NamingTask) : Prop where
  broker : u.broker = x.server
  isLocal : u.target.isLocal = true
  running : x.host.isRunning = true

structure Joins (x : Site σ NamingAnswer) (u : NamingTask) (l : Line) : Prop where
  mem : l ∈ x.lines
  broker : u.broker = l.near.broker
  isLocal : u.target.isLocal = false
  running : (x.broker u.broker).isRunning = true
  timeout : (x.broker u.broker).config.requestTimeout ≠ some 0
  route : (x.broker u.broker).route? u.target.endpoint = some l.client
  order : (x.broker u.broker).config.order = l.client.order
  admits : Admits x.host u.target.key (Job.origin l.host)

/-- A call for the table `n` by a client that can reach it. -/
structure Client (x : Site σ NamingAnswer) (n : ObjectId) (u : NamingTask) : Prop where
  route : ∃ target, x.host.adapters.route u.target.key = .ok target ∧ target.servant = n
  reaches : x.Shares u ∨ ∃ l, x.Joins u l

def namingErrand (x : Site σ NamingAnswer) (u : NamingTask) : Errand σ NamingAnswer :=
  u.call.errand u.broker (x.broker u.broker).marshaller u.target u.holding

def tableAfter (x : Site σ NamingAnswer) (table : NamingContext) (done : List NamingTask) :
    NamingContext :=
  done.foldl (fun table u => table.next x.host.endpoint u.call) table

/-- Every message can be sent: the request of each call, and its reply, whichever of the other calls
have been served before it and in whatever order. The arguments and results of a call inside the
broker are within the same bounds. -/
structure Roomy (x : Site σ NamingAnswer) (table : NamingContext) (us : List NamingTask) :
    Prop where
  args : ∀ u ∈ us, (u.call.put { order := (x.broker u.broker).config.order }).length < 2 ^ 32
  results : ∀ u done, (u :: done).Subperm us →
    ((x.tableAfter table done).reply x.host u.call).2.length < 2 ^ 32
  requests : ∀ u ∈ us, ∀ l, x.Joins u l → ∀ r,
    Invocation.Sends (x.broker u.broker) l.client.order u.target u.call.operation
      (x.namingErrand u).args r → World.Passes l.host l.client (.request r)
  replies : ∀ u done, (u :: done).Subperm us → ∀ l, x.Joins u l → ∀ id,
    World.Passes l.client l.host (.reply
      { id, status := ((x.tableAfter table done).reply x.host u.call).1,
        body := ((x.tableAfter table done).reply x.host u.call).2 })

open Classical in
noncomputable def namingTrip (x : Site σ NamingAnswer) (u : NamingTask) : Trip σ NamingAnswer where
  errand := x.namingErrand u
  line := if h : ∃ l, x.Joins u l then some h.choose else none

lemma Client.takes (h : x.Client n u) {table : NamingContext} {us : List NamingTask}
    (hx : x.Roomy table us) (hu : u ∈ us) : x.Takes (x.namingTrip u) := by
  by_cases hjoins : ∃ l, x.Joins u l
  · have hline : (x.namingTrip u).line = some hjoins.choose := dif_pos hjoins
    have hj := hjoins.choose_spec
    have hargs : (u.call.args (x.broker u.broker).marshaller).output.order =
        (x.broker u.broker).config.order := u.call.order_put _
    rw [Takes, hline]
    exact ⟨hj.mem, hj.broker, hj.isLocal, hj.running, rfl, hj.timeout, hj.route,
      hargs.trans hj.order, hj.admits, hx.requests u hu _ hj⟩
  · have hline : (x.namingTrip u).line = none := dif_neg hjoins
    obtain ⟨hbroker, hlocal, hrunning⟩ := h.reaches.resolve_right hjoins
    rw [Takes, hline]
    refine ⟨hbroker, hlocal, hrunning, ?_⟩
    rw [show (x.namingTrip u).errand.blank = (x.broker u.broker).marshaller from rfl, hbroker]
    rfl

variable [Servant σ]

variable {issued issued' : List (Nat × NamingTask)}
  {m m' : Network σ (Except BrokerError NamingAnswer)}

def roomFor (x : Site σ NamingAnswer) (u : NamingTask) : Nat :=
  64 + u.target.key.length + Message.contextRoom
    [Bidirectional.offer [(x.broker u.broker).endpoint] (x.broker u.broker).config.order] +
    u.call.room

omit [Servant σ] in
lemma Joins.passes (h : x.Joins u l) {room : Nat} (hlt : room < 2 ^ 32)
    (hfragments : 24 ≤ l.client.fragmentSize) (hlimit : room ≤ l.host.reader.limit)
    (hu : x.roomFor u ≤ room) {r : Request}
    (hr : Invocation.Sends (x.broker u.broker) l.client.order u.target u.call.operation
      (x.namingErrand u).args r) :
    World.Passes l.host l.client (.request r) := by
  have hlength := Message.length_request_le r l.client.order
  have hcontexts : Message.contextRoom r.contexts ≤ Message.contextRoom
      [Bidirectional.offer [(x.broker u.broker).endpoint] (x.broker u.broker).config.order] := by
    rcases hr.contexts with hnone | hoffer
    · rw [hnone]
      exact Nat.zero_le _
    · rw [hoffer, h.order]
  have hoperation : (Utf8.encode u.call.operation).length ≤ 7 := by
    cases u.call <;> rw [NamingCall.operation] <;> decide +kernel
  have hbody : r.body.length ≤ u.call.room := by
    have hput := u.call.length_put_le { order := (x.broker u.broker).config.order }
    rw [← Output.length_octets] at hput
    rw [hr.body]
    exact hput.trans (Nat.zero_add _).le
  rw [hr.key, hr.operation] at hlength
  rw [roomFor] at hu
  have hfits : (Message.encode (.request r) l.client.order).length ≤ room := by omega
  exact ⟨hfragments, (fun hkind => by cases hkind), hfits.trans_lt hlt, hfits.trans hlimit⟩

end Site

end ObjectBroker
