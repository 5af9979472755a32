import Mathlib.Logic.Relation
import ObjectBroker.Proofs.Connection.Action
import ObjectBroker.Proofs.Program

/-!
How far a failure reaches. What the reader of a connection brings concerns nobody who waits there,
the caller of one request, or everyone; what goes wrong while a request is served concerns nobody
but its own caller.
-/

namespace ObjectBroker

namespace Connection

/-- The caller of a request leaves; all others stay and are told nothing. -/
structure Answered (c : Connection) (request : UInt32) (d : Connection) : Prop where
  state : d.state = c.state
  pending : d.pending = c.pending.filter (·.1 != request)
  others : ∀ waiter, c.pending.lookup request ≠ some waiter →
    d.response? waiter = c.response? waiter

structure Ended (c : Connection) (category : Category) (d : Connection) : Prop where
  state : d.state = .closed
  pending : d.pending = []
  callers : ∀ request waiter, (request, waiter) ∈ c.pending →
    ∃ e : BrokerError, d.response? waiter = some (.error e) ∧ e.category = category

/-- The connection is closed, but those who wait there have not been told. -/
structure Held (c d : Connection) : Prop where
  state : d.state = .closed
  readerState : d.readerState = .finishing
  pending : d.pending = c.pending
  responses : d.responses = c.responses

end Connection

namespace Connection

variable (c : Connection)

end Connection

namespace Scope.Bounds

variable {c c' d : Connection}

end Scope.Bounds

namespace World

variable {σ : Type} {w w' w'' : World σ} {p : Port} {c : Connection}

def SteadyOff (p : Port) (w w' : World σ) : Prop :=
  w.Relates (fun q c d => q ≠ p → c.Steady d) w'

lemma Steady.off (h : w.Steady w') : SteadyOff p w w' := by
  intro q c hc
  obtain ⟨d, hd, hcd⟩ := h q c hc
  exact ⟨d, hd, fun _ => hcd⟩

namespace SteadyOff

lemma trans (h : SteadyOff p w w') (h' : SteadyOff p w' w'') : SteadyOff p w w'' :=
  Relates.trans (fun _ _ _ _ h₁ h₂ hq => (h₁ hq).trans (h₂ hq)) h h'

lemma update {f : Connection → Connection} (hf : ∀ c, (f c).id = c.id) :
    SteadyOff p w (w.updateConnection p f) :=
  Relates.updateConnection (fun _ c _ => .refl c) (fun c hc => (hf c).trans hc)
    fun _ _ hp => absurd rfl hp

lemma complete (w : World σ) (request : UInt32) (r : Response) :
    SteadyOff p w (w.complete p request r) := by
  rw [World.complete]
  split
  · exact (Steady.of_brokers rfl).off
  · refine trans (update fun c => ?_) (Steady.of_brokers rfl).off
    rw [Connection.complete]
    split <;> rfl

lemma of_ends (h : Ends p w w') : SteadyOff p w w' := by
  induction h with
  | of_brokers h => exact (Steady.of_brokers h).off
  | fail w e => exact update fun _ => rfl
  | part w => exact update Connection.id_parted
  | quit w s _ => exact update fun c => c.id_quit s
  | remove _ _ _ => exact (Steady.updateBroker fun b => b.connections_remove _).off
  | trans _ _ ih ih' => exact ih.trans ih'

end SteadyOff

lemma Has.reads_next (h : w.Has p c) :
    ∃ d, (w.readNext p c).2.Has p d ∧ c.Steady d ∧ d.outbound = c.outbound :=
  ⟨_, (h.of_brokers (brokers_setPipe w _ _)).update rfl, ⟨rfl, rfl, rfl⟩, rfl⟩

end World

section Serving

variable {σ : Type} {R : World σ → World σ → Prop}
  (hR : ∀ w w' : World σ, w.Calm w' → R w w')
include hR

variable [Servant σ]
  (hs : ∀ c operation, (Servant.invoke c operation : Serving σ Unit).Respects R)
include hs

lemma Dispatch.respects_serve (call : Inbound) : (serve call : Activity σ _).Respects R :=
  (madeOf_serve (B := fun _ a => a.Respects R) (fun c operation x => .base (hs c operation x))
    call).respects hR fun _ _ h => h

lemma Job.respects_activity {job : Job}
    (hend : ∀ p exit, job = .finish p exit →
      (Activity.update fun w : World σ => w.finishLate p exit).Respects R) :
    (job.activity : Activity σ Unit).Respects R :=
  (madeOf_activity (B := fun _ a => a.Respects R) (fun c operation x => .base (hs c operation x))
    fun p exit h => .base (hend p exit h)).respects hR fun _ _ h => h

end Serving

namespace World

@[reducible] def refusing : Servant Unit where
  typeId _ := ""
  typeIds _ := []
  brokers _ := []
  invoke _ operation := Serving.unknown operation

end World

end ObjectBroker
