import ObjectBroker.Proofs.Dispatch.Answer
import ObjectBroker.Proofs.World.Delivery

/-!
What goes out on a connection for a request that has come on it. What its object sends while it
works is the object's own affair; the broker sends one reply or none.
-/

namespace ObjectBroker

variable {σ : Type} {E : World σ → World σ → Prop}

namespace World

variable {w v : World σ} {p : Port} {l l' : List (World σ × World σ)} {ms ms' : List Message}

/-- These changes put these messages, one after the other, on the stream of a connection, and
nothing else on any stream. -/
inductive Posts (p : Port) : List (World σ × World σ) → List Message → Prop
  | nil : Posts p [] []
  | mute {w v : World σ} {l : List (World σ × World σ)} {ms : List Message} (h : w.Mute v)
      (hl : Posts p l ms) : Posts p ((w, v) :: l) ms
  | put {w v : World σ} {l : List (World σ × World σ)} {ms : List Message} {c : Connection}
      {m : Message} {octets : Octets} (hc : w.connection? p = some c)
      (hm : Writer.octets c.fragmentSize m c.order = .ok octets)
      (h : w.Carries c.outbound octets v) (hl : Posts p l ms) : Posts p ((w, v) :: l) (m :: ms)

namespace Posts

lemma append (h : Posts p l ms) (h' : Posts p l' ms') : Posts p (l ++ l') (ms ++ ms') := by
  induction h with
  | nil => exact h'
  | mute h _ ih => exact .mute h ih
  | put hc hm h _ ih => exact .put hc hm h ih

lemma of_mute (h : ∀ c ∈ l, Mute c.1 c.2) : Posts p l [] := by
  induction l with
  | nil => exact .nil
  | cons c l ih =>
    obtain ⟨hc, hl⟩ := List.forall_mem_cons.mp h
    exact .mute hc (ih hl)

lemma send {m : Message} (hok : (w.send p m).1 = .ok ())
    (hsize : ∀ c, w.connection? p = some c → c.outbound < w.pipes.size) :
    Posts p [(w, (w.send p m).2)] [m] := by
  cases hc : w.connection? p with
  | none => simp [World.send, hc] at hok
  | some c =>
    cases hf : Writer.frames c.fragmentSize m c.order with
    | error e => simp [World.send, hc, hf] at hok
    | ok frames =>
      have hm : Writer.octets c.fragmentSize m c.order = .ok frames.flatten := by
        rw [Writer.octets, hf]
        rfl
      cases hopen : (w.pipe c.outbound).isClosed with
      | true => simp [World.send, hc, hf, writePipe, hopen, Except.mapError] at hok
      | false => exact .put hc hm (carries_send hc hm hopen (hsize c hc)).2 .nil

end Posts

end World

namespace Activity

lemma Runs.written {p : Port} {w v : World σ} {l : List (World σ × World σ)} {isWritten : Bool}
    (h : (written p).Runs E w l isWritten v) : l = [] :=
  List.eq_nil_iff_forall_not_mem.mpr fun c hc =>
    h.changes_respect (R := fun _ _ => False) (Respects.written p w) c hc

lemma exists_runs_written {p : Port} {w : World σ}
    (h : ∀ c, w.connection? p = some c → w.isStuck c.outbound = false) :
    ∃ isWritten, (written p).Runs E w [] isWritten w := by
  simp only [written, runs_world_iff]
  cases hc : w.connection? p with
  | none => exact ⟨true, .pure _ _⟩
  | some c =>
    have hmet : (Wait.outlet c.outbound).isMet w = true := by
      rw [Wait.isMet, h c hc, Bool.not_false]
    exact ⟨!w.isCut c.outbound, .met hmet (.read (.pure _ _))⟩

end Activity

namespace Job

open Activity

variable {w w' u v : World σ} {p : Port} {c : Connection} {r : Request} {order : ByteOrder}
  {l : List (World σ × World σ)} {answer : ReplyStatus × Octets}

def sent (v : World σ) (p : Port) (r : Request) (answer : ReplyStatus × Octets) : World σ :=
  if r.responseExpected then
    (v.send p (.reply { id := r.id, status := answer.1, body := answer.2 })).2
  else v

/-- The changes that a reply makes; until `u` it was being written. -/
def replying (v u : World σ) (p : Port) (r : Request) (answer : ReplyStatus × Octets) :
    List (World σ × World σ) :=
  (if r.responseExpected then [(v, sent v p r answer)] else []) ++
    [(u, (u.untrack p).unhold (.broker p.broker))]

lemma runs_end_iff : (update fun w : World σ => (w.untrack p).unhold (.broker p.broker)).Runs E u l ()
    w' ↔ l = [(u, (u.untrack p).unhold (.broker p.broker))] ∧
      w' = (u.untrack p).unhold (.broker p.broker) := by
  rw [← bind_pure (update _), runs_update_iff]
  simp [runs_pure_iff, and_comm]

lemma exists_of_runs_reply (h : (reply p r answer).Runs E v l () w') :
    ∃ u, l = replying v u p r answer := by
  obtain ⟨status, body⟩ := answer
  rw [reply] at h
  simp only [replying, sent]
  cases hr : r.responseExpected with
  | false =>
    rw [hr] at h
    exact ⟨v, (runs_end_iff.mp h).1⟩
  | true =>
    rw [hr] at h
    obtain ⟨l', hrest, rfl⟩ := runs_update_iff.mp h
    obtain ⟨l₁, isWritten, u, l₂, hwritten, hend, rfl⟩ := hrest.of_bind
    obtain ⟨rfl, -⟩ := runs_end_iff.mp hend
    refine ⟨u, ?_⟩
    rw [hwritten.written]
    rfl

lemma exists_runs_reply (h : r.responseExpected = true → ∀ c,
      (sent v p r answer).connection? p = some c →
      (sent v p r answer).isStuck c.outbound = false) :
    ∃ l w', (reply p r answer).Runs E v l () w' := by
  obtain ⟨status, body⟩ := answer
  rw [reply]
  cases hr : r.responseExpected with
  | false => exact ⟨_, _, runs_end_iff.mpr ⟨rfl, rfl⟩⟩
  | true =>
    rw [sent, if_pos hr] at h
    obtain ⟨isWritten, hwritten⟩ := exists_runs_written (E := E) (h hr)
    have hrest := hwritten.bind (f := fun _ =>
      update fun w => (w.untrack p).unhold (.broker p.broker)) (runs_end_iff.mpr ⟨rfl, rfl⟩)
    exact ⟨_, _, runs_update_iff.mpr ⟨_, hrest, rfl⟩⟩

lemma mute_finish (v : World σ) (p : Port) :
    World.Mute v ((v.untrack p).unhold (.broker p.broker)) :=
  v.pipes_untrack p

lemma posts_replying_oneway (h : r.responseExpected = false) :
    World.Posts p (replying v u p r answer) [] := by
  refine .of_mute ?_
  simpa [replying, h] using mute_finish u p

lemma posts_replying (h : r.responseExpected = true) {m : Message}
    (hm : m = .reply { id := r.id, status := answer.1, body := answer.2 })
    (hok : (v.send p m).1 = .ok ())
    (hsize : ∀ c, v.connection? p = some c → c.outbound < v.pipes.size) :
    World.Posts p (replying v u p r answer) [m] := by
  have hsent : sent v p r answer = (v.send p m).2 := by simp [sent, h, hm]
  have hput : World.Posts p [(v, sent v p r answer)] [m] := hsent ▸ .send hok hsize
  simpa [replying, h] using hput.append (.mute (mute_finish u p) .nil)

variable [Servant σ]

lemma runs_serveRequest_iff (hc : w.connection? p = some c) :
    (serveRequest p r order).Runs E w l () w' ↔ ∃ l₁ answer v l₂,
      (Dispatch.serve (inbound p c r order)).Runs E w l₁ answer v ∧
      (reply p r answer).Runs E v l₂ () w' ∧ l = l₁ ++ l₂ := by
  have hserve : (serveRequest p r order).Runs E w l () w' ↔
      (Dispatch.serve (inbound p c r order) >>= reply p r).Runs E w l () w' := by
    rw [serveRequest, runs_world_iff, hc]
    rfl
  rw [hserve, runs_bind_iff]

end Job

namespace Dispatch

lemma Settled.of_invoke [s : Servant σ] {w : World σ} {call : Inbound}
    {answer : ReplyStatus × Octets} (h : Settled w call answer)
    (other : CallContext → String → Serving σ Unit) :
    @Settled σ { s with invoke := other } w call answer := by
  let t : Servant σ := { s with invoke := other }
  cases h with
  | existence hop => exact @Settled.existence σ t w call hop
  | nowhere hop h => exact @Settled.nowhere σ t w call _ hop h
  | barred hop ht ho hb => exact @Settled.barred σ t w call _ hop ht ho hb
  | interface hop ht hb hid => exact @Settled.interface σ t w call _ _ hop ht hb hid
  | garbled hop ht hb hid => exact @Settled.garbled σ t w call _ _ hop ht hb hid

/-- A request gets one answer, and what an object had written before it failed is not in it. -/
theorem one_answer {σ : Type} [s : Servant σ] (call : Inbound) (w : World σ) :
    ((∃ target, Asks w call target) ∨ ∃ answer, Settled w call answer) ∧
    (∀ target, Asks w call target → ∀ E l answer w', (serve call).Runs E w l answer w' ↔
      ∃ own result x v,
        ((invoke (context call target) call.operation).run.run (exchange w call)).Runs E
          (engage w call target) own (result, x) v ∧
        Tells (w.broker call.broker) x.reply.octets result answer ∧
        l = opening w call target ++ own ++ closing v call target result ∧
        w' = release v call target result) ∧
    (∀ answer, Settled w call answer → ∀ other, ∃ f : Stats → Stats, ∀ E answer' w',
      (∃ l, (@serve σ { s with invoke := other } call).Runs E w l answer' w') ↔
        answer' = answer ∧ w' = w.count call.broker f) ∧
    ∀ p c r order, w.connection? p = some c → call = Job.inbound p c r order → ∀ E,
      (∀ l answer v, (serve call).Runs E w l answer v →
        (r.responseExpected = true → ∀ d, (Job.sent v p r answer).connection? p = some d →
          (Job.sent v p r answer).isStuck d.outbound = false) →
        ∃ l' w', (Job.serveRequest p r order).Runs E w (l ++ l') () w') ∧
      ∀ l w', (Job.serveRequest p r order).Runs E w l () w' →
        ∃ before own after reply answer v, l = before ++ own ++ after ++ reply ∧
          (own = [] ∨ Own E w call own) ∧
          (serve call).Runs E w (before ++ own ++ after) answer v ∧
          (r.responseExpected = false → World.Posts p (before ++ after ++ reply) []) ∧
          (r.responseExpected = true → ∀ m : Message,
            m = .reply { id := r.id, status := answer.1, body := answer.2 } →
            (v.send p m).1 = .ok () →
            (∀ d, v.connection? p = some d → d.outbound < v.pipes.size) →
            World.Posts p (before ++ after ++ reply) [m]) := by
  refine ⟨asks_or_settled w call, fun target h E l answer w' => ?_, fun answer h other => ?_, ?_⟩
  · rw [runs_serve_iff h.route h.existence, h.toServant_eq]
    simp only [tells_iff]
  · obtain ⟨f, hserve⟩ := @Settled.evaluates σ _ _ _ { s with invoke := other } (h.of_invoke other)
    exact ⟨f, fun E answer' w' => hserve.runs_iff⟩
  · rintro p c r order hc rfl E
    refine ⟨fun l answer v hrun htakes => ?_, fun l w' hrun => ?_⟩
    · obtain ⟨l', w', hreply⟩ := Job.exists_runs_reply (E := E) htakes
      exact ⟨l', w', (Job.runs_serveRequest_iff hc).mpr ⟨l, answer, v, l', hrun, hreply, rfl⟩⟩
    · obtain ⟨l₁, answer, v, l₂, hserve, hreply, rfl⟩ := (Job.runs_serveRequest_iff hc).mp hrun
      obtain ⟨u, rfl⟩ := Job.exists_of_runs_reply hreply
      obtain ⟨before, own, after, rfl, hown, hmute⟩ := serve_split hserve
      have hquiet : World.Posts p (before ++ after) [] := .of_mute hmute
      refine ⟨before, own, after, _, answer, v, rfl, hown, hserve, fun h => ?_, ?_⟩
      · exact hquiet.append (Job.posts_replying_oneway h)
      · rintro h m hm hok hsize
        exact hquiet.append (Job.posts_replying h hm hok hsize)

@[reducible] def faltering : Servant Unit where
  typeId _ := ""
  typeIds _ := []
  brokers _ := []
  invoke _ _ := do
    Serving.write (·.putBool true)
    throw (.cancelled "")

def line : Connection where
  id := 1
  role := .acceptor
  peer := { host := "peer", port := 1 }
  order := .bigEndian
  fragmentSize := 64
  reader := .new 64
  inbound := 0
  outbound := 1
  state := .established

def halfway : World Unit where
  brokers := #[{ Broker.new "" { name := "", order := .bigEndian } with
    adapters := { adapters := [{ name := Adapter.rootName, servants := [("x", 0)] }] }
    connections := [line] }]
  objects := #[.custom ()]
  pipes := #[{}, {}]

def urgent : Request :=
  { id := 7, responseExpected := true, key := [120], operation := "go", body := [] }

def apology : Octets :=
  ((halfway.broker 0).marshaller.put (SystemException.put · (BrokerError.raised .transient))).octets

theorem one_answer_halfway : ∃ before own after w',
    (@Job.serveRequest Unit faltering ⟨0, 1⟩ urgent .bigEndian).Runs (fun _ _ => False) halfway
      (before ++ own ++ after) () w' ∧
    World.Posts ⟨0, 1⟩ (before ++ after)
      [.reply { id := 7, status := .systemException, body := apology }] := by
  let target : Target :=
    { adapter := { name := Adapter.rootName, servants := [("x", 0)] }, id := "x", servant := 0 }
  have hc : halfway.connection? ⟨0, 1⟩ = some line := rfl
  let call := Job.inbound ⟨0, 1⟩ line urgent .bigEndian
  let v := engage halfway call target
  have hroute : (halfway.broker 0).adapters.route urgent.key = .ok target := by decide +kernel
  have hgo : urgent.operation ≠ "_non_existent" ∧ urgent.operation ≠ "_is_a" := by decide
  have hasks : Asks halfway call target := by
    refine ⟨hroute, ?_, hgo.1, hgo.2⟩
    simp [call, Job.inbound, Job.origin, line]
  have hinvoke : (@invoke Unit faltering (context call target) "go").Evaluates
      (exchange halfway call) v (.error (.cancelled "")) _ v := Eq.refl _
  have htold : (@toServant Unit faltering call target).Evaluates (exchange halfway call) v
      (.error (.cancelled "")) _ v := (@Asks.toServant_eq _ _ _ _ faltering hasks).symm ▸ hinvoke
  have hserve : (@serve Unit faltering call).Evaluates halfway (.systemException, apology)
      (halfway.count 0 (tally (.error (.cancelled "")))) :=
    @evaluates_serve_of_object Unit halfway call target _ faltering _ hasks.existence hasks.route
      htold
  let E : World Unit → World Unit → Prop := fun _ _ => False
  obtain ⟨own, hown⟩ := (hinvoke.runs_iff (E := E)).mpr ⟨rfl, rfl⟩
  obtain ⟨-, hanswers, -, hconnection⟩ := @one_answer Unit faltering call halfway
  have hl := (hanswers target hasks E _ _ _).mpr
    ⟨own, _, _, _, hown, .failed (by simp), rfl, rfl⟩
  obtain ⟨hends, hposts⟩ := hconnection ⟨0, 1⟩ line urgent .bigEndian hc rfl E
  obtain ⟨l', w', hrun⟩ := hends _ _ _ hl fun _ => by decide +kernel
  obtain ⟨before, own, after, reply, answer, v, hsplit, -, hanswer, -, hposts⟩ := hposts _ _ hrun
  obtain ⟨rfl, rfl⟩ := hserve.runs_iff.mp ⟨_, hanswer⟩
  refine ⟨before, own, after ++ reply, w', ?_, ?_⟩
  · rw [← List.append_assoc, ← hsplit]
    exact hrun
  · rw [← List.append_assoc]
    refine hposts rfl _ rfl ?_ ?_
    · decide +kernel
    · intro d hd
      cases hd
      decide

end Dispatch

end ObjectBroker
