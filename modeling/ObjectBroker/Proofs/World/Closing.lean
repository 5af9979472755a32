import ObjectBroker.Proofs.Broker.Seats
import ObjectBroker.Proofs.World.Path

/-!
Closing connections. Whoever waits on a connection that is closed is told so, and once it has been
closed nobody waits there again.
-/

namespace ObjectBroker

variable {σ : Type} {w w' : World σ} {p q : Port} {c : Connection}

namespace World

lemma broker_part (w : World σ) (p : Port) (isFree : Bool) (b : BrokerId) :
    (w.part p isFree).broker b = (w.updateConnection p Connection.parted).broker b := by
  have hlast : ∀ w' : World σ, w'.brokers = w.brokers →
      ((w'.updateConnection p Connection.parted).emit (.readable p)).broker b =
        (w.updateConnection p Connection.parted).broker b := by
    intro w' hw'
    refine broker_of_brokers ?_ b
    change (w'.updateConnection p _).brokers = _
    rw [updateConnection, updateBroker, hw']
    rfl
  cases isFree with
  | false => exact hlast w rfl
  | true =>
    have hsent := brokers_send w p .closeConnection
    rw [part, if_pos rfl]
    rcases hs : w.send p .closeConnection with ⟨result, w'⟩
    rw [hs] at hsent
    cases result with
    | ok _ => exact hlast _ ((brokers_shutWriter w' p).trans hsent)
    | error _ => exact hlast _ hsent

/-- What goodbye makes of a connection, whose stream may be full. -/
def departing (isFull : Bool) (c : Connection) : Connection :=
  if isFull then c.failPending c.shutDownError else (c.failPending c.shutDownError).parted

lemma connection?_goodbye (hc : w.connection? p = some c) :
    (w.goodbye p).connection? p = some (departing (w.pipe c.outbound).isFull c) := by
  have hfailed : (w.failPending p c.shutDownError).connection? p =
      some (c.failPending c.shutDownError) := by
    rw [failPending, hc]
    change (w.updateConnection p (·.failPending c.shutDownError)).connection? p = _
    rw [connection?_updateConnection (f := (·.failPending c.shutDownError)) w fun _ h => h, hc]
    rfl
  rw [goodbye, hc, departing]
  dsimp only
  split
  · exact hfailed
  · rw [connection?, broker_part, ← connection?,
      connection?_updateConnection _ fun d hd => d.id_parted.trans hd, hfailed]
    rfl

lemma connection?_goodbye_ne (hq : q ≠ p) : (w.goodbye p).connection? q = w.connection? q := by
  cases hc : w.connection? p with
  | none => rw [goodbye, hc]
  | some c =>
    have hfailed : (w.failPending p c.shutDownError).connection? q = w.connection? q := by
      rw [failPending, hc]
      exact connection?_updateConnection_ne w (f := (·.failPending c.shutDownError))
        (fun _ h => h) hq
    rw [goodbye, hc]
    dsimp only
    split
    · exact hfailed
    · rw [connection?, broker_part, ← connection?,
        connection?_updateConnection_ne _ (fun d hd => d.id_parted.trans hd) hq, hfailed]

def Over (w : World σ) (p : Port) : Prop :=
  ∃ c, w.connection? p = some c ∧ c.Over

structure Told (w : World σ) (p : Port) (c : Connection) : Prop where
  ended : w.Over p
  response : ∀ request x, (request, x) ∈ c.pending →
    (w.connection? p).bind (·.response? x) = some (.error c.shutDownError)

lemma Over.follows (h : w.Over p) {marks : BrokerId → List Broker.Mark} (hf : w.Follows marks w')
    (hn : (w.broker p.broker).Numbered) : w'.Over p := by
  obtain ⟨c, hc, hover⟩ := h
  obtain ⟨d, hd, hdover, -⟩ := (hf.path p.broker).stays_over hn hc hover
  exact ⟨d, hd, hdover⟩

lemma Told.silent (h : w.Told p c) (hs : w.Silent w') (hn : (w.broker p.broker).Numbered) :
    w'.Told p c := by
  refine ⟨h.ended.follows hs hn, fun request x hx => ?_⟩
  obtain ⟨d, hd, hover⟩ := h.ended
  obtain ⟨e, he, -, hsame⟩ := (hs.path p.broker).stays_over hn hd hover
  have hx := h.response request x hx
  rw [hd, Option.bind_some] at hx
  have hkept : w'.connection? p = some e := he
  rw [hkept, Option.bind_some, Connection.response?, hsame fun m hm => absurd hm List.not_mem_nil]
  exact hx

lemma told_goodbye (hc : w.connection? p = some c) (hrank : 2 ≤ c.state.rank) :
    (w.goodbye p).Told p c := by
  obtain ⟨hp, hr, -⟩ := Connection.setState_eq (c.failPending c.shutDownError) .closed
  obtain ⟨hp', hr', -, hs⟩ := Connection.stopReading_eq
    ((c.failPending c.shutDownError).setState .closed)
  have hdone : (departing (w.pipe c.outbound).isFull c).Over ∧
      (departing (w.pipe c.outbound).isFull c).responses =
        (c.failPending c.shutDownError).responses := by
    rw [departing]
    split
    · exact ⟨⟨hrank, rfl⟩, rfl⟩
    · refine ⟨⟨?_, hp'.trans hp⟩, hr'.trans hr⟩
      rw [Connection.parted, hs, Connection.state_setState_closed]
      decide
  refine ⟨⟨_, connection?_goodbye hc, hdone.1⟩, fun request x hx => ?_⟩
  rw [connection?_goodbye hc, Option.bind_some, Connection.response?, hdone.2]
  exact c.response?_failPending hx c.shutDownError

lemma over_goodbyes {b : BrokerId} (hn : (w.broker b).Numbered) {ports : List Port}
    (hports : ∀ p ∈ ports, p.broker = b ∧ ∃ c, w.connection? p = some c ∧ 2 ≤ c.state.rank) :
    ∀ p ∈ ports, (ports.foldl goodbye w).Over p := by
  induction ports generalizing w with
  | nil => exact fun p hp => absurd hp List.not_mem_nil
  | cons q ports ih =>
    have hstep := Silent.goodbye w q
    have hnumbered : ((w.goodbye q).broker b).Numbered := ((hstep.path b).course hn).2
    have hrest := ih hnumbered fun p hp => by
      obtain ⟨rfl, c, hc, hrank⟩ := hports p (List.mem_cons_of_mem _ hp)
      obtain ⟨d, hd, hstays⟩ := (hstep.path p.broker).stays hn hc
      exact ⟨rfl, d, hd, Nat.le_trans hrank hstays.rank⟩
    intro p hp
    rcases List.mem_cons.mp hp with rfl | hp
    · obtain ⟨rfl, c, hc, hrank⟩ := hports p List.mem_cons_self
      exact (told_goodbye hc hrank).ended.follows (Silent.foldl Silent.goodbye ports _) hnumbered
    · exact hrest p hp

end World

namespace Closing

open World

lemma begin_eq (hc : w.connection? p = some c) (hrank : c.state.rank < 2) :
    begin w p = (true, w.updateConnection p fun _ => { c with state := .closing }) := by
  rw [begin, hc, Option.bind_some, Connection.beginClose?]
  cases hs : c.state with
  | connecting | established => rfl
  | closing | closed =>
    rw [hs] at hrank
    exact absurd hrank (by decide)

lemma connection?_begin_ne (hq : q ≠ p) : (begin w p).2.connection? q = w.connection? q := by
  rw [begin]
  split
  · rfl
  · next d hd =>
    obtain ⟨c, hc, hbegin⟩ := Option.bind_eq_some_iff.mp hd
    obtain ⟨-, rfl⟩ := Connection.beginClose?_eq_some hbegin
    have hid : c.id = p.connection := Broker.id_of_connection? hc
    exact connection?_updateConnection_ne w (f := fun _ => { c with state := .closing })
      (fun _ _ => hid) hq

lemma start_ne (drained : Bool) (state : List Port × World σ) (hq : q ≠ p) :
    (start drained state p).2.connection? q = state.2.connection? q := by
  obtain ⟨waiting, w⟩ := state
  have hbegin := connection?_begin_ne (w := w) hq
  rw [start]
  rcases hb : begin w p with ⟨isFirst, w'⟩
  rw [hb] at hbegin
  cases isFirst with
  | false => exact hbegin
  | true =>
    dsimp only
    split
    · exact hbegin
    · exact (connection?_goodbye_ne hq).trans hbegin

lemma start_waiting (drained : Bool) (state : List Port × World σ) (p : Port) :
    (start drained state p).1 = state.1 ∨
      drained = true ∧ (start drained state p).1 = state.1 ++ [p] := by
  obtain ⟨waiting, w⟩ := state
  rw [start]
  rcases begin w p with ⟨isFirst, w'⟩
  cases isFirst with
  | false => exact .inl rfl
  | true =>
    dsimp only
    split
    · next h =>
      rw [Bool.and_eq_true] at h
      exact .inr ⟨h.1, rfl⟩
    · exact .inl rfl

lemma startAll_waiting (drained : Bool) (ports : List Port) (state : List Port × World σ) :
    state.1 ⊆ (ports.foldl (start drained) state).1 ∧
      (ports.foldl (start drained) state).1 ⊆ state.1 ++ ports ∧
      (drained = false → (ports.foldl (start drained) state).1 = state.1) := by
  induction ports generalizing state with
  | nil => exact ⟨List.Subset.refl _, List.subset_append_left _ _, fun _ => rfl⟩
  | cons p ports ih =>
    obtain ⟨hkept, hnew, hnone⟩ := ih (start drained state p)
    rcases start_waiting drained state p with hsame | ⟨hd, hmore⟩
    · rw [hsame] at hkept hnew hnone
      refine ⟨hkept, fun q hq => ?_, hnone⟩
      rcases List.mem_append.mp (hnew hq) with hq | hq
      · exact List.mem_append_left _ hq
      · exact List.mem_append_right _ (List.mem_cons_of_mem _ hq)
    · rw [hmore] at hkept hnew
      refine ⟨List.Subset.trans (List.subset_append_left _ _) hkept, fun q hq => ?_, fun hd' => ?_⟩
      · have hq := hnew hq
        rw [List.append_assoc] at hq
        exact hq
      · rw [hd] at hd'
        cases hd'

lemma start_self (drained : Bool) (state : List Port × World σ) (hc : state.2.connection? p = some c)
    (hrank : c.state.rank < 2) :
    (∃ d, (start drained state p).2.connection? p = some d ∧ 2 ≤ d.state.rank) ∧
      (drained = true ∧ p ∈ (start drained state p).1 ∨ (start drained state p).2.Told p c) := by
  obtain ⟨waiting, w⟩ := state
  have hid : c.id = p.connection := Broker.id_of_connection? hc
  have hbegun : (w.updateConnection p fun _ => { c with state := .closing }).connection? p =
      some { c with state := .closing } := by
    rw [connection?_updateConnection (f := fun _ => { c with state := .closing }) w fun _ _ => hid,
      hc]
    rfl
  rw [start, begin_eq hc hrank]
  dsimp only
  split
  · next h =>
    rw [Bool.and_eq_true] at h
    exact ⟨⟨_, hbegun, Nat.le_refl 2⟩, .inl ⟨h.1, List.mem_append_right _ List.mem_cons_self⟩⟩
  · have htold := told_goodbye hbegun (Nat.le_refl 2)
    obtain ⟨d, hd, hover⟩ := htold.ended
    exact ⟨⟨d, hd, hover.rank⟩, .inr ⟨htold.ended, htold.response⟩⟩

lemma startAll (drained : Bool) (ports : List Port) (hports : ports.Nodup)
    (state : List Port × World σ) (hn : ∀ b, (state.2.broker b).Numbered) :
    ∀ p ∈ ports, ∀ c, state.2.connection? p = some c → c.state.rank < 2 →
      (∃ d, (ports.foldl (start drained) state).2.connection? p = some d ∧ 2 ≤ d.state.rank) ∧
        (drained = true ∧ p ∈ (ports.foldl (start drained) state).1 ∨
          (ports.foldl (start drained) state).2.Told p c) := by
  induction ports generalizing state with
  | nil => exact fun p hp => absurd hp List.not_mem_nil
  | cons q ports ih =>
    obtain ⟨hq, hports⟩ := List.nodup_cons.mp hports
    have hstep : state.2.Silent (start drained state q).2 := .start drained [q] state
    have hrest : (start drained state q).2.Silent
        (ports.foldl (start drained) (start drained state q)).2 := .start drained ports _
    have hnumbered : ∀ b, ((start drained state q).2.broker b).Numbered :=
      fun b => ((hstep.path b).course (hn b)).2
    obtain ⟨hsubset, -⟩ := startAll_waiting drained ports (start drained state q)
    intro p hp c hc hrank
    rw [List.foldl_cons]
    rcases List.mem_cons.mp hp with rfl | hp
    · obtain ⟨⟨d, hd, hdrank⟩, hended⟩ := start_self drained state hc hrank
      obtain ⟨e, he, hstays⟩ := (hrest.path p.broker).stays (hnumbered _) hd
      refine ⟨⟨e, he, Nat.le_trans hdrank hstays.rank⟩, hended.imp ?_ ?_⟩
      · exact fun h => ⟨h.1, hsubset h.2⟩
      · exact fun h => h.silent hrest (hnumbered _)
    · have hne : p ≠ q := fun h => hq (h ▸ hp)
      exact ih hports _ hnumbered p hp c ((start_ne drained state hne).trans hc) hrank

end Closing

end ObjectBroker
