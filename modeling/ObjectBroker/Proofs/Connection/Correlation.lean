import ObjectBroker.Proofs.Connection.Ledger

/-!
Replies reach the callers that wait for them, in every run of a connection: each caller returns at
most once, with the first message that answers its own request, and whatever the peer asks for in
between makes no difference.
-/

namespace ObjectBroker

namespace Action

variable {a : Action} {c : Connection}

lemma eq_arrive_of_isCall (ha : a.isCall = true) :
    ∃ m order, a = .arrive m order ∧ m.isCall = true := by
  cases a with
  | arrive m order => exact ⟨m, order, rfl, ha⟩
  | _ => cases ha

lemma apply_of_isCall (ha : a.isCall = true) : a.apply c = c := by
  obtain ⟨m, order, rfl, hm⟩ := eq_arrive_of_isCall ha
  cases m with
  | request r => rfl
  | locateRequest id key => rfl
  | cancelRequest id => rfl
  | _ => cases hm

lemma exit?_of_isCall {m : Message} (hm : m.isCall = true) : m.exit? = none := by
  cases m with
  | request r => rfl
  | locateRequest id key => rfl
  | cancelRequest id => rfl
  | _ => cases hm

lemma eq_arrive_of_verdict {q : UInt32} {m : Message} {order : ByteOrder}
    (hv : a.verdict c q = some (.ok (m, order))) :
    a = .arrive m order ∧ m.answered? = some q := by
  cases a with
  | arrive m' order' =>
    unfold verdict at hv
    cases hm : m'.answered? with
    | none =>
      cases hx : m'.exit? <;> simp [hm, hx] at hv
    | some id =>
      by_cases hq : id = q
      · simp only [hm, hq, if_true, Option.some.injEq, Except.ok.injEq, Prod.mk.injEq] at hv
        obtain ⟨rfl, rfl⟩ := hv
        exact ⟨rfl, hq ▸ hm⟩
      · simp [hm, hq] at hv
  | _ => cases hv

end Action

def Action.isFree (c : Connection) : Action → Bool
  | .written _ | .unwritten _ _ | .oneway | .late _ => false
  | .arrive m _ => !m.exit?.any (·.isViolation)
  | .lose e => !(Connection.Exit.ofError e).isViolation
  | .collect t => (c.response? t.waiter).isSome
  | _ => true

lemma Action.isFree_congr {c c' : Connection} (h : c.desk = c'.desk) (a : Action) :
    a.isFree c = a.isFree c' := by
  have hdesk : ∀ c : Connection, a.isFree c = a.isFree c.desk := by
    intro c
    cases a <;> rfl
  rw [hdesk c, h, ← hdesk c']

def Ledger.replay (c : Connection) (l : Ledger) : List Action → Option Ledger
  | [] => some l
  | a :: as =>
    if a.isFree c ∧ l.Admits a ∧ (l.note c a).Spaced then (l.note c a).replay (a.apply c) as
    else none

namespace World

variable {σ : Type} {w w' w₀ w₁ v v' : World σ} {p : Port} {c d : Connection}
variable {a : Action} {as : List Action} {l l' l₁ l₂ : Ledger}

/-- What happens elsewhere: it keeps the broker, and the connection as those see it who wait
there. -/
def Spares (p : Port) (w w' : World σ) : Prop :=
  ∀ c, w.Has p c → ∃ d, w'.Has p d ∧ d.desk = c.desk

namespace Spares

lemma refl (w : World σ) : w.Spares p w := fun c hc => ⟨c, hc, rfl⟩

lemma trans (h : w.Spares p w₀) (h' : w₀.Spares p w₁) : w.Spares p w₁ := by
  intro c hc
  obtain ⟨d, hd, hdesk⟩ := h c hc
  obtain ⟨d', hd', hdesk'⟩ := h' d hd
  exact ⟨d', hd', hdesk'.trans hdesk⟩

lemma of_has (hw : w.Has p c) (hw' : w'.Has p d) (hd : d.desk = c.desk) : w.Spares p w' := by
  intro c' hc'
  cases hw.unique hc'.found
  exact ⟨d, hw', hd⟩

end Spares

lemma Does.spares (hd : w.Does p a w') (ha : a.isCall = true) : w.Spares p w' := by
  intro c hc
  obtain ⟨d, hw', hdesk⟩ := hd.has hc
  rw [Action.apply_of_isCall ha] at hdesk
  exact ⟨d, hw', hdesk⟩

lemma Does.isSome_response? {t : Ticket} (hd : w.Does p (.collect t) w') (hc : w.Has p c) :
    (c.response? t.waiter).isSome := by
  cases hd with
  | collect _ hf hr =>
    cases hc.unique hf
    exact hr

/-- The runs of a connection in which nobody waits for as long as it takes until the request ids
start over. Anything may happen elsewhere in between. -/
inductive Run (p : Port) : World σ → Ledger → List Action → World σ → Ledger → Prop
  | done {w w' : World σ} {l : Ledger} (h : w.Spares p w') : Run p w l [] w' l
  | act {w w₀ w₁ w' : World σ} {l l' : Ledger} {a : Action} {as : List Action} {c : Connection}
      (h : w.Spares p w₀) (hc : w₀.Has p c) (ha : l.Admits a) (hd : w₀.Does p a w₁)
      (hs : (l.note c a).Spaced) (run : Run p w₁ (l.note c a) as w' l') :
      Run p w l (a :: as) w' l'

namespace Run

lemma after (h : v.Spares p w) (run : Run p w l as w' l') : Run p v l as w' l' := by
  cases run with
  | done h' => exact .done (h.trans h')
  | act h' hc ha hd hs run => exact .act (h.trans h') hc ha hd hs run

lemma correlated {c₀ : Connection} (run : Run p w l as w' l') (hw : w.Has p c)
    (h : Correlated c₀ l c) : ∃ d, w'.Has p d ∧ Correlated c₀ l' d := by
  induction run generalizing c with
  | done hspares =>
    obtain ⟨d, hd, hdesk⟩ := hspares c hw
    exact ⟨d, hd, h.of_desk hdesk⟩
  | @act w w₀ w₁ w' l l' a as d hspares hd ha hdoes hs run ih =>
    obtain ⟨d', hd', hdesk⟩ := hspares c hw
    cases hd.unique hd'.found
    obtain ⟨e, he, happly⟩ := hdoes.has hd
    have hcollect : ∀ t, a = .collect t → (d.response? t.waiter).isSome := by
      rintro t rfl
      exact hdoes.isSome_response? hd
    exact ih he (((h.of_desk hdesk).step ha hs hcollect).of_desk happly)

lemma eq_of_same (run : Run p w l as w' l₁) (run' : Run p v l as v' l₂) (hw : w.Has p c)
    (hv : v.Has p d) (hdesk : c.desk = d.desk) : l₁ = l₂ := by
  induction as generalizing w v l c d with
  | nil =>
    cases run
    cases run'
    rfl
  | cons a as ih =>
    cases run with
    | @act _ w₀ w₁ _ _ _ _ _ x h hx _ hdo _ run =>
      cases run' with
      | @act _ v₀ v₁ _ _ _ _ _ y h' hy _ hdo' _ run' =>
        obtain ⟨x', hx', hxc⟩ := h c hw
        obtain ⟨y', hy', hyd⟩ := h' d hv
        cases hx.unique hx'.found
        cases hy.unique hy'.found
        have hxy : x.desk = y.desk := hxc.trans (hdesk.trans hyd.symm)
        obtain ⟨x₁, hx₁, hax⟩ := hdo.has hx
        obtain ⟨y₁, hy₁, hay⟩ := hdo'.has hy
        rw [l.note_congr hxy a] at run
        exact ih run run' hx₁ hy₁ (hax.trans ((Action.apply_congr hxy a).trans hay.symm))

lemma thin (run : Run p w l as w' l') (hq : l₁.quiet = l.quiet) :
    ∃ l₁', Run p w l₁ (as.filter (!·.isCall)) w' l₁' ∧ l₁'.quiet = l'.quiet := by
  induction run generalizing l₁ with
  | done h => exact ⟨l₁, .done h, hq⟩
  | @act w w₀ w₁ w' l l' a as c h hc ha hd hs run ih =>
    have hnote := l.quiet_note c a
    cases hcall : a.isCall with
    | true =>
      -- Without the call, what it does is one more thing that happens elsewhere.
      rw [hcall, if_pos rfl] at hnote
      obtain ⟨l₁', run₁, hq₁⟩ := ih (hq.trans hnote.symm)
      rw [List.filter_cons_of_neg (by simp [hcall])]
      exact ⟨l₁', run₁.after (h.trans (hd.spares hcall)), hq₁⟩
    | false =>
      have hsame : (l₁.note c a).quiet = (l.note c a).quiet := by
        rw [hnote, l₁.quiet_note, hq]
      obtain ⟨l₁', run₁, hq₁⟩ := ih hsame
      rw [List.filter_cons_of_pos (by simp [hcall])]
      exact ⟨l₁', .act h hc (Ledger.admits_of_quiet hq ha) hd
        (Ledger.spaced_of_quiet hsame hs) run₁, hq₁⟩

lemma thicken (run : Run p w l (as.filter (!·.isCall)) w' l') (hw : w.Has p c)
    (hq : l₁.quiet = l.quiet) (hs : l₁.Spaced) :
    ∃ l₁', Run p w l₁ as w' l₁' ∧ l₁'.quiet = l'.quiet := by
  induction as generalizing w l l₁ c with
  | nil =>
    cases run with
    | done h => exact ⟨l₁, .done h, hq⟩
  | cons a as ih =>
    cases hcall : a.isCall with
    | true =>
      rw [List.filter_cons_of_neg (by simp [hcall])] at run
      obtain ⟨m, order, rfl, hm⟩ := Action.eq_arrive_of_isCall hcall
      have hd : w.Does p (.arrive m order) (w.take p c order m) := by
        refine .arrive m order hw.id_eq fun exit hexit => ?_
        rw [Action.exit?_of_isCall hm] at hexit
        cases hexit
      obtain ⟨d, hwd, hdesk⟩ := hd.has hw
      rw [Action.apply_of_isCall hcall] at hdesk
      have hnote := l₁.quiet_note c (.arrive m order)
      rw [hcall, if_pos rfl] at hnote
      have hspaced : (l₁.note c (.arrive m order)).Spaced := Ledger.spaced_of_quiet hnote hs
      -- Nobody who waits sees the difference if all else is then put back.
      have hback : (w.take p c order m).Spares p w := .of_has hwd hw hdesk.symm
      obtain ⟨l₁', run₁, hq₁⟩ := ih (run.after hback) hwd (hnote.trans hq) hspaced
      exact ⟨l₁', .act (.refl w) hw (l₁.admits_of_ticket? rfl) hd hspaced run₁, hq₁⟩
    | false =>
      rw [List.filter_cons_of_pos (by simp [hcall])] at run
      cases run with
      | @act _ w₀ w₁ _ _ _ _ _ x h hx ha hd hsl run =>
        have hsame : (l₁.note x a).quiet = (l.note x a).quiet := by
          rw [l₁.quiet_note, l.quiet_note, hq]
        have hspaced : (l₁.note x a).Spaced := Ledger.spaced_of_quiet hsame hsl
        obtain ⟨y, hy, -⟩ := hd.has hx
        obtain ⟨l₁', run₁, hq₁⟩ := ih run hy hsame hspaced
        exact ⟨l₁', .act h hx (Ledger.admits_of_quiet hq ha) hd hspaced run₁, hq₁⟩

end Run

lemma Has.exists_does (hw : w.Has p c) (ha : a.isFree c = true) : ∃ w', w.Does p a w' := by
  cases a with
  | register =>
    obtain ⟨w', hr, -⟩ := hw.track.register
    exact ⟨w', .register (t := ⟨c.track.register.1, c.track.register.2.1⟩) hr⟩
  | written t => cases ha
  | unwritten t e => cases ha
  | oneway => cases ha
  | late exit => cases ha
  | arrive m order =>
    refine ⟨_, .arrive m order hw.id_eq fun exit hexit hx => ?_⟩
    rw [Action.isFree, hexit, Option.any_some, hx] at ha
    cases ha
  | lose e =>
    refine ⟨_, .lose e fun hx => ?_⟩
    rw [Action.isFree, hx] at ha
    cases ha
  | fail e => exact ⟨_, .fail e⟩
  | goodbye => exact ⟨_, .goodbye⟩
  | collect t => exact ⟨_, .collect t hw.found ha⟩
  | expire t ms => exact ⟨_, .expire t ms⟩

lemma Run.of_replay (hw : w.Has p c) (hd : c.desk = d.desk) (h : l.replay d as = some l') :
    ∃ w', Run p w l as w' l' := by
  induction as generalizing w l c d with
  | nil =>
    cases h
    exact ⟨w, .done (.refl w)⟩
  | cons a as ih =>
    unfold Ledger.replay at h
    split at h
    · next hcond =>
      obtain ⟨hfree, ha, hs⟩ := hcond
      have hfree' : a.isFree c = true := by
        rw [Action.isFree_congr hd]
        exact hfree
      obtain ⟨w₁, hdo⟩ := hw.exists_does hfree'
      obtain ⟨c₁, hw₁, hc₁⟩ := hdo.has hw
      obtain ⟨w', run⟩ := ih hw₁ (hc₁.trans (Action.apply_congr hd a)) h
      rw [← l.note_congr hd a] at hs run
      exact ⟨w', .act (.refl w) hw ha hdo hs run⟩
    · cases h

lemma Run.ofSendTracked (hw : w.Has p c) (message : UInt32 → Message)
    (hs : (l.note c .register).Spaced) :
    ∃ as l', Run p w l as (w.sendTracked p message).2 l' := by
  obtain ⟨w₁, hregister, hw₁⟩ := hw.track.register
  let t : Ticket := ⟨c.track.register.1, c.track.register.2.1⟩
  have hd : w.Does p .register w₁ := .register (t := t) hregister
  have hadmits : ∀ a : Action, a.ticket? = some t → (l.note c .register).Admits a := by
    intro a ha t' ht'
    rw [ha] at ht'
    cases ht'
    exact ⟨_, List.mem_cons_self, rfl⟩
  rw [sendTracked, hregister]
  dsimp only
  cases hsend : w₁.sendOpen p (message c.track.register.1) with
  | mk result w₂ =>
    have hresult : (w₁.sendOpen p (message t.request)).1 = result := congrArg Prod.fst hsend
    have hw₂ : (w₁.sendOpen p (message t.request)).2 = w₂ := congrArg Prod.snd hsend
    cases result with
    | ok u =>
      have hwritten := Does.written t hresult
      rw [hw₂] at hwritten
      exact ⟨[.register, .written t], _, .act (.refl w) hw (l.admits_of_ticket? rfl) hd hs
        (.act (.refl w₁) hw₁ (hadmits _ rfl) hwritten (hs.hear rfl) (.done (.refl w₂)))⟩
    | error e =>
      have hunwritten := Does.unwritten t hresult
      rw [hw₂] at hunwritten
      have hleft : ((l.note c .register).leave t (.unsent e)).Spaced :=
        fun k hk => hs k (List.mem_filter.mp hk).1
      exact ⟨[.register, .unwritten t e], _, .act (.refl w) hw (l.admits_of_ticket? rfl) hd hs
        (.act (.refl w₁) hw₁ (hadmits _ rfl) hunwritten (hleft.hear rfl) (.done (.refl _)))⟩

lemma Has.readNext (hw : w.Has p c) :
    ∃ d, (w.readNext p c).2.Has p d ∧ d.desk = c.desk :=
  ⟨_, (hw.of_brokers (brokers_setPipe w c.inbound _)).update rfl, rfl⟩

lemma handle_exit (ha : (w.broker p.broker).isAlive = true) (c : Connection) (order : ByteOrder)
    (m : Message) : (w.handle p c order m).2 = m.exit? ∧
      ∀ exit, m.exit? = some exit → (w.handle p c order m).1 = w := by
  cases m with
  | request r =>
    simp only [handle, ha, if_true]
    exact ⟨rfl, fun exit h => by cases h⟩
  | reply r => exact ⟨rfl, fun exit h => by cases h⟩
  | locateReply id status => exact ⟨rfl, fun exit h => by cases h⟩
  | locateRequest id key => exact ⟨rfl, fun exit h => by cases h⟩
  | cancelRequest id => exact ⟨rfl, fun exit h => by cases h⟩
  | closeConnection => exact ⟨rfl, fun _ _ => rfl⟩
  | messageError => exact ⟨rfl, fun _ _ => rfl⟩
  | fragment id more data => exact ⟨rfl, fun _ _ => rfl⟩

lemma Has.finish_held (hw : w.Has p c) {exit : Connection.Exit} (ht : ¬ w.Tells p exit) :
    w.Spares p (w.finish p exit) := by
  have hbusy : exit.isViolation = true ∧ (w.pipe c.outbound).isFull = true := by
    by_contra hnot
    refine ht fun hx d hd => ?_
    cases hw.unique hd
    exact Bool.eq_false_iff.mpr fun hfull => hnot ⟨hx, hfull⟩
  have hd := hw.finish exit
  rw [hbusy.2] at hd
  exact .of_has hw hd (c.desk_finished_held hbusy.1)

lemma Run.ofReceiveUpTo (hw : w.Has p c) (hs : l.Spaced) (n : Nat) :
    ∃ as l', Run p w l as (w.receiveUpTo p n) l' := by
  induction n generalizing w l c with
  | zero => exact ⟨[], l, .done (.refl w)⟩
  | succ n ih =>
    obtain ⟨d, hd, hdesk⟩ := hw.readNext
    have hspares : w.Spares p (w.readNext p c).2 := .of_has hw hd hdesk
    rw [receiveUpTo, hw.found]
    dsimp only
    split
    · exact ⟨[], l, .done (.refl w)⟩
    · cases hread : w.readNext p c with
      | mk result w₀ =>
        rw [hread] at hd hspares
        cases result with
        | waiting => exact ⟨[], l, .done hspares⟩
        | failed e =>
          by_cases ht : w₀.Tells p (.ofError e)
          · exact ⟨[.lose e], _, .act hspares hd (l.admits_of_ticket? rfl) (.lose e ht)
              (hs.hear rfl) (.done (.refl _))⟩
          · exact ⟨[], l, .done (hspares.trans (hd.finish_held ht))⟩
        | done received =>
          obtain ⟨m, order⟩ := received
          have hadmits : l.Admits (.arrive m order) := l.admits_of_ticket? rfl
          have hspaced : (l.note d (.arrive m order)).Spaced := hs.hear rfl
          dsimp only
          cases hhandle : w₀.handle p c order m with
          | mk w₁ exit =>
            have htake : w₀.take p c order m = exit.elim w₁ (w₁.finish p) := by
              rw [take, hhandle]
              cases exit <;> rfl
            obtain ⟨hexit, hsame⟩ := handle_exit hd.alive c order m
            rw [hhandle] at hexit hsame
            dsimp only at hexit hsame
            have hdo (ht : ∀ exit, m.exit? = some exit → w₀.Tells p exit) :
                w₀.Does p (.arrive m order) (exit.elim w₁ (w₁.finish p)) :=
              htake ▸ .arrive m order hw.id_eq ht
            cases exit with
            | none =>
              have hdo := hdo fun exit h => by
                rw [← hexit] at h
                cases h
              obtain ⟨x, hx, -⟩ := hdo.has hd
              obtain ⟨as, l', run⟩ := ih hx hspaced
              exact ⟨.arrive m order :: as, l', .act hspares hd hadmits hdo hspaced run⟩
            | some exit =>
              obtain rfl := hsame exit hexit.symm
              by_cases ht : w₁.Tells p exit
              · have hdo := hdo fun exit' h => by
                  rw [← hexit] at h
                  cases h
                  exact ht
                exact ⟨[.arrive m order], _,
                  .act hspares hd hadmits hdo hspaced (.done (.refl _))⟩
              · exact ⟨[], l, .done (hspares.trans (hd.finish_held ht))⟩

lemma take_of_notMem (hc : w.connection? p = some c) {m : Message} {q : UInt32}
    (hm : m.answered? = some q) (hq : ∀ e ∈ c.pending, e.1 ≠ q) (order : ByteOrder) :
    w.take p d order m = w := by
  have hl : c.pending.lookup q = none := by
    refine List.lookup_eq_none_iff.mpr fun e he => ?_
    simpa using (hq e he).symm
  have hcomplete : ∀ r, w.complete p q r = w := by
    intro r
    rw [complete, hc, Option.bind_some, hl]
  cases m with
  | reply r =>
    cases hm
    exact hcomplete _
  | locateReply id status =>
    cases hm
    exact hcomplete _
  | _ => cases hm

/-- Each caller returns at most once and, unless its message was not written or its time was over,
with the first that it was told: a message answers its own request and came before any other that
does, while the caller was registered. Those are registered who still wait and have been told
nothing; a reply to anybody else changes nothing. The calls of the peer may be left out or come
anywhere without a difference to any caller. -/
theorem Run.correlates (hw : w.Has p c) (hp : c.pending = []) (hr : c.responses = [])
    (run : Run p w {} as w' l) :
    l.waiters.Nodup ∧
    (∀ k r, (k, .answer r) ∈ l.returned → k.told? c = some r) ∧
    (∀ k m order, (k, .answer (.ok (m, order))) ∈ l.returned →
      m.answered? = some k.request ∧
      ∃ before after, k.heard = before ++ .arrive m order :: after ∧
        ∀ a ∈ before, a.verdict c k.request = none) ∧
    (∃ d, w'.Has p d ∧ d.places.Nodup ∧
      (∀ k ∈ l.waiting, d.response? k.waiter = k.told? c) ∧
      (∀ q n, (q, n) ∈ d.pending ↔
        ∃ k ∈ l.waiting, k.told? c = none ∧ k.request = q ∧ k.waiter = n) ∧
      ∀ m order q, m.answered? = some q → (∀ e ∈ d.pending, e.1 ≠ q) → w'.take p d order m = w') ∧
    ∀ as', as'.filter (!·.isCall) = as.filter (!·.isCall) →
      (∃ w₁ l₁, Run p w {} as' w₁ l₁) ∧
      ∀ w₁ l₁, Run p w {} as' w₁ l₁ → l₁.outcomes = l.outcomes := by
  obtain ⟨d, hd, h⟩ := run.correlated hw (.start hp hr)
  obtain ⟨l₀, thin, hthin⟩ := run.thin rfl
  refine ⟨h.distinct, h.endings, ?_, ⟨d, hd, h.once, ?_, ?_, ?_⟩, ?_⟩
  · intro k m order hk
    obtain ⟨before, a, after, hheard, hv, hbefore⟩ :=
      List.findSome?_eq_some_iff.mp (h.endings k _ hk)
    obtain ⟨rfl, hm⟩ := Action.eq_arrive_of_verdict hv
    exact ⟨hm, before, after, hheard, hbefore⟩
  · intro k hk
    exact h.response?_eq hk
  · intro q n
    exact h.mem_pending
  · intro m order q hm hq
    exact take_of_notMem hd.found hm hq order
  · intro as' has
    constructor
    · rw [← has] at thin
      obtain ⟨l₁, run₁, -⟩ := thin.thicken hw rfl nofun
      exact ⟨w', l₁, run₁⟩
    · intro w₁ l₁ run₁
      obtain ⟨l₀', thin', hthin'⟩ := run₁.thin rfl
      rw [has] at thin'
      have heq : l₀ = l₀' := thin.eq_of_same thin' hw hw rfl
      rw [← l.outcomes_quiet, ← hthin, heq, hthin', l₁.outcomes_quiet]

def lone : Connection :=
  { id := 1, role := .initiator, peer := { host := "peer", port := 1 }, order := .bigEndian,
    fragmentSize := 64, reader := .new 0, inbound := 0, outbound := 1, state := .established }

def loneWorld : World Unit where
  brokers := #[{ Broker.new "" { name := "", order := .bigEndian } with connections := [lone] }]
  pipes := #[{}, {}]

lemma loneWorld_has : loneWorld.Has { broker := 0, connection := 1 } lone := ⟨rfl, rfl⟩

def answerTo (id : UInt32) (body : Octets) : Message :=
  .reply { id, status := .noException, body }

/-- Of two callers, the second gets the earlier of two replies to it and the first waits too long;
a reply that comes for it afterwards is left lying, and so is one to nobody's request. -/
def crossing : List Action :=
  [.register, .register, .arrive (answerTo 8 [6]) .bigEndian, .arrive (.cancelRequest 2) .bigEndian,
    .arrive (answerTo 2 [7]) .littleEndian, .arrive (answerTo 2 [8]) .littleEndian,
    .expire ⟨0, 0⟩ 5, .arrive (answerTo 0 [9]) .bigEndian, .collect ⟨2, 1⟩,
    .fail (.cancelled "over")]

theorem Run.correlates_crossing :
    ∃ w l, Run { broker := 0, connection := 1 } loneWorld {} crossing w l ∧
      l.outcomes =
        [(⟨2, 1⟩, .answer (.ok (answerTo 2 [7], .littleEndian))), (⟨0, 0⟩, .timeout 5)] ∧
      l.waiters.Nodup ∧
      ∀ w' l',
        Run { broker := 0, connection := 1 } loneWorld {} (crossing.filter (!·.isCall)) w' l' →
          l'.outcomes = l.outcomes := by
  obtain ⟨l, hl, ho⟩ : ∃ l, Ledger.replay lone {} crossing = some l ∧ l.outcomes =
      [(⟨2, 1⟩, .answer (.ok (answerTo 2 [7], .littleEndian))), (⟨0, 0⟩, .timeout 5)] :=
    ⟨_, rfl, rfl⟩
  obtain ⟨w, run⟩ := Run.of_replay loneWorld_has rfl hl
  obtain ⟨hdistinct, -, -, -, hcalls⟩ := Run.correlates loneWorld_has rfl rfl run
  exact ⟨w, l, run, ho, hdistinct, (hcalls _ (by simp)).2⟩

end World

end ObjectBroker
