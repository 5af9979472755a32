import ObjectBroker.Proofs.Network.History
import ObjectBroker.Proofs.World.Closing

/-!
Those who wait for a response in a network. Each has a place of its own on a connection, which it
alone gives up; so whoever waits for a response is either waited for, or finds its answer there.
-/

namespace ObjectBroker

variable {σ α β ρ : Type}

abbrev Seat := Port × Ticket

def Seat.Same (s t : Seat) : Prop :=
  s.1 = t.1 ∧ s.2.waiter = t.2.waiter

namespace World

variable {w w' w'' : World σ} {p : Port} {s s' s'' : Option Seat} {t : Seat}
  {marks : BrokerId → List Broker.Mark}

def Keeps (w : World σ) (t : Seat) : Prop :=
  (w.broker t.1.broker).Keeps t.1.connection t.2

def Sound (w : World σ) : Prop :=
  ∀ b, (w.broker b).Sound

def Seated (w : World σ) : Prop :=
  ∀ b, (w.broker b).Seated []

lemma Follows.sound (h : w.Follows marks w') (hw : w.Sound) : w'.Sound :=
  fun b => (h.path b).sound (hw b)

lemma Follows.keeps (h : w.Follows marks w') (hw : w.Sound)
    (hm : ∀ b, ∀ m ∈ marks b, m.leaves = false) (ht : w.Keeps t) : w'.Keeps t :=
  (h.path t.1.broker).keeps (hw _) (hm _) ht

lemma Follows.seated (h : w.Follows marks w') (hw : w.Sound) (hs : w.Seated)
    (hm : ∀ b id, .retire id ∉ marks b) : w'.Seated :=
  fun b => (h.path b).seated (hw b) (hs b) fun id hid => absurd hid (hm b id)

lemma Silent.keeps (h : w.Silent w') (hw : w.Sound) (ht : w.Keeps t) : w'.Keeps t :=
  Follows.keeps h hw (fun _ _ hm => absurd hm List.not_mem_nil) ht

lemma Silent.seated (h : w.Silent w') (hw : w.Sound) (hs : w.Seated) : w'.Seated :=
  Follows.seated h hw hs fun _ _ => List.not_mem_nil

/-- Someone who has the place `s` changes the world and has the place `s'` then. Everyone else keeps
theirs. -/
structure Reseats (s s' : Option Seat) (w w' : World σ) : Prop where
  sound : w'.Sound
  others : ∀ t, w.Keeps t → (∀ u ∈ s, ¬ u.Same t) → w'.Keeps t ∧ ∀ u ∈ s', ¬ u.Same t
  own : (∀ t ∈ s, w.Keeps t) → ∀ t ∈ s', w'.Keeps t

namespace Reseats

lemma trans (h : w.Reseats s s' w') (h' : w'.Reseats s' s'' w'') : w.Reseats s s'' w'' := by
  refine ⟨h'.sound, fun t ht hne => ?_, fun hown => h'.own (h.own hown)⟩
  obtain ⟨hkept, hne'⟩ := h.others t ht hne
  exact h'.others t hkept hne'

lemma of_silent (hw : w.Sound) (h : w.Silent w') (s : Option Seat) : w.Reseats s s w' :=
  ⟨h.sound hw, fun _ ht hne => ⟨h.keeps hw ht, hne⟩, fun hs t ht => h.keeps hw (hs t ht)⟩

lemma refl (hw : w.Sound) (s : Option Seat) : w.Reseats s s w :=
  of_silent hw (.refl w) s

end Reseats

lemma Keeps.exists_held (h : w.Keeps t) : ∃ c, w.connection? t.1 = some c ∧ t.2.Held c := h

lemma Keeps.updateConnection {f : Connection → Connection} (h : w.Keeps t)
    (hid : ∀ c, c.id = p.connection → (f c).id = p.connection)
    (hf : ∀ c, t.1 = p → w.connection? p = some c → t.2.Held c → t.2.Held (f c)) :
    (w.updateConnection p f).Keeps t := by
  obtain ⟨c, hc, hheld⟩ := h.exists_held
  by_cases hp : t.1 = p
  · refine ⟨f c, ?_, hf c hp (hp ▸ hc) hheld⟩
    have hfound := connection?_updateConnection w hid
    rw [← hp, hc] at hfound
    exact hp ▸ hfound
  · exact ⟨c, (connection?_updateConnection_ne w hid hp).trans hc, hheld⟩

lemma sendTracked_eq_ok {message : UInt32 → Message} {request : UInt32} {waiter : WaiterId}
    (h : w.sendTracked p message = (.ok (request, waiter), w')) :
    ∃ c, w.connection? p = some c ∧ waiter = c.nextWaiter ∧
      w'.Keeps (p, { request, waiter }) := by
  rw [sendTracked] at h
  split at h
  · cases h
  · next request' waiter' w₁ hregister =>
    obtain ⟨c, hc, hrequest, hwaiter, hbrokers⟩ := register_eq_some hregister
    have hid : c.register.2.2.id = p.connection :=
      c.stays_register.id.trans (Broker.id_of_connection? hc)
    have hsent := brokers_sendOpen w₁ p (message request')
    rcases hs : w₁.sendOpen p (message request') with ⟨result, w₂⟩
    rw [hs] at h hsent
    cases result with
    | error e => cases h
    | ok _ =>
      cases h
      have hfound : w'.connection? p = some c.register.2.2 := by
        rw [connection?, broker_of_brokers (hsent.trans hbrokers), ← connection?,
          connection?_updateConnection (f := fun _ => c.register.2.2) _ fun _ _ => hid, hc]
        rfl
      rw [track, connection?_updateConnection (f := Connection.track) w fun _ h => h] at hc
      obtain ⟨c₀, hc₀, rfl⟩ := Option.map_eq_some_iff.mp hc
      refine ⟨c₀, hc₀, hwaiter.symm, _, hfound, ?_, .inl ?_⟩
      · rw [← hwaiter]
        exact Nat.lt_succ_self _
      · rw [Ticket.Pending, ← hrequest, ← hwaiter, Connection.pending_register]
        exact List.mem_cons_self

section Places

variable (hw : w.Sound)
include hw

lemma Reseats.sendTracked (message : UInt32 → Message) :
    w.Reseats none ((w.sendTracked p message).1.toOption.map fun place => (p, ⟨place.1, place.2⟩))
      (w.sendTracked p message).2 := by
  have hsilent := Silent.sendTracked w p message
  rcases hs : w.sendTracked p message with ⟨result, w'⟩
  rw [hs] at hsilent
  cases result with
  | error e => exact .of_silent hw hsilent none
  | ok place =>
    obtain ⟨c, hc, hwaiter, hkeeps⟩ := sendTracked_eq_ok hs
    refine ⟨hsilent.sound hw, fun t ht _ => ⟨hsilent.keeps hw ht, ?_⟩, fun _ t ht => ?_⟩
    · rintro u hu ⟨hport, hsame⟩
      obtain rfl := Option.some.inj hu
      obtain ⟨d, hd, hheld⟩ := ht.exists_held
      rw [← hport] at hd
      obtain rfl := Option.some.inj (hc.symm.trans hd)
      have hlt := hheld.1
      rw [← hsame, ← hwaiter] at hlt
      exact Nat.lt_irrefl _ hlt
    · obtain rfl := Option.some.inj ht
      exact hkeeps

lemma Reseats.leave {f : Connection → Connection} {marks : List Broker.Mark} {c : Connection}
    {t : Ticket} (hc : w.connection? p = some c)
    (hmove : (w.broker p.broker).Move marks ((w.broker p.broker).update p.connection f))
    (hid : ∀ c, c.id = p.connection → (f c).id = p.connection)
    (hf : ∀ u : Ticket, u.waiter ≠ t.waiter → u.Held c → u.Held (f c))
    (hm : ∀ id, .retire id ∉ marks) (hafter : (w.updateConnection p f).Silent w') :
    w.Reseats (some (p, t)) none w' ∧ (w.Seated → w'.Seated) := by
  have hleft : w.Follows (only p.broker marks) (w.updateConnection p f) :=
    .updateBroker hmove.path fun hsize =>
      absurd (lt_size_of_connection? hc) (Nat.not_lt.mpr hsize)
  have hsound := hleft.sound hw
  refine ⟨⟨hafter.sound hsound, fun u hu hne => ⟨hafter.keeps hsound ?_, fun _ h => by cases h⟩,
    fun _ _ h => by cases h⟩, fun hs => hafter.seated hsound (hleft.seated hw hs fun b id => ?_)⟩
  · refine hu.updateConnection hid fun d hport hd hheld => ?_
    obtain rfl := Option.some.inj (hc.symm.trans hd)
    exact hf u.2 (fun h => hne _ rfl ⟨hport.symm, h.symm⟩) hheld
  · rw [only]
    split
    · exact hm id
    · exact List.not_mem_nil

lemma Reseats.drop (h : w.Silent w') (s : Option Seat) :
    w.Reseats s none w' ∧ (w.Seated → w'.Seated) :=
  ⟨⟨h.sound hw, fun _ hu _ => ⟨h.keeps hw hu, fun _ h => by cases h⟩, fun _ _ h => by cases h⟩,
    h.seated hw⟩

lemma Reseats.takeResponse (p : Port) (t : Ticket) :
    w.Reseats (some (p, t)) none (w.takeResponse p t.waiter).2 ∧
      (w.Seated → (w.takeResponse p t.waiter).2.Seated) := by
  cases hr : (w.connection? p).bind (·.response? t.waiter) with
  | none =>
    rw [World.takeResponse, hr]
    exact drop hw (.refl w) _
  | some r =>
    obtain ⟨c, hc, -⟩ := Option.bind_eq_some_iff.mp hr
    rw [World.takeResponse, hr]
    refine leave hw hc (.collect _ _ t.waiter) (fun _ h => h) (fun u hne hu => ?_) (by simp)
      (.untrack _ p)
    refine ⟨hu.1, hu.2.imp_right fun h => ?_⟩
    rw [Connection.response?_takeResponse hne]
    exact h

lemma Reseats.forget {c : Connection} {t : Ticket} (hc : w.connection? p = some c)
    (ht : (t.request, t.waiter) ∈ c.pending)
    (hafter : (w.updateConnection p (·.forget t.request)).Silent w') :
    w.Reseats (some (p, t)) none w' ∧ (w.Seated → w'.Seated) := by
  have hdistinct := (hw p.broker).distinct c (List.mem_of_find?_eq_some hc)
  refine leave hw hc (.abandon _ _ t.request) (fun _ h => h) (fun u hne hu => ?_) (by simp) hafter
  refine ⟨hu.1, hu.2.imp_left fun h => List.mem_filter.mpr ⟨h, bne_iff_ne.mpr fun hq => hne ?_⟩⟩
  exact congrArg Prod.snd (List.inj_on_of_nodup_map hdistinct h ht hq)

lemma Reseats.retract (p : Port) (t : Ticket) :
    w.Reseats (some (p, t)) none (w.retract p t.request t.waiter) ∧
      (w.Seated → (w.retract p t.request t.waiter).Seated) := by
  rw [World.retract]
  split
  · exact drop hw (.refl w) _
  · next c hc =>
    split
    · exact drop hw (.untrack w p) _
    · next other hl =>
      split
      · next hown =>
        subst hown
        have hdistinct := (hw p.broker).distinct c (List.mem_of_find?_eq_some hc)
        exact forget hw hc ((lookup_eq_some_iff_mem hdistinct).mp hl) (.untrack _ p)
      · exact drop hw ((Silent.complete w p t.request _).trans (.untrack _ p)) _

end Places

end World

namespace Activity

open World

/-- Someone who has the place `s` looks after it: it waits for no other response, and leaves everyone
else's place alone. When it is done it has the place that `post` says. -/
def Minds (post : α → Option Seat) : Activity σ α → Option Seat → World σ → Prop
  | .pure x, s, w => w.Seated ∧ s = post x
  | .read next, s, w => (next w).Minds post s w
  | .write w' next, s, w => ∃ s', w.Reseats s s' w' ∧ next.Minds post s' w'
  | .await wait _ next, s, w => w.Seated ∧
      (∀ p x, wait = .response p x → ∃ request, s = some (p, ⟨request, x⟩)) ∧
      ∀ met w', w'.Sound → w'.Seated → (∀ t ∈ s, w'.Keeps t) →
        (met = false → wait.isMet w' = false) → (next met).Minds post s w'
  | .perform _ next, s, w => w.Seated ∧ s = none ∧
      ∀ r w', w'.Sound → w'.Seated → (next r).Minds post none w'

def Stop.Minds (post : α → Option Seat) (s : Option Seat) : Stop σ α → Prop
  | .done x => s = post x
  | .waiting wait _ next =>
      (∀ p x, wait = .response p x → ∃ request, s = some (p, ⟨request, x⟩)) ∧
      ∀ met w', w'.Sound → w'.Seated → (∀ t ∈ s, w'.Keeps t) →
        (met = false → wait.isMet w' = false) → (next met).Minds post s w'
  | .calling _ next => s = none ∧ ∀ r w', w'.Sound → w'.Seated → (next r).Minds post none w'

namespace Minds

variable {post : α → Option Seat} {post' : β → Option Seat} {a : Activity σ α}
  {f : α → Activity σ β} {s : Option Seat} {w : World σ}

lemma bind (ha : a.Minds post s w) (hw : w.Sound) (hs : ∀ t ∈ s, w.Keeps t)
    (hf : ∀ x w', w'.Sound → w'.Seated → (∀ t ∈ post x, w'.Keeps t) →
      (f x).Minds post' (post x) w') : (a.bind f).Minds post' s w := by
  induction a generalizing s w with
  | pure x =>
    obtain ⟨hseated, rfl⟩ := ha
    exact hf x w hw hseated hs
  | read next ih => exact ih w ha hw hs
  | write w' next ih =>
    obtain ⟨s', hreseats, hnext⟩ := ha
    exact ⟨s', hreseats, ih hnext hreseats.sound (hreseats.own hs)⟩
  | await wait deadline next ih =>
    obtain ⟨hseated, hwait, hnext⟩ := ha
    exact ⟨hseated, hwait, fun met w' hw' hseated' hs' hmet =>
      ih met (hnext met w' hw' hseated' hs' hmet) hw' hs'⟩
  | perform call next ih =>
    obtain ⟨hseated, rfl, hnext⟩ := ha
    exact ⟨hseated, rfl, fun r w' hw' hseated' =>
      ih r (hnext r w' hw' hseated') hw' fun _ h => by cases h⟩

lemma run (ha : a.Minds post s w) (hw : w.Sound) (hs : ∀ t ∈ s, w.Keeps t) :
    ∃ s', w.Reseats s s' (a.run w).2 ∧ (a.run w).2.Seated ∧ (a.run w).1.Minds post s' := by
  induction a generalizing s w with
  | pure x =>
    obtain ⟨hseated, hpost⟩ := ha
    exact ⟨s, .refl hw s, hseated, hpost⟩
  | read next ih => exact ih w ha hw hs
  | write w' next ih =>
    obtain ⟨s', hreseats, hnext⟩ := ha
    obtain ⟨s'', hreseats', hrest⟩ := ih hnext hreseats.sound (hreseats.own hs)
    exact ⟨s'', hreseats.trans hreseats', hrest⟩
  | await wait deadline next ih =>
    obtain ⟨hseated, hwait, hnext⟩ := ha
    rw [Activity.run]
    split
    · exact ih true (hnext true w hw hseated hs fun h => by cases h) hw hs
    · next hmet =>
      split
      · exact ih false (hnext false w hw hseated hs fun _ => Bool.eq_false_iff.mpr hmet) hw hs
      · exact ⟨s, .refl hw s, hseated, hwait, hnext⟩
  | perform call next ih =>
    obtain ⟨hseated, rfl, hnext⟩ := ha
    exact ⟨none, .refl hw none, hseated, rfl, hnext⟩

lemma change {g : World σ → α × World σ} {s' : Option Seat} (h : w.Reseats s s' (g w).2)
    (hseated : (g w).2.Seated) (hpost : s' = post (g w).1) : (Activity.change g).Minds post s w :=
  ⟨s', h, hseated, hpost⟩

end Minds

def Spares (s : Option Seat) (a : Activity σ α) : Prop :=
  ∀ w : World σ, w.Sound → w.Seated → (∀ t ∈ s, w.Keeps t) → a.Minds (fun _ => s) s w

namespace Spares

variable {s : Option Seat}

lemma bind {a : Activity σ α} {f : α → Activity σ β} (ha : a.Spares s) (hf : ∀ x, (f x).Spares s) :
    (a >>= f).Spares s :=
  fun w hw hseated hs => (ha w hw hseated hs).bind hw hs fun x => hf x

lemma pure (x : α) : (Pure.pure x : Activity σ α).Spares s :=
  fun _ _ hseated _ => ⟨hseated, rfl⟩

lemma silent {f : World σ → α × World σ} (h : ∀ w : World σ, w.Silent (f w).2) :
    (Activity.change f).Spares s :=
  fun w hw hseated _ => .change (.of_silent hw (h w) s) ((h w).seated hw hseated) rfl

lemma madeOf {B : (α : Type) → Activity σ α → Prop} (hB : ∀ α a, B α a → a.Spares s)
    {a : Activity σ α} (h : a.MadeOf B) : a.Spares s := by
  induction h with
  | base h => exact hB _ _ h
  | pure x => exact .pure x
  | bind _ _ iha ihf => exact iha.bind ihf
  | look f => exact fun w _ hseated _ => ⟨hseated, rfl⟩
  | change f h => exact .silent fun w => .calm (h w)
  | outlet n =>
    exact fun w _ hseated _ => ⟨hseated, by simp, fun _ _ _ hseated' _ _ => ⟨hseated', rfl⟩⟩

lemma gentle {a : Activity σ α} (h : a.MadeOf Gentle) : a.Spares s := by
  refine madeOf (fun α a ha => ?_) h
  cases ha with
  | change f h => exact .silent h
  | wait wait deadline h =>
    exact fun w _ hseated _ =>
      ⟨hseated, fun p x heq => absurd heq (h p x), fun _ _ _ hseated' _ _ => ⟨hseated', rfl⟩⟩

end Spares

end Activity

lemma Call.run_lift_bind (a : Activity σ α) (f : α → Call σ β) :
    (Call.lift a >>= f).run = a >>= fun x => (f x).run :=
  Activity.bind_bind a _ _

namespace Invocation

open World

lemma minds_awaitResponse (p : Port) (t : Ticket) (timeout : Option Nat) {w : World σ}
    (hseated : w.Seated) :
    (awaitResponse p t.request t.waiter timeout).run.Minds (fun _ => none) (some (p, t)) w := by
  refine ⟨hseated, fun q x heq => ?_, fun met w' hw' hseated' hkeeps hmet => ?_⟩
  · cases heq
    exact ⟨t.request, rfl⟩
  · cases met with
    | true =>
      obtain ⟨hreseats, hstill⟩ := Reseats.takeResponse hw' p t
      exact ⟨none, hreseats, hstill hseated', rfl⟩
    | false =>
      obtain ⟨c, hc, -, hknown⟩ := (hkeeps (p, t) rfl).exists_held
      have hpending : (t.request, t.waiter) ∈ c.pending := by
        refine hknown.resolve_right fun hanswered => ?_
        have hnone := hmet rfl
        rw [Wait.isMet, hc, Option.bind_some, hanswered] at hnone
        cases hnone
      obtain ⟨hreseats, hstill⟩ :=
        Reseats.forget hw' hc hpending (.send _ p (.cancelRequest t.request))
      have hrest : Call.MadeOf Activity.Gentle (Call.lift (Activity.written p) >>= fun _ =>
          Call.lift (Activity.update (·.untrack p)) >>= fun _ =>
            throw (timedOut t.request (timeout.getD 0)) : Call σ (Message × ByteOrder)) :=
        (Call.MadeOf.lift (.written p)).bind fun _ =>
          (Call.MadeOf.lift (.update fun w => .untrack w p)).bind fun _ => .throw _
      change Activity.Minds _ (Call.lift (Activity.update (·.abandon p t.request)) >>= fun _ =>
        Call.lift (Activity.written p) >>= fun _ =>
          Call.lift (Activity.update (·.untrack p)) >>= fun _ =>
            throw (timedOut t.request (timeout.getD 0)) : Call σ (Message × ByteOrder)).run _ _
      rw [Call.run_lift_bind]
      exact ⟨none, hreseats, Activity.Spares.gentle hrest _ hreseats.sound (hstill hseated')
        fun _ h => by cases h⟩

lemma minds_written (p : Port) (t : Ticket) {w : World σ} (hw : w.Sound) (hseated : w.Seated)
    (hkeeps : ∀ u ∈ some (p, t), w.Keeps u) :
    (written p (·.retract p t.request t.waiter)).run.Minds
      (fun r => r.toOption.map fun _ => (p, t)) (some (p, t)) w := by
  rw [written, Call.run_lift_bind]
  refine (Activity.Spares.gentle (.written p) w hw hseated hkeeps).bind hw hkeeps
    fun isWritten w' hw' hseated' _ => ?_
  cases isWritten with
  | true => exact ⟨hseated', rfl⟩
  | false =>
    obtain ⟨hreseats, hstill⟩ := Reseats.retract hw' p t
    exact ⟨none, hreseats, hstill hseated', rfl⟩

lemma spares_ask (p : Port) (message : UInt32 → Message) {after : Activity σ Unit}
    (hafter : after.MadeOf Activity.Gentle) (timeout : Option Nat) :
    (ask p message after timeout).run.Spares none := by
  intro w hw hseated hs
  have hsent := Reseats.sendTracked (p := p) hw message
  have hseated' := (Silent.sendTracked w p message).seated hw hseated
  have hfirst : (Call.change (·.sendTracked p message) : Call σ _).run.Minds
      (fun r => r.toOption.map fun place => (p, ⟨place.1, place.2⟩)) none w :=
    .change hsent hseated' rfl
  refine hfirst.bind hw hs fun result w' hw' hseated' hkeeps => ?_
  cases result with
  | error e => exact ⟨hseated', rfl⟩
  | ok place =>
    have hwritten := minds_written p ⟨place.1, place.2⟩ hw' hseated' hkeeps
    refine hwritten.bind hw' hkeeps fun result w'' hw'' hseated'' hkeeps'' => ?_
    cases result with
    | error e => exact ⟨hseated'', rfl⟩
    | ok _ =>
      have hbetween := Activity.Spares.gentle hafter w'' hw'' hseated'' hkeeps''
      have hrest := hbetween.bind (f := fun _ => (awaitResponse p place.1 place.2 timeout).run) hw''
        hkeeps'' fun _ _ _ hseated _ => minds_awaitResponse p ⟨place.1, place.2⟩ timeout hseated
      change Activity.Minds _
        (Call.lift after >>= fun _ => awaitResponse p place.1 place.2 timeout).run _ _
      rw [Call.run_lift_bind]
      exact hrest

end Invocation

lemma Activity.Spares.busy {a : Activity σ α} (h : a.MadeOf Busy) : a.Spares none := by
  refine madeOf (fun α a ha => ?_) h
  cases ha with
  | gentle h => exact .gentle (.base h)
  | dispatch call =>
    exact fun w _ hseated _ => ⟨hseated, rfl, fun _ _ _ hseated' => ⟨hseated', rfl⟩⟩
  | ask p message h timeout => exact Invocation.spares_ask p message h timeout

namespace Closing

open World

lemma nodup_portsOf {broker : Broker} (h : broker.Numbered) (b : BrokerId) {l : List Connection}
    (hl : l.Sublist broker.connections.reverse) : (portsOf b l).Nodup := by
  have hids : (l.map (·.id)).Nodup := by
    refine List.Nodup.sublist (hl.map _) ?_
    rw [List.map_reverse, List.nodup_reverse]
    exact h.nodup
  have hports : portsOf b l = (l.map (·.id)).map fun id => { broker := b, connection := id } := by
    rw [List.map_map]
    rfl
  rw [hports]
  exact hids.map fun _ _ h => congrArg Port.connection h

lemma brokers_holdAll (ports : List Port) (w : World σ) : (holdAll ports w).brokers = w.brokers := by
  induction ports generalizing w with
  | nil => rfl
  | cons p ports ih => exact ih (w.hold (.connection p))

lemma silent_unholdAll (ports : List Port) (w : World σ) : w.Silent (unholdAll ports w) :=
  .foldl (f := fun w p => w.unhold (.connection p)) (fun _ _ => .of_brokers rfl) ports w

lemma connections_removeAll (cs : List Connection) (b : Broker) :
    (cs.foldl (fun b c => b.remove c.id) b).connections = b.connections := by
  induction cs generalizing b with
  | nil => rfl
  | cons c cs ih =>
    rw [List.foldl_cons, ih]
    exact b.connections_remove c.id

/-- The connections that nobody uses are closed before anyone else comes to see that they have left
the table. -/
lemma seated_closeIdle {b : BrokerId} {w w₁ w₂ : World σ} (hw : w.Sound) (hseated : w.Seated)
    (hremoved : w.Follows (only b ((w.broker b).unused.map fun c => .retire c.id)) w₁)
    (hsame : (w₁.broker b).connections = (w.broker b).connections) (hclosed : w₁.Silent w₂)
    (hall : ∀ p ∈ portsOf b (w.broker b).unused, ∀ c, w₁.connection? p = some c →
      c.state.rank < 2 → ∃ d, w₂.connection? p = some d ∧ 2 ≤ d.state.rank) : w₂.Seated := by
  intro b' hrun c hc hestablished
  have hsound₂ : w₂.Sound := hclosed.sound (hremoved.sound hw)
  have hfew : (w₂.broker b').Seated (if b' = b then (w.broker b).unused.map (·.id) else []) := by
    refine ((hremoved.silent hclosed).path b').seated (hw b') ?_ fun id hid => ?_
    · exact fun hrun c hc he => .inl ((hseated b' hrun c hc he).resolve_right List.not_mem_nil)
    · rw [only] at hid
      split at hid
      · next hb =>
        obtain ⟨u, hu, heq⟩ := List.mem_map.mp hid
        cases heq
        rw [if_pos hb]
        exact List.mem_map_of_mem hu
      · cases hid
  refine (hfew hrun c hc hestablished).imp_right fun hin => ?_
  split at hin
  · next hb =>
    -- What has left the table without having been closed has been closed by now.
    subst hb
    obtain ⟨u, hu, hid⟩ := List.mem_map.mp hin
    obtain ⟨hlisted, hunused⟩ := List.mem_filter.mp hu
    have hmem : u ∈ (w.broker b').connections :=
      List.mem_reverse.mp (List.mem_filter.mp hlisted).1
    simp only [Bool.and_eq_true] at hunused
    have hstate : u.state = .established := beq_iff_eq.mp hunused.2
    have hu₁ : w₁.connection? { broker := b', connection := u.id } = some u :=
      ((hremoved.sound hw) b').numbered.connection?_of_mem (hsame ▸ hmem)
    obtain ⟨d, hd, hrank⟩ := hall _ (List.mem_map_of_mem hu) u hu₁ (by rw [hstate]; decide)
    have hc₂ : w₂.connection? { broker := b', connection := u.id } = some c := by
      rw [hid]
      exact (hsound₂ b').numbered.connection?_of_mem hc
    obtain rfl := Option.some.inj (hc₂.symm.trans hd)
    rw [Connection.isEstablished, beq_iff_eq] at hestablished
    rw [hestablished] at hrank
    exact absurd hrank (by decide)
  · exact hin

lemma spares_closeIdle (b : BrokerId) : (closeIdle b : Activity σ Nat).Spares none := by
  intro w hw hseated _
  let ports := portsOf b (w.broker b).unused
  let w₁ := w.updateBroker b fun broker =>
    (w.broker b).unused.foldl (fun b c => b.remove c.id) broker
  let state := ports.foldl (start false) ([], holdAll ports w₁)
  have hremoved : w.Follows (only b ((w.broker b).unused.map fun c => .retire c.id)) w₁ :=
    follows_removeUnused w b
  have hw₁ := hremoved.sound hw
  have hhold : w₁.Silent (holdAll ports w₁) := .of_brokers (brokers_holdAll ports w₁)
  have hstart : w₁.Silent state.2 := hhold.trans (.start false ports ([], holdAll ports w₁))
  have hsame : (w₁.broker b).connections = (w.broker b).connections := by
    rw [broker_updateBroker]
    split
    · exact connections_removeAll _ _
    · rfl
  have hsublist : (w.broker b).unused.Sublist (w.broker b).connections.reverse :=
    List.filter_sublist.trans List.filter_sublist
  have hall := startAll false ports (nodup_portsOf (hw b).numbered b hsublist)
    ([], holdAll ports w₁) fun b => (hhold.sound hw₁ b).numbered
  have hseated₂ : state.2.Seated := by
    refine seated_closeIdle hw hseated hremoved hsame hstart fun p hp c hc hrank => ?_
    refine (hall p hp c ?_ hrank).1
    rw [connection?, broker_of_brokers (brokers_holdAll ports w₁)]
    exact hc
  have hreseats : w.Reseats none none w₁ := by
    refine ⟨hw₁, fun t ht hne => ⟨hremoved.keeps hw (fun b' m hm => ?_) ht, hne⟩,
      fun _ _ h => by cases h⟩
    rw [only] at hm
    split at hm
    · obtain ⟨c, -, rfl⟩ := List.mem_map.mp hm
      rfl
    · cases hm
  have hrest : ((drain (w₁.now + (w.broker b).config.drainTimeout) state.1.length state.1 >>= fun _ =>
      linger (w.broker b).config.drainTimeout (ports.filter (isOpen w₁)) >>= fun _ =>
        Activity.update (unholdAll ports)) >>= fun _ => Pure.pure (w.broker b).unused.length :
      Activity σ Nat).MadeOf Activity.Gentle :=
    ((madeOf_drain _ _ _).bind fun _ => (madeOf_linger _ _).bind fun _ =>
      Activity.Gentle.update (silent_unholdAll ports)).bind fun _ => .pure _
  refine ⟨none, hreseats, none, .of_silent hw₁ hstart none, ?_⟩
  exact Activity.Spares.gentle hrest state.2 (hstart.sound hw₁) hseated₂ fun _ h => by cases h

end Closing

lemma Activity.Primitive.spares {a : Activity σ α} (h : Primitive α a) : a.Spares none := by
  cases h with
  | invoke b target operation args => exact .busy (Invocation.madeOf_invoke b target operation args)
  | invokeOneway b target operation args =>
    exact .gentle (Invocation.madeOf_invokeOneway b target operation args)
  | locate b target => exact .busy (Invocation.madeOf_locate b target)
  | pause deadline =>
    refine .gentle (.base (.wait _ _ fun p x h => ?_))
    cases h
  | close ports drained timeout => exact .gentle (Closing.madeOf_closeAll ports drained timeout)
  | closeIdle b => exact Closing.spares_closeIdle b
  | shutdown b drained => exact .gentle (Closing.madeOf_shutdown b drained)
  | finish p exit => exact .silent fun w => .of_ends (.finishLate w exit)

lemma Activity.MadeOf.spares {a : Activity σ α} (h : a.MadeOf Primitive) : a.Spares none :=
  .madeOf (fun _ _ => Primitive.spares) h

end ObjectBroker
