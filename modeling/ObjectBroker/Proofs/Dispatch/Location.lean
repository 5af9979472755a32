import ObjectBroker.Proofs.Dispatch.Answer

/-!
Where objects are. A key leads to the object that it was made for, and all who ask a broker about a
key are told the same.
-/

namespace ObjectBroker

namespace Dispatch

variable {σ : Type} [Servant σ] {w : World σ} {b : BrokerId} {key : Octets} {target : Target}

def SaysGone (w : World σ) (b : BrokerId) (key : Octets) (gone : Bool) : Prop :=
  ∀ call : Inbound, call.broker = b → call.key = key → call.operation = "_non_existent" →
    ∃ f : Stats → Stats, (serve call).Evaluates w
      (.noException, ((w.broker b).marshaller.put (·.putBool gone)).octets) (w.count b f)

lemma saysGone (w : World σ) (b : BrokerId) (key : Octets) :
    SaysGone w b key !((w.broker b).adapters.holds key) := by
  rintro call rfl rfl hop
  exact ⟨_, evaluates_exists hop (.refl _)⟩

/-- A key under which a broker has an object: it says so, and every request gets there. -/
structure Found (w : World σ) (b : BrokerId) (key : Octets) (target : Target) : Prop where
  locate : w.locate b key = .objectHere
  existence : SaysGone w b key false
  work : ∀ call : Inbound, call.broker = b → call.key = key → call.operation ≠ "_non_existent" →
    ∀ E l answer w', (serve call).Runs E w l answer w' ↔ ∃ own result x v,
      ((toServant call target).run.run (exchange w call)).Runs E (engage w call target) own
        (result, x) v ∧
      Tells (w.broker b) x.reply.octets result answer ∧
      l = opening w call target ++ own ++ closing v call target result ∧
      w' = release v call target result

/-- A key under which a broker has no object. -/
structure Missing (w : World σ) (b : BrokerId) (key : Octets) : Prop where
  locate : w.locate b key = .unknownObject
  existence : SaysGone w b key true
  work : ∀ call : Inbound, call.broker = b → call.key = key → call.operation ≠ "_non_existent" →
    ∃ f : Stats → Stats, (serve call).Evaluates w (.systemException,
      ((w.broker b).marshaller.put
        (SystemException.put · (BrokerError.raised .objectNotExist))).octets) (w.count b f)

lemma found_of_route (ht : (w.broker b).adapters.route key = .ok target)
    (halive : (w.broker b).isAlive = true) : Found w b key target := by
  have hholds : (w.broker b).adapters.holds key = true := by rw [Directory.holds, ht]; rfl
  have hgone := saysGone w b key
  rw [hholds] at hgone
  refine ⟨by simp [World.locate, halive, hholds], hgone, ?_⟩
  rintro call rfl rfl hop E l answer w'
  simp only [runs_serve_iff ht hop, tells_iff]

lemma missing_of_route {e : BrokerError} (h : (w.broker b).adapters.route key = .error e) :
    Missing w b key := by
  have hholds : (w.broker b).adapters.holds key = false := by rw [Directory.holds, h]; rfl
  have hgone := saysGone w b key
  rw [hholds] at hgone
  refine ⟨by simp [World.locate, hholds], hgone, ?_⟩
  rintro call rfl rfl hop
  exact (Settled.nowhere hop h).evaluates

end Dispatch

namespace Directory

/-- Keys and objects of a broker, whatever its owner has done with its adapters. -/
theorem keys_faithful {σ : Type} [Servant σ] {d : Directory} (h : d.Reached) :
    (∀ a ∈ d.adapters, ∀ id n, a.servant? id = some n →
      d.route (a.key id) = .ok { adapter := a, id, servant := n }) ∧
    (∀ a ∈ d.adapters, ∀ b ∈ d.adapters, ∀ i j, (a.servant? i).isSome → (b.servant? j).isSome →
      a.key i = b.key j → a = b ∧ i = j) ∧
    (∀ key t, d.route key = .ok t →
      t.adapter ∈ d.adapters ∧ t.adapter.servant? t.id = some t.servant ∧
        (Utf8.lossy key = t.adapter.keyText t.id ∨
          t.adapter.name = Adapter.rootName ∧ Utf8.lossy key = Adapter.rootName ++ "/" ++ t.id)) ∧
    ∀ (w : World σ) (b : BrokerId) (key : Octets), (w.broker b).adapters = d →
      (w.broker b).isAlive = true →
        (∃ t, d.route key = .ok t ∧ Dispatch.Found w b key t) ∨
          (∀ t, d.route key ≠ .ok t) ∧ Dispatch.Missing w b key := by
  have hd := h.sound
  refine ⟨fun a ha id n => hd.route_key ha, fun a ha b hb i j => hd.key_inj ha hb,
    fun key t => of_route, ?_⟩
  rintro w b key rfl halive
  cases hroute : (w.broker b).adapters.route key with
  | ok t => exact .inl ⟨t, rfl, Dispatch.found_of_route hroute halive⟩
  | error e => exact .inr ⟨by simp, Dispatch.missing_of_route hroute⟩

/-- An adapter has been made, an object has been activated in it under a number, and one in the
root under an id. -/
def furnished : Directory where
  adapters := [{ name := Adapter.rootName, servants := [("x", 0)] },
    { name := "Shop", servants := [("1", 1)], nextId := 2 }]

lemma reached_furnished : furnished.Reached := by
  let root : Adapter := { name := Adapter.rootName }
  let shop : Adapter := { name := "Shop" }
  have hmade : Upkeep {} { adapters := [root, shop] } :=
    .create (by decide : ({} : Directory).create "Shop" false = .ok { adapters := [root, shop] })
  have hshop : shop.activate 1 = .ok ("1", { shop with servants := [("1", 1)], nextId := 2 }) := by
    decide
  have hroot : root.activateWithId "x" 0 = .ok { root with servants := [("x", 0)] } := by decide
  refine .tail (.tail (.single hmade) (.adapter (a := shop) (by simp) (.activate hshop))) ?_
  exact .adapter (a := root) (by decide) (.activateWithId hroot)

def lodging : World Unit where
  brokers := #[{ Broker.new "" { name := "", order := .bigEndian } with adapters := furnished }]

theorem keys_faithful_furnished :
    let shop : Adapter := { name := "Shop", servants := [("1", 1)], nextId := 2 }
    furnished.route (shop.key "1") = .ok { adapter := shop, id := "1", servant := 1 } ∧
      lodging.locate 0 (Utf8.encode "RootPOA/x") = .objectHere ∧
      lodging.locate 0 (Utf8.encode "Shop/x") = .unknownObject := by
  let idle : Servant Unit := {
    typeId := fun _ => "", typeIds := fun _ => [], brokers := fun _ => []
    invoke := fun _ _ => pure () }
  obtain ⟨hkey, -, -, hasked⟩ := @keys_faithful Unit idle furnished reached_furnished
  have hlong : (furnished.route (Utf8.encode "RootPOA/x")).isOk = true := by decide +kernel
  have hwrong : (furnished.route (Utf8.encode "Shop/x")).isOk = false := by decide +kernel
  refine ⟨hkey _ (by decide) "1" 1 (by decide), ?_, ?_⟩
  · rcases hasked lodging 0 (Utf8.encode "RootPOA/x") rfl rfl with ⟨t, -, hfound⟩ | ⟨hnone, -⟩
    · exact hfound.locate
    · cases hroute : furnished.route (Utf8.encode "RootPOA/x") with
      | ok t => exact absurd hroute (hnone t)
      | error e => simp [hroute, Except.isOk, Except.toBool] at hlong
  · rcases hasked lodging 0 (Utf8.encode "Shop/x") rfl rfl with ⟨t, hroute, -⟩ | ⟨-, hmissing⟩
    · simp [hroute, Except.isOk, Except.toBool] at hwrong
    · exact hmissing.locate

end Directory

end ObjectBroker
