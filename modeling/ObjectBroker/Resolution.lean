import ObjectBroker.Locator
import ObjectBroker.Naming.Client

/-!
From locators to references, and from one interface of an object to another.
-/
namespace ObjectBroker.Resolution

variable {σ : Type}

def referenceAt (b : BrokerId) (key : Octets) (typeId : String) (last : BrokerError) :
    List Address → Call σ Reference
  | [] => throw last
  | address :: rest => do
    let broker ← Call.lift (Activity.broker b)
    if address.endpoint = broker.endpoint then
      pure { typeId, endpoint := broker.endpoint, key, isLocal := true }
    else
      match ← Call.lift (Invocation.connect b address.endpoint).run with
      | .ok _ => pure { typeId, endpoint := address.endpoint, key }
      | .error e => referenceAt b key typeId e rest

def noAddresses : BrokerError := .badLocator "no addresses"

def ofLocator (b : BrokerId) (l : Locator) : Call σ Reference := do
  let broker ← Invocation.ensureRunning b
  match l with
  | .direct addresses key => referenceAt b key Reference.objectTypeId noAddresses addresses
  | .named addresses key name =>
    let context ← referenceAt b key NamingContext.typeId noAddresses addresses
    if name.isEmpty then
      pure context
    else
      NamingClient.resolve b context (← Call.ofExcept (Name.parse name))
  | .stringified r => pure (broker.localize r)

def resolve (b : BrokerId) (text : String) : Call σ Reference := do
  ofLocator b (← Call.ofExcept (Locator.parse text))

def narrow (b : BrokerId) (r : Reference) (typeId : String) : Call σ (Option Reference) := do
  if typeId = Reference.objectTypeId then
    return some r
  if r.typeId = typeId then
    return some (r.narrowed typeId)
  let m := (← Call.lift (Activity.broker b)).marshaller.put (·.putString typeId)
  let results ← Invocation.invokeResults b r "_is_a" m
  if ← Call.reading results (Unmarshalling.stream Reading.bool) then
    return some (r.narrowed typeId)
  return none

def nonExistent (b : BrokerId) (r : Reference) : Call σ Bool := do
  let m := (← Call.lift (Activity.broker b)).marshaller
  let results ← Invocation.invokeResults b r "_non_existent" m
  Call.reading results (Unmarshalling.stream Reading.bool)

end ObjectBroker.Resolution
