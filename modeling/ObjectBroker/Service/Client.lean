import ObjectBroker.Resolution
import ObjectBroker.Service.Basic

/-!
Calls to the token service and to the recorder.
-/
namespace ObjectBroker

variable {σ : Type}

namespace RecorderClient

def call (b : BrokerId) (target : Reference) (message : String) : Call σ Unit := do
  let m := (← Call.lift (Activity.broker b)).marshaller.put (·.putString message)
  let _ ← Invocation.invokeResults b target "call" m

end RecorderClient

namespace TokenClient

def narrow (b : BrokerId) (r : Reference) : Call σ (Option Reference) :=
  Resolution.narrow b r Service.tokensTypeId

def sendBool (b : BrokerId) (target : Reference) (first second : Bool) : Call σ Unit := do
  let m := (← Call.lift (Activity.broker b)).marshaller
  let _ ← Invocation.invokeResults b target "sendBool"
    (m.put fun o => (o.putBool first).putBool second)

def peek (b : BrokerId) (target : Reference) : Call σ String := do
  let m := (← Call.lift (Activity.broker b)).marshaller
  let results ← Invocation.invokeResults b target "peek" m
  Call.reading results (Unmarshalling.stream Reading.string)

def setCallback (b : BrokerId) (target callback : Reference) : Call σ Unit := do
  let m := (← Call.lift (Activity.broker b)).marshaller
  let _ ← Invocation.invokeResults b target "setCallback" (m.putObject (some callback))

def sendPoint (b : BrokerId) (target : Reference) (point : Option NodeId) : Call σ String := do
  let w ← Call.lift Activity.world
  match (w.broker b).marshaller.run (Marshalling.value w.heap point) with
  | (.error e, _) => throw (.marshal e)
  | (.ok _, m) =>
    let results ← Invocation.invokeResults b target "sendPoint" m
    Call.reading results (Unmarshalling.stream Reading.string)

def oneway (b : BrokerId) (target : Reference) : Call σ Unit := do
  let m := (← Call.lift (Activity.broker b)).marshaller
  Invocation.invokeOneway b target "onewayMethod" m

end TokenClient

end ObjectBroker
