import ObjectBroker.Decimal.Positional
import ObjectBroker.Service.Client

/-!
The token service and the recorder.
-/
namespace ObjectBroker.Service

def describePoint (i : Instance) : Except MarshalError String := do
  let x ← i.getDouble "x"
  let y ← i.getDouble "y"
  if i.type.isA namedPointTypeId then
    let name ← i.getString "name"
    return s!"NamedPoint({Decimal.text x},{Decimal.text y},\"{name}\")"
  return s!"Point({Decimal.text x},{Decimal.text y})"

def ownTokens (c : CallContext) : Serving Service (String × Option (BrokerId × Reference)) := do
  match ← Serving.self c with
  | some (.custom (.tokens last callback)) => pure (last, callback)
  | _ => pure ("", none)

def record (c : CallContext) (token : String) : Serving Service Unit := do
  let (_, callback) ← ownTokens c
  Serving.setSelf c (.custom (.tokens token callback))

def keepCallback (c : CallContext) (callback : Option Reference) : Serving Service Unit := do
  let (last, _) ← ownTokens c
  Serving.setSelf c (.custom (.tokens last (callback.map (c.broker, ·))))

def pointToken (point : Option NodeId) : Serving Service String := do
  match point with
  | none => pure "null"
  | some n =>
    let w ← Serving.ofActivity Activity.world
    match w.heap.get? n with
    | none => pure "null"
    | some i => Serving.ofExcept ((describePoint i).mapError .marshal)

def invokeTokens (c : CallContext) (operation : String) : Serving Service Unit :=
  match operation with
  | "sendBool" => do
    let first ← Serving.stream Reading.bool
    let second ← Serving.stream Reading.bool
    record c s!"sendBool({first},{second})"
  | "peek" => do
    if let (_, some (b, callback)) ← ownTokens c then
      Serving.ofCall (RecorderClient.call b callback "hello")
    let (last, _) ← ownTokens c
    Serving.write (·.putString last)
  | "setCallback" => do
    keepCallback c (← Serving.read Unmarshalling.object)
  | "sendPoint" => do
    let token ← pointToken (← Serving.read (Unmarshalling.valueAs pointTypeId))
    record c token
    Serving.write (·.putString token)
  | "onewayMethod" => record c "onewayMethod"
  | _ => Serving.unknown operation

def invokeRecorder (c : CallContext) (operation : String) : Serving Service Unit :=
  match operation with
  | "call" => do
    let message ← Serving.stream Reading.string
    if let some (.custom (.recorder messages)) ← Serving.self c then
      Serving.setSelf c (.custom (.recorder (messages ++ [message])))
  | _ => Serving.unknown operation

end ObjectBroker.Service
