import ObjectBroker.Servant

/-!
Services that brokers offer: one that keeps the token of the last call, one that records the
messages it gets, and a probe that tries out what a broker can do.
-/
namespace ObjectBroker

inductive Service where
  /-- The last token, and whom to call before it is told. -/
  | tokens (last : String) (callback : Option (BrokerId × Reference))
  | recorder (messages : List String)
  /-- The interfaces of the probe, and how it reads the failure that it is asked for. -/
  | probe (typeIds : List String) (failure : String → BrokerError)

namespace Service

def tokensTypeId : String := "IDL:GIOPTest:1.0"

def recorderTypeId : String := "IDL:GIOPSmall:1.0"

def pointTypeId : String := "IDL:Point:1.0"

def namedPointTypeId : String := "IDL:NamedPoint:1.0"

def typeId : Service → String
  | .tokens _ _ => tokensTypeId
  | .recorder _ => recorderTypeId
  | .probe typeIds _ => typeIds.head?.getD ""

def typeIds : Service → List String
  | .probe typeIds _ => typeIds
  | _ => []

def brokers : Service → List BrokerId
  | .tokens _ (some (b, _)) => [b]
  | _ => []

end Service

end ObjectBroker
