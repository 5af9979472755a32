/-!
Where a broker can be reached.
-/
namespace ObjectBroker

structure Endpoint where
  host : String
  port : UInt16
  deriving DecidableEq, Repr, Hashable

namespace Endpoint

def text (e : Endpoint) : String :=
  if e.host.toList.contains ':' then s!"[{e.host}]:{e.port}" else s!"{e.host}:{e.port}"

def isSynthetic (e : Endpoint) : Bool :=
  e.port == 0

end Endpoint

end ObjectBroker
