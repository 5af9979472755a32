import ObjectBroker.Message.Error

/-!
Messages between brokers.
-/
namespace ObjectBroker

structure ServiceContext where
  id : UInt32
  data : Octets
  deriving DecidableEq, Repr

structure Request where
  id : UInt32
  responseExpected : Bool := true
  key : Octets
  operation : String
  contexts : List ServiceContext := []
  body : Octets
  deriving DecidableEq, Repr

inductive ReplyStatus where
  | noException
  | userException
  | systemException
  | locationForward
  deriving DecidableEq, Repr

namespace ReplyStatus

def name : ReplyStatus → String
  | .noException => "NoException"
  | .userException => "UserException"
  | .systemException => "SystemException"
  | .locationForward => "LocationForward"

def code : ReplyStatus → UInt32
  | .noException => 0
  | .userException => 1
  | .systemException => 2
  | .locationForward => 3

def ofCode? (code : UInt32) : Option ReplyStatus :=
  [noException, userException, systemException, locationForward].find? (·.code == code)

theorem ofCode?_code (status : ReplyStatus) : ofCode? status.code = some status := by
  cases status <;> rfl

end ReplyStatus

structure Reply where
  id : UInt32
  status : ReplyStatus
  contexts : List ServiceContext := []
  body : Octets
  deriving DecidableEq, Repr

inductive LocateStatus where
  | unknownObject
  | objectHere
  | objectForward
  deriving DecidableEq, Repr

namespace LocateStatus

def name : LocateStatus → String
  | .unknownObject => "UnknownObject"
  | .objectHere => "ObjectHere"
  | .objectForward => "ObjectForward"

def code : LocateStatus → UInt32
  | .unknownObject => 0
  | .objectHere => 1
  | .objectForward => 2

def ofCode? (code : UInt32) : Option LocateStatus :=
  [unknownObject, objectHere, objectForward].find? (·.code == code)

theorem ofCode?_code (status : LocateStatus) : ofCode? status.code = some status := by
  cases status <;> rfl

end LocateStatus

inductive Message where
  | request (request : Request)
  | reply (reply : Reply)
  | cancelRequest (id : UInt32)
  | locateRequest (id : UInt32) (key : Octets)
  | locateReply (id : UInt32) (status : LocateStatus)
  | closeConnection
  | messageError
  | fragment (id : UInt32) (more : Bool) (data : Octets)
  deriving DecidableEq, Repr

def Message.kind : Message → MessageKind
  | .request _ => .request
  | .reply _ => .reply
  | .cancelRequest _ => .cancelRequest
  | .locateRequest _ _ => .locateRequest
  | .locateReply _ _ => .locateReply
  | .closeConnection => .closeConnection
  | .messageError => .messageError
  | .fragment _ _ _ => .fragment

end ObjectBroker
