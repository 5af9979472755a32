import ObjectBroker.Octets

/-!
The eight kinds of message.
-/
namespace ObjectBroker

inductive MessageKind where
  | request
  | reply
  | cancelRequest
  | locateRequest
  | locateReply
  | closeConnection
  | messageError
  | fragment
  deriving DecidableEq, Repr

namespace MessageKind

def code : MessageKind → UInt8
  | .request => 0
  | .reply => 1
  | .cancelRequest => 2
  | .locateRequest => 3
  | .locateReply => 4
  | .closeConnection => 5
  | .messageError => 6
  | .fragment => 7

def all : List MessageKind :=
  [.request, .reply, .cancelRequest, .locateRequest, .locateReply, .closeConnection,
    .messageError, .fragment]

def ofCode? (code : UInt8) : Option MessageKind :=
  all.find? (·.code == code)

theorem ofCode?_code (kind : MessageKind) : ofCode? kind.code = some kind := by
  cases kind <;> rfl

def name : MessageKind → String
  | .request => "Request"
  | .reply => "Reply"
  | .cancelRequest => "CancelRequest"
  | .locateRequest => "LocateRequest"
  | .locateReply => "LocateReply"
  | .closeConnection => "CloseConnection"
  | .messageError => "MessageError"
  | .fragment => "Fragment"

def isFragmentable : MessageKind → Bool
  | .request | .reply | .locateRequest | .locateReply => true
  | _ => false

end MessageKind

end ObjectBroker
