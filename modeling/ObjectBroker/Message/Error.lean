import ObjectBroker.Message.Kind
import ObjectBroker.Stream.Error

/-!
Why a message, a frame or the stream under it fails.
-/
namespace ObjectBroker

inductive IoKind where
  | notFound
  | permissionDenied
  | connectionRefused
  | connectionReset
  | connectionAborted
  | notConnected
  | addrInUse
  | addrNotAvailable
  | brokenPipe
  | alreadyExists
  | wouldBlock
  | invalidInput
  | invalidData
  | timedOut
  | writeZero
  | interrupted
  | unsupported
  | unexpectedEof
  | outOfMemory
  | other
  deriving DecidableEq, Repr

namespace IoKind

def name : IoKind → String
  | .notFound => "NotFound"
  | .permissionDenied => "PermissionDenied"
  | .connectionRefused => "ConnectionRefused"
  | .connectionReset => "ConnectionReset"
  | .connectionAborted => "ConnectionAborted"
  | .notConnected => "NotConnected"
  | .addrInUse => "AddrInUse"
  | .addrNotAvailable => "AddrNotAvailable"
  | .brokenPipe => "BrokenPipe"
  | .alreadyExists => "AlreadyExists"
  | .wouldBlock => "WouldBlock"
  | .invalidInput => "InvalidInput"
  | .invalidData => "InvalidData"
  | .timedOut => "TimedOut"
  | .writeZero => "WriteZero"
  | .interrupted => "Interrupted"
  | .unsupported => "Unsupported"
  | .unexpectedEof => "UnexpectedEof"
  | .outOfMemory => "OutOfMemory"
  | .other => "Other"

def all : List IoKind :=
  [.notFound, .permissionDenied, .connectionRefused, .connectionReset, .connectionAborted,
   .notConnected, .addrInUse, .addrNotAvailable, .brokenPipe, .alreadyExists, .wouldBlock,
   .invalidInput, .invalidData, .timedOut, .writeZero, .interrupted, .unsupported,
   .unexpectedEof, .outOfMemory, .other]

def ofName? (name : String) : Option IoKind :=
  all.find? (·.name == name)

theorem ofName?_name (kind : IoKind) : ofName? kind.name = some kind := by
  cases kind <;> rfl

def isTransient : IoKind → Bool
  | .connectionRefused | .connectionReset | .connectionAborted | .notConnected | .brokenPipe
  | .timedOut | .unexpectedEof | .addrNotAvailable => true
  | _ => false

end IoKind

inductive WireError where
  | io (kind : IoKind) (text : String)
  | stream (cause : StreamError)
  | badMagic (magic : Octets)
  | versionMismatch (major minor : UInt8)
  | badMessageKind (code : UInt8)
  | badAddressing (disposition : Int16)
  | badReplyStatus (status : UInt32)
  | badLocateStatus (status : UInt32)
  | tooLarge (size limit : Nat)
  | byteOrderChanged
  | unexpectedFragment (request : UInt32)
  | notFragmentable (kind : MessageKind)
  | unassembled
  | invalid (reason : String)
  | closed
  deriving DecidableEq, Repr

namespace WireError

def message : WireError → String
  | .io _ text => s!"I/O error: {text}"
  | .stream cause => s!"CDR error: {cause.message}"
  | .badMagic magic =>
    "bad GIOP magic: [" ++ ", ".intercalate (magic.map fun b => Hex.padded 2 b.toNat) ++ "]"
  | .versionMismatch major minor => s!"unsupported GIOP version {major}.{minor}"
  | .badMessageKind code => s!"unknown message type: {code}"
  | .badAddressing disposition =>
    s!"unsupported target addressing disposition: {disposition}"
  | .badReplyStatus status => s!"invalid reply status: {status}"
  | .badLocateStatus status => s!"invalid locate status: {status}"
  | .tooLarge size limit => s!"message too large: {size} bytes (max {limit})"
  | .byteOrderChanged => "peer changed byte order mid-connection"
  | .unexpectedFragment request => s!"fragment for unknown request {request}"
  | .notFragmentable kind => s!"{kind.name} messages cannot be fragmented"
  | .unassembled => "fragmented message passed to decoder before reassembly"
  | .invalid reason => s!"invalid message: {reason}"
  | .closed => "connection closed"

def isViolation : WireError → Bool
  | .io _ _ | .closed => false
  | _ => true

end WireError

end ObjectBroker
