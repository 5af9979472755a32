import ObjectBroker.Error

/-!
Short labels of errors, for those who sort them. The label of an error that wraps another one
holds the label of the cause behind a slash.
-/
namespace ObjectBroker

def StreamError.label : StreamError → String
  | .underflow _ _ => "BufferUnderflow"
  | .badString _ => "InvalidString"
  | .badBoolean _ => "InvalidBoolean"
  | .badByteOrder _ => "InvalidByteOrder"
  | .badUtf8 _ => "Utf8Error"

def WireError.label : WireError → String
  | .io k _ => "Io/" ++ k.name
  | .stream e => "Cdr/" ++ e.label
  | .badMagic _ => "BadMagic"
  | .versionMismatch _ _ => "VersionMismatch"
  | .badMessageKind _ => "InvalidMessageType"
  | .badAddressing _ => "UnsupportedAddressing"
  | .badReplyStatus _ => "InvalidReplyStatus"
  | .badLocateStatus _ => "InvalidLocateStatus"
  | .tooLarge _ _ => "MessageTooLarge"
  | .byteOrderChanged => "ByteOrderChanged"
  | .unexpectedFragment _ => "UnexpectedFragment"
  | .notFragmentable _ => "NotFragmentable"
  | .unassembled => "UnassembledFragment"
  | .invalid _ => "InvalidMessage"
  | .closed => "ConnectionClosed"

def MarshalError.label : MarshalError → String
  | .unknownType _ => "UnknownType"
  | .duplicateRegistration _ => "DuplicateRegistration"
  | .factoryMismatch _ _ => "FactoryMismatch"
  | .unknownField _ _ => "UnknownField"
  | .typeMismatch _ _ => "TypeMismatch"
  | .notAssignable _ _ => "NotAssignable"
  | .badType _ => "InvalidDescriptor"
  | .badTag _ => "UnsupportedValueTag"
  | .dangling _ => "DanglingIndirection"
  | .orderMismatch _ _ => "ByteOrderMismatch"
  | .badReference _ => "InvalidObjectReference"
  | .tooDeep _ => "DepthExceeded"
  | .sequenceTooLong _ => "SequenceTooLong"
  | .remote _ => "Remote"
  | .stream e => "Cdr/" ++ e.label

def BrokerError.label : BrokerError → String
  | .transient _ => "Transient"
  | .unreachable _ _ => "Unreachable"
  | .wire e => "Protocol/" ++ e.label
  | .system _ => "System"
  | .marshal e => "Marshalling/" ++ e.label
  | .user _ => "Application"
  | .cancelled _ => "Cancelled"
  | .badLocator _ => "InvalidLocator"
  | .notFound _ => "NotFound"
  | .unknownObject _ => "UnknownActivationId"
  | .unknownOperation _ => "UnknownOperation"
  | .adapter _ => "Adapter"
  | .io k _ => "Io/" ++ k.name

end ObjectBroker
