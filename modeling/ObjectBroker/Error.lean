import ObjectBroker.Endpoint
import ObjectBroker.Exception
import ObjectBroker.Message.Error

/-!
Why marshalling or an invocation fails, how such a failure is classed, and how it travels
between brokers as a system exception.
-/
namespace ObjectBroker

inductive MarshalError where
  | unknownType (id : String)
  | duplicateRegistration (id : String)
  | factoryMismatch (expected actual : String)
  | unknownField (type field : String)
  | typeMismatch (field expected : String)
  | notAssignable (declared actual : String)
  | badType (reason : String)
  | badTag (tag : UInt32)
  | dangling (position : Int)
  | orderMismatch (expected actual : ByteOrder)
  | badReference (reason : String)
  | tooDeep (limit : Nat)
  | sequenceTooLong (count : UInt32)
  | remote (cause : SystemException)
  | stream (cause : StreamError)
  deriving DecidableEq, Repr

def MarshalError.message : MarshalError → String
  | .unknownType id => s!"no value factory registered for {id}"
  | .duplicateRegistration id => s!"value factory already registered for {id}"
  | .factoryMismatch expected actual =>
    s!"factory for {expected} produced an instance of {actual}"
  | .unknownField type field => s!"value type {type} has no field {field}"
  | .typeMismatch field expected => s!"field {field} expects {expected}"
  | .notAssignable declared actual => s!"{actual} is not assignable to {declared}"
  | .badType reason => s!"invalid value type descriptor: {reason}"
  | .badTag tag => s!"unsupported value tag {Hex.marked 8 tag.toNat}"
  | .dangling position => s!"indirection to unknown stream position {position}"
  | .orderMismatch expected actual =>
    s!"arguments encoded {actual.name}, connection sends {expected.name}"
  | .badReference reason => s!"invalid object reference: {reason}"
  | .tooDeep limit => s!"value nesting exceeds {limit} levels"
  | .sequenceTooLong count => s!"sequence of {count} elements exceeds the message"
  | .remote cause => s!"rejected by peer: {cause.text}"
  | .stream cause => s!"CDR error: {cause.message}"

inductive BrokerError where
  | transient (reason : String)
  | unreachable (endpoint : Endpoint) (reason : String)
  | wire (cause : WireError)
  | system (cause : SystemException)
  | marshal (cause : MarshalError)
  | user (cause : UserException)
  | cancelled (reason : String)
  | badLocator (reason : String)
  | notFound (name : String)
  | unknownObject (key : String)
  | unknownOperation (operation : String)
  | adapter (reason : String)
  | io (kind : IoKind) (text : String)
  deriving DecidableEq, Repr

inductive Category where
  | transient
  | systemFailure
  | marshalling
  | application
  | cancelled
  deriving DecidableEq, Repr

def Category.name : Category → String
  | .transient => "Transient"
  | .systemFailure => "SystemFailure"
  | .marshalling => "Marshalling"
  | .application => "Application"
  | .cancelled => "Cancelled"

def SystemException.category (x : SystemException) : Category :=
  match x.kind with
  | .transient | .commFailure => .transient
  | .marshal => .marshalling
  | .timeout => .cancelled
  | _ => .systemFailure

namespace BrokerError

def message : BrokerError → String
  | .transient reason => s!"transient failure: {reason}"
  | .unreachable endpoint reason => s!"{endpoint.text} unreachable: {reason}"
  | .wire cause => s!"protocol error: {cause.message}"
  | .system cause => s!"system exception: {cause.text}"
  | .marshal cause => s!"marshalling error: {cause.message}"
  | .user cause => s!"user exception: {cause.text}"
  | .cancelled reason => s!"cancelled: {reason}"
  | .badLocator reason => s!"invalid locator: {reason}"
  | .notFound name => s!"name not found: {name}"
  | .unknownObject key => s!"unknown activation id: {key}"
  | .unknownOperation operation => s!"unknown operation: {operation}"
  | .adapter reason => s!"adapter error: {reason}"
  | .io _ text => s!"I/O error: {text}"

def ofIo (kind : IoKind) : Category :=
  if kind.isTransient then .transient else .systemFailure

def category : BrokerError → Category
  | .transient _ | .unreachable _ _ => .transient
  | .io kind _ | .wire (.io kind _) => ofIo kind
  | .wire .closed => .transient
  | .wire _ | .badLocator _ | .adapter _ | .unknownObject _ | .unknownOperation _ =>
    .systemFailure
  | .system cause => cause.category
  | .marshal _ => .marshalling
  | .user _ | .notFound _ => .application
  | .cancelled _ => .cancelled

def isRetryable (e : BrokerError) : Bool :=
  e.category == .transient

def raised (kind : SystemKind) (minor : UInt32 := 0) : SystemException :=
  { kind, minor, completed := .no }

def toSystemException : BrokerError → SystemException
  | .unknownObject _ | .notFound _ => raised .objectNotExist
  | .unknownOperation _ => raised .badOperation
  | .marshal (.unknownType _) => raised .marshal SystemException.noValueFactory
  | .marshal _ => raised .marshal
  | .system cause => cause
  | .transient _ | .unreachable _ _ | .cancelled _ => raised .transient
  | .adapter _ => raised .objAdapter
  | .badLocator _ => raised .badParam
  | .wire _ | .io _ _ => raised .commFailure
  | .user _ => raised .unknown

def ofSystemException (x : SystemException) (key operation : String) : BrokerError :=
  match x.kind with
  | .objectNotExist => .unknownObject key
  | .badOperation => .unknownOperation operation
  | .marshal => .marshal (.remote x)
  | .transient | .commFailure => .transient x.text
  | _ => .system x

end BrokerError

end ObjectBroker
