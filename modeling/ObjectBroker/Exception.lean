import ObjectBroker.Stream.Input

/-!
Exceptions that a reply carries: system exceptions of eleven kinds, and exceptions that an
operation raises itself.
-/
namespace ObjectBroker

inductive SystemKind where
  | unknown
  | badParam
  | marshal
  | commFailure
  | objectNotExist
  | badOperation
  | noPermission
  | objAdapter
  | transient
  | internal
  | timeout
  deriving DecidableEq, Repr

namespace SystemKind

def all : List SystemKind :=
  [.unknown, .badParam, .marshal, .commFailure, .objectNotExist, .badOperation, .noPermission,
    .objAdapter, .transient, .internal, .timeout]

def name : SystemKind → String
  | .unknown => "UNKNOWN"
  | .badParam => "BAD_PARAM"
  | .marshal => "MARSHAL"
  | .commFailure => "COMM_FAILURE"
  | .objectNotExist => "OBJECT_NOT_EXIST"
  | .badOperation => "BAD_OPERATION"
  | .noPermission => "NO_PERMISSION"
  | .objAdapter => "OBJ_ADAPTER"
  | .transient => "TRANSIENT"
  | .internal => "INTERNAL"
  | .timeout => "TIMEOUT"

def ofName? (name : String) : Option SystemKind :=
  all.find? (·.name == name)

def repositoryId (kind : SystemKind) : String :=
  s!"IDL:omg.org/CORBA/{kind.name}:1.0"

def ofRepositoryId? (id : String) : Option SystemKind :=
  all.find? (·.repositoryId == id)

end SystemKind

inductive Completion where
  | yes
  | no
  | maybe
  deriving DecidableEq, Repr

namespace Completion

def code : Completion → UInt32
  | .yes => 0
  | .no => 1
  | .maybe => 2

def ofCode (code : UInt32) : Completion :=
  if code = 0 then .yes else if code = 1 then .no else .maybe

theorem ofCode_code (c : Completion) : ofCode c.code = c := by
  cases c <;> rfl

def name : Completion → String
  | .yes => "Yes"
  | .no => "No"
  | .maybe => "Maybe"

end Completion

structure SystemException where
  kind : SystemKind
  minor : UInt32
  completed : Completion
  deriving DecidableEq, Repr

namespace SystemException

def noValueFactory : UInt32 := 0x4f4d0001

def bidirectionalRequired : UInt32 := 0x4f4d0002

def text (x : SystemException) : String :=
  s!"{x.kind.name} (minor {Hex.marked 1 x.minor.toNat}, completed {x.completed.name})"

def put (o : Output) (x : SystemException) : Output :=
  ((o.putString x.kind.repositoryId).putUInt32 x.minor).putUInt32 x.completed.code

def read : Reading StreamError SystemException := do
  let id ← Reading.string
  let minor ← Reading.uint32
  let completed ← Reading.uint32
  pure { kind := (SystemKind.ofRepositoryId? id).getD .unknown, minor,
         completed := .ofCode completed }

end SystemException

structure UserException where
  id : String
  message : String
  deriving DecidableEq, Repr

namespace UserException

def text (x : UserException) : String :=
  s!"{x.id}: {x.message}"

def put (o : Output) (x : UserException) : Output :=
  (o.putString x.id).putString x.message

def read : Reading StreamError UserException := do
  let id ← Reading.string
  let message ← Reading.string
  pure { id, message }

end UserException

end ObjectBroker
