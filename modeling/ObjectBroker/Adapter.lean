import ObjectBroker.Reference
import ObjectBroker.Text.Split

/-!
Object adapters. An adapter maps activation ids to servants, which are given by their number; a
directory holds the adapters of a broker. An object key is the name of an adapter and an
activation id, or the id alone for the root adapter.
-/
namespace ObjectBroker

abbrev ObjectId := Nat

structure Adapter where
  name : String
  isBidirectional : Bool := false
  servants : List (String × ObjectId) := []
  nextId : UInt64 := 1
  isRunning : Bool := true
  deriving DecidableEq, Repr

/-- How a request came to its adapter: without a connection, or on one that the peer or the
broker itself opened. -/
inductive Origin where
  | collocated
  | accepted
  | initiated
  deriving DecidableEq, Repr

namespace Adapter

def rootName : String := "RootPOA"

def size (a : Adapter) : Nat := a.servants.length

def servant? (a : Adapter) (id : String) : Option ObjectId :=
  a.servants.lookup id

def insert (a : Adapter) (id : String) (servant : ObjectId) : Except BrokerError Adapter :=
  if !a.isRunning then .error (.cancelled s!"adapter {a.name} is shut down")
  else if (a.servant? id).isSome then .error (.adapter s!"{id} already active in {a.name}")
  else .ok { a with servants := (id, servant) :: a.servants }

def isPlain (text : String) : Bool :=
  !text.isEmpty && !text.toList.contains '/'

def activateWithId (a : Adapter) (id : String) (servant : ObjectId) :
    Except BrokerError Adapter :=
  if isPlain id then a.insert id servant
  else .error (.adapter s!"invalid activation id {Quoted.string id}")

def freshFrom (a : Adapter) (n : UInt64) : (tries : Nat) → UInt64
  | 0 => n
  | tries + 1 => if (a.servant? (toString n)).isSome then a.freshFrom (n + 1) tries else n

def activate (a : Adapter) (servant : ObjectId) : Except BrokerError (String × Adapter) := do
  let n := if a.isRunning then a.freshFrom a.nextId a.size else a.nextId
  let id := toString n
  let a ← a.insert id servant
  return (id, { a with nextId := n + 1 })

def keyText (a : Adapter) (id : String) : String :=
  if a.name = rootName then id else s!"{a.name}/{id}"

def key (a : Adapter) (id : String) : Octets :=
  Utf8.encode (a.keyText id)

def deactivate (a : Adapter) (id : String) : Except BrokerError Adapter :=
  match a.servant? id with
  | none => .error (.unknownObject (a.keyText id))
  | some _ => .ok { a with servants := a.servants.filter (·.1 != id) }

def accepts (a : Adapter) : Origin → Bool
  | .collocated | .accepted => true
  | .initiated => a.isBidirectional

def shutdown (a : Adapter) : Adapter :=
  { a with isRunning := false, servants := [] }

def text (a : Adapter) : String :=
  let policies := if a.isBidirectional then "Bidirectional" else ""
  s!"ObjectAdapter \x7b name: {Quoted.string a.name}, policies: PolicySet \x7b policies: [{policies}] \x7d, servants: {a.size} \x7d"

end Adapter

structure Directory where
  adapters : List Adapter := [{ name := Adapter.rootName }]
  deriving DecidableEq, Repr

structure Target where
  adapter : Adapter
  id : String
  servant : ObjectId
  deriving DecidableEq, Repr

namespace Directory

def get? (d : Directory) (name : String) : Option Adapter :=
  d.adapters.find? (·.name == name)

def put (d : Directory) (a : Adapter) : Directory :=
  { adapters := d.adapters.map fun b => if b.name = a.name then a else b }

def create (d : Directory) (name : String) (isBidirectional : Bool) :
    Except BrokerError Directory :=
  if !Adapter.isPlain name then .error (.adapter s!"invalid adapter name {Quoted.string name}")
  else if (d.get? name).isSome then .error (.adapter s!"adapter {name} already exists")
  else .ok { adapters := d.adapters ++ [{ name, isBidirectional }] }

def sorted (d : Directory) : List Adapter :=
  d.adapters.mergeSort fun a b => !(b.name < a.name)

def anyBidirectional (d : Directory) : Bool :=
  d.adapters.any fun a => a.isRunning && a.isBidirectional

def splitKey (key : String) : String × String :=
  match Split.once? '/' key.toList with
  | some (name, id) => (String.ofList name, String.ofList id)
  | none => (Adapter.rootName, key)

def route (d : Directory) (key : Octets) : Except BrokerError Target :=
  let text := Utf8.lossy key
  let (name, id) := splitKey text
  match d.get? name with
  | none => .error (.unknownObject text)
  | some adapter =>
    match adapter.servant? id with
    | none => .error (.unknownObject text)
    | some servant => .ok { adapter, id, servant }

def holds (d : Directory) (key : Octets) : Bool :=
  (d.route key).isOk

def shutdown (d : Directory) : Directory :=
  { adapters := d.adapters.map Adapter.shutdown }

end Directory

end ObjectBroker
