import ObjectBroker.Error

/-!
Object references: an interface, the endpoint of a broker and an object key. On the wire a
reference is a list of profiles, of which only the internet profile is understood; as text it is
the hexadecimal form of an encapsulation.
-/
namespace ObjectBroker

instance : MonadLift (Reading StreamError) (Reading MarshalError) where
  monadLift r := ExceptT.adapt MarshalError.stream r

structure Reference where
  typeId : String
  endpoint : Endpoint
  key : Octets
  /-- Of the protocol. The major version is 1 for every reference. -/
  minor : UInt8 := 2
  isLocal : Bool := false
  deriving DecidableEq, Repr

namespace Reference

def objectTypeId : String := "IDL:omg.org/CORBA/Object:1.0"

def internetTag : UInt32 := 0

def version (r : Reference) : UInt8 × UInt8 := (1, r.minor)

def narrowed (r : Reference) (typeId : String) : Reference :=
  { r with typeId }

def keyText (r : Reference) : String :=
  Utf8.lossy r.key

def text (r : Reference) : String :=
  s!"{r.typeId}@{r.endpoint.text}/{r.keyText}"

def profile (r : Reference) (order : ByteOrder) : Output :=
  let o := (Output.encapsulation order).append [1, r.minor]
  let o := ((o.putString r.endpoint.host).putUInt16 r.endpoint.port).putOctets r.key
  if 1 ≤ r.minor then o.putUInt32 0 else o

def put (o : Output) (r : Reference) : Output :=
  let o := ((o.putString r.typeId).putUInt32 1).putUInt32 internetTag
  o.putOctets (r.profile o.order).octets

def putNil (o : Output) : Output :=
  (o.putString "").putUInt32 0

def putOption (o : Output) : Option Reference → Output
  | none => putNil o
  | some r => put o r

def getProfile : Reading MarshalError (UInt32 × Octets) := do
  let tag ← Reading.uint32
  let data ← Reading.octets
  pure (tag, data)

def readInternet (typeId : String) : Reading MarshalError Reference := do
  let major ← Reading.octet
  let minor ← Reading.octet
  if major ≠ 1 then
    throw (.badReference s!"unsupported IIOP version {major}.{minor}")
  let host ← Reading.string
  let port ← Reading.uint16
  let key ← Reading.octets
  pure { typeId, endpoint := { host, port }, key, minor }

def ofProfile (typeId : String) (data : Octets) : Except MarshalError Reference :=
  match Input.encapsulation data with
  | .error e => .error (.stream e)
  | .ok input => (Reading.run (readInternet typeId) input).1

def read : Reading MarshalError (Option Reference) := do
  let typeId ← Reading.string
  let count ← Reading.word 4
  if count = 0 then
    if typeId.isEmpty then
      return none
    throw (.badReference s!"{typeId} has no profiles")
  let profiles ← Reading.many getProfile count
  match profiles.find? (·.1 == internetTag) with
  | none => throw (.badReference s!"{typeId} has no IIOP profile")
  | some (_, data) => some <$> Reading.ofExcept (ofProfile typeId data)

def stringMark : String := "IOR:"

def hasMark (text : List Char) : Bool :=
  (text.take 4).map Char.toUpper == stringMark.toList

def toStringified (r : Reference) : String :=
  stringMark ++ Hex.encode (put (.encapsulation .bigEndian) r).octets

def ofStringified (text : List Char) : Except BrokerError Reference :=
  if !hasMark text then
    .error (.badLocator s!"not a stringified IOR: {String.ofList text}")
  else match Hex.decode (Utf8.encode (String.ofList (text.drop 4))) with
    | .error fault => .error (.badLocator s!"bad hex in IOR: {fault.message}")
    | .ok octets =>
      match Input.encapsulation octets with
      | .error e => .error (.badLocator e.message)
      | .ok input =>
        match (Reading.run read input).1 with
        | .error e => .error (.badLocator e.message)
        | .ok none => .error (.badLocator "nil IOR")
        | .ok (some r) => .ok r

end Reference

end ObjectBroker
