import ObjectBroker.Reference
import ObjectBroker.Text.Blank
import ObjectBroker.Text.Numeral
import ObjectBroker.Text.Percent
import ObjectBroker.Text.Split

/-!
Locators, the text forms that name an object: a list of addresses with an object key
(`corbaloc:`), a naming context with a name in it (`corbaname:`), and a stringified reference.
-/
namespace ObjectBroker

structure Address where
  version : UInt8 × UInt8
  endpoint : Endpoint
  deriving DecidableEq, Repr

inductive Locator where
  | direct (addresses : List Address) (key : Octets)
  | named (addresses : List Address) (key : Octets) (name : String)
  | stringified (reference : Reference)
  deriving DecidableEq, Repr

namespace Locator

def addresses : Locator → List Address
  | .direct addresses _ => addresses
  | .named addresses _ _ => addresses
  | .stringified _ => []

inductive Fault where
  | unknownScheme
  | noKey
  | emptyKey
  | nameNotUtf8
  | badEscape
  | initialReference
  | notInternet
  | badVersion
  | openBracket
  | junk
  | noHost
  | badPort
  deriving DecidableEq, Repr

def Fault.reason : Fault → String
  | .unknownScheme => "unknown scheme"
  | .noKey => "corbaloc needs /object-key"
  | .emptyKey => "empty object key"
  | .nameNotUtf8 => "name is not UTF-8"
  | .badEscape => "bad % escape"
  | .initialReference => "rir protocol is not supported"
  | .notInternet => "expected iiop address"
  | .badVersion => "bad IIOP version"
  | .openBracket => "unterminated IPv6 address"
  | .junk => "junk after IPv6 address"
  | .noHost => "missing host"
  | .badPort => "bad port"

def refuse {α : Type} (fault : Fault) (part : List Char) : Except BrokerError α :=
  .error (.badLocator s!"{fault.reason}: {String.ofList part}")

def defaultPort : UInt16 := 2809

def defaultVersion : UInt8 × UInt8 := (1, 2)

def namingKey : String := "NameService"

def unescape (text : List Char) : Except BrokerError Octets :=
  match Percent.decode? text with
  | some octets => .ok octets
  | none => refuse .badEscape text

def parseVersion (text : List Char) : Except BrokerError (UInt8 × UInt8) :=
  match Split.once? '.' text with
  | none => refuse .badVersion text
  | some (major, minor) =>
    match Numeral.parse? 256 major, Numeral.parse? 256 minor with
    | some a, some b => .ok (UInt8.ofNat a, UInt8.ofNat b)
    | _, _ => refuse .badVersion text

/-- The address without its protocol; an empty protocol is the internet one. -/
def parseProtocol (address : List Char) : Except BrokerError (List Char) :=
  match Split.after? "iiop:".toList address, Split.after? [':'] address,
      Split.after? "rir:".toList address with
  | some rest, _, _ => .ok rest
  | none, some rest, _ => .ok rest
  | none, none, some _ => refuse .initialReference address
  | none, none, none => refuse .notInternet address

def parseHost (address text : List Char) :
    Except BrokerError (List Char × Option (List Char)) :=
  match text with
  | '[' :: bracketed =>
    match Split.once? ']' bracketed with
    | none => refuse .openBracket address
    | some (host, []) => .ok (host, none)
    | some (host, ':' :: port) => .ok (host, some port)
    | some (_, _) => refuse .junk address
  | _ =>
    match Split.once? ':' text with
    | some (host, port) => .ok (host, some port)
    | none => .ok (text, none)

def parsePort (address : List Char) : Option (List Char) → Except BrokerError UInt16
  | none => .ok defaultPort
  | some [] => .ok defaultPort
  | some digits =>
    match Numeral.parse? 65536 digits with
    | some n => .ok (UInt16.ofNat n)
    | none => refuse .badPort address

def parseAddress (address : List Char) : Except BrokerError Address := do
  let rest ← parseProtocol address
  let (version, place) ←
    match Split.once? '@' rest with
    | some (version, place) => do pure (← parseVersion version, place)
    | none => pure (defaultVersion, rest)
  let (host, port) ← parseHost address place
  if host.isEmpty then
    refuse .noHost address
  else
    let port ← parsePort address port
    return { version, endpoint := { host := String.ofList host, port } }

def parseAddresses (list : List Char) : Except BrokerError (List Address) :=
  (Split.parts ',' list).mapM parseAddress

def parseDirect (rest : List Char) : Except BrokerError Locator :=
  match Split.once? '/' rest with
  | none => refuse .noKey rest
  | some (_, []) => refuse .emptyKey rest
  | some (list, key) => do
    let addresses ← parseAddresses list
    let key ← unescape key
    return .direct addresses key

def namingPlace (location : List Char) : List Char × List Char :=
  match Split.once? '/' location with
  | none => (location, namingKey.toList)
  | some (list, []) => (list, namingKey.toList)
  | some (list, key) => (list, key)

def parseNamed (rest : List Char) : Except BrokerError Locator := do
  let (location, name) := (Split.once? '#' rest).getD (rest, [])
  let (list, key) := namingPlace location
  match Utf8.decode (← unescape name) with
  | .error _ => refuse .nameNotUtf8 rest
  | .ok name =>
    let addresses ← parseAddresses list
    let key ← unescape key
    return .named addresses key name

def parse (text : String) : Except BrokerError Locator :=
  let text := Blank.trim text.toList
  if Reference.hasMark text then .stringified <$> Reference.ofStringified text
  else match Split.after? "corbaloc:".toList text, Split.after? "corbaname:".toList text with
    | some rest, _ => parseDirect rest
    | none, some rest => parseNamed rest
    | none, none => refuse .unknownScheme text

end Locator

def Reference.toLocator (r : Reference) : String :=
  s!"corbaloc:iiop:{r.version.1}.{r.version.2}@{r.endpoint.text}/{Percent.encode r.key}"

end ObjectBroker
