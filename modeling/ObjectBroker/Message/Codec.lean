import ObjectBroker.Message.Basic
import ObjectBroker.Message.Header
import ObjectBroker.Stream.Input

/-!
Messages as octets. Alignment in a body counts from the start of the header, and the payload of
a request or reply starts at a multiple of eight.
-/
namespace ObjectBroker

instance : MonadLift (Reading StreamError) (Reading WireError) where
  monadLift r := ExceptT.adapt WireError.stream r

namespace Message

def keyAddressing : Nat := 0

def putContext (o : Output) (context : ServiceContext) : Output :=
  (o.putUInt32 context.id).putOctets context.data

def putContexts (o : Output) (contexts : List ServiceContext) : Output :=
  contexts.foldl putContext (o.putWord 4 contexts.length)

def putPayload (o : Output) (payload : Octets) : Output :=
  if payload.isEmpty then o else (o.align 8).append payload

def putRequest (o : Output) (r : Request) : Output :=
  let o := (o.putUInt32 r.id).append [if r.responseExpected then 3 else 0, 0, 0, 0]
  let o := ((o.putWord 2 keyAddressing).putOctets r.key).putString r.operation
  putPayload (putContexts o r.contexts) r.body

def putReply (o : Output) (r : Reply) : Output :=
  putPayload (putContexts ((o.putUInt32 r.id).putUInt32 r.status.code) r.contexts) r.body

def putBody (o : Output) : Message → Output
  | .request r => putRequest o r
  | .reply r => putReply o r
  | .cancelRequest id => o.putUInt32 id
  | .locateRequest id key => ((o.putUInt32 id).putWord 2 keyAddressing).putOctets key
  | .locateReply id status => (o.putUInt32 id).putUInt32 status.code
  | .closeConnection => o
  | .messageError => o
  | .fragment id _ data => (o.putUInt32 id).append data

def body (m : Message) (order : ByteOrder) : Octets :=
  (putBody { order, origin := Header.size } m).octets

def header (m : Message) (order : ByteOrder) : Header :=
  let h := Header.make m.kind order (m.body order).length
  match m with
  | .fragment _ more _ => h.withMore more
  | _ => h

def encode (m : Message) (order : ByteOrder) : Octets :=
  (m.header order).encode ++ m.body order

def getContext : Reading WireError ServiceContext := do
  let id ← Reading.uint32
  let data ← Reading.octets
  pure { id, data }

def getContexts : Reading WireError (List ServiceContext) := do
  let count ← Reading.word 4
  if (← get).remaining / 8 < count then
    throw (.invalid s!"service context count {count} exceeds message")
  Reading.many getContext count

def getPayload : Reading WireError Octets := do
  if (← get).isEmpty then
    pure []
  else
    Reading.align 8
    Reading.rest

def getAddressing : Reading WireError Unit := do
  let disposition ← Reading.word 2
  if disposition ≠ keyAddressing then
    throw (.badAddressing (UInt16.ofNat disposition).toInt16)

def getRequest : Reading WireError Request := do
  let id ← Reading.uint32
  let flags ← Reading.octet
  let _ ← Reading.raw 3
  getAddressing
  let key ← Reading.octets
  let operation ← Reading.string
  let contexts ← getContexts
  let body ← getPayload
  pure { id, responseExpected := flags &&& 1 ≠ 0, key, operation, contexts, body }

def getReply : Reading WireError Reply := do
  let id ← Reading.uint32
  let code ← Reading.uint32
  match ReplyStatus.ofCode? code with
  | none => throw (.badReplyStatus code)
  | some status =>
    let contexts ← getContexts
    let body ← getPayload
    pure { id, status, contexts, body }

def getLocateReply : Reading WireError Message := do
  let id ← Reading.uint32
  let code ← Reading.uint32
  match LocateStatus.ofCode? code with
  | none => throw (.badLocateStatus code)
  | some status => pure (.locateReply id status)

def getLocateRequest : Reading WireError Message := do
  let id ← Reading.uint32
  getAddressing
  let key ← Reading.octets
  pure (.locateRequest id key)

def getFragment (more : Bool) : Reading WireError Message := do
  let id ← Reading.uint32
  let data ← Reading.rest
  pure (.fragment id more data)

def getBody (h : Header) : Reading WireError Message :=
  match h.kind with
  | .request => .request <$> getRequest
  | .reply => .reply <$> getReply
  | .cancelRequest => do return .cancelRequest (← Reading.uint32)
  | .locateRequest => getLocateRequest
  | .locateReply => getLocateReply
  | .closeConnection => pure .closeConnection
  | .messageError => pure .messageError
  | .fragment => getFragment h.more

def decodeBody (h : Header) (body : Octets) : Except WireError Message :=
  if h.more && h.kind ≠ .fragment then .error .unassembled
  else (Reading.run (getBody h) { order := h.order, position := Header.size, rest := body }).1

/-- The outcome of reading a message from octets that may not hold it whole. -/
inductive Decoded where
  | complete (message : Message) (order : ByteOrder) (consumed : Nat)
  | incomplete (needed : Nat)
  deriving DecidableEq, Repr

def decode (octets : Octets) : Except WireError Decoded :=
  if octets.length < Header.size then .ok (.incomplete (Header.size - octets.length))
  else do
    let h ← Header.decode octets
    if octets.length < h.frameLength then
      return .incomplete (h.frameLength - octets.length)
    let message ← decodeBody h ((octets.take h.frameLength).drop Header.size)
    return .complete message h.order h.frameLength

end Message

end ObjectBroker
