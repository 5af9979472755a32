import ObjectBroker.Stream.Input

/-!
Items of a stream and the queries that read them: everything a stream can hold, nested
encapsulations included.
-/
namespace ObjectBroker

inductive Item where
  | scalar (value : Scalar)
  | string (text : String)
  | octets (data : Octets)
  | raw (data : Octets)
  | align (alignment : Nat)
  | patch (offset : Nat) (value : UInt32)
  | encapsulation (items : List Item)
  deriving Inhabited

mutual

def Item.put : Item → Output → Output
  | .scalar s, o => o.putScalar s
  | .string text, o => o.putString text
  | .octets data, o => o.putOctets data
  | .raw data, o => o.append data
  | .align n, o => o.align n
  | .patch offset n, o => o.patch offset n
  | .encapsulation items, o =>
    o.putOctets (Item.putAll items (.encapsulation o.order)).octets

def Item.putAll : List Item → Output → Output
  | [], o => o
  | item :: items, o => Item.putAll items (item.put o)

end

inductive Query where
  | scalar (kind : ScalarKind)
  | peek
  | string
  | octets
  | raw (count : Nat)
  | rest
  | align (alignment : Nat)
  | encapsulation (queries : List Query)
  deriving Inhabited

/-- What a query gives. Queries inside an encapsulation come with the position and the number of
octets left after each. -/
inductive Answer where
  | scalar (value : Scalar)
  | text (text : String)
  | octets (data : Octets)
  | nothing
  | nested (order : ByteOrder) (answers : List (Except StreamError Answer × Nat × Nat))

mutual

def Query.run : Query → Input → Except StreamError Answer × Input
  | .scalar kind, i => Reading.run (.scalar <$> Reading.scalar kind) i
  | .peek, i =>
    Reading.run ((fun n => .scalar (.uint32 (UInt32.ofNat n))) <$> Reading.peekWord 4) i
  | .string, i => Reading.run (.text <$> Reading.string) i
  | .octets, i => Reading.run (.octets <$> Reading.octets) i
  | .raw n, i => Reading.run (.octets <$> Reading.raw n) i
  | .rest, i => Reading.run (.octets <$> Reading.rest) i
  | .align n, i => Reading.run ((fun _ => .nothing) <$> Reading.align n) i
  | .encapsulation queries, i =>
    match Reading.run Reading.octets i with
    | (.error e, i) => (.error e, i)
    | (.ok data, i) =>
      match Input.encapsulation data with
      | .error e => (.error e, i)
      | .ok inner => (.ok (.nested inner.order (Query.runAll queries inner).1), i)

def Query.runAll : List Query → Input → List (Except StreamError Answer × Nat × Nat) × Input
  | [], i => ([], i)
  | query :: queries, i =>
    let (result, i) := query.run i
    let (results, last) := Query.runAll queries i
    ((result, i.position, i.remaining) :: results, last)

end

end ObjectBroker
