import ObjectBroker.Proofs.Naming.Call

/-!
The room that naming calls take on the wire. What a table can be asked for is bounded by what was
put into it, so that a bound on all messages of a run can be told from the calls alone.
-/

namespace ObjectBroker

namespace NameComponent

lemma length_escape_le (text : String) :
    ((escape text).flatMap String.utf8EncodeChar).length ≤ 2 * (Utf8.encode text).length := by
  rw [escape, Utf8.encode]
  induction text.toList with
  | nil => rfl
  | cons c cs ih =>
    have hc : 1 ≤ (String.utf8EncodeChar c).length := by
      rw [String.length_utf8EncodeChar]
      exact c.utf8Size_pos
    have hslash : (String.utf8EncodeChar '\\').length = 1 := by decide
    rw [List.flatMap_cons, List.flatMap_append, List.flatMap_cons, List.length_append,
      List.length_append]
    split
    · simp only [List.flatMap_cons, List.flatMap_nil, List.append_nil, List.length_append]
      omega
    · simp only [List.flatMap_cons, List.flatMap_nil, List.append_nil]
      omega

lemma length_chars_le (c : NameComponent) :
    (c.chars.flatMap String.utf8EncodeChar).length ≤ 2 * c.size + 1 := by
  have hid := length_escape_le c.id
  have hkind := length_escape_le c.kind
  have hdot : (String.utf8EncodeChar '.').length = 1 := by decide
  rw [chars, size]
  split
  · omega
  · rw [List.flatMap_append, List.flatMap_cons, List.length_append, List.length_append]
    omega

end NameComponent

namespace Name

lemma length_text_le (n : Name) : (Utf8.encode n.text).length ≤ 2 * n.size + 2 * n.length := by
  rw [text, Utf8.encode, String.toList_ofList]
  induction n with
  | nil => rfl
  | cons c n ih =>
    have hc := c.length_chars_le
    have hslash : (String.utf8EncodeChar '/').length = 1 := by decide
    cases n with
    | nil =>
      rw [List.map_singleton, List.intercalate_singleton, size, List.map_singleton,
        List.sum_singleton, List.length_singleton]
      omega
    | cons d n =>
      rw [List.map_cons, size] at ih
      rw [List.map_cons, List.map_cons, List.intercalate_cons_cons, List.flatMap_append,
        List.flatMap_append, List.flatMap_singleton, List.length_append, List.length_append, size,
        List.map_cons, List.sum_cons, List.length_cons]
      omega

end Name

namespace NamingContext

def bindingRoom (x : Name × Reference) : Nat :=
  64 + 16 * x.1.length + x.1.size + x.2.size

def room (table : NamingContext) : Nat :=
  (table.bindings.map bindingRoom).sum

lemma length_put_le (o : Output) (x : Name × Reference) :
    (put o x).length ≤ o.length + bindingRoom x := by
  have hname := Name.length_put_le o x.1
  have hobject := Reference.length_put_le (Name.put o x.1) x.2
  rw [put, bindingRoom]
  omega

lemma length_putList_le (o : Output) (entries : List (Name × Reference)) :
    (putList o entries).length ≤ o.length + 7 + (entries.map bindingRoom).sum := by
  have hfold : ∀ o : Output, (entries.foldl put o).length ≤
      o.length + (entries.map bindingRoom).sum := by
    induction entries with
    | nil => exact fun o => Nat.le_refl _
    | cons x entries ih =>
      intro o
      have hfirst := length_put_le o x
      have hrest := ih (put o x)
      rw [List.foldl_cons, List.map_cons, List.sum_cons]
      omega
  have hword := o.length_putWord_le 4 entries.length
  have hentries := hfold (o.putWord 4 entries.length)
  rw [putList]
  omega

end NamingContext

namespace NamingCall

def room : NamingCall → Nat
  | .bind name object | .rebind name object =>
    64 + 16 * name.length + 2 * name.size + object.size
  | .resolve name | .unbind name => 64 + 16 * name.length + 2 * name.size
  | .list => 64

lemma room_seen (home : Endpoint) (call : NamingCall) : (call.seen home).room = call.room := by
  cases call with
  | bind name object => rw [seen, room, room, Reference.size_seen]
  | rebind name object => rw [seen, room, room, Reference.size_seen]
  | _ => rfl

lemma length_put_le (o : Output) (call : NamingCall) :
    (call.put o).length ≤ o.length + call.room := by
  cases call with
  | bind name object | rebind name object =>
    have hname := Name.length_put_le o name
    have hobject := Reference.length_put_le (Name.put o name) object
    rw [put, room]
    omega
  | resolve name | unbind name =>
    have hname := Name.length_put_le o name
    rw [put, room]
    omega
  | list => exact Nat.le_add_right _ _

end NamingCall

namespace NamingContext

variable {table table' : NamingContext} {call : NamingCall} {a : NamingAnswer} {e : BrokerError}

lemma length_answer_le (h : table.perform call = .ok (a, table')) (o : Output) :
    (a.put o).length ≤ o.length + 7 + table.room := by
  cases performs_of_eq h with
  | bind object hn hg | rebind object hn | unbind hg =>
    rw [NamingAnswer.put]
    omega
  | @resolve name r hg =>
    have hmem : (name, r) ∈ table.bindings := Marshaller.mem_of_lookup hg
    have hroom : bindingRoom (name, r) ≤ table.room :=
      List.single_le_sum (fun _ _ => Nat.zero_le _) _ (List.mem_map_of_mem hmem)
    have hput := Reference.length_put_le o r
    rw [bindingRoom] at hroom
    rw [NamingAnswer.put]
    dsimp only at hroom
    omega
  | list => exact length_putList_le o table.bindings

lemma length_refusal_le (h : table.perform call = .error e) :
    ∃ x, e = .user x ∧ ∀ o, (UserException.put o x).length ≤ o.length + 80 + call.room := by
  have hids : (Utf8.encode notFoundId).length ≤ 64 ∧ (Utf8.encode alreadyBoundId).length ≤ 64 ∧
      (Utf8.encode invalidNameId).length ≤ 64 := by decide +kernel
  have hput : ∀ (id : String) (name : Name), (Utf8.encode id).length ≤ 64 →
      2 * name.size + 2 * name.length ≤ call.room → ∀ o,
      (UserException.put o { id, message := name.text }).length ≤ o.length + 80 + call.room := by
    intro id name hid hname o
    have htext := name.length_text_le
    have hlength := UserException.length_put_le o { id, message := name.text }
    dsimp only at hlength
    omega
  cases performs_of_eq h with
  | bind_bound object hg => exact ⟨_, rfl, hput _ _ hids.2.1 (by rw [NamingCall.room]; omega)⟩
  | bind_empty object | rebind_empty object =>
    exact ⟨_, rfl, hput _ _ hids.2.2 (by rw [NamingCall.room]; omega)⟩
  | resolve_missing hg | unbind_missing hg =>
    exact ⟨_, rfl, hput _ _ hids.1 (by rw [NamingCall.room]; omega)⟩

lemma length_reply_le (b : Broker) (call : NamingCall) (table : NamingContext) :
    (table.reply b call).2.length ≤ 80 + table.room + call.room := by
  rw [reply]
  cases hperform : table.perform (call.seen b.endpoint) with
  | error e =>
    obtain ⟨x, rfl, hput⟩ := length_refusal_le hperform
    have hlength := hput { order := b.config.order }
    rw [call.room_seen, ← Output.length_octets] at hlength
    have hbody : (Dispatch.encode b (.error (.user x)) b.marshaller).2 =
        (UserException.put { order := b.config.order } x).octets := rfl
    have hempty : ({ order := b.config.order } : Output).length = 0 := rfl
    dsimp only
    rw [hbody]
    omega
  | ok result =>
    have hlength := length_answer_le hperform { order := b.config.order }
    rw [← Output.length_octets] at hlength
    have hbody : (b.marshaller.put (result.1.put ·)).octets =
        (result.1.put { order := b.config.order }).octets := rfl
    have hempty : ({ order := b.config.order } : Output).length = 0 := rfl
    dsimp only
    rw [hbody]
    omega

end NamingContext

end ObjectBroker
