import ObjectBroker.Proofs.Message.RoundTrip

/-! What reading a body can come to: a message of the kind that its header tells, or a refusal that
is never about its length. -/

namespace ObjectBroker

namespace Reading

variable {ε ε' α β : Type} {P : α → Prop} {R : β → Prop} {E : ε → Prop}

def Ends (r : Reading ε α) (P : α → Prop) (E : ε → Prop) : Prop :=
  ∀ i, (∀ a, (r.run i).1 = .ok a → P a) ∧ ∀ e, (r.run i).1 = .error e → E e

namespace Ends

lemma pure {a : α} (ha : P a) : Ends (pure a : Reading ε α) P E := by
  refine fun i => ⟨fun b hb => ?_, fun e he => by cases he⟩
  cases hb
  exact ha

lemma throw {e : ε} (he : E e) : Ends (throw e : Reading ε α) P E := by
  refine fun i => ⟨fun a ha => (by cases ha), fun e' he' => ?_⟩
  cases he'
  exact he

lemma get : Ends (get : Reading ε Input) (fun _ => True) E :=
  fun _ => ⟨fun _ _ => trivial, fun _ he => by cases he⟩

lemma bind {r : Reading ε α} {f : α → Reading ε β} (hr : Ends r P E)
    (hf : ∀ a, P a → Ends (f a) R E) : Ends (r >>= f) R E := by
  intro i
  obtain ⟨hok, herror⟩ := hr i
  rw [run_bind]
  rcases h : r.run i with ⟨e | a, j⟩
  · rw [h] at herror
    refine ⟨fun b hb => (by cases hb), fun e' he' => ?_⟩
    cases he'
    exact herror e rfl
  · rw [h] at hok
    exact hf a (hok a rfl) j

lemma map {r : Reading ε α} {f : α → β} (hr : Ends r P E) (hf : ∀ a, P a → R (f a)) :
    Ends (f <$> r) R E := by
  rw [map_eq_pure_bind]
  exact hr.bind fun a ha => .pure (hf a ha)

lemma adapt (r : Reading ε α) {f : ε → ε'} {E : ε' → Prop} (hf : ∀ e, E (f e)) :
    Ends (ExceptT.adapt f r) (fun _ => True) E := by
  refine fun i => ⟨fun _ _ => trivial, fun e he => ?_⟩
  rw [run_adapt] at he
  cases h : (r.run i).1 with
  | error e' =>
    rw [h] at he
    cases he
    exact hf e'
  | ok a =>
    rw [h] at he
    cases he

lemma many {r : Reading ε α} (hr : Ends r (fun _ => True) E) (n : Nat) :
    Ends (many r n) (fun _ => True) E := by
  induction n with
  | zero => exact .pure trivial
  | succ n ih => exact hr.bind fun _ _ => ih.bind fun _ _ => .pure trivial

end Ends

end Reading

namespace Message

open Reading

def IsContent (e : WireError) : Prop :=
  ∀ size limit, e ≠ .tooLarge size limit

variable {α : Type}

lemma ends_stream (r : Reading StreamError α) :
    Ends (ExceptT.adapt WireError.stream r) (fun _ => True) IsContent :=
  .adapt r fun _ _ _ he => by cases he

lemma ends_getContexts : Ends getContexts (fun _ => True) IsContent := by
  have hcontext : Ends getContext (fun _ => True) IsContent :=
    (ends_stream uint32).bind fun _ _ => (ends_stream octets).bind fun _ _ => .pure trivial
  refine (ends_stream (word 4)).bind fun count _ => Ends.get.bind fun i _ => ?_
  split
  · exact Ends.bind (P := fun _ => True) (.throw fun _ _ he => by cases he) fun _ _ =>
      hcontext.many count
  · exact hcontext.many count

lemma ends_getPayload : Ends getPayload (fun _ => True) IsContent := by
  refine Ends.get.bind fun i _ => ?_
  split
  · exact .pure trivial
  · exact (ends_stream (align 8)).bind fun _ _ => ends_stream rest

lemma ends_getAddressing : Ends getAddressing (fun _ => True) IsContent := by
  refine (ends_stream (word 2)).bind fun disposition _ => ?_
  split
  · exact .throw fun _ _ he => by cases he
  · exact .pure trivial

lemma ends_getRequest : Ends getRequest (fun _ => True) IsContent := by
  refine (ends_stream uint32).bind fun id _ => (ends_stream octet).bind fun flags _ =>
    (ends_stream (raw 3)).bind fun _ _ => ends_getAddressing.bind fun _ _ => ?_
  refine (ends_stream octets).bind fun key _ => (ends_stream string).bind fun operation _ => ?_
  exact ends_getContexts.bind fun contexts _ => ends_getPayload.bind fun body _ => .pure trivial

lemma ends_getReply : Ends getReply (fun _ => True) IsContent := by
  refine (ends_stream uint32).bind fun id _ => (ends_stream uint32).bind fun code _ => ?_
  cases ReplyStatus.ofCode? code with
  | none => exact .throw fun _ _ he => by cases he
  | some status =>
    exact ends_getContexts.bind fun contexts _ => ends_getPayload.bind fun body _ => .pure trivial

lemma ends_getLocateReply : Ends getLocateReply (·.kind = .locateReply) IsContent := by
  refine (ends_stream uint32).bind fun id _ => (ends_stream uint32).bind fun code _ => ?_
  cases LocateStatus.ofCode? code with
  | none => exact .throw fun _ _ he => by cases he
  | some status => exact .pure rfl

lemma ends_getBody (h : Header) : Ends (getBody h) (·.kind = h.kind) IsContent := by
  rw [getBody]
  cases h.kind with
  | request => exact ends_getRequest.map fun _ _ => rfl
  | reply => exact ends_getReply.map fun _ _ => rfl
  | cancelRequest => exact (ends_stream uint32).bind fun _ _ => .pure rfl
  | locateRequest =>
    exact (ends_stream uint32).bind fun _ _ => ends_getAddressing.bind fun _ _ =>
      (ends_stream octets).bind fun _ _ => .pure rfl
  | locateReply => exact ends_getLocateReply
  | closeConnection => exact .pure rfl
  | messageError => exact .pure rfl
  | fragment =>
    exact (ends_stream uint32).bind fun _ _ => (ends_stream rest).bind fun _ _ => .pure rfl

variable {h : Header} {body : Octets}

lemma kind_of_decodeBody {m : Message} (hm : decodeBody h body = .ok m) : m.kind = h.kind := by
  rw [decodeBody] at hm
  split at hm
  · cases hm
  · exact (ends_getBody h _).1 m hm

lemma not_more_of_decodeBody {m : Message} (hm : decodeBody h body = .ok m)
    (hk : m.kind ≠ .fragment) : h.more = false := by
  rw [kind_of_decodeBody hm] at hk
  rw [decodeBody] at hm
  split at hm
  · cases hm
  · next hmore => simpa [hk] using hmore

lemma isContent_of_decodeBody {e : WireError} (he : decodeBody h body = .error e) :
    IsContent e := by
  rw [decodeBody] at he
  split at he
  · cases he
    exact fun _ _ h => by cases h
  · exact (ends_getBody h _).2 e he

end Message

end ObjectBroker
