import ObjectBroker.Naming.Client
import ObjectBroker.Proofs.Naming.Table

/-!
A naming context as a finite map from names to references. The map is what clients can know of the
context: it does not tell to whom a reference is local.
-/

namespace ObjectBroker

inductive NamingCall where
  | bind (name : Name) (object : Reference)
  | rebind (name : Name) (object : Reference)
  | resolve (name : Name)
  | unbind (name : Name)
  | list
  deriving DecidableEq, Repr

inductive NamingAnswer where
  | done
  | object (reference : Reference)
  | bindings (entries : List (Name × Reference))
  deriving DecidableEq, Repr

abbrev NameMap := Name → Option Reference

namespace NameMap

open NamingContext (refusal invalidNameId alreadyBoundId Ascending)

inductive Does (M : NameMap) :
    NamingCall → Except BrokerError NamingAnswer → NameMap → Prop
  | bind {name : Name} (object : Reference) (hn : name ≠ []) (hm : M name = none) :
    Does M (.bind name object) (.ok .done) (Function.update M name (some object.bare))
  | bind_bound {name : Name} {r : Reference} (object : Reference) (hm : M name = some r) :
    Does M (.bind name object) (.error (refusal alreadyBoundId name)) M
  | bind_empty (object : Reference) :
    Does M (.bind [] object) (.error (refusal invalidNameId [])) M
  | rebind {name : Name} (object : Reference) (hn : name ≠ []) :
    Does M (.rebind name object) (.ok .done) (Function.update M name (some object.bare))
  | rebind_empty (object : Reference) :
    Does M (.rebind [] object) (.error (refusal invalidNameId [])) M
  | resolve {name : Name} {object : Reference} (hm : M name = some object.bare) :
    Does M (.resolve name) (.ok (.object object)) M
  | resolve_missing {name : Name} (hm : M name = none) :
    Does M (.resolve name) (.error (.notFound name.text)) M
  | unbind {name : Name} {r : Reference} (hm : M name = some r) :
    Does M (.unbind name) (.ok .done) (Function.update M name none)
  | unbind_missing {name : Name} (hm : M name = none) :
    Does M (.unbind name) (.error (.notFound name.text)) M
  | list {entries : List (Name × Reference)} (ha : Ascending entries)
    (hm : ∀ name r, M name = some r ↔ ∃ object, (name, object) ∈ entries ∧ object.bare = r) :
    Does M .list (.ok (.bindings entries)) M

/-- Calls with what they give, one after the other. -/
inductive Runs (M : NameMap) :
    List (NamingCall × Except BrokerError NamingAnswer) → NameMap → Prop
  | nil : Runs M [] M
  | snoc {log : List (NamingCall × Except BrokerError NamingAnswer)} {call : NamingCall}
      {r : Except BrokerError NamingAnswer} {M' M'' : NameMap} (h : Runs M log M')
      (hc : Does M' call r M'') : Runs M (log ++ [(call, r)]) M''

end NameMap

def Reference.seen (home : Endpoint) (r : Reference) : Reference :=
  if home = r.endpoint then { r.bare with isLocal := true } else r.bare

def NamingAnswer.seen (home : Endpoint) : NamingAnswer → NamingAnswer
  | .done => .done
  | .object r => .object (r.seen home)
  | .bindings entries => .bindings (entries.map (Prod.map id (Reference.seen home)))

namespace NamingCall

def seen (home : Endpoint) : NamingCall → NamingCall
  | .bind name object => .bind name (object.seen home)
  | .rebind name object => .rebind name (object.seen home)
  | call => call

def report : NamingCall → BrokerError → BrokerError
  | .bind name _ | .rebind name _ | .resolve name | .unbind name => NamingClient.reportMissing name
  | .list => id

end NamingCall

namespace NamingContext

variable {c c' : NamingContext} {call : NamingCall} {a : NamingAnswer} {e : BrokerError}

def perform (c : NamingContext) : NamingCall → Except BrokerError (NamingAnswer × NamingContext)
  | .bind name object => (NamingAnswer.done, ·) <$> c.bind name object
  | .rebind name object => (NamingAnswer.done, ·) <$> c.rebind name object
  | .resolve name => (NamingAnswer.object ·, c) <$> c.resolve name
  | .unbind name => (NamingAnswer.done, ·) <$> c.unbind name
  | .list => .ok (.bindings c.list, c)

inductive Performs (c : NamingContext) :
    NamingCall → Except BrokerError (NamingAnswer × NamingContext) → Prop
  | bind {name : Name} (object : Reference) (hn : name ≠ []) (hg : c.get? name = none) :
    Performs c (.bind name object) (.ok (.done, { bindings := insert name object c.bindings }))
  | bind_bound {name : Name} {r : Reference} (object : Reference) (hg : c.get? name = some r) :
    Performs c (.bind name object) (.error (refusal alreadyBoundId name))
  | bind_empty (object : Reference) :
    Performs c (.bind [] object) (.error (refusal invalidNameId []))
  | rebind {name : Name} (object : Reference) (hn : name ≠ []) :
    Performs c (.rebind name object) (.ok (.done, { bindings := insert name object c.bindings }))
  | rebind_empty (object : Reference) :
    Performs c (.rebind [] object) (.error (refusal invalidNameId []))
  | resolve {name : Name} {r : Reference} (hg : c.get? name = some r) :
    Performs c (.resolve name) (.ok (.object r, c))
  | resolve_missing {name : Name} (hg : c.get? name = none) :
    Performs c (.resolve name) (.error (refusal notFoundId name))
  | unbind {name : Name} {r : Reference} (hg : c.get? name = some r) :
    Performs c (.unbind name) (.ok (.done, { bindings := c.bindings.filter (·.1 != name) }))
  | unbind_missing {name : Name} (hg : c.get? name = none) :
    Performs c (.unbind name) (.error (refusal notFoundId name))
  | list : Performs c .list (.ok (.bindings c.bindings, c))

lemma performs (c : NamingContext) (call : NamingCall) : c.Performs call (c.perform call) := by
  cases call with
  | bind name object =>
    cases name with
    | nil => exact .bind_empty object
    | cons first rest =>
      cases hg : c.get? (first :: rest) with
      | none =>
        have hbind : c.bind (first :: rest) object = c.rebind (first :: rest) object := by
          rw [bind, hg]
          rfl
        rw [perform, hbind]
        exact .bind object (List.cons_ne_nil _ _) hg
      | some r =>
        have hbind : c.bind (first :: rest) object =
            .error (refusal alreadyBoundId (first :: rest)) := by
          rw [bind, hg]
          rfl
        rw [perform, hbind]
        exact .bind_bound object hg
  | rebind name object =>
    cases name with
    | nil => exact .rebind_empty object
    | cons first rest => exact .rebind object (List.cons_ne_nil _ _)
  | resolve name =>
    rw [perform, NamingContext.resolve]
    cases hg : c.get? name with
    | none => exact .resolve_missing hg
    | some r => exact .resolve hg
  | unbind name =>
    rw [perform, NamingContext.unbind]
    cases hg : c.get? name with
    | none => exact .unbind_missing hg
    | some r => exact .unbind hg
  | list => exact .list

lemma performs_of_eq {result : Except BrokerError (NamingAnswer × NamingContext)}
    (h : c.perform call = result) : c.Performs call result :=
  h ▸ c.performs call

/-- A table that has come about by calls. -/
structure Sound (c : NamingContext) : Prop where
  ascending : Ascending c.bindings
  named : ∀ x ∈ c.bindings, x.1 ≠ []

lemma Sound.insert (h : c.Sound) {name : Name} (object : Reference) (hn : name ≠ []) :
    Sound { bindings := insert name object c.bindings } where
  ascending := h.ascending.insert name object
  named x hx := by
    rcases mem_insert hx with rfl | hx
    · exact hn
    · exact h.named x hx

lemma Sound.filter (h : c.Sound) (keep : Name × Reference → Bool) :
    Sound { bindings := c.bindings.filter keep } where
  ascending := h.ascending.filter keep
  named x hx := h.named x (List.mem_of_mem_filter hx)

lemma Sound.perform (hc : c.Sound) (h : c.perform call = .ok (a, c')) : c'.Sound := by
  cases performs_of_eq h with
  | bind object hn hg => exact hc.insert object hn
  | rebind object hn => exact hc.insert object hn
  | unbind hg => exact hc.filter _
  | resolve hg => exact hc
  | list => exact hc

end NamingContext

end ObjectBroker
