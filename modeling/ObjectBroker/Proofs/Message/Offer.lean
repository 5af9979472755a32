import ObjectBroker.Message.Bidirectional
import ObjectBroker.Proofs.Message.Canonical
import ObjectBroker.Proofs.Reference
import ObjectBroker.Transport.Reader

/-! Offers of bidirectional use come back from the requests that carry them. What a reader takes
from the wire was short enough to be written there, so nothing has to be asked of its sender. -/

namespace ObjectBroker

namespace Bidirectional

open Reading

lemma recovers_getPoint (o : Output) (e : Endpoint) (h : (Utf8.encode e.host).length + 1 < 2 ^ 32) :
    getPoint.Recovers o (putPoint o e) e :=
  (recovers_string o e.host h).bind ((recovers_uint16 _ e.port).bind (.pure _ _))

lemma recovers_getPoints (o : Output) (es : List Endpoint) (hl : es.length < 2 ^ 32)
    (h : ∀ e ∈ es, (Utf8.encode e.host).length + 1 < 2 ^ 32) :
    getPoints.Recovers o (es.foldl putPoint (o.putWord 4 es.length)) es :=
  (recovers_word o 4 es.length hl).bind
    (.many es _ fun e he o => recovers_getPoint o e (h e he))

lemma length_foldl_putPoint (o : Output) (es : List Endpoint) :
    o.length + es.length ≤ (es.foldl putPoint o).length ∧
      ∀ e ∈ es, o.length + (Utf8.encode e.host).length + 5 ≤ (es.foldl putPoint o).length := by
  induction es generalizing o with
  | nil => exact ⟨Nat.le_refl _, fun e he => absurd he List.not_mem_nil⟩
  | cons e es ih =>
    have hhost := o.length_le_putString e.host
    have hport := (o.putString e.host).length_le_putWord 2 e.port.toNat
    have hpoint : o.length + (Utf8.encode e.host).length + 7 ≤ (putPoint o e).length := by
      rw [putPoint, Output.putUInt16]
      omega
    obtain ⟨hcount, hhosts⟩ := ih (putPoint o e)
    rw [List.foldl_cons, List.length_cons]
    refine ⟨by omega, fun e' he' => ?_⟩
    rcases List.mem_cons.mp he' with rfl | he'
    · omega
    · have := hhosts e' he'
      omega

lemma points_offer (es : List Endpoint) (order : ByteOrder)
    (h : (offer es order).data.length < 2 ^ 32) : points (offer es order) = .ok es := by
  let start := (Output.encapsulation order).putWord 4 es.length
  obtain ⟨hcount, hhosts⟩ := length_foldl_putPoint start es
  have hdata : (es.foldl putPoint start).length < 2 ^ 32 := by rwa [← Output.length_octets]
  obtain ⟨x, hx, hr⟩ := recovers_getPoints (.encapsulation order) es (by omega)
    fun e he => by have := hhosts e he; omega
  have hread := hr []
  rw [List.append_nil] at hread
  rw [points, offer]
  dsimp only
  rw [hx, Input.encapsulation_append]
  dsimp only
  rw [hread]
  rfl

lemma find?_eq_none_iff {contexts : List ServiceContext} :
    contexts.find? (·.id == contextId) = none ↔ ∀ c ∈ contexts, c.id ≠ contextId := by
  simp

lemma find_eq_none_iff {contexts : List ServiceContext} :
    find contexts = .ok none ↔ ∀ c ∈ contexts, c.id ≠ contextId := by
  rw [← find?_eq_none_iff, find]
  cases contexts.find? (·.id == contextId) with
  | none => exact ⟨fun _ => rfl, fun _ => rfl⟩
  | some c =>
    dsimp only
    cases points c with
    | error e => exact ⟨fun h => (by cases h), fun h => (by cases h)⟩
    | ok es => exact ⟨fun h => (by cases h), fun h => (by cases h)⟩

lemma find_append_offer {before : List ServiceContext} (hb : ∀ c ∈ before, c.id ≠ contextId)
    (es : List Endpoint) (order : ByteOrder) (after : List ServiceContext)
    (h : (offer es order).data.length < 2 ^ 32) :
    find (before ++ offer es order :: after) = .ok (some es) := by
  have hfirst : (before ++ offer es order :: after).find? (·.id == contextId) =
      some (offer es order) := by
    rw [List.find?_append, find?_eq_none_iff.mpr hb]
    rfl
  rw [find, hfirst]
  dsimp only
  rw [points_offer es order h]
  rfl

lemma find_offer (e : Endpoint) (order : ByteOrder) (h : (offer [e] order).data.length < 2 ^ 32) :
    find [offer [e] order] = .ok (some [e]) :=
  find_append_offer (fun _ hc => absurd hc List.not_mem_nil) [e] order [] h

end Bidirectional

namespace Message

open Reading

variable {i j : Input}

lemma length_data_lt_of_getContext {c : ServiceContext} (h : getContext.run i = (.ok c, j)) :
    c.data.length < 2 ^ 32 := by
  obtain ⟨id, k, hid, hrest⟩ := of_run_bind h
  obtain ⟨data, k', hdata, hpure⟩ := of_run_bind hrest
  obtain ⟨rfl, rfl⟩ := of_run_pure hpure
  exact length_lt_of_run_octets (of_run_adapt hdata)

lemma length_data_lt_of_getContexts {cs : List ServiceContext}
    (h : getContexts.run i = (.ok cs, j)) : ∀ c ∈ cs, c.data.length < 2 ^ 32 := by
  obtain ⟨n, k, hcount, hrest⟩ := of_run_bind h
  obtain ⟨i', k', hget, hmany⟩ := of_run_bind hrest
  cases hget
  dsimp only at hmany
  split at hmany
  · cases hmany
  · intro c hc
    obtain ⟨i'', j', hcontext⟩ := of_run_many hmany c hc
    exact length_data_lt_of_getContext hcontext

lemma length_data_lt_of_getRequest {r : Request} (h : getRequest.run i = (.ok r, j)) :
    ∀ c ∈ r.contexts, c.data.length < 2 ^ 32 := by
  obtain ⟨id, k₁, hid, h₁⟩ := of_run_bind h
  obtain ⟨flags, k₂, hflags, h₂⟩ := of_run_bind h₁
  obtain ⟨reserved, k₃, hreserved, h₃⟩ := of_run_bind h₂
  obtain ⟨u, k₄, haddress, h₄⟩ := of_run_bind h₃
  obtain ⟨key, k₅, hkey, h₅⟩ := of_run_bind h₄
  obtain ⟨operation, k₆, hoperation, h₆⟩ := of_run_bind h₅
  obtain ⟨contexts, k₇, hcontexts, h₇⟩ := of_run_bind h₆
  obtain ⟨body, k₈, hbody, h₈⟩ := of_run_bind h₇
  obtain ⟨rfl, rfl⟩ := of_run_pure h₈
  exact length_data_lt_of_getContexts hcontexts

lemma getRequest_of_getBody {h : Header} {r : Request}
    (hr : (getBody h).run i = (.ok (.request r), j)) : getRequest.run i = (.ok r, j) := by
  rw [getBody] at hr
  cases hk : h.kind with
  | request =>
    rw [hk] at hr
    obtain ⟨r', hread, hr'⟩ := of_run_map hr
    cases hr'
    exact hread
  | reply =>
    rw [hk] at hr
    obtain ⟨_, _, hm⟩ := of_run_map hr
    cases hm
  | closeConnection | messageError =>
    rw [hk] at hr
    cases hr
  | cancelRequest =>
    rw [hk] at hr
    obtain ⟨id, k, hid, hpure⟩ := of_run_bind hr
    cases hpure
  | locateRequest =>
    rw [hk] at hr
    obtain ⟨id, k₁, hid, h₁⟩ := of_run_bind hr
    obtain ⟨u, k₂, haddress, h₂⟩ := of_run_bind h₁
    obtain ⟨key, k₃, hkey, hpure⟩ := of_run_bind h₂
    cases hpure
  | locateReply =>
    rw [hk] at hr
    obtain ⟨id, k₁, hid, h₁⟩ := of_run_bind hr
    obtain ⟨code, k₂, hcode, h₂⟩ := of_run_bind h₁
    cases hs : LocateStatus.ofCode? code with
    | none =>
      rw [hs] at h₂
      cases h₂
    | some status =>
      rw [hs] at h₂
      cases h₂
  | fragment =>
    rw [hk] at hr
    obtain ⟨id, k₁, hid, h₁⟩ := of_run_bind hr
    obtain ⟨data, k₂, hdata, hpure⟩ := of_run_bind h₁
    cases hpure

lemma length_data_lt_of_decodeBody {h : Header} {octets : Octets} {r : Request}
    (hr : decodeBody h octets = .ok (.request r)) : ∀ c ∈ r.contexts, c.data.length < 2 ^ 32 := by
  rw [decodeBody] at hr
  split at hr
  · cases hr
  · let i : Input := { order := h.order, position := Header.size, rest := octets }
    have hbody : (getBody h).run i = (.ok (.request r), ((getBody h).run i).2) := Prod.ext hr rfl
    exact length_data_lt_of_getRequest (getRequest_of_getBody hbody)

end Message

namespace Reader

lemma decodeBody_of_accept {r : Reader} {header : Header} {body : Octets} {m : Message}
    {order : ByteOrder} (h : (r.accept header body).1 = .ok (some (m, order))) :
    ∃ (header : Header) (body : Octets), Message.decodeBody header body = .ok m := by
  rw [accept] at h
  split at h
  · cases h
  · split at h
    · cases h
    · cases h
    · next header body _ _ =>
      cases hm : Message.decodeBody header body with
      | error e =>
        rw [hm] at h
        cases h
      | ok m' =>
        rw [hm] at h
        cases h
        exact ⟨header, body, hm⟩

lemma decodeBody_of_readFrames {r : Reader} {source : Inlet} {fuel : Nat} {m : Message}
    {order : ByteOrder} (h : (r.readFrames source fuel).1 = .done (m, order)) :
    ∃ (header : Header) (body : Octets), Message.decodeBody header body = .ok m := by
  induction fuel generalizing r source with
  | zero => cases h
  | succ fuel ih =>
    rw [readFrames] at h
    split at h
    · cases h
    · cases h
    · split at h
      · cases h
      · next haccept =>
        cases h
        exact decodeBody_of_accept (congrArg Prod.fst haccept)
      · exact ih h

end Reader

end ObjectBroker
