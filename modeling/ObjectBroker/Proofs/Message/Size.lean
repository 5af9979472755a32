import Mathlib.Algebra.GroupWithZero.Nat
import ObjectBroker.Proofs.Message.RoundTrip

/-!
How long a request or a reply can get: what it carries, and a little more for every part.
-/

namespace ObjectBroker

namespace Message

def contextRoom (contexts : List ServiceContext) : Nat :=
  (contexts.map fun c => 14 + c.data.length).sum

lemma length_putContexts_le (o : Output) (contexts : List ServiceContext) :
    (putContexts o contexts).length ≤ o.length + 7 + contextRoom contexts := by
  have hfold : ∀ o : Output, (contexts.foldl putContext o).length ≤
      o.length + contextRoom contexts := by
    induction contexts with
    | nil => exact fun o => Nat.le_refl _
    | cons c contexts ih =>
      intro o
      have hid := o.length_putWord_le 4 c.id.toNat
      have hdata := (o.putUInt32 c.id).length_putOctets_le c.data
      have hrest := ih (putContext o c)
      simp only [Output.putUInt32] at hdata
      simp only [putContext, Output.putUInt32] at hrest
      simp only [List.foldl_cons, contextRoom, List.map_cons, List.sum_cons, putContext,
        Output.putUInt32] at hrest ⊢
      omega
  have hword := o.length_putWord_le 4 contexts.length
  have hcontexts := hfold (o.putWord 4 contexts.length)
  rw [putContexts]
  omega

lemma length_putPayload_le (o : Output) (payload : Octets) :
    (putPayload o payload).length ≤ o.length + 7 + payload.length := by
  rw [putPayload]
  split
  · omega
  · have halign := o.length_align_le 8
    rw [Output.length_append]
    omega

lemma length_request_le (r : Request) (order : ByteOrder) :
    (encode (.request r) order).length ≤
      55 + r.key.length + (Utf8.encode r.operation).length + contextRoom r.contexts +
        r.body.length := by
  let o₀ : Output := { order, origin := Header.size }
  let o₁ := (o₀.putUInt32 r.id).append [if r.responseExpected then 3 else 0, 0, 0, 0]
  let o₂ := (o₁.putWord 2 keyAddressing).putOctets r.key
  let o₃ := o₂.putString r.operation
  let o₄ := putContexts o₃ r.contexts
  have h₁ : o₁.length ≤ 11 := by
    have hword := o₀.length_putWord_le 4 r.id.toNat
    have hlength : o₁.length = (o₀.putUInt32 r.id).length + 4 := Output.length_append _ _
    have hempty : o₀.length = 0 := rfl
    rw [Output.putUInt32] at hlength
    omega
  have h₂ : o₂.length ≤ o₁.length + 3 + 7 + r.key.length := by
    have hword := o₁.length_putWord_le 2 keyAddressing
    have hkey := (o₁.putWord 2 keyAddressing).length_putOctets_le r.key
    exact Nat.le_trans hkey (by omega)
  have h₃ : o₃.length ≤ _ := o₂.length_putString_le r.operation
  have h₄ : o₄.length ≤ _ := length_putContexts_le o₃ r.contexts
  have h₅ := length_putPayload_le o₄ r.body
  have hbody : (Message.body (.request r) order).length = (putPayload o₄ r.body).length :=
    Output.length_octets _
  have hsize : Header.size = 12 := rfl
  rw [length_encode, hbody]
  omega

lemma length_reply_le (r : Reply) (order : ByteOrder) :
    (encode (.reply r) order).length ≤ 40 + contextRoom r.contexts + r.body.length := by
  let o₀ : Output := { order, origin := Header.size }
  let o₁ := (o₀.putUInt32 r.id).putUInt32 r.status.code
  let o₂ := putContexts o₁ r.contexts
  have h₁ : o₁.length ≤ 14 := by
    have hword := o₀.length_putWord_le 4 r.id.toNat
    have hstatus := (o₀.putUInt32 r.id).length_putWord_le 4 r.status.code.toNat
    have hempty : o₀.length = 0 := rfl
    simp only [Output.putUInt32] at hstatus
    simp only [Output.putUInt32, o₁]
    omega
  have h₂ : o₂.length ≤ _ := length_putContexts_le o₁ r.contexts
  have h₃ := length_putPayload_le o₂ r.body
  have hbody : (Message.body (.reply r) order).length = (putPayload o₂ r.body).length :=
    Output.length_octets _
  have hsize : Header.size = 12 := rfl
  rw [length_encode, hbody]
  omega

end Message

end ObjectBroker
