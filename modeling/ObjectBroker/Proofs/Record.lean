import ObjectBroker.Proofs.Message.Offer
import ObjectBroker.Proofs.Naming.Wire

/-!
Records that travel inside messages: names, exceptions and offers of bidirectional use. Wherever a
record is written and whatever follows it, it is read as it was.
-/

namespace ObjectBroker

def Reading.ReadsBack {ε α : Type} (r : Reading ε α) (put : Output → α → Output) : Prop :=
  ∀ (a : α) (order : ByteOrder) (origin : Nat) (rest : Octets),
    let written := put { order, origin } a
    written.length < 2 ^ 32 →
      r.run { order, position := origin, rest := written.octets ++ rest } =
        (.ok a, { order, position := written.position, rest })

lemma Reading.ReadsBack.of_recovers {ε α : Type} {r : Reading ε α} {put : Output → α → Output}
    (h : ∀ o a, (put o a).length < 2 ^ 32 → r.Recovers o (put o a) a) : r.ReadsBack put :=
  fun a _ _ rest hl => (h _ a hl).run_octets rest

lemma SystemKind.ofRepositoryId?_repositoryId (kind : SystemKind) :
    ofRepositoryId? kind.repositoryId = some kind := by
  cases kind <;> decide +kernel

namespace SystemException

lemma recovers_read_put (o : Output) (x : SystemException) (h : (put o x).length < 2 ^ 32) :
    read.Recovers o (put o x) x := by
  let o₁ := o.putString x.kind.repositoryId
  let o₂ := o₁.putUInt32 x.minor
  have hid : o.length + 5 + (Utf8.encode x.kind.repositoryId).length ≤ o₁.length :=
    o.length_le_putString _
  have hminor : o₁.length + 4 ≤ o₂.length := o₁.length_le_putWord 4 _
  have hcompleted : o₂.length + 4 ≤ (put o x).length := o₂.length_le_putWord 4 _
  refine (Reading.recovers_string o x.kind.repositoryId (by omega)).bind ?_
  refine (Reading.recovers_uint32 o₁ x.minor).bind ?_
  refine (Reading.recovers_uint32 o₂ x.completed.code).bind ?_
  rw [SystemKind.ofRepositoryId?_repositoryId, Completion.ofCode_code]
  exact .pure _ x

end SystemException

/-- Names and exceptions are read back in any order of octets. Among contexts, an offer is found
exactly where there is one, with the points of the first. -/
theorem records_read_back :
    Name.read.ReadsBack Name.put ∧
    SystemException.read.ReadsBack SystemException.put ∧
    UserException.read.ReadsBack UserException.put ∧
    (∀ contexts, Bidirectional.find contexts = .ok none ↔
      ∀ c ∈ contexts, c.id ≠ Bidirectional.contextId) ∧
    ∀ before points order after, (∀ c ∈ before, c.id ≠ Bidirectional.contextId) →
      (Bidirectional.offer points order).data.length < 2 ^ 32 →
        Bidirectional.find (before ++ Bidirectional.offer points order :: after) =
          .ok (some points) :=
  ⟨.of_recovers Name.recovers_read_put, .of_recovers SystemException.recovers_read_put,
    .of_recovers UserException.recovers_read_put, fun _ => Bidirectional.find_eq_none_iff,
    fun _ points order after hbefore => Bidirectional.find_append_offer hbefore points order after⟩

theorem records_read_back_sample :
    let name : Name := [{ id := "", kind := "" }, { id := "hé", kind := "k.1" }]
    let written := Name.put { order := .littleEndian, origin := 13 } name
    let points : List Endpoint := [{ host := "orb-1", port := 0 }, { host := "h", port := 2809 }]
    let other : ServiceContext := { id := 1, data := [0, 0] }
    written.length < 2 ^ 32 ∧
      Name.read.run { order := .littleEndian, position := 13, rest := written.octets ++ [10, 0] } =
        (.ok name, { order := .littleEndian, position := written.position, rest := [10, 0] }) ∧
      (Bidirectional.offer points .bigEndian).data.length < 2 ^ 32 ∧
      Bidirectional.find [other, Bidirectional.offer points .bigEndian,
        Bidirectional.offer [] .littleEndian] = .ok (some points) := by
  intro name written points other
  have hname : written.length < 2 ^ 32 := by decide +kernel
  have hoffer : (Bidirectional.offer points .bigEndian).data.length < 2 ^ 32 := by decide +kernel
  have hother : ∀ c ∈ [other], c.id ≠ Bidirectional.contextId := by decide
  obtain ⟨hread, -, -, -, hfind⟩ := records_read_back
  exact ⟨hname, hread name .littleEndian 13 [10, 0] hname, hoffer,
    hfind [other] points .bigEndian [Bidirectional.offer [] .littleEndian] hother hoffer⟩

end ObjectBroker
