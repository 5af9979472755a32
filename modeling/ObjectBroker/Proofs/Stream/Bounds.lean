import ObjectBroker.Proofs.Stream.Cursor

/-!
Queries stay in their buffer. Whatever was asked before and whatever has failed, a query moves the
offset forward inside the data, and one that fails has passed little more than padding.
-/

namespace ObjectBroker

namespace Reading

variable {α β : Type} {i j : Input} {e : StreamError} {n width : Nat}

lemma of_run_bind_error {r : Reading StreamError α} {f : α → Reading StreamError β}
    (h : Reading.run (r >>= f) i = (.error e, j)) :
    r.run i = (.error e, j) ∨ ∃ a k, r.run i = (.ok a, k) ∧ (f a).run k = (.error e, j) := by
  rw [run_bind] at h
  rcases hr : r.run i with ⟨e' | a, k⟩
  · rw [hr] at h
    cases h
    exact .inl rfl
  · rw [hr] at h
    exact .inr ⟨a, k, rfl, h⟩

lemma of_run_map_error {r : Reading StreamError α} {f : α → β}
    (h : Reading.run (f <$> r) i = (.error e, j)) : r.run i = (.error e, j) := by
  rw [map_eq_pure_bind] at h
  rcases of_run_bind_error h with h | ⟨a, k, -, hpure⟩
  · exact h
  · cases hpure

lemma of_run_peek_error (h : (peek n).run i = (.error e, j)) : j = i := by
  rcases Nat.lt_or_ge i.remaining n with hn | hn
  · rw [run_peek_of_lt hn] at h
    cases h
    rfl
  · rw [run_peek_of_le hn] at h
    cases h

lemma of_run_raw_error (h : (raw n).run i = (.error e, j)) : j = i := by
  rcases Nat.lt_or_ge i.remaining n with hn | hn
  · rw [run_raw_of_lt hn] at h
    cases h
    rfl
  · rw [run_raw_of_le hn] at h
    cases h

lemma run_align (i : Input) (n : Nat) : (align n).run i =
    (do let _ ← raw (padding i.position n); pure () : Reading StreamError Unit).run i := rfl

lemma of_run_align_error (h : (align n).run i = (.error e, j)) : j = i := by
  rw [run_align] at h
  rcases of_run_bind_error h with h | ⟨x, k, -, hpure⟩
  · exact of_run_raw_error h
  · cases hpure

lemma position_of_align {u : Unit} (h : (align n).run i = (.ok u, j)) :
    j.position = i.position + padding i.position n := by
  rw [run_align] at h
  obtain ⟨x, k, hraw, hpure⟩ := of_run_bind h
  obtain ⟨-, rfl⟩ := of_run_pure hpure
  rw [(of_run_raw hraw).2.2]

lemma position_of_word (h : (word width).run i = (.ok n, j)) :
    j.position = i.position + padding i.position width + width := by
  obtain ⟨u, k, halign, hrest⟩ := of_run_bind h
  obtain ⟨x, k', hraw, hvalue⟩ := of_run_bind hrest
  cases hvalue
  rw [(of_run_raw hraw).2.2, ← position_of_align halign]

lemma position_of_align_bind_error {f : Unit → Reading StreamError α}
    (h : Reading.run (align n >>= f) i = (.error e, j))
    (hf : ∀ u k, (f u).run k = (.error e, j) → j = k) :
    j.position ≤ i.position + padding i.position n := by
  rcases of_run_bind_error h with halign | ⟨u, k, halign, hrest⟩
  · rw [of_run_align_error halign]
    exact Nat.le_add_right _ _
  · rw [hf u k hrest]
    exact Nat.le_of_eq (position_of_align halign)

lemma position_of_word_error (h : (word width).run i = (.error e, j)) :
    j.position ≤ i.position + padding i.position width := by
  refine position_of_align_bind_error h fun u k hrest => ?_
  rcases of_run_bind_error hrest with hraw | ⟨x, k', -, hvalue⟩
  · exact of_run_raw_error hraw
  · cases hvalue

lemma position_of_peekWord_error (h : (peekWord width).run i = (.error e, j)) :
    j.position ≤ i.position + padding i.position width := by
  refine position_of_align_bind_error h fun u k hrest => ?_
  rcases of_run_bind_error hrest with hpeek | ⟨x, k', -, hvalue⟩
  · exact of_run_peek_error hpeek
  · cases hvalue

lemma position_of_word_bind_error {f : Nat → Reading StreamError α}
    (h : Reading.run (word width >>= f) i = (.error e, j))
    (hf : ∀ n k, (f n).run k = (.error e, j) → j = k) :
    j.position ≤ i.position + padding i.position width + width := by
  rcases of_run_bind_error h with hword | ⟨n, k, hword, hrest⟩
  · exact Nat.le_add_right_of_le (position_of_word_error hword)
  · rw [hf n k hrest]
    exact Nat.le_of_eq (position_of_word hword)

lemma position_of_octets_error (h : octets.run i = (.error e, j)) :
    j.position ≤ i.position + padding i.position 4 + 4 :=
  position_of_word_bind_error h fun _ _ hraw => of_run_raw_error hraw

lemma position_of_string_error (h : string.run i = (.error e, j)) :
    j.position ≤ i.position + padding i.position 4 + 4 := by
  refine position_of_word_bind_error h fun n k hrest => ?_
  split at hrest
  · cases hrest
    rfl
  · rcases of_run_bind_error hrest with hpeek | ⟨x, k', hpeek, hlast⟩
    · exact of_run_peek_error hpeek
    · -- The text is judged before it is passed.
      obtain ⟨-, -, rfl⟩ := of_run_peek hpeek
      dsimp only at hlast
      split at hlast
      · cases hlast
        rfl
      · cases hd : Utf8.decode x.dropLast with
        | error fault =>
          rw [hd] at hlast
          cases hlast
          rfl
        | ok text =>
          rw [hd] at hlast
          rcases of_run_bind_error hlast with hraw | ⟨y, k, -, hpure⟩
          · exact of_run_raw_error hraw
          · cases hpure

lemma position_of_scalar_error {kind : ScalarKind} (h : (scalar kind).run i = (.error e, j)) :
    j.position ≤ i.position + padding i.position kind.width ∨
      kind = .boolean ∧ (∃ b, e = .badBoolean b) ∧ j.position = i.position + 1 := by
  rcases of_run_bind_error h with hword | ⟨bits, k, hword, hrest⟩
  · exact .inl (position_of_word_error hword)
  · cases hb : kind.ofBits? bits with
    | some s =>
      rw [hb] at hrest
      cases hrest
    | none =>
      rw [hb] at hrest
      cases hrest
      cases kind with
      | boolean => exact .inr ⟨rfl, ⟨_, rfl⟩, position_of_word hword⟩
      | _ => cases hb

end Reading

namespace Query

def alignment : Query → Nat
  | .scalar kind => kind.width
  | .align n => n
  | .raw _ | .rest => 1
  | .peek | .string | .octets | .encapsulation _ => 4

def lead : Query → Nat
  | .string | .octets | .encapsulation _ => 4
  | _ => 0

def misread : Query → StreamError → Nat
  | .scalar .boolean, .badBoolean _ => 1
  | _, _ => 0

def forfeit (q : Query) (position : Nat) (e : StreamError) : Nat :=
  padding position q.alignment + q.lead + q.misread e

def Unopened (q : Query) (i : Input) (e : StreamError) : Prop :=
  ∃ qs data, q = .encapsulation qs ∧ (Reading.octets.run i).1 = .ok data ∧
    Input.encapsulation data = .error e

lemma position_of_error {q : Query} {i j : Input} {e : StreamError} (h : q.run i = (.error e, j)) :
    j.position ≤ i.position + q.forfeit i.position e ∨ q.Unopened i e := by
  cases q with
  | scalar kind =>
    rw [run] at h
    refine .inl ?_
    rcases Reading.position_of_scalar_error (Reading.of_run_map_error h) with
      hle | ⟨rfl, ⟨b, rfl⟩, hone⟩
    · rw [forfeit, alignment]
      omega
    · rw [hone, forfeit, misread]
      omega
  | peek =>
    rw [run] at h
    exact .inl (Reading.position_of_peekWord_error (Reading.of_run_map_error h))
  | string =>
    rw [run] at h
    exact .inl (Reading.position_of_string_error (Reading.of_run_map_error h))
  | octets =>
    rw [run] at h
    exact .inl (Reading.position_of_octets_error (Reading.of_run_map_error h))
  | raw n =>
    rw [run] at h
    rw [Reading.of_run_raw_error (Reading.of_run_map_error h)]
    exact .inl (Nat.le_add_right _ _)
  | rest =>
    rw [run] at h
    rw [Reading.of_run_raw_error (n := i.remaining) (Reading.of_run_map_error h)]
    exact .inl (Nat.le_add_right _ _)
  | align n =>
    rw [run] at h
    rw [Reading.of_run_align_error (Reading.of_run_map_error h)]
    exact .inl (Nat.le_add_right _ _)
  | encapsulation qs =>
    rw [run] at h
    rcases hread : Reading.octets.run i with ⟨e' | data, k⟩
    · rw [hread] at h
      cases h
      exact .inl (Reading.position_of_octets_error hread)
    · rw [hread] at h
      dsimp only at h
      cases hopen : Input.encapsulation data with
      | error e' =>
        rw [hopen] at h
        cases h
        exact .inr ⟨qs, data, rfl, congrArg Prod.fst hread, hopen⟩
      | ok inner =>
        rw [hopen] at h
        cases h

end Query

/-! ## Queries along a buffer -/

lemma Cursor.encapsulation_eq_ok {data : Octets} {i : Input}
    (h : Input.encapsulation data = .ok i) :
    ∃ c, Cursor.encapsulation data = .ok c ∧ c.data = data ∧ c.origin = 0 ∧
      c.offset ≤ data.length ∧ c.input = i := by
  cases data with
  | nil => cases h
  | cons flag rest =>
    rw [Input.encapsulation] at h
    rw [Cursor.encapsulation]
    cases horder : ByteOrder.ofFlag? flag with
    | none =>
      rw [horder] at h
      cases h
    | some order =>
      rw [horder] at h
      cases h
      exact ⟨_, rfl, rfl, rfl, Nat.le_add_left 1 rest.length, rfl⟩

lemma Cursor.encapsulation_eq_error {data : Octets} {e : StreamError}
    (h : Input.encapsulation data = .error e) : Cursor.encapsulation data = .error e := by
  cases data with
  | nil =>
    cases h
    rfl
  | cons flag rest =>
    rw [Input.encapsulation] at h
    rw [Cursor.encapsulation]
    cases horder : ByteOrder.ofFlag? flag with
    | none =>
      rw [horder] at h
      cases h
      rfl
    | some order =>
      rw [horder] at h
      cases h

mutual

def Query.walk : Query → Cursor → Option (Except StreamError Answer × Cursor)
  | .scalar kind, c => (Answer.scalar <$> Walk.scalar kind) c
  | .peek, c => ((fun n => Answer.scalar (.uint32 (UInt32.ofNat n))) <$> Walk.peekWord 4) c
  | .string, c => (Answer.text <$> Walk.string) c
  | .octets, c => (Answer.octets <$> Walk.octets) c
  | .raw n, c => (Answer.octets <$> Walk.raw n) c
  | .rest, c => (Answer.octets <$> Walk.rest) c
  | .align n, c => ((fun _ => Answer.nothing) <$> Walk.align n) c
  | .encapsulation queries, c =>
    match Walk.octets c with
    | none => none
    | some (.error e, c) => some (.error e, c)
    | some (.ok data, c) =>
      match Cursor.encapsulation data with
      | .error e => some (.error e, c)
      | .ok inner =>
        match Query.walkAll queries inner with
        | none => none
        | some (answers, _) => some (.ok (.nested inner.order answers), c)

def Query.walkAll : List Query → Cursor →
    Option (List (Except StreamError Answer × Nat × Nat) × Cursor)
  | [], c => some ([], c)
  | query :: queries, c =>
    match query.walk c with
    | none => none
    | some (result, c) =>
      match Query.walkAll queries c with
      | none => none
      | some (results, last) =>
        some ((result, c.origin + c.offset, c.data.length - c.offset) :: results, last)

end

namespace Query

def StaysAt (q : Query) (c : Cursor) : Prop :=
  ∃ k, c.offset ≤ k ∧ k ≤ c.data.length ∧
    q.walk c = some ((q.run c.input).1, c.moved k) ∧ (q.run c.input).2 = (c.moved k).input

def AllStayAt (qs : List Query) (c : Cursor) : Prop :=
  ∃ k, c.offset ≤ k ∧ k ≤ c.data.length ∧
    walkAll qs c = some ((runAll qs c.input).1, c.moved k) ∧
      (runAll qs c.input).2 = (c.moved k).input

lemma StaysAt.of_follows {α : Type} {q : Query} {w : Walk α} {r : Reading StreamError α}
    (f : α → Answer) {c : Cursor} (hwalk : q.walk c = (f <$> w) c)
    (hrun : q.run c.input = (f <$> r).run c.input) (h : w.Follows r) (hc : c.Valid) :
    q.StaysAt c := by
  rw [StaysAt, hwalk, hrun]
  exact h.map f c hc

lemma StaysAt.encapsulation {qs : List Query} {c : Cursor} (hc : c.Valid)
    (h : ∀ inner : Cursor, inner.Valid → AllStayAt qs inner) :
    (Query.encapsulation qs).StaysAt c := by
  obtain ⟨k, hle, hlt, hwalk, hread⟩ := Walk.Follows.octets c hc
  refine ⟨k, hle, hlt, ?_⟩
  rw [walk, run]
  rcases hoctets : Reading.octets.run c.input with ⟨e | data, j⟩
  · rw [hoctets] at hwalk hread
    rw [hwalk]
    exact ⟨rfl, hread⟩
  · rw [hoctets] at hwalk hread
    rw [hwalk]
    dsimp only
    cases hopen : Input.encapsulation data with
    | error e =>
      rw [Cursor.encapsulation_eq_error hopen]
      exact ⟨rfl, hread⟩
    | ok i =>
      obtain ⟨inner, hinner, hdata, horigin, hoffset, rfl⟩ := Cursor.encapsulation_eq_ok hopen
      have hvalid : inner.Valid := by
        have hlength := Reading.length_lt_of_run_octets hoctets
        refine ⟨hdata ▸ hoffset, ?_⟩
        rw [horigin, hdata]
        omega
      obtain ⟨l, -, -, hall, -⟩ := h inner hvalid
      rw [hinner]
      dsimp only
      rw [hall]
      exact ⟨rfl, hread⟩

lemma runAll_cons (q : Query) (qs : List Query) (i : Input) : runAll (q :: qs) i =
    (((q.run i).1, (q.run i).2.position, (q.run i).2.remaining) :: (runAll qs (q.run i).2).1,
      (runAll qs (q.run i).2).2) := by
  rw [runAll]

mutual

theorem staysAt (q : Query) (c : Cursor) (hc : c.Valid) : q.StaysAt c := by
  cases q with
  | scalar kind => exact .of_follows .scalar (by rw [walk]) (by rw [run]) (.scalar kind) hc
  | peek => exact .of_follows _ (by rw [walk]) (by rw [run]) (.peekWord 4) hc
  | string => exact .of_follows .text (by rw [walk]) (by rw [run]) .string hc
  | octets => exact .of_follows .octets (by rw [walk]) (by rw [run]) .octets hc
  | raw n => exact .of_follows .octets (by rw [walk]) (by rw [run]) (.raw n) hc
  | rest => exact .of_follows .octets (by rw [walk]) (by rw [run]) .rest hc
  | align n => exact .of_follows _ (by rw [walk]) (by rw [run]) (.align n) hc
  | encapsulation qs => exact .encapsulation hc fun inner hinner => allStayAt qs inner hinner

theorem allStayAt (qs : List Query) (c : Cursor) (hc : c.Valid) : AllStayAt qs c := by
  cases qs with
  | nil =>
    refine ⟨c.offset, Nat.le_refl _, hc.offset_le, ?_⟩
    rw [walkAll, runAll]
    exact ⟨rfl, rfl⟩
  | cons q qs =>
    obtain ⟨k, hle, hlt, hwalk, hrun⟩ := staysAt q c hc
    obtain ⟨l, hle', hlt', hwalk', hrun'⟩ := allStayAt qs (c.moved k) (hc.moved hlt)
    refine ⟨l, Nat.le_trans hle hle', hlt', ?_, ?_⟩
    · rw [walkAll, hwalk, runAll_cons, hrun, Cursor.remaining_input]
      dsimp only
      rw [hwalk']
      rfl
    · rw [runAll_cons, hrun]
      exact hrun'

end

/-- Queries on a buffer, one after another, where any may have failed, and one more. -/
theorem confined (c : Cursor) (hc : c.Valid) (qs : List Query) (q : Query) :
    let before := (runAll qs c.input).2
    let after := q.run before
    ∃ k k', c.offset ≤ k ∧ k ≤ k' ∧ k' ≤ c.data.length ∧ c.origin + k' < 2 ^ 64 ∧
      before = { order := c.order, position := c.origin + k, rest := c.data.drop k } ∧
      after.2 = { order := c.order, position := c.origin + k', rest := c.data.drop k' } ∧
      walkAll qs c = some ((runAll qs c.input).1, c.moved k) ∧
      q.walk (c.moved k) = some (after.1, c.moved k') ∧
      ∀ e, after.1 = .error e → k' ≤ k + q.forfeit (c.origin + k) e ∨ q.Unopened before e := by
  intro before after
  obtain ⟨k, hle, hlt, hwalkAll, hbefore⟩ := allStayAt qs c hc
  have hmoved := hc.moved hlt
  obtain ⟨k', hle', hlt', hwalk, hafter⟩ := staysAt q (c.moved k) hmoved
  rw [← hbefore] at hwalk hafter
  have hlast : c.origin + k' < 2 ^ 64 := Nat.lt_of_le_of_lt (Nat.add_le_add_left hlt' _) hc.last_lt
  refine ⟨k, k', hle, hle', hlt', hlast, hbefore, hafter, hwalkAll, hwalk, fun e he => ?_⟩
  rcases position_of_error (Prod.ext he rfl : q.run before = (.error e, after.2)) with h | h
  · have hstart : before.position = c.origin + k := congrArg Input.position hbefore
    have hend : after.2.position = c.origin + k' := congrArg Input.position hafter
    rw [hend, hstart] at h
    exact .inl (by omega)
  · exact .inr h

def mangled : Cursor where
  data := [7, 0, 0, 0, 9, 1, 2]
  order := .bigEndian
  origin := 3

theorem confined_mangled :
    let before := (runAll [.scalar .boolean] mangled.input).2
    mangled.Valid ∧ before.position = 4 ∧
      (Query.string.run before).1 = .error (.underflow 9 2) ∧
      ∃ k, k ≤ 5 ∧ (Query.string.run before).2.position = 3 + k ∧
        Query.string.walk (mangled.moved 1) =
          some (.error (.underflow 9 2), mangled.moved k) := by
  have hvalid : mangled.Valid := by decide
  obtain ⟨k, k', -, -, -, -, hbefore, hafter, -, hwalk, herror⟩ :=
    confined mangled hvalid [.scalar .boolean] .string
  have hstart : (runAll [.scalar .boolean] mangled.input).2 =
      { order := .bigEndian, position := 4, rest := [0, 0, 0, 9, 1, 2] } := by rfl
  rw [hstart] at hbefore hafter hwalk herror ⊢
  obtain rfl : k = 1 := by
    have hk : 4 = 3 + k := congrArg Input.position hbefore
    omega
  refine ⟨hvalid, rfl, rfl, k', ?_, congrArg Input.position hafter, hwalk⟩
  rcases herror _ rfl with hle | ⟨qs, data, hq, -⟩
  · exact hle
  · cases hq

end Query

end ObjectBroker
