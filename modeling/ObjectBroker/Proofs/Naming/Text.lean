import ObjectBroker.Name
import ObjectBroker.Proofs.Locator

/-!
Names as text. A name whose components all say something is read back from its text, whatever
characters it is made of, and no other name is ever read.
-/

namespace ObjectBroker

def Name.Proper (n : Name) : Prop :=
  n ≠ [] ∧ ∀ c ∈ n, ¬(c.id = "" ∧ c.kind = "")

instance (n : Name) : Decidable n.Proper := inferInstanceAs (Decidable (_ ∧ _))

namespace NameComponent

variable {c : NameComponent}

lemma isEmpty_iff : c.isEmpty = true ↔ c.id = "" ∧ c.kind = "" := by
  simp [isEmpty, String.isEmpty_iff]

end NameComponent

namespace Name

namespace Draft

def write (p : Draft) (text : List Char) : Draft :=
  text.foldl push p

lemma write_none (id text : List Char) : write ⟨id, none⟩ text = ⟨id ++ text, none⟩ := by
  induction text generalizing id with
  | nil => rw [List.append_nil, write, List.foldl_nil]
  | cons c text ih =>
    have hrest := ih (id ++ [c])
    rw [List.append_assoc] at hrest
    exact hrest

lemma write_some (id kind text : List Char) :
    write ⟨id, some kind⟩ text = ⟨id, some (kind ++ text)⟩ := by
  induction text generalizing kind with
  | nil => rw [List.append_nil, write, List.foldl_nil]
  | cons c text ih =>
    have hrest := ih (kind ++ [c])
    rw [List.append_assoc] at hrest
    exact hrest

def whole (c : NameComponent) : Draft where
  id := c.id.toList
  kind := if c.kind.isEmpty then none else some c.kind.toList

lemma finish_whole {c : NameComponent} (h : ¬(c.id = "" ∧ c.kind = "")) :
    (whole c).finish = .ok c := by
  have hkind : String.ofList ((whole c).kind.getD []) = c.kind := by
    rw [whole]
    split
    case isTrue hempty => exact (String.isEmpty_iff.mp hempty).symm
    case isFalse => exact String.ofList_toList
  have hid : String.ofList (whole c).id = c.id := String.ofList_toList
  rw [finish, hid, hkind]
  exact if_neg fun hempty => h (NameComponent.isEmpty_iff.mp hempty)

lemma of_finish {p : Draft} {c : NameComponent} (h : p.finish = .ok c) :
    ¬(c.id = "" ∧ c.kind = "") := by
  rw [finish] at h
  split at h
  case isTrue => cases h
  case isFalse hempty =>
    obtain rfl := Except.ok.inj h
    exact fun hc => hempty (NameComponent.isEmpty_iff.mpr hc)

end Draft

section Parse

variable {p : Draft} {rest : List Char}

lemma parseFrom_plain {c : Char} (h : ¬(c = '.' ∨ c = '/' ∨ c = '\\')) :
    parseFrom p (c :: rest) = parseFrom (p.push c) rest := by
  rw [parseFrom] <;> simp_all

lemma parseFrom_escape (p : Draft) (text : String) (rest : List Char) :
    parseFrom p (NameComponent.escape text ++ rest) = parseFrom (p.write text.toList) rest := by
  rw [NameComponent.escape]
  induction text.toList generalizing p with
  | nil => rfl
  | cons c text ih =>
    rw [List.flatMap_cons, List.append_assoc]
    split
    case isTrue => exact ih (p.push c)
    case isFalse hc =>
      rw [List.singleton_append, parseFrom_plain hc]
      exact ih (p.push c)

lemma parseFrom_chars (c : NameComponent) (rest : List Char) :
    parseFrom {} (c.chars ++ rest) = parseFrom (.whole c) rest := by
  rw [NameComponent.chars, Draft.whole]
  split
  · rw [parseFrom_escape, Draft.write_none]
    rfl
  · rw [List.append_assoc, parseFrom_escape, Draft.write_none, List.cons_append, List.nil_append,
      parseFrom]
    dsimp only
    rw [parseFrom_escape, Draft.write_some, List.nil_append]

lemma parseFrom_text {n : Name} (h : n.Proper) :
    parseFrom {} (['/'].intercalate (n.map NameComponent.chars)) = .ok n := by
  obtain ⟨hn, hcomponents⟩ := h
  induction n with
  | nil => exact absurd rfl hn
  | cons c n ih =>
    have hc : (Draft.whole c).finish = .ok c := Draft.finish_whole (hcomponents c List.mem_cons_self)
    cases n with
    | nil =>
      have hchars := parseFrom_chars c []
      rw [List.append_nil] at hchars
      rw [List.map_singleton, List.intercalate_singleton, hchars, parseFrom, hc]
      rfl
    | cons d n =>
      have hrest := ih (List.cons_ne_nil d n) fun e he => hcomponents e (List.mem_cons_of_mem c he)
      rw [List.map_cons, List.map_cons, List.intercalate_cons_cons, List.append_assoc, parseFrom_chars,
        List.singleton_append, parseFrom, hc, ← List.map_cons, hrest]
      rfl

lemma proper_of_parseFrom {text : List Char} {n : Name} (h : parseFrom p text = .ok n) :
    n.Proper := by
  fun_induction parseFrom p text generalizing n with
  | case1 p =>
    cases hc : p.finish with
    | error fault =>
      rw [hc] at h
      cases h
    | ok c =>
      rw [hc] at h
      cases h
      exact ⟨List.cons_ne_nil _ _, by simpa using Draft.of_finish hc⟩
  | case2 => cases h
  | case3 p c rest ih => exact ih h
  | case4 p rest hkind ih => exact ih h
  | case5 => cases h
  | case6 p rest ih =>
    cases hc : p.finish with
    | error fault =>
      rw [hc] at h
      cases h
    | ok c =>
      cases hn : parseFrom {} rest with
      | error fault =>
        rw [hc, hn] at h
        cases h
      | ok n =>
        rw [hc, hn] at h
        cases h
        refine ⟨List.cons_ne_nil _ _, fun d hd => ?_⟩
        rcases List.mem_cons.mp hd with rfl | hd
        · exact Draft.of_finish hc
        · exact (ih hn).2 d hd
  | case7 p c rest h₁ h₂ h₃ h₄ ih => exact ih h

lemma parse_eq_ok_iff {text : String} {n : Name} :
    parse text = .ok n ↔ parseFrom {} text.toList = .ok n := by
  have hnone : parseFrom {} [] = .error .emptyComponent := rfl
  have hparse : parse text = .ok n ↔ parseChars text.toList = .ok n := by
    rw [parse]
    cases parseChars text.toList <;> simp [Except.mapError]
  rw [hparse]
  cases text.toList with
  | nil => simp [parseChars, hnone]
  | cons c rest => rfl

lemma parse_text {n : Name} (h : n.Proper) : parse n.text = .ok n := by
  rw [parse_eq_ok_iff, text, String.toList_ofList]
  exact parseFrom_text h

lemma proper_of_parse {text : String} {n : Name} (h : parse text = .ok n) : n.Proper :=
  proper_of_parseFrom (parse_eq_ok_iff.mp h)

end Parse

/-- Exactly the proper names are read back from their texts, only proper names are read at all, and a
locator leads to every proper name. -/
theorem text_faithful :
    (∀ n : Name, parse n.text = .ok n ↔ n.Proper) ∧
    (∀ (text : String) (n : Name), parse text = .ok n → n.Proper ∧ parse n.text = .ok n) ∧
    ∀ (n : Name) (host : String) (port : UInt16), n.Proper → host ≠ "" →
      (∀ c ∈ ['#', '/', ',', '@', '[', ']', ':'], c ∉ host.toList) →
      Locator.parse s!"corbaname::{host}:{port}#{Percent.encode (Utf8.encode n.text)}" =
          .ok (.named [{ version := Locator.defaultVersion, endpoint := { host, port } }]
            (Utf8.encode Locator.namingKey) n.text) ∧
        parse n.text = .ok n := by
  refine ⟨fun n => ⟨proper_of_parse, parse_text⟩, fun text n h => ?_, fun n host port hn hhost hfree => ?_⟩
  · have hn := proper_of_parse h
    exact ⟨hn, parse_text hn⟩
  · have hcolon : ':' ∉ host.toList := hfree ':' (by decide)
    have hbracket : host.toList.head? ≠ some '[' := fun hhead =>
      hfree '[' (by decide) (List.mem_of_mem_head? hhead)
    have hlegible : Endpoint.Legible { host, port } :=
      ⟨hhost, hfree '/' (by decide), hfree ',' (by decide), .inr ⟨hcolon, hbracket⟩⟩
    refine ⟨?_, parse_text hn⟩
    exact Locator.parse_name hlegible hcolon (hfree '@' (by decide)) (hfree '#' (by decide)) n.text

def marked : Name := [{ id := "a.b", kind := "c/d e" }, { id := "", kind := "\\" }]

theorem text_faithful_marked :
    marked.Proper ∧ marked.text = "a\\.b.c\\/d e/.\\\\" ∧ parse marked.text = .ok marked ∧
      Locator.parse "corbaname::localhost:9000#a%5C.b.c%5C/d%20e/.%5C%5C" =
        .ok (.named [{ version := (1, 2), endpoint := { host := "localhost", port := 9000 } }]
          (Utf8.encode "NameService") marked.text) := by
  have hproper : marked.Proper := by decide
  have hhost : ∀ c ∈ ['#', '/', ',', '@', '[', ']', ':'], c ∉ "localhost".toList := by simp
  have hwritten : "corbaname::" ++ "localhost" ++ ":" ++ toString (9000 : UInt16) ++ "#" ++
      Percent.encode (Utf8.encode marked.text) =
        "corbaname::localhost:9000#a%5C.b.c%5C/d%20e/.%5C%5C" := by decide +kernel
  obtain ⟨hparse, -, hlocator⟩ := text_faithful
  refine ⟨hproper, by decide +kernel, (hparse marked).mpr hproper, ?_⟩
  rw [← hwritten]
  exact (hlocator marked "localhost" 9000 hproper (by decide) hhost).1

end Name

end ObjectBroker
