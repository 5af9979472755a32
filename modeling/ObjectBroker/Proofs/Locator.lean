import ObjectBroker.Locator
import ObjectBroker.Proofs.Text.Percent
import ObjectBroker.Proofs.Text.Split
import ObjectBroker.Proofs.Text.Utf8

/-!
Locators that are written by rule are read as what they were written for: the one of a reference as its
address and key, the one of a naming context as the place and the name in it.
-/

namespace ObjectBroker

/-- The host of an endpoint can be told from what stands around it in a locator. -/
structure Endpoint.Legible (e : Endpoint) : Prop where
  host_ne : e.host ≠ ""
  slash : '/' ∉ e.host.toList
  comma : ',' ∉ e.host.toList
  colon : ':' ∈ e.host.toList ∧ ']' ∉ e.host.toList ∨
    ':' ∉ e.host.toList ∧ e.host.toList.head? ≠ some '['

namespace Endpoint

variable {e : Endpoint}

lemma toList_text_of_colon (h : ':' ∈ e.host.toList) :
    e.text.toList = '[' :: (e.host.toList ++ ']' :: ':' :: Nat.toDigits 10 e.port.toNat) := by
  have htext : e.text = "[" ++ e.host ++ "]:" ++ toString e.port :=
    if_pos (List.contains_iff_mem.mpr h)
  have hport : (toString e.port).toList = Nat.toDigits 10 e.port.toNat := Nat.toList_repr
  simp [htext, hport]

lemma toList_text_of_no_colon (h : ':' ∉ e.host.toList) :
    e.text.toList = e.host.toList ++ ':' :: Nat.toDigits 10 e.port.toNat := by
  have htext : e.text = e.host ++ ":" ++ toString e.port :=
    if_neg fun hc => h (List.contains_iff_mem.mp hc)
  have hport : (toString e.port).toList = Nat.toDigits 10 e.port.toNat := Nat.toList_repr
  simp [htext, hport]

lemma not_mem_text {c : Char} (hhost : c ∉ e.host.toList) (hmark : c ∉ ['[', ']', ':'])
    (hdigit : Numeral.isDigit c = false) : c ∉ e.text.toList := by
  have hport := Numeral.not_mem_toDigits hdigit e.port.toNat
  by_cases h : ':' ∈ e.host.toList
  · rw [toList_text_of_colon h]
    simp_all
  · rw [toList_text_of_no_colon h]
    simp_all

end Endpoint

namespace Locator

variable {e : Endpoint} {address list : List Char}

lemma parsePort_toDigits (address : List Char) (port : UInt16) :
    parsePort address (some (Nat.toDigits 10 port.toNat)) = .ok port := by
  have hparse : Numeral.parse? 65536 (Nat.toDigits 10 port.toNat) = some port.toNat :=
    Numeral.parse?_toDigits port.toNat_lt
  obtain ⟨d, ds, hds⟩ := List.exists_cons_of_ne_nil (Nat.toDigits_ne_nil (b := 10) (n := port.toNat))
  rw [hds] at hparse ⊢
  rw [parsePort]
  · rw [hparse]
    dsimp only
    rw [UInt16.ofNat_toNat]
  · simp

lemma parseHost_text (h : e.Legible) (address : List Char) :
    parseHost address e.text.toList = .ok (e.host.toList, some (Nat.toDigits 10 e.port.toNat)) := by
  rcases h.colon with ⟨hcolon, hbracket⟩ | ⟨hcolon, hhead⟩
  · rw [Endpoint.toList_text_of_colon hcolon, parseHost, Split.once?_append hbracket]
    rfl
  · rw [Endpoint.toList_text_of_no_colon hcolon, parseHost]
    · rw [Split.once?_append hcolon]
    · intro bracketed htext
      refine hhead ?_
      cases hhost : e.host.toList with
      | nil => exact absurd (String.toList_eq_nil_iff.mp hhost) h.host_ne
      | cons c rest =>
        rw [hhost] at htext
        rw [(List.cons.inj htext).1]
        rfl

lemma parseVersion_toDigits (v : UInt8 × UInt8) :
    parseVersion (Nat.toDigits 10 v.1.toNat ++ '.' :: Nat.toDigits 10 v.2.toNat) = .ok v := by
  rw [parseVersion, Split.once?_append (Numeral.not_mem_toDigits (by decide) _)]
  dsimp only
  rw [Numeral.parse?_toDigits v.1.toNat_lt, Numeral.parse?_toDigits v.2.toNat_lt]
  dsimp only
  rw [UInt8.ofNat_toNat, UInt8.ofNat_toNat]

lemma isEmpty_host (h : e.Legible) : e.host.toList.isEmpty = false :=
  List.isEmpty_eq_false_iff.mpr fun hnil => h.host_ne (String.toList_eq_nil_iff.mp hnil)

lemma toList_iiop : "iiop:".toList = ['i', 'i', 'o', 'p', ':'] := by decide

lemma toList_corbaloc : "corbaloc:".toList = ['c', 'o', 'r', 'b', 'a', 'l', 'o', 'c', ':'] := by decide

lemma toList_corbaname :
    "corbaname:".toList = ['c', 'o', 'r', 'b', 'a', 'n', 'a', 'm', 'e', ':'] := by decide

def addressText (v : UInt8 × UInt8) (e : Endpoint) : List Char :=
  ['i', 'i', 'o', 'p', ':'] ++
    (Nat.toDigits 10 v.1.toNat ++ '.' :: Nat.toDigits 10 v.2.toNat ++ '@' :: e.text.toList)

lemma parseAddress_addressText (h : e.Legible) (v : UInt8 × UInt8) :
    parseAddress (addressText v e) = .ok { version := v, endpoint := e } := by
  have hprotocol : parseProtocol (addressText v e) =
      .ok (Nat.toDigits 10 v.1.toNat ++ '.' :: Nat.toDigits 10 v.2.toNat ++ '@' :: e.text.toList) := by
    rw [parseProtocol, toList_iiop, addressText, Split.after?_append]
  have hat : '@' ∉ Nat.toDigits 10 v.1.toNat ++ '.' :: Nat.toDigits 10 v.2.toNat := by
    simp [Numeral.not_mem_toDigits (c := '@') (by decide)]
  simp only [parseAddress, hprotocol, Split.once?_append hat, parseVersion_toDigits, bind, Except.bind,
    pure, Except.pure, parseHost_text h, isEmpty_host h, parsePort_toDigits, String.ofList_toList]
  rfl

lemma parseAddress_colon (h : e.Legible) (hat : '@' ∉ e.host.toList) :
    parseAddress (':' :: e.text.toList) = .ok { version := defaultVersion, endpoint := e } := by
  have hprotocol : parseProtocol (':' :: e.text.toList) = .ok e.text.toList := by
    rw [parseProtocol, toList_iiop]
    rfl
  have htext : '@' ∉ e.text.toList := Endpoint.not_mem_text hat (by decide) (by decide)
  simp only [parseAddress, hprotocol, Split.once?_of_not_mem htext, bind, Except.bind, pure, Except.pure,
    parseHost_text h, isEmpty_host h, parsePort_toDigits, String.ofList_toList]
  rfl

lemma not_mem_addressText {c : Char} (hhost : c ∉ e.host.toList)
    (hmark : c ∉ ['i', 'o', 'p', '.', '@', '[', ']', ':']) (hdigit : Numeral.isDigit c = false)
    (v : UInt8 × UInt8) : c ∉ addressText v e := by
  have htext : c ∉ e.text.toList := Endpoint.not_mem_text hhost (by simp_all) hdigit
  have hmajor := Numeral.not_mem_toDigits hdigit v.1.toNat
  have hminor := Numeral.not_mem_toDigits hdigit v.2.toNat
  rw [addressText]
  simp_all

lemma parseAddresses_singleton {a : Address} (hlist : ',' ∉ list) (h : parseAddress list = .ok a) :
    parseAddresses list = .ok [a] := by
  rw [parseAddresses, Split.parts_of_not_mem hlist, List.mapM_cons, h]
  rfl

lemma unescape_encode (octets : Octets) :
    unescape (Percent.encode octets).toList = .ok octets := by
  rw [unescape, Percent.decode?_encode]

lemma parseDirect_encode {addresses : List Address} {key : Octets} (hlist : '/' ∉ list)
    (haddresses : parseAddresses list = .ok addresses) (hkey : key ≠ []) :
    parseDirect (list ++ '/' :: (Percent.encode key).toList) = .ok (.direct addresses key) := by
  have hdecode := unescape_encode key
  obtain ⟨c, text, htext⟩ := List.exists_cons_of_ne_nil (Percent.encode_toList_ne_nil hkey)
  rw [htext] at hdecode ⊢
  rw [parseDirect, Split.once?_append hlist]
  simp only [haddresses, hdecode, bind, Except.bind, pure, Except.pure]

lemma parseNamed_encode {addresses : List Address} (hlist : '/' ∉ list) (hmark : '#' ∉ list)
    (haddresses : parseAddresses list = .ok addresses) (name : String) :
    parseNamed (list ++ '#' :: (Percent.encode (Utf8.encode name)).toList) =
      .ok (.named addresses (Utf8.encode namingKey) name) := by
  have hkey : unescape namingKey.toList = .ok (Utf8.encode namingKey) := by decide +kernel
  have hplace : namingPlace list = (list, namingKey.toList) := by
    rw [namingPlace, Split.once?_of_not_mem hlist]
  simp only [parseNamed, Split.once?_append hmark, Option.getD_some, hplace, unescape_encode,
    Utf8.decode_encode, haddresses, hkey, bind, Except.bind, pure, Except.pure]

section Scheme

variable {tail : List Char} (htail : tail ≠ []) (hend : ∀ c ∈ tail, Blank.isBlank c = false)
include htail hend

lemma parse_direct (text : List Char) :
    parse (String.ofList (['c', 'o', 'r', 'b', 'a', 'l', 'o', 'c', ':'] ++ (text ++ tail))) =
      parseDirect (text ++ tail) := by
  have hmark : (['c', 'o', 'r', 'b'].map Char.toUpper == Reference.stringMark.toList) = false := by
    decide
  rw [parse, String.toList_ofList, Blank.trim_append rfl htail hend, toList_corbaloc,
    Split.after?_append]
  exact if_neg (ne_true_of_eq_false hmark)

lemma parse_named (text : List Char) :
    parse (String.ofList (['c', 'o', 'r', 'b', 'a', 'n', 'a', 'm', 'e', ':'] ++ (text ++ tail))) =
      parseNamed (text ++ tail) := by
  have hmark : (['c', 'o', 'r', 'b'].map Char.toUpper == Reference.stringMark.toList) = false := by
    decide
  rw [parse, String.toList_ofList, Blank.trim_append rfl htail hend, toList_corbaloc, toList_corbaname,
    Split.after?_append]
  exact if_neg (ne_true_of_eq_false hmark)

end Scheme

lemma parse_name (h : e.Legible) (hcolon : ':' ∉ e.host.toList) (hat : '@' ∉ e.host.toList)
    (hmark : '#' ∉ e.host.toList) (name : String) :
    parse s!"corbaname::{e.host}:{e.port}#{Percent.encode (Utf8.encode name)}" =
      .ok (.named [{ version := defaultVersion, endpoint := e }] (Utf8.encode namingKey) name) := by
  have hwritten : s!"corbaname::{e.host}:{e.port}#{Percent.encode (Utf8.encode name)}" =
      String.ofList (['c', 'o', 'r', 'b', 'a', 'n', 'a', 'm', 'e', ':'] ++
        (':' :: e.text.toList ++ '#' :: (Percent.encode (Utf8.encode name)).toList)) := by
    have htext : s!"corbaname::{e.host}:{e.port}#{Percent.encode (Utf8.encode name)}" =
        "corbaname::" ++ e.host ++ ":" ++ toString e.port ++ "#" ++
          Percent.encode (Utf8.encode name) := rfl
    have hport : (toString e.port).toList = Nat.toDigits 10 e.port.toNat := Nat.toList_repr
    apply String.toList_injective
    simp [htext, hport, Endpoint.toList_text_of_no_colon hcolon]
  have hplace {c : Char} (hc : c ∉ e.text.toList) (hne : c ≠ ':') : c ∉ ':' :: e.text.toList := by
    simp [hc, hne]
  have hcomma := hplace (Endpoint.not_mem_text h.comma (by decide) (by decide)) (by decide)
  have hslash := hplace (Endpoint.not_mem_text h.slash (by decide) (by decide)) (by decide)
  have hsharp := hplace (Endpoint.not_mem_text hmark (by decide) (by decide)) (by decide)
  have hparsed := parseAddresses_singleton hcomma (parseAddress_colon h hat)
  have hend : ∀ c ∈ '#' :: (Percent.encode (Utf8.encode name)).toList, Blank.isBlank c = false := by
    intro c hc
    rcases List.mem_cons.mp hc with rfl | hc
    · rfl
    · exact (Percent.safe_of_mem_encode hc).2
  rw [hwritten, parse_named (List.cons_ne_nil _ _) hend, parseNamed_encode hslash hsharp hparsed]

end Locator

namespace Reference

lemma toLocator_eq (r : Reference) :
    r.toLocator = String.ofList (['c', 'o', 'r', 'b', 'a', 'l', 'o', 'c', ':'] ++
      (Locator.addressText r.version r.endpoint ++ '/' :: (Percent.encode r.key).toList)) := by
  have htext : r.toLocator = "corbaloc:iiop:" ++ toString r.version.1 ++ "." ++ toString r.version.2 ++
      "@" ++ r.endpoint.text ++ "/" ++ Percent.encode r.key := rfl
  have hmajor : (toString r.version.1).toList = Nat.toDigits 10 r.version.1.toNat := Nat.toList_repr
  have hminor : (toString r.version.2).toList = Nat.toDigits 10 r.version.2.toNat := Nat.toList_repr
  apply String.toList_injective
  simp [htext, hmajor, hminor, Locator.addressText]

/-- A reference is read off its locator: the address is the one that it has, and so is the key. -/
theorem parse_toLocator (r : Reference) (hkey : r.key ≠ []) (h : r.endpoint.Legible) :
    Locator.parse r.toLocator =
      .ok (.direct [{ version := r.version, endpoint := r.endpoint }] r.key) := by
  have hcomma : ',' ∉ Locator.addressText r.version r.endpoint :=
    Locator.not_mem_addressText h.comma (by decide) (by decide) r.version
  have hslash : '/' ∉ Locator.addressText r.version r.endpoint :=
    Locator.not_mem_addressText h.slash (by decide) (by decide) r.version
  have hparsed : Locator.parseAddresses (Locator.addressText r.version r.endpoint) =
      .ok [{ version := r.version, endpoint := r.endpoint }] :=
    Locator.parseAddresses_singleton hcomma (Locator.parseAddress_addressText h r.version)
  have hend : ∀ c ∈ (Percent.encode r.key).toList, Blank.isBlank c = false :=
    fun c hc => (Percent.safe_of_mem_encode hc).2
  rw [toLocator_eq, List.append_cons, Locator.parse_direct (Percent.encode_toList_ne_nil hkey) hend,
    ← List.append_cons, Locator.parseDirect_encode hslash hparsed hkey]

theorem parse_toLocator_bracketed :
    Locator.parse "corbaloc:iiop:1.0@[fe80::1@a]:65535/%00%25/%FF," =
      .ok (.direct [{ version := (1, 0), endpoint := { host := "fe80::1@a", port := 65535 } }]
        [0x00, 0x25, 0x2f, 0xff, 0x2c]) := by
  let r : Reference := {
    typeId := "", endpoint := { host := "fe80::1@a", port := 65535 }
    key := [0x00, 0x25, 0x2f, 0xff, 0x2c], minor := 0 }
  have hlegible : r.endpoint.Legible := ⟨by decide, by decide, by decide, .inl ⟨by decide, by decide⟩⟩
  have hwritten : r.toLocator = "corbaloc:iiop:1.0@[fe80::1@a]:65535/%00%25/%FF," := by decide +kernel
  rw [← hwritten]
  exact parse_toLocator r (by decide) hlegible

end Reference

end ObjectBroker
