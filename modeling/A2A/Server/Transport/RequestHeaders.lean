/-
# What the bindings check in the headers of a request (`http_utils.cpp`,
`extensions.cpp`, `version_header_validator.cpp`, `required_extensions_validator.cpp`).
-/
import A2A.Core.Version
import A2A.Server.Transport.HttpAdapter
import Mathlib.Data.List.Destutter
import Mathlib.Data.List.Sort

namespace A2A.Server.Transport

open A2A.Foundation A2A.Core List

/-! ## Header values -/

def kContentTypeHeaderName : Bytes := "Content-Type"
def kContentTypeApplicationJson : Bytes := "application/json"
def kVersionHeaderName : Bytes := "A2A-Version"
def kExtensionsHeaderName : Bytes := "A2A-Extensions"

/-- `FindHeaderValue`. -/
def findHeaderValue (headers : HttpHeaders) (name : Bytes) : Option Bytes :=
  (headers.rows.find? fun header => equalsAsciiCaseInsensitive header.1 name).map Prod.snd

/-- `IsMediaType`. -/
def isMediaType (contentType expectedMediaType : Bytes) : Bool :=
  let mediaType := ((breakOn (bytes ";") contentType).map Prod.fst).getD contentType
  equalsAsciiCaseInsensitive (trimAsciiWhitespace mediaType) expectedMediaType

/-- `IsJsonContentType`. -/
def isJsonContentType (contentType : Bytes) : Bool := isMediaType contentType kContentTypeApplicationJson

/-- No content type is given, or the one of JSON. -/
def hasJsonContent (headers : HttpHeaders) : Bool :=
  (findHeaderValue headers kContentTypeHeaderName).all isJsonContentType

/-! ## The version -/

/-- `VersionHeaderValidator::Validate`. -/
def validateVersion (requireVersionHeader : Bool) (headers : HttpHeaders) : Result Unit :=
  match findHeaderValue headers kVersionHeaderName with
  | none | some [] =>
    if requireVersionHeader then .error (ProtocolErrors.versionNotSupported "Missing required A2A-Version header")
    else .error (ProtocolErrors.versionNotSupported "Unsupported A2A-Version header value")
  | some version =>
    if Version.isSupported (version.map byteChar) then .ok ()
    else .error (ProtocolErrors.versionNotSupported "Unsupported A2A-Version header value")

/-! ## Extensions -/

namespace Extensions

/-- `std::isgraph`. -/
def isGraph (b : UInt8) : Bool := 33 ≤ b && b ≤ 126

/-- `IsValidToken`; a comma is written 44. -/
def isValidToken (token : Bytes) : Bool := !token.isEmpty && token.all fun b => isGraph b && b ≠ 44

/-- `Normalize`. -/
def normalize (extensions : List Bytes) : List Bytes := (extensions.insertionSort (· ≤ ·)).destutter (· ≠ ·)

/-- The loop of `Extensions::Parse`. -/
def parseTokens : List Bytes → List Bytes → Result (List Bytes)
  | [], parsed => .ok parsed
  | part :: parts, parsed =>
    let token := trimAsciiWhitespace part
    if token.isEmpty then parseTokens parts parsed
    else if isValidToken token then parseTokens parts (parsed ++ [token])
    else .error (.validation (bytes "A2A-Extensions header contains invalid token: " ++ token))

/-- `Extensions::Parse`. -/
def parse (headerValue : Bytes) : Result (List Bytes) :=
  (parseTokens (splitOn (bytes ",") headerValue) []).map normalize

/-- `Extensions::Format`. -/
def format (extensions : List Bytes) : Bytes := (bytes ",").intercalate (normalize (extensions.filter (!·.isEmpty)))

variable {tokens parts parsed : List Bytes}

theorem normalize_eq_dedup (extensions : List Bytes) : normalize extensions = (extensions.insertionSort (· ≤ ·)).dedup :=
  (pairwise_insertionSort _ _).destutter_eq_dedup

theorem mem_normalize {token : Bytes} : token ∈ normalize tokens ↔ token ∈ tokens := by
  rw [normalize_eq_dedup, mem_dedup, mem_insertionSort]

theorem pairwise_normalize (extensions : List Bytes) : (normalize extensions).Pairwise (· < ·) := by
  rw [normalize_eq_dedup]
  have hsorted : (extensions.insertionSort (· ≤ ·)).dedup.Pairwise (· ≤ ·) :=
    (pairwise_insertionSort _ _).sublist (dedup_sublist _)
  exact hsorted.imp₂ (fun _ _ hle hne => lt_of_le_of_ne hle hne) (nodup_dedup _)

theorem normalize_of_pairwise (h : tokens.Pairwise (· < ·)) : normalize tokens = tokens := by
  rw [normalize_eq_dedup, (h.imp le_of_lt).insertionSort_eq]
  exact dedup_eq_self.mpr (h.imp ne_of_lt)

theorem isValidToken_iff {token : Bytes} : isValidToken token ↔ token ≠ [] ∧ ∀ b ∈ token, isGraph b ∧ b ≠ 44 := by
  simp [isValidToken]

theorem trim_of_isValidToken {token : Bytes} (h : isValidToken token) : trimAsciiWhitespace token = token := by
  refine trimAsciiWhitespace_of_noSpace fun b hb => ?_
  have hgraph := ((isValidToken_iff.mp h).2 b hb).1
  simp only [isGraph, Bool.and_eq_true, decide_eq_true_eq] at hgraph
  exact isSpace_of_lt (lt_of_lt_of_le (by decide) hgraph.1)

theorem parseTokens_of_valid (h : ∀ token ∈ tokens, isValidToken token) (parsed : List Bytes) :
    parseTokens tokens parsed = .ok (parsed ++ tokens) := by
  induction tokens generalizing parsed with
  | nil => rw [parseTokens, append_nil]
  | cons token tokens ih =>
    obtain ⟨hvalid, hrest⟩ := forall_mem_cons.mp h
    have hne : ¬ token.isEmpty := fun hempty => (isValidToken_iff.mp hvalid).1 (List.isEmpty_iff.mp hempty)
    rw [parseTokens, trim_of_isValidToken hvalid, if_neg hne, if_pos hvalid, ih hrest, append_assoc]
    rfl

theorem valid_of_parseTokens (h : parseTokens parts parsed = .ok tokens)
    (hparsed : ∀ token ∈ parsed, isValidToken token) : ∀ token ∈ tokens, isValidToken token := by
  induction parts generalizing parsed with
  | nil =>
    cases h
    exact hparsed
  | cons part parts ih =>
    unfold parseTokens at h
    dsimp only at h
    split_ifs at h with hempty hvalid
    · exact ih h hparsed
    · exact ih h (forall_mem_append.mpr ⟨hparsed, forall_mem_singleton.mpr hvalid⟩)

theorem splitOn_intercalate (hne : tokens ≠ []) (h : ∀ token ∈ tokens, 44 ∉ token) :
    splitOn (bytes ",") ((bytes ",").intercalate tokens) = tokens := by
  induction tokens with
  | nil => exact absurd rfl hne
  | cons token tokens ih =>
    obtain ⟨htoken, hrest⟩ := forall_mem_cons.mp h
    cases tokens with
    | nil =>
      rw [intercalate_singleton]
      exact splitOn_of_notMem htoken
    | cons next tokens =>
      rw [intercalate_cons_cons, append_assoc]
      exact (splitOn_append htoken _).trans (congrArg _ (ih (cons_ne_nil _ _) hrest))

theorem parse_intercalate (h : ∀ token ∈ tokens, isValidToken token) (hsorted : tokens.Pairwise (· < ·)) :
    parse ((bytes ",").intercalate tokens) = .ok tokens := by
  by_cases hne : tokens = []
  · subst hne
    rfl
  · have hcomma : ∀ token ∈ tokens, 44 ∉ token := fun token ht hb => ((isValidToken_iff.mp (h token ht)).2 _ hb).2 rfl
    rw [parse, splitOn_intercalate hne hcomma, parseTokens_of_valid h]
    exact congrArg Except.ok (normalize_of_pairwise hsorted)

/-- What is formatted is parsed as the distinct elements in their order, and what was parsed once is kept. -/
theorem format_is_parsed_back :
    (∀ extensions : List Bytes, (∀ extension ∈ extensions, extension ≠ [] → ∀ b ∈ extension, isGraph b = true ∧ b ≠ 44) →
      ∃ parsed, parse (format extensions) = .ok parsed ∧ parsed.Pairwise (· < ·) ∧
        ∀ extension, extension ∈ parsed ↔ extension ∈ extensions ∧ extension ≠ []) ∧
    ∀ headerValue parsed, parse headerValue = .ok parsed → parse (format parsed) = .ok parsed := by
  refine ⟨fun extensions hvisible => ⟨normalize (extensions.filter (!·.isEmpty)), ?_, pairwise_normalize _, ?_⟩, ?_⟩
  · refine parse_intercalate (fun token htoken => isValidToken_iff.mpr ?_) (pairwise_normalize _)
    obtain ⟨hmem, hne⟩ := List.mem_filter.mp (mem_normalize.mp htoken)
    have hne : token ≠ [] := by simpa using hne
    exact ⟨hne, hvisible token hmem hne⟩
  · intro extension
    simp [mem_normalize]
  · intro headerValue parsed h
    obtain ⟨tokens, htokens, rfl⟩ := ok_of_map h
    have hvalid : ∀ token ∈ normalize tokens, isValidToken token = true := fun token htoken =>
      valid_of_parseTokens htokens nofun token (mem_normalize.mp htoken)
    have hkept : (normalize tokens).filter (!·.isEmpty) = normalize tokens := by
      refine List.filter_eq_self.mpr fun token htoken => ?_
      simpa using (isValidToken_iff.mp (hvalid token htoken)).1
    rw [format, hkept, normalize_of_pairwise (pairwise_normalize _)]
    exact parse_intercalate hvalid (pairwise_normalize _)

end Extensions

/-- `RequiredExtensionsValidator::Validate`. -/
def validateExtensions (requiredExtensions : List Bytes) (headers : HttpHeaders) : Result (List Bytes) :=
  if requiredExtensions.isEmpty then .ok []
  else
    let missing := ProtocolErrors.extensionSupportRequired "Missing required A2A extension support"
    match findHeaderValue headers kExtensionsHeaderName with
    | none => .error missing
    | some header =>
      match Extensions.parse header with
      | .error e => .error e
      | .ok parsed => if requiredExtensions.all (· ∈ parsed) then .ok requiredExtensions else .error missing

end A2A.Server.Transport
