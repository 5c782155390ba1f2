/-
# What the headers of a credential provider become in a request (`auth.cpp`).
-/
import A2A.Client.HttpJsonTransport

namespace A2A.Client

open A2A.Foundation A2A.Core A2A.Server.Transport List

inductive RequestKind where
  /-- `HttpJsonTransport::SendRequest` and `JsonRpcTransport::SendJsonRpcRequest`. -/
  | unary
  /-- `BuildStreamingRequest` of HTTP+JSON. -/
  | restStream (body : Bytes)
  /-- `JsonRpcTransport::StartSseStream`. -/
  | jsonRpcStream

/-- The headers of a request before the options are applied. -/
def RequestKind.headers (options : CallOptions) : RequestKind → HttpHeaders
  | .unary => (options.headers.put (kContentTypeHeaderName, kContentTypeApplicationJson)).put
      (kAcceptHeaderName, kContentTypeApplicationJson)
  | .restStream body => (if body.isEmpty then options.headers
      else options.headers.put (kContentTypeHeaderName, kContentTypeApplicationJson)).put
      (kAcceptHeaderName, kContentTypeTextEventStream)
  | .jsonRpcStream => (options.headers.put (kContentTypeHeaderName, kContentTypeApplicationJson)).put
      (kAcceptHeaderName, kContentTypeTextEventStream)

/-- The headers that the credential provider meets. -/
def RequestKind.met (options : CallOptions) (kind : RequestKind) : HttpHeaders :=
  let headers := if options.extensions.isEmpty then kind.headers options
    else (kind.headers options).put (kExtensionsHeaderName, formatExtensions options.extensions)
  (options.authHook.map fun hook => hook headers).getD headers

/-- One entry has the name, up to case, and it has the value. -/
def OnlyEntry (headers : HttpHeaders) (name value : Bytes) : Prop :=
  ∃ row ∈ headers.rows, row.2 = value ∧ ∀ other ∈ headers.rows, equalsAsciiCaseInsensitive other.1 name ↔ other = row

/-- The value of the version header; it is empty for an unset version. -/
def versionValue (options : CallOptions) (version : List Char) : Bytes :=
  if options.protocolVersion.isEmpty then [] else version.map charByte

variable {options : CallOptions} {headers sent : HttpHeaders} {provided : List (Bytes × Bytes)} {kind : RequestKind}

theorem mem_provided_put (h : (provided.map Prod.fst).Nodup) {row : Bytes × Bytes} :
    row ∈ (provided.foldl (fun headers header => headers.put header) headers).rows ↔
      row ∈ provided ∨ row ∈ headers.rows ∧ row.1 ∉ provided.map Prod.fst := by
  rw [Table.mem_foldl_put fun a ha b hb hname => inj_on_of_nodup_map h ha hb hname]
  simp only [mem_map, not_exists, not_and, ne_eq]

/-- The entries of a request: the version, and what else the provider met or gave. -/
theorem mem_sent (hprovider : options.credentials = some (.ok provided)) (hmap : (provided.map Prod.fst).Nodup)
    (hsent : applyOptions options (kind.headers options) = .ok sent) :
    ∃ version, Version.majorMinor (options.protocolVersion.map byteChar) = some version ∧
      ∀ row, row ∈ sent.rows ↔ row = (kVersionHeaderName, versionValue options version) ∨
        ¬ equalsAsciiCaseInsensitive row.1 kVersionHeaderName ∧
          (row ∈ provided ∨ row ∈ (kind.met options).rows ∧ row.1 ∉ provided.map Prod.fst) := by
  have happlied : applyProtocolVersion options
      (provided.foldl (fun headers header => headers.put header) (kind.met options)) = .ok sent := by
    rw [← hsent]
    unfold applyOptions applyCredentials
    rw [hprovider]
    rfl
  unfold applyProtocolVersion at happlied
  split at happlied
  · cases happlied
  · rename_i version hversion
    cases happlied
    refine ⟨version, hversion, fun row => ?_⟩
    have hself : equalsAsciiCaseInsensitive kVersionHeaderName kVersionHeaderName = true := by decide +kernel
    rw [Table.mem_put, Table.mem_deleteAll, ← mem_provided_put hmap]
    have halias : ∀ row ∈ (provided.foldl (fun headers header => headers.put header) (kind.met options)).rows,
        row.1 ∉ ((provided.foldl (fun headers header => headers.put header) (kind.met options)).rows.map Prod.fst).filter
          (fun name => equalsAsciiCaseInsensitive name kVersionHeaderName) ↔
        ¬ equalsAsciiCaseInsensitive row.1 kVersionHeaderName := fun row hrow => by
      simp only [mem_filter, not_and]
      exact ⟨fun h => h (mem_map_of_mem hrow), fun h _ => h⟩
    constructor
    · rintro (rfl | ⟨⟨hrow, hnot⟩, -⟩)
      · exact .inl rfl
      · exact .inr ⟨(halias row hrow).mp hnot, hrow⟩
    · rintro (rfl | ⟨hnot, hrow⟩)
      · exact .inl rfl
      · exact .inr ⟨⟨hrow, (halias row hrow).mpr hnot⟩, fun heq => hnot (heq ▸ hself)⟩

/-- A header of the provider is no version, or the version itself, and meets no other spelling of it. -/
def Undisputed (options : CallOptions) (kind : RequestKind) (provided : List (Bytes × Bytes)) (version : List Char)
    (header : Bytes × Bytes) : Prop :=
  if equalsAsciiCaseInsensitive header.1 kVersionHeaderName then header.2 = versionValue options version
  else (∀ row ∈ (kind.met options).rows, equalsAsciiCaseInsensitive row.1 header.1 → row.1 = header.1) ∧
    ∀ other ∈ provided, equalsAsciiCaseInsensitive other.1 header.1 → other = header

/-- The sent headers show a provided one alone exactly if nothing else sets its name. -/
theorem onlyEntry_iff {version : List Char} (hsent : ∀ row, row ∈ sent.rows ↔
      row = (kVersionHeaderName, versionValue options version) ∨ ¬ equalsAsciiCaseInsensitive row.1 kVersionHeaderName ∧
        (row ∈ provided ∨ row ∈ (kind.met options).rows ∧ row.1 ∉ provided.map Prod.fst))
    {header : Bytes × Bytes} (hheader : header ∈ provided) :
    OnlyEntry sent header.1 header.2 ↔ Undisputed options kind provided version header := by
  unfold Undisputed OnlyEntry
  simp only [equalsAsciiCaseInsensitive, decide_eq_true_eq] at hsent ⊢
  split_ifs with hversion
  · constructor
    · rintro ⟨row, hrow, hvalue, hunique⟩
      obtain rfl := (hunique _ ((hsent _).mpr (.inl rfl))).mp hversion.symm
      exact hvalue.symm
    · intro hvalue
      refine ⟨_, (hsent _).mpr (.inl rfl), hvalue.symm, fun other hother => ?_⟩
      rcases (hsent other).mp hother with rfl | ⟨hnot, -⟩
      · exact iff_of_true hversion.symm rfl
      · exact iff_of_false (fun h => hnot (h.trans hversion)) (by rintro rfl; exact hnot rfl)
  · have hmem : header ∈ sent.rows := (hsent _).mpr (.inr ⟨hversion, .inl hheader⟩)
    have hinner : ∀ row, toLowerAscii row.1 = toLowerAscii header.1 → (row ∈ sent.rows ↔
        row ∈ provided ∨ row ∈ (kind.met options).rows ∧ row.1 ∉ provided.map Prod.fst) := by
      intro row hrow
      rw [hsent]
      refine ⟨?_, fun h => .inr ⟨fun heq => hversion (hrow ▸ heq), h⟩⟩
      rintro (rfl | ⟨-, h⟩)
      · exact absurd hrow.symm hversion
      · exact h
    constructor
    · rintro ⟨row, hrow, -, hunique⟩
      obtain rfl := (hunique header hmem).mp rfl
      have hother : ∀ other ∈ provided, toLowerAscii other.1 = toLowerAscii header.1 → other = header :=
        fun other hother hname => (hunique other ((hinner other hname).mpr (.inl hother))).mp hname
      refine ⟨fun row hrow hname => ?_, hother⟩
      by_cases hgiven : row.1 ∈ provided.map Prod.fst
      · obtain ⟨other, hmem, hsame⟩ := mem_map.mp hgiven
        rw [← hsame, hother other hmem (hsame ▸ hname)]
      · exact congrArg Prod.fst ((hunique row ((hinner row hname).mpr (.inr ⟨hrow, hgiven⟩))).mp hname)
    · rintro ⟨hmet, hprovided⟩
      refine ⟨header, hmem, rfl, fun other hother => ⟨fun hname => ?_, fun h => h ▸ rfl⟩⟩
      rcases (hinner other hname).mp hother with hgiven | ⟨hrow, hnot⟩
      · exact hprovided other hgiven hname
      · exact absurd (hmet other hrow hname ▸ mem_map_of_mem hheader) hnot

/-- Each header of the provider becomes the only entry of its name exactly if nothing disputes it; the version always
does. -/
theorem provider_headers_are_sent_once_iff (hprovider : options.credentials = some (.ok provided))
    (hmap : (provided.map Prod.fst).Nodup) (hsent : applyOptions options (kind.headers options) = .ok sent) :
    ∃ version, Version.majorMinor (options.protocolVersion.map byteChar) = some version ∧
      OnlyEntry sent kVersionHeaderName (versionValue options version) ∧
      ((∀ header ∈ provided, OnlyEntry sent header.1 header.2) ↔
        ∀ header ∈ provided, Undisputed options kind provided version header) := by
  have hself : equalsAsciiCaseInsensitive kVersionHeaderName kVersionHeaderName = true := by decide +kernel
  obtain ⟨version, hversion, hrows⟩ := mem_sent hprovider hmap hsent
  refine ⟨version, hversion, ⟨_, (hrows _).mpr (.inl rfl), rfl, fun other hother => ?_⟩,
    forall₂_congr fun header hheader => onlyEntry_iff hrows hheader⟩
  rcases (hrows other).mp hother with rfl | ⟨hnot, -⟩
  · exact iff_of_true hself rfl
  · exact iff_of_false hnot (by rintro rfl; exact hnot hself)

/-- A caller with a bearer token and one header of its own. -/
def bearerWith (name value : Bytes) : CallOptions where
  headers := Table.empty.put (name, value)
  credentials := some (.ok [(bytes "Authorization", bytes "Bearer t")])

/-- Next to a header of another name, the token is the only entry of its name. -/
theorem bearer_is_sent_once :
    ∃ sent, applyOptions (bearerWith "X-Trace" "7") (RequestKind.unary.headers (bearerWith "X-Trace" "7")) = .ok sent ∧
      (bytes "X-Trace", bytes "7") ∈ sent.rows ∧ OnlyEntry sent "Authorization" "Bearer t" := by
  obtain ⟨sent, hsent, htrace⟩ : ∃ sent, applyOptions (bearerWith "X-Trace" "7")
      (RequestKind.unary.headers (bearerWith "X-Trace" "7")) = .ok sent ∧
      (bytes "X-Trace", bytes "7") ∈ sent.rows := ⟨_, rfl, by decide +kernel⟩
  obtain ⟨version, -, -, hsends⟩ := provider_headers_are_sent_once_iff rfl (by decide +kernel) hsent
  refine ⟨sent, hsent, htrace, hsends.mpr (fun header hheader => ?_) _ (List.mem_singleton.mpr rfl)⟩
  obtain rfl := List.mem_singleton.mp hheader
  unfold Undisputed
  rw [if_neg (by decide +kernel)]
  exact ⟨by decide +kernel, by decide +kernel⟩

/-- A caller that has written its own header in small letters sends both. -/
theorem caller_spelling_is_sent_too :
    ∃ sent, applyOptions (bearerWith "authorization" "Basic b")
        (RequestKind.unary.headers (bearerWith "authorization" "Basic b")) = .ok sent ∧
      (bytes "authorization", bytes "Basic b") ∈ sent.rows ∧ (bytes "Authorization", bytes "Bearer t") ∈ sent.rows :=
  ⟨_, rfl, by decide +kernel, by decide +kernel⟩

end A2A.Client
