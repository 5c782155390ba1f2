/-
# What a request says about its sender (`request_context.cpp`,
`http_utils.cpp`).
-/
import A2A.Server.Transport.RequestHeaders

namespace A2A.Server.Transport

open A2A.Foundation A2A.Core List

/-- `IsAuthSignalHeader`. -/
def isAuthSignalHeader (loweredName : Bytes) : Bool :=
  loweredName = bytes "authorization" || loweredName = bytes "proxy-authorization" ||
    (breakOn (bytes "auth") loweredName).isSome || (breakOn (bytes "token") loweredName).isSome ||
    (breakOn (bytes "api-key") loweredName).isSome || (breakOn (bytes "apikey") loweredName).isSome

def kBearerPrefix : Bytes := "bearer "

def bearerToken (trimmedValue : Bytes) : Option Bytes :=
  if kBearerPrefix.isPrefixOf (toLowerAscii trimmedValue) ∧ trimmedValue.length > kBearerPrefix.length then
    some (trimAsciiWhitespace (trimmedValue.drop kBearerPrefix.length))
  else none

/-- What the loop of `ExtractAuthMetadata` assigns for one header. -/
def authAssignments (loweredName value : Bytes) : List (Bytes × Bytes) :=
  (if loweredName = bytes "authorization" then
      (bytes "authorization", trimAsciiWhitespace value) ::
        (bearerToken (trimAsciiWhitespace value)).toList.map fun token => (bytes "bearer_token", token)
    else []) ++
  (if loweredName = bytes "x-api-key" then [(bytes "api_key", value)] else []) ++
  (if loweredName = bytes "x-forwarded-client-cert" then [(bytes "mtls_client_cert", value)] else []) ++
  if isAuthSignalHeader loweredName then [(bytes "header." ++ loweredName, value)] else []

def allAssignments (headers : HttpHeaders) : List (Bytes × Bytes) :=
  headers.rows.flatMap fun header => authAssignments (toLowerAscii header.1) header.2

/-- `ExtractAuthMetadata`. -/
def extractAuthMetadata (headers : HttpHeaders) : HttpHeaders := (allAssignments headers).foldl Table.put .empty

/-! ## What a key of the metadata comes from -/

def sourceOf (key : Bytes) : Bytes :=
  if key = bytes "authorization" ∨ key = bytes "bearer_token" then "authorization"
  else if key = bytes "api_key" then "x-api-key"
  else if key = bytes "mtls_client_cert" then "x-forwarded-client-cert"
  else key.drop 7

def valueOf (key value : Bytes) : Bytes :=
  if key = bytes "authorization" then trimAsciiWhitespace value
  else if key = bytes "bearer_token" then (bearerToken (trimAsciiWhitespace value)).getD []
  else value

theorem header_ne {name key : Bytes} (h : key.take 7 ≠ bytes "header.") : bytes "header." ++ name ≠ key := by
  rintro rfl
  exact h (take_left' (by decide +kernel))

/-- Each key is taken from one header only. -/
theorem of_mem_authAssignments {name value : Bytes} {row : Bytes × Bytes} (h : row ∈ authAssignments name value) :
    sourceOf row.1 = name ∧ row.2 = valueOf row.1 value ∧
      (row.1 = bytes "bearer_token" → bearerToken (trimAsciiWhitespace value) = some row.2) := by
  have hkeys : [bytes "authorization", bytes "bearer_token", bytes "api_key", bytes "mtls_client_cert"].Nodup := by
    decide +kernel
  have hbearer : bytes "bearer_token" ≠ bytes "authorization" := by decide +kernel
  have hheader : ∀ key ∈ [bytes "authorization", bytes "bearer_token", bytes "api_key", bytes "mtls_client_cert"],
      bytes "header." ++ name ≠ key := by
    intro key hkey
    apply header_ne
    revert key
    decide +kernel
  unfold authAssignments at h
  rw [mem_append, mem_append, mem_append] at h
  rcases h with ((h | h) | h) | h <;> split_ifs at h with hname <;> try exact absurd h not_mem_nil
  · subst hname
    rcases mem_cons.mp h with rfl | h
    · exact ⟨if_pos (.inl rfl), (if_pos rfl).symm, fun hkey => absurd hkey.symm hbearer⟩
    · obtain ⟨token, htoken, rfl⟩ := mem_map.mp h
      have hsome := Option.mem_toList.mp htoken
      exact ⟨if_pos (.inr rfl), by simp_all [valueOf], fun _ => hsome⟩
  · obtain rfl := mem_singleton.mp h
    simp_all [sourceOf, valueOf, eq_comm]
  · obtain rfl := mem_singleton.mp h
    simp_all [sourceOf, valueOf, eq_comm]
  · obtain rfl := mem_singleton.mp h
    have hlength : (bytes "header.").length = 7 := by decide +kernel
    simp only [mem_cons, not_mem_nil, or_false, forall_eq_or_imp, forall_eq] at hheader
    simp [sourceOf, valueOf, hheader, drop_left' hlength]

theorem eq_of_mem_authAssignments {name value : Bytes} {a b : Bytes × Bytes}
    (ha : a ∈ authAssignments name value) (hb : b ∈ authAssignments name value) (hkey : a.1 = b.1) :
    a = b := by
  have hvalue := (of_mem_authAssignments ha).2.1
  have hvalue' := (of_mem_authAssignments hb).2.1
  exact Prod.ext hkey (by rw [hvalue, hvalue', hkey])

/-! ## Orders of the map -/

/-- What the server looks up with `FindHeaderValue`. -/
def lookedUpNames : List Bytes := [kContentTypeHeaderName, kVersionHeaderName, kExtensionsHeaderName]

/-- A lookup or `ExtractAuthMetadata` reads the headers of this name. -/
def IsConsulted (loweredName : Bytes) : Prop :=
  loweredName ∈ lookedUpNames.map toLowerAscii ∨ loweredName = bytes "x-forwarded-client-cert" ∨
    isAuthSignalHeader loweredName = true

/-- Consulted headers that have one name, up to case, have one value. -/
def SameValues (headers : HttpHeaders) : Prop :=
  ∀ row ∈ headers.rows, ∀ other ∈ headers.rows, IsConsulted (toLowerAscii row.1) →
    toLowerAscii row.1 = toLowerAscii other.1 → row.2 = other.2

/-- No lookup and no metadata depend on the order of the map, and the token is the reported
header's. -/
def OrderFree (headers : HttpHeaders) : Prop :=
  ∀ order : HttpHeaders, order.rows.Perm headers.rows →
    (∀ name ∈ lookedUpNames, findHeaderValue order name = findHeaderValue headers name) ∧
    (∀ key, (extractAuthMetadata order).find key = (extractAuthMetadata headers).find key) ∧
    ∀ token, (bytes "bearer_token", token) ∈ (extractAuthMetadata order).rows →
      ∃ value, (bytes "authorization", value) ∈ (extractAuthMetadata order).rows ∧
        bearerToken value = some token

variable {headers order : HttpHeaders}

/-- A header that leaves something in the metadata is consulted. -/
theorem isConsulted_of_mem {name value : Bytes} {row : Bytes × Bytes}
    (h : row ∈ authAssignments name value) : IsConsulted name := by
  by_contra hname
  simp only [IsConsulted, not_or] at hname
  obtain ⟨-, hcert, hsignal⟩ := hname
  have hsignals : isAuthSignalHeader (bytes "authorization") ∧
      isAuthSignalHeader (bytes "x-api-key") := by decide +kernel
  have hauthorization : name ≠ bytes "authorization" := fun h => hsignal (h ▸ hsignals.1)
  have hkey : name ≠ bytes "x-api-key" := fun h => hsignal (h ▸ hsignals.2)
  simp [authAssignments, hcert, hsignal, hauthorization, hkey] at h

section

variable (h : SameValues headers)

include h

theorem SameValues.perm (hperm : order.rows.Perm headers.rows) : SameValues order :=
  fun row hrow other hother => h row (hperm.mem_iff.mp hrow) other (hperm.mem_iff.mp hother)

/-- A lookup answers with the value of any header of the name. -/
theorem SameValues.findHeaderValue_iff {name value : Bytes} (hname : name ∈ lookedUpNames) :
    findHeaderValue headers name = some value ↔
      ∃ row ∈ headers.rows, toLowerAscii row.1 = toLowerAscii name ∧ row.2 = value := by
  unfold findHeaderValue
  rw [Option.map_eq_some_iff]
  constructor
  · rintro ⟨row, hfind, rfl⟩
    refine ⟨row, mem_of_find?_eq_some hfind, ?_, rfl⟩
    simpa [equalsAsciiCaseInsensitive] using List.find?_some hfind
  · rintro ⟨row, hrow, hsame, rfl⟩
    have hsome : (headers.rows.find? fun header => equalsAsciiCaseInsensitive header.1 name).isSome :=
      List.find?_isSome.mpr ⟨row, hrow, by simpa [equalsAsciiCaseInsensitive] using hsame⟩
    obtain ⟨first, hfirst⟩ := Option.isSome_iff_exists.mp hsome
    have hfound : toLowerAscii first.1 = toLowerAscii name := by
      simpa [equalsAsciiCaseInsensitive] using List.find?_some hfirst
    have hconsulted : IsConsulted (toLowerAscii first.1) := .inl (hfound ▸ mem_map_of_mem hname)
    exact ⟨first, hfirst, h first (mem_of_find?_eq_some hfirst) row hrow hconsulted
      (hfound.trans hsame.symm)⟩

/-- Nothing is assigned twice with different values. -/
theorem SameValues.mem_extractAuthMetadata {row : Bytes × Bytes} :
    row ∈ (extractAuthMetadata headers).rows ↔ row ∈ allAssignments headers := by
  have hkeys : ∀ a ∈ allAssignments headers, ∀ b ∈ allAssignments headers, a.1 = b.1 → a = b := by
    intro a ha b hb hkey
    obtain ⟨row, hrow, ha⟩ := mem_flatMap.mp ha
    obtain ⟨other, hother, hb⟩ := mem_flatMap.mp hb
    have hname := (of_mem_authAssignments ha).1
    have hname' := (of_mem_authAssignments hb).1
    have hsame : toLowerAscii row.1 = toLowerAscii other.1 := by rw [← hname, ← hname', hkey]
    have hvalue := h row hrow other hother (isConsulted_of_mem ha) hsame
    rw [hsame, hvalue] at ha
    exact eq_of_mem_authAssignments ha hb hkey
  rw [extractAuthMetadata, Table.mem_foldl_put hkeys]
  simp [Table.empty]

theorem orderFree_of_sameValues : OrderFree headers := by
  intro order hperm
  have horder := h.perm hperm
  refine ⟨fun name hname => ?_, fun key => ?_, fun token htoken => ?_⟩
  · apply Option.ext
    intro value
    rw [h.findHeaderValue_iff hname, horder.findHeaderValue_iff hname]
    simp only [hperm.mem_iff]
  · apply Option.ext
    intro row
    rw [Table.find_eq_some_iff, Table.find_eq_some_iff, h.mem_extractAuthMetadata,
      horder.mem_extractAuthMetadata, allAssignments, allAssignments,
      (hperm.flatMap_right _).mem_iff]
  · simp only [horder.mem_extractAuthMetadata] at htoken ⊢
    obtain ⟨row, hrow, hassigned⟩ := mem_flatMap.mp htoken
    obtain ⟨hsource, -, hbearer⟩ := of_mem_authAssignments hassigned
    have hname : toLowerAscii row.1 = bytes "authorization" := hsource.symm
    refine ⟨trimAsciiWhitespace row.2, mem_flatMap.mpr ⟨row, hrow, ?_⟩, hbearer rfl⟩
    simp [authAssignments, hname]

end

section

variable (h : OrderFree headers) {r : Bytes × Bytes} (hr : r ∈ headers.rows)

include h hr

/-- The map may have any header first, and a lookup finds that one. -/
theorem OrderFree.findHeaderValue_eq {name : Bytes} (hname : name ∈ lookedUpNames)
    (hsame : toLowerAscii r.1 = toLowerAscii name) : findHeaderValue headers name = some r.2 := by
  have hperm : (r :: headers.rows.erase r).Perm headers.rows := (perm_cons_erase hr).symm
  rw [← (h ⟨r :: headers.rows.erase r, ((hperm.map _).nodup_iff).mpr headers.unique⟩ hperm).1 name
    hname]
  simp [findHeaderValue, equalsAsciiCaseInsensitive, hsame]

/-- The map may have any header last, and the metadata are that one's. -/
theorem OrderFree.find_extractAuthMetadata {key : Bytes}
    (hassigned : (key, r.2) ∈ authAssignments (toLowerAscii r.1) r.2) :
    (extractAuthMetadata headers).find key = some (key, r.2) := by
  have hperm : (headers.rows.erase r ++ [r]).Perm headers.rows :=
    (perm_append_singleton _ _).trans (perm_cons_erase hr).symm
  rw [← (h ⟨headers.rows.erase r ++ [r], ((hperm.map _).nodup_iff).mpr headers.unique⟩ hperm).2.1 key,
    Table.find_eq_some_iff, and_iff_left rfl]
  simp only [extractAuthMetadata, allAssignments, flatMap_append, foldl_append]
  rw [flatMap_singleton, Table.mem_foldl_put fun a ha b hb => eq_of_mem_authAssignments ha hb]
  exact .inl hassigned

end

theorem sameValues_of_orderFree (h : OrderFree headers) : SameValues headers := by
  intro row hrow other hother hconsulted hname
  have hassigned (key : Bytes)
      (hkey : ∀ value, (key, value) ∈ authAssignments (toLowerAscii row.1) value) : row.2 = other.2 := by
    have hfirst := h.find_extractAuthMetadata hrow (hkey row.2)
    have hsecond := h.find_extractAuthMetadata hother (hname ▸ hkey other.2)
    exact (Prod.ext_iff.mp (Option.some.inj (hfirst.symm.trans hsecond))).2
  rcases hconsulted with hlookup | hcert | hsignal
  · obtain ⟨name, hmem, hsame⟩ := mem_map.mp hlookup
    have hfirst := h.findHeaderValue_eq hrow hmem hsame.symm
    have hsecond := h.findHeaderValue_eq hother hmem (hname.symm.trans hsame.symm)
    exact Option.some.inj (hfirst.symm.trans hsecond)
  · exact hassigned "mtls_client_cert" fun value => by simp [authAssignments, hcert]
  · exact hassigned (bytes "header." ++ toLowerAscii row.1) fun value => by
      simp [authAssignments, hsignal]

/-- What a request says about its sender does not depend on the order of its map exactly if the
consulted headers of one name have one value. -/
theorem request_metadata_is_orderFree_iff {options : HttpAdapterOptions} {remoteAddress : Bytes}
    {connection connection' : HttpConnection} {request : HttpServerRequest}
    (_ : HttpAdapter.readRequest options remoteAddress connection = (.ok request, connection')) :
    OrderFree request.headers ↔ SameValues request.headers :=
  ⟨sameValues_of_orderFree, orderFree_of_sameValues⟩

theorem exists_of_rows {answer : Result HttpServerRequest × HttpConnection} {rows : List (Bytes × Bytes)}
    (h : (answer.1.map fun request => request.headers.rows) = .ok rows) :
    ∃ request connection, answer = (.ok request, connection) ∧ request.headers.rows = rows := by
  obtain ⟨result, connection⟩ := answer
  cases result with
  | error e => nomatch h
  | ok request => exact ⟨request, connection, rfl, Except.ok.inj h⟩

/-- Headers that nobody consults may be ambiguous. -/
theorem single_authorization_is_orderFree :
    ∃ request connection', HttpAdapter.readRequest {} []
          ⟨[.ok "GET / HTTP/1.1\r\nAuthorization: Bearer a\r\nX-Trace: 1\r\nx-trace: 2\r\n\r\n"], []⟩ =
        (.ok request, connection') ∧ OrderFree request.headers := by
  have hrows : ((HttpAdapter.readRequest {} []
      ⟨[.ok "GET / HTTP/1.1\r\nAuthorization: Bearer a\r\nX-Trace: 1\r\nx-trace: 2\r\n\r\n"], []⟩).1.map
      fun request => request.headers.rows) = .ok [(bytes "Authorization", bytes "Bearer a"),
        (bytes "X-Trace", bytes "1"), (bytes "x-trace", bytes "2")] := by
    decide +kernel
  have htrace : ¬ IsConsulted (bytes "x-trace") := by
    simp only [IsConsulted, not_or]
    decide +kernel
  have hnames : toLowerAscii (bytes "X-Trace") = bytes "x-trace" ∧
      toLowerAscii (bytes "x-trace") = bytes "x-trace" ∧
      toLowerAscii (bytes "Authorization") ≠ bytes "x-trace" := by decide +kernel
  obtain ⟨request, connection', h, hrows⟩ := exists_of_rows hrows
  refine ⟨request, connection', h, (request_metadata_is_orderFree_iff h).mpr ?_⟩
  rw [SameValues, hrows]
  simp only [mem_cons, not_mem_nil, or_false, forall_eq_or_imp, forall_eq, hnames, htrace,
    false_imp_iff, and_true, implies_true]

/-- Two spellings: the map decides which one is the sender's, and in this order the token is not that of the header. -/
theorem two_spellings_are_ambiguous :
    ∃ request connection', HttpAdapter.readRequest {} []
          ⟨[.ok "GET / HTTP/1.1\r\nAuthorization: Bearer a\r\nauthorization: Basic b\r\n\r\n"], []⟩ =
        (.ok request, connection') ∧ ¬ OrderFree request.headers ∧
      (extractAuthMetadata request.headers).find "authorization" = some (bytes "authorization", bytes "Basic b") ∧
      (extractAuthMetadata request.headers).find "bearer_token" = some (bytes "bearer_token", bytes "a") := by
  have hrows : ((HttpAdapter.readRequest {} []
      ⟨[.ok "GET / HTTP/1.1\r\nAuthorization: Bearer a\r\nauthorization: Basic b\r\n\r\n"], []⟩).1.map
      fun request => request.headers.rows) =
        .ok [(bytes "Authorization", bytes "Bearer a"), (bytes "authorization", bytes "Basic b")] := by
    decide +kernel
  obtain ⟨request, connection', h, hrows⟩ := exists_of_rows hrows
  have hmetadata : extractAuthMetadata request.headers = List.foldl Table.put .empty
      ([(bytes "Authorization", bytes "Bearer a"), (bytes "authorization", bytes "Basic b")].flatMap
        fun header => authAssignments (toLowerAscii header.1) header.2) := by
    rw [extractAuthMetadata, allAssignments, hrows]
  refine ⟨request, connection', h, fun hfree => ?_, by rw [hmetadata]; decide +kernel, by rw [hmetadata]; decide +kernel⟩
  have hsame := sameValues_of_orderFree hfree
  rw [SameValues, hrows] at hsame
  have hvalues := hsame _ List.mem_cons_self _ (List.mem_cons_of_mem _ List.mem_cons_self)
    (.inr (.inr (by decide +kernel))) (by decide +kernel)
  exact absurd hvalues (by decide +kernel)

end A2A.Server.Transport
