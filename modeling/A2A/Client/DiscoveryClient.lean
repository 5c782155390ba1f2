/-
# The cache of verified Agent Cards (`discovery.cpp`).
-/
import A2A.Client.Discovery
import A2A.Core.StringUtils
import A2A.Foundation.Machine
import A2A.Foundation.Table

namespace A2A.Client

open A2A.Foundation
open A2A.Core
open A2A.Core.ProtoJson

/-- `HttpResponse`. -/
structure HttpResponse where
  statusCode : Int
  body : Bytes

/-- `HttpFetcher`, for one call. -/
abbrev HttpFetcher := Bytes → Result HttpResponse

/-- An `AgentCardVerifier` whose answer depends on the moment of the call. -/
abbrev ChangingVerifier := Nat → Bytes → Result Unit

/-- `DiscoveryClient::CacheEntry`, with the key it is stored under. -/
structure CacheEntry where
  url : Bytes
  card : ProtoJson.Value
  json : Bytes
  expiresAt : Int

/-- `DiscoveryClient`; `moment` counts the calls of the verifiers. -/
structure DiscoveryClient where
  verifier : Option ChangingVerifier := none
  cacheTtl : Int
  cache : Table CacheEntry.url := .empty
  moment : Nat := 0

namespace DiscoveryClient

/-! ## The addresses -/

def kAgentCard : Bytes := "/.well-known/agent-card.json"
def kExtendedAgentCard : Bytes := "/extendedAgentCard"

/-- `BuildDiscoveryUrl` and `BuildExtendedDiscoveryUrl`, but for path and error text. -/
def buildUrl (path required : Bytes) (baseUrl : Bytes) : Result Bytes :=
  let normalized := trimAsciiWhitespace baseUrl
  if normalized.isEmpty then .error (.validation required)
  else if !((bytes "http://").isPrefixOf normalized || (bytes "https://").isPrefixOf normalized) then
    .error (.validation "Base URL must start with http:// or https://")
  else .ok (normalized.rdropWhile (· = 47) ++ path)

def buildDiscoveryUrl : Bytes → Result Bytes :=
  buildUrl kAgentCard "Base URL is required for Agent Card discovery"

def buildExtendedDiscoveryUrl : Bytes → Result Bytes :=
  buildUrl kExtendedAgentCard "Base URL is required for extended Agent Card discovery"

def receive (notFound failed : Bytes) (response : HttpResponse) : Result Bytes :=
  if response.statusCode = 404 then .error (((Error.remoteProtocol notFound).withTransport "http").withHttpStatus 404)
  else if response.statusCode < 200 ∨ 299 < response.statusCode then
    .error (((Error.remoteProtocol failed).withTransport "http").withHttpStatus response.statusCode)
  else .ok response.body

/-! ## The calls -/

section Calls

variable (protobuf : Protobuf) (simdjson : Simdjson) (client : DiscoveryClient)

/-- `SetAgentCardVerifier`. -/
def setAgentCardVerifier (verifier : Option ChangingVerifier) : DiscoveryClient :=
  { client with verifier, cache := .empty }

/-- The verifier, as it is at this moment. -/
def current : AgentCardVerifier := client.verifier.map fun verifier => verifier client.moment

/-- The verifier has been called once more. -/
def tick : DiscoveryClient := { client with moment := client.moment + 1 }

/-- `cache_.erase`, after the verifier has been called. -/
def forget (url : Bytes) : DiscoveryClient := { client.tick with cache := client.cache.delete url }

/-- The first half of `Fetch`: a cached card that is current and passes the verifier. -/
def lookup (url : Bytes) (now : Int) : Option ProtoJson.Value × DiscoveryClient :=
  match client.cache.find url with
  | none => (none, client)
  | some entry =>
    if entry.expiresAt < now then (none, client)
    else
      match client.current.verify entry.json with
      | .ok () => (some entry.card, client.tick)
      | .error _ => (none, client.forget url)

/-- The second half of `Fetch`. -/
def refresh (url : Bytes) (now : Int) (fetcher : HttpFetcher) : Result ProtoJson.Value × DiscoveryClient :=
  match (fetcher url).bind
    (receive "Agent Card not found at well-known discovery endpoint" "Agent Card discovery failed") with
  | .error e => (.error e, client)
  | .ok body =>
    match verifyAndParseAgentCard client.current protobuf simdjson body with
    | .error e => (.error e, client.tick)
    | .ok card =>
      (.ok card, { client.tick with cache := client.cache.put ⟨url, card, body, now + client.cacheTtl⟩ })

/-- `Fetch`. -/
def fetch (baseUrl : Bytes) (now : Int) (fetcher : HttpFetcher) : Result ProtoJson.Value × DiscoveryClient :=
  match buildDiscoveryUrl baseUrl with
  | .error e => (.error e, client)
  | .ok url =>
    match client.lookup url now with
    | (some card, client) => (.ok card, client)
    | (none, client) => refresh protobuf simdjson client url now fetcher

/-- `FetchExtendedAgentCard`. -/
def fetchExtendedAgentCard (baseUrl : Bytes) (fetcher : HttpFetcher) : Result ProtoJson.Value × DiscoveryClient :=
  match (buildExtendedDiscoveryUrl baseUrl).bind fun url => (fetcher url).bind
    (receive "Extended Agent Card not found at discovery endpoint" "Extended Agent Card discovery failed") with
  | .error e => (.error e, client)
  | .ok body => (verifyAndParseAgentCard client.current protobuf simdjson body, client.tick)

inductive Request where
  | fetch (baseUrl : Bytes) (now : Int) (fetcher : HttpFetcher)
  | fetchExtendedAgentCard (baseUrl : Bytes) (fetcher : HttpFetcher)

def answer : Request → Result ProtoJson.Value × DiscoveryClient
  | .fetch baseUrl now fetcher => client.fetch protobuf simdjson baseUrl now fetcher
  | .fetchExtendedAgentCard baseUrl fetcher => client.fetchExtendedAgentCard protobuf simdjson baseUrl fetcher

inductive Call where
  | request (request : Request)
  | setAgentCardVerifier (verifier : Option ChangingVerifier)

def machine (cacheTtl : Int) : Machine DiscoveryClient Call where
  start := { cacheTtl }
  step
    | client, .request request => some (client.answer protobuf simdjson request).2
    | client, .setAgentCardVerifier verifier => some (client.setAgentCardVerifier verifier)

end Calls

/-! ## What is returned -/

section Returned

variable {protobuf : Protobuf} {simdjson : Simdjson} {client client' : DiscoveryClient} {card : ProtoJson.Value}
  {url : Bytes} {now : Int} {fetcher : HttpFetcher}

variable {verifier : ChangingVerifier}

theorem verifyAndParseAgentCard_eq_ok {verifier : AgentCardVerifier} {json : Bytes}
    (h : verifyAndParseAgentCard verifier protobuf simdjson json = .ok card) :
    verifier.verify json = .ok () ∧ verifyAndParseAgentCard none protobuf simdjson json = .ok card := by
  obtain ⟨_, hverified, hparsed⟩ := ok_of_bind h
  exact ⟨hverified, hparsed⟩

theorem current_verify (h : client.verifier = some verifier) (json : Bytes) :
    client.current.verify json = verifier client.moment json := by
  rw [current, h]
  rfl

theorem answer_verifier (request : Request) : (client.answer protobuf simdjson request).2.verifier = client.verifier := by
  have hlookup (url : Bytes) (now : Int) : (client.lookup url now).2.verifier = client.verifier := by
    unfold lookup
    split
    · rfl
    · split_ifs
      · rfl
      · split <;> rfl
  cases request with
  | fetch baseUrl now fetcher =>
    unfold answer fetch
    dsimp only
    split
    · rfl
    · rename_i url _
      have hsame := hlookup url now
      split <;> rename_i heq <;> rw [heq] at hsame
      · exact hsame
      · unfold refresh
        split
        · exact hsame
        · split <;> exact hsame
  | fetchExtendedAgentCard baseUrl fetcher =>
    unfold answer fetchExtendedAgentCard
    dsimp only
    split <;> rfl

/-- Every entry holds the validated parse of its text. -/
def Parsed (protobuf : Protobuf) (simdjson : Simdjson) (client : DiscoveryClient) : Prop :=
  ∀ entry ∈ client.cache.rows, verifyAndParseAgentCard none protobuf simdjson entry.json = .ok entry.card

theorem lookup_spec (h : Parsed protobuf simdjson client) (url : Bytes) (now : Int) :
    Parsed protobuf simdjson (client.lookup url now).2 ∧ (client.lookup url now).2.verifier = client.verifier ∧
      client.moment ≤ (client.lookup url now).2.moment ∧
      ∀ card, (client.lookup url now).1 = some card → (client.lookup url now).2.moment = client.moment + 1 ∧
        ∃ json, client.current.verify json = .ok () ∧ verifyAndParseAgentCard none protobuf simdjson json = .ok card := by
  unfold lookup
  split
  · exact ⟨h, rfl, le_rfl, nofun⟩
  · rename_i entry hfind
    split_ifs
    · exact ⟨h, rfl, le_rfl, nofun⟩
    · have hentry := (Table.find_eq_some_iff.mp hfind).1
      split
      · rename_i hverified
        refine ⟨h, rfl, Nat.le_succ _, ?_⟩
        rintro card ⟨⟩
        exact ⟨rfl, entry.json, hverified, h entry hentry⟩
      · exact ⟨fun kept hkept => h kept (Table.mem_delete.mp hkept).1, rfl, Nat.le_succ _, nofun⟩

/-- A refresh fails and leaves the cache, or stores the card that it has verified. -/
theorem refresh_spec (h : Parsed protobuf simdjson client) (url : Bytes) (now : Int) (fetcher : HttpFetcher) :
    Parsed protobuf simdjson (client.refresh protobuf simdjson url now fetcher).2 ∧
      ((∃ e, (client.refresh protobuf simdjson url now fetcher).1 = .error e ∧
          (client.refresh protobuf simdjson url now fetcher).2.cache = client.cache) ∨
        ∃ response card, fetcher url = .ok response ∧ client.current.verify response.body = .ok () ∧
          verifyAndParseAgentCard none protobuf simdjson response.body = .ok card ∧
          client.refresh protobuf simdjson url now fetcher =
            (.ok card,
              { client.tick with cache := client.cache.put ⟨url, card, response.body, now + client.cacheTtl⟩ })) := by
  unfold refresh
  split
  · exact ⟨h, .inl ⟨_, rfl, rfl⟩⟩
  · rename_i body hbody
    obtain ⟨response, hresponse, hreceived⟩ := ok_of_bind hbody
    obtain rfl : response.body = body := by
      unfold receive at hreceived
      split_ifs at hreceived
      exact Except.ok.inj hreceived
    split
    · exact ⟨h, .inl ⟨_, rfl, rfl⟩⟩
    · rename_i card hcard
      obtain ⟨hverified, hparsed⟩ := verifyAndParseAgentCard_eq_ok hcard
      refine ⟨fun entry hentry => ?_, .inr ⟨response, card, hresponse, hverified, hparsed, rfl⟩⟩
      rcases Table.mem_put.mp hentry with rfl | hkept
      · exact hparsed
      · exact h entry hkept.1

theorem parsed_of_reachable {cacheTtl : Int} (h : (machine protobuf simdjson cacheTtl).Reachable client) :
    Parsed protobuf simdjson client := by
  have hstart : Parsed protobuf simdjson (machine protobuf simdjson cacheTtl).start := nofun
  refine h.invariant hstart fun client call client' hparsed hstep => ?_
  cases call with
  | setAgentCardVerifier verifier =>
    cases hstep
    nofun
  | request request =>
    cases hstep
    cases request with
    | fetch baseUrl now fetcher =>
      unfold answer fetch
      dsimp only
      split
      · exact hparsed
      · rename_i url _
        have hlookup := (lookup_spec hparsed url now).1
        split
        · simp_all only
        · rename_i heq
          rw [heq] at hlookup
          exact (refresh_spec hlookup url now fetcher).1
    | fetchExtendedAgentCard baseUrl fetcher =>
      unfold answer fetchExtendedAgentCard
      dsimp only
      split <;> exact hparsed

/-- The verifier accepted the text of the card between the two moments. -/
def VerifiedBetween (protobuf : Protobuf) (simdjson : Simdjson) (verifier : ChangingVerifier) (first last : Nat)
    (card : ProtoJson.Value) : Prop :=
  ∃ moment json, first ≤ moment ∧ moment < last ∧ verifier moment json = .ok () ∧
    verifyAndParseAgentCard none protobuf simdjson json = .ok card

/-- A card that `Fetch` returns was verified during the call. -/
theorem fetch_verified (hparsed : Parsed protobuf simdjson client) (hverifier : client.verifier = some verifier)
    {baseUrl : Bytes} (h : client.fetch protobuf simdjson baseUrl now fetcher = (.ok card, client')) :
    VerifiedBetween protobuf simdjson verifier client.moment client'.moment card := by
  unfold fetch at h
  split at h
  · cases congrArg Prod.fst h
  · rename_i url _
    obtain ⟨hkept, hsame, hmoment, hcached⟩ := lookup_spec hparsed url now
    split at h
    · rename_i heq
      obtain ⟨hcard, rfl⟩ := Prod.mk.inj h
      rw [heq, Except.ok.inj hcard] at hcached
      obtain ⟨htick, json, hverified, hjson⟩ := hcached card rfl
      rw [current_verify hverifier] at hverified
      exact ⟨client.moment, json, le_rfl, htick ▸ Nat.lt_succ_self _, hverified, hjson⟩
    · rename_i next heq
      rw [heq] at hkept hsame hmoment
      rcases (refresh_spec hkept url now fetcher).2 with ⟨e, herror, -⟩ | ⟨response, card', -, hverified, hjson, heq'⟩
      · cases herror.symm.trans (congrArg Prod.fst h)
      · obtain ⟨hcard, rfl⟩ := Prod.mk.inj (heq'.symm.trans h)
        cases hcard
        rw [current_verify (hsame.trans hverifier)] at hverified
        exact ⟨next.moment, response.body, hmoment, Nat.lt_succ_self _, hverified, hjson⟩

/-- While a verifier is installed, a card that is returned is the validated parse of a text that this verifier accepts
during the call. If it rejects the text in the cache, the card is fetched again or there is none. -/
theorem returned_cards_are_verified {cacheTtl : Int} (h : (machine protobuf simdjson cacheTtl).Reachable client)
    {verifier : ChangingVerifier} (hverifier : client.verifier = some verifier) :
    (∀ request card client', client.answer protobuf simdjson request = (.ok card, client') →
      VerifiedBetween protobuf simdjson verifier client.moment client'.moment card) ∧
    ∀ baseUrl url now fetcher entry e, buildDiscoveryUrl baseUrl = .ok url → client.cache.find url = some entry →
      now ≤ entry.expiresAt → verifier client.moment entry.json = .error e →
      (∃ error client', client.fetch protobuf simdjson baseUrl now fetcher = (.error error, client') ∧
        client'.cache.find url = none) ∨
      ∃ response card client', fetcher url = .ok response ∧ verifier (client.moment + 1) response.body = .ok () ∧
        verifyAndParseAgentCard none protobuf simdjson response.body = .ok card ∧
        client.fetch protobuf simdjson baseUrl now fetcher = (.ok card, client') ∧
        client'.cache.find url = some ⟨url, card, response.body, now + client.cacheTtl⟩ := by
  have hparsed := parsed_of_reachable h
  refine ⟨fun request card client' hanswer => ?_, ?_⟩
  · cases request with
    | fetch baseUrl now fetcher => exact fetch_verified hparsed hverifier hanswer
    | fetchExtendedAgentCard baseUrl fetcher =>
      simp only [answer, fetchExtendedAgentCard] at hanswer
      split at hanswer
      · cases congrArg Prod.fst hanswer
      · rename_i json _
        obtain ⟨hcard, rfl⟩ := Prod.mk.inj hanswer
        obtain ⟨hverified, hcard⟩ := verifyAndParseAgentCard_eq_ok hcard
        rw [current_verify hverifier] at hverified
        exact ⟨client.moment, json, le_rfl, Nat.lt_succ_self _, hverified, hcard⟩
  · intro baseUrl url now fetcher entry e hurl hfind hvalid hrejected
    have hlookup : client.lookup url now = (none, client.forget url) := by
      unfold lookup
      simp only [hfind, if_neg (not_lt.mpr hvalid), current_verify hverifier, hrejected]
    have hfetch : client.fetch protobuf simdjson baseUrl now fetcher =
        refresh protobuf simdjson (client.forget url) url now fetcher := by
      unfold fetch
      simp only [hurl, hlookup]
    have hkept := (lookup_spec hparsed url now).1
    rw [hlookup] at hkept
    rw [hfetch]
    rcases (refresh_spec hkept url now fetcher).2 with ⟨error, herror, hcache⟩ |
      ⟨response, card, hresponse, hverified, hcard, heq⟩
    · refine .inl ⟨error, _, Prod.ext herror rfl, ?_⟩
      rw [hcache]
      exact Table.find_delete_self url
    · have hforgotten : (client.forget url).verifier = some verifier := hverifier
      rw [current_verify hforgotten] at hverified
      exact .inr ⟨response, card, _, hresponse, hverified, hcard, heq, Table.find_put_self _⟩

end Returned

/-- A verifier that trusts every key once and none afterwards. -/
def trustsOnce : ChangingVerifier := fun moment _ => if moment = 0 then .ok () else .error (.validation kInvalidSignature)

/-- A client that fetched a card before its key was withdrawn. -/
def trustingClient : DiscoveryClient := (setAgentCardVerifier { cacheTtl := 300 } (some trustsOnce)).answer plainProtobuf
  (Cards.reader Cards.plain Cards.reordered) (.fetch "https://agent" 0 fun _ => .ok ⟨200, Cards.text Cards.plain⟩) |>.2

/-- A cached card that no longer verifies is dropped, and the failed fetch is reported. -/
theorem withdrawn_card_is_not_returned : ∃ error client',
    (trustingClient.cache.find "https://agent/.well-known/agent-card.json").isSome = true ∧
    trustingClient.fetch plainProtobuf (Cards.reader Cards.plain Cards.reordered) "https://agent" 1
      (fun _ => .error (.network "unreachable")) = (.error error, client') ∧
    client'.cache.find "https://agent/.well-known/agent-card.json" = none := by
  have hcached : (trustingClient.cache.find "https://agent/.well-known/agent-card.json").map CacheEntry.expiresAt =
      some 300 := by decide +kernel
  have hmoment : trustingClient.moment = 1 := by decide +kernel
  obtain ⟨entry, hfind, hexpires⟩ := Option.map_eq_some_iff.mp hcached
  have hreachable : (machine plainProtobuf (Cards.reader Cards.plain Cards.reordered) 300).Reachable trustingClient :=
    ⟨[.setAgentCardVerifier (some trustsOnce),
      .request (.fetch "https://agent" 0 fun _ => .ok ⟨200, Cards.text Cards.plain⟩)], rfl⟩
  have hrejected : trustsOnce trustingClient.moment entry.json = .error (.validation kInvalidSignature) := by
    rw [hmoment]
    rfl
  have hurl : buildDiscoveryUrl "https://agent" = .ok "https://agent/.well-known/agent-card.json" := by decide +kernel
  have hverifier : trustingClient.verifier = some trustsOnce := by
    unfold trustingClient
    rw [answer_verifier]
    rfl
  have hreturned := (returned_cards_are_verified hreachable hverifier).2 "https://agent" _ 1
    (fun _ => .error (.network "unreachable")) entry _ hurl hfind (by omega) hrejected
  rcases hreturned with ⟨error, client', hfetch, hgone⟩ | ⟨response, _, _, hresponse, _⟩
  · exact ⟨error, client', Option.isSome_of_eq_some hfind, hfetch, hgone⟩
  · cases hresponse

end DiscoveryClient

end A2A.Client
