/-
# Form-encoded queries.
-/
import A2A.Server.Transport.RestBasePath
import A2A.Server.Transport.RestQueries

namespace A2A.Server.Transport

open A2A.Foundation A2A.Core A2A.Server.Dispatch RestServerTransport

variable {options : RestServerTransportOptions} {bodies : RequestBodies} {request : HttpServerRequest}
  {path query : Bytes}

variable {dispatch : DispatchRequest}

theorem spellsField_formEncode (plus : Bool) (field : Bytes × Bytes) :
    SpellsField (formEncode plus field.1, formEncode plus field.2) field where
  name := spells_formEncode plus field.1
  value := spells_formEncode plus field.2
  notInName := ⟨notMem_formEncode (by cases plus <;> decide) rfl (by decide) _,
    notMem_formEncode (by cases plus <;> decide) rfl (by decide) _⟩
  notInValue := notMem_formEncode (by cases plus <;> decide) rfl (by decide) _

/-- A query some key or value of which has a percent sign that starts no escape. -/
def HasMalformedEscape (query : Bytes) : Prop :=
  ∃ part ∈ splitOn [38] query, HasStrayPercent (splitParameter part).1 ∨ HasStrayPercent (splitParameter part).2

theorem not_parseQueryString (h : HasMalformedEscape query) : ∃ e, parseQueryString query = .error e := by
  obtain ⟨part, hpart, hstray⟩ := h
  cases hparse : parseQueryString query with
  | error e => exact ⟨e, rfl⟩
  | ok params =>
    -- what the parser accepts is well escaped in every part, and a stray percent sign is not
    have hescaped := (wellEscaped_iff_splitOn query).mp (exists_parseQueryString_iff.mp ⟨params, hparse⟩) part hpart
    obtain ⟨hname, hvalue⟩ := (wellEscaped_iff_splitParameter part).mp hescaped
    rcases hstray with hstray | hstray
    · exact absurd hstray hname.not_hasStrayPercent
    · exact absurd hstray hvalue.not_hasStrayPercent

theorem operation_of_handleExtendedAgentCard {tenant : Bytes}
    (h : (RestServerTransport.handleExtendedAgentCard options request tenant).dispatched = some dispatch) :
    dispatch.operation = .getExtendedAgentCard := by
  unfold handleExtendedAgentCard at h
  split_ifs at h
  · cases h
  · obtain ⟨-, hdispatch⟩ := (dispatched_withValidHeaders _).mp h
    exact Option.some.inj hdispatch ▸ rfl

theorem dispatched_handleAgentCard : (RestServerTransport.handleAgentCard request).dispatched = none := by
  unfold handleAgentCard
  split_ifs
  · rfl
  · rfl

/-- With a refused query, only the extended agent card can be asked for. -/
theorem operation_of_refused_query {e : Error} (hquery : parseQueryString query = .error e)
    (htarget : RestServerTransport.splitTarget request.target = (path, some query))
    (h : (RestServerTransport.handle options bodies request).dispatched = some dispatch) :
    dispatch.operation = .getExtendedAgentCard := by
  unfold handle at h
  -- `Handle` in its order: the targets it refuses, the two agent cards, the card of a tenant, and the REST routes last
  simp only [htarget, Option.getD_some, hasExtendedAgentCardView, hquery, Except.map] at h
  split_ifs at h
  · cases h
  · cases h
  · rw [dispatched_handleAgentCard] at h
    cases h
  · exact operation_of_handleExtendedAgentCard h
  · split at h
    · exact operation_of_handleExtendedAgentCard h
    · obtain ⟨-, hrest⟩ := (dispatched_withValidHeaders _).mp h
      -- the query is parsed after the base path, and fails if that did not
      have hbuild : ∃ e, buildRestRequest options request = .error e := by
        unfold buildRestRequest
        rw [htarget]
        cases hstrip : stripBasePath options path with
        | error e =>
          refine ⟨e, ?_⟩
          simp only [hstrip]
          rfl
        | ok path =>
          refine ⟨e, ?_⟩
          simp only [hstrip, Option.getD_some, hquery]
          rfl
      obtain ⟨e, hbuild⟩ := hbuild
      rw [hbuild] at hrest
      cases hrest

/-- Form-encoded fields are read back, whatever spelling each byte has, the last field of a name winning; and a
malformed escape makes the parser fail, in which case no operation on tasks is dispatched. -/
theorem form_queries_are_read_back (fields : List (Bytes × Bytes)) :
    (∀ raws, List.Forall₂ SpellsField raws fields → ∃ params, parseQueryString (queryText raws) = .ok params ∧
      ∀ name, (params.find name).map Prod.snd = fields.reverse.lookup name) ∧
    (∀ plus, List.Forall₂ SpellsField (fields.map fun field => (formEncode plus field.1, formEncode plus field.2))
      fields) ∧
    ∀ query, HasMalformedEscape query → (∃ e, parseQueryString query = .error e) ∧
      ∀ options bodies request path dispatch, RestServerTransport.splitTarget request.target = (path, some query) →
        (RestServerTransport.handle options bodies request).dispatched = some dispatch →
          dispatch.operation = .getExtendedAgentCard := by
  refine ⟨fun raws hspells => lookup_reverse_queryText hspells, fun plus => ?_, fun query hquery => ?_⟩
  · rw [List.forall₂_map_left_iff]
    exact List.forall₂_same.mpr fun field _ => spellsField_formEncode plus field
  · obtain ⟨e, he⟩ := not_parseQueryString hquery
    exact ⟨⟨e, he⟩, fun options bodies request path dispatch htarget => operation_of_refused_query he htarget⟩

end A2A.Server.Transport
