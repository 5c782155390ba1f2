/-
# Requests below the base path of a server.
-/
import A2A.Server.Transport.RestRouting
import A2A.Server.Transport.RestServerTransport

namespace A2A.Server.Transport

open A2A.Foundation A2A.Core A2A.Server.Dispatch RestEndpointPaths List

/-! ## Base paths -/

/-- A segment of a base path; 47 is a slash, 63 a question mark, 35 a number sign. -/
structure OrdinarySegment (text : Bytes) : Prop where
  ne_nil : text ≠ []
  noSlash : 47 ∉ text
  noQuery : 63 ∉ text
  noFragment : 35 ∉ text

theorem OrdinarySegment.segment {text : Bytes} (h : OrdinarySegment text) : Segment text := ⟨h.ne_nil, h.noSlash⟩

/-- A base path of ordinary segments. -/
structure BasePath where
  segments : List Bytes
  ordinary : ∀ segment ∈ segments, OrdinarySegment segment

namespace BasePath

variable (base : BasePath)

/-- A slash before every segment. -/
def text : Bytes := base.segments.flatMap fun segment => 47 :: segment

/-- The base path as it is configured: its text, with any number of slashes behind it. -/
def configured (slashes : Nat) : Bytes := base.text ++ List.replicate slashes 47

variable {base}

theorem noQuery_text : 63 ∉ base.text := by
  intro h
  obtain ⟨segment, hsegment, hmem⟩ := mem_flatMap.mp h
  rcases mem_cons.mp hmem with heq | hmem
  · exact absurd heq (by decide)
  · exact (base.ordinary segment hsegment).noQuery hmem

theorem text_cons {segment : Bytes} {segments : List Bytes} (h : base.segments = segment :: segments) :
    base.text = 47 :: (segment ++ segments.flatMap fun segment => 47 :: segment) := by
  rw [text, h, flatMap_cons, cons_append]

theorem text_eq_nil (h : base.segments = []) : base.text = [] := by
  rw [text, h]
  rfl

theorem text_ne (h : base.segments ≠ []) : base.text ≠ [] ∧ base.text ≠ bytes "/" := by
  obtain ⟨first, rest, hfirst⟩ := exists_cons_of_ne_nil h
  rw [text_cons hfirst]
  refine ⟨cons_ne_nil _ _, ?_⟩
  intro hroot
  have hnil := (append_eq_nil_iff.mp (List.cons.inj hroot).2).1
  exact (base.ordinary first (hfirst ▸ mem_cons_self ..)).ne_nil hnil

theorem text_ends (h : base.segments ≠ []) : ∃ init last, base.text = init ++ [last] ∧ last ≠ 47 := by
  obtain ⟨segments, segment, hsegments⟩ := (eq_nil_or_concat' _).resolve_left h
  have hordinary := base.ordinary segment (hsegments ▸ mem_append_right _ (mem_singleton_self _))
  obtain ⟨before, last, rfl⟩ := (eq_nil_or_concat' _).resolve_left hordinary.ne_nil
  refine ⟨(segments.flatMap fun segment => 47 :: segment) ++ 47 :: before, last, ?_, ?_⟩
  · rw [text, hsegments, flatMap_append, flatMap_singleton, append_assoc, cons_append]
  · rintro rfl
    exact hordinary.noSlash (mem_append_right _ (mem_singleton_self _))

theorem rdropWhile_append_slashes {text : Bytes} (h : ∃ init last, text = init ++ [last] ∧ last ≠ 47) (slashes : Nat) :
    (text ++ List.replicate slashes 47).rdropWhile (· = 47) = text := by
  induction slashes with
  | zero =>
    obtain ⟨init, last, rfl, hlast⟩ := h
    rw [replicate_zero, append_nil]
    exact rdropWhile_concat_neg _ _ _ (by simpa using hlast)
  | succ slashes ih =>
    rw [replicate_succ', ← append_assoc, rdropWhile_concat_pos _ _ _ (by simp)]
    exact ih

theorem rdropWhile_replicate (slashes : Nat) : (List.replicate slashes (47 : UInt8)).rdropWhile (· = 47) = [] := by
  rw [rdropWhile_eq_nil_iff]
  intro b hb
  simpa using eq_of_mem_replicate hb

/-- Slashes at the end of the configured path do not count. -/
theorem normalizeBasePath_configured (slashes : Nat) :
    normalizeBasePath (base.configured slashes) = if base.segments = [] then bytes "/" else base.text := by
  unfold normalizeBasePath
  cases hsegments : base.segments with
  | nil =>
    have htext : base.configured slashes = List.replicate slashes 47 := by
      rw [configured, text, hsegments]
      rfl
    rw [if_pos rfl, htext]
    cases slashes with
    | zero => rfl
    | succ slashes =>
      dsimp only
      rw [if_neg (by simp), if_pos (by rw [replicate_succ]; rfl), rdropWhile_replicate]
  | cons segment segments =>
    have hne : base.segments ≠ [] := by
      rw [hsegments]
      exact cons_ne_nil _ _
    have htext := text_cons hsegments
    have hhead : (base.configured slashes).head? = some 47 := by
      rw [configured, htext]
      rfl
    have hempty : ¬ (base.configured slashes).isEmpty := by
      intro h
      rw [List.isEmpty_iff.mp h] at hhead
      cases hhead
    rw [if_neg hempty, if_neg (cons_ne_nil _ _)]
    dsimp only
    rw [if_pos hhead, configured, rdropWhile_append_slashes (text_ends hne), htext]

/-! ## Segments -/

theorem splitOn_append_text (rest : Bytes) :
    splitOn [47] (base.text ++ 47 :: rest) = [] :: (base.segments ++ splitOn [47] rest) := by
  obtain ⟨segments, ordinary⟩ := base
  show splitOn [47] ((segments.flatMap fun segment => 47 :: segment) ++ 47 :: rest) =
    [] :: (segments ++ splitOn [47] rest)
  induction segments with
  | nil => exact splitOn_append not_mem_nil rest
  | cons segment segments ih =>
    rw [forall_mem_cons] at ordinary
    have hrest := splitOn_append_of_notMem ordinary.1.noSlash (ih ordinary.2)
    rw [append_nil] at hrest
    rw [flatMap_cons, cons_append, cons_append, append_assoc, cons_append, ← hrest]
    exact splitOn_append not_mem_nil _

end BasePath

/-! ## Agent cards -/

/-- The path of a tenant's card is a slash, the tenant and the path of the card. -/
theorem extractTenant_eq_some_iff {path tenant : Bytes} :
    extractTenantFromRelativeExtendedAgentCardPath path = some tenant ↔
      Segment tenant ∧ path = 47 :: (tenant ++ kExtendedAgentCardPath) := by
  unfold extractTenantFromRelativeExtendedAgentCardPath
  constructor
  · intro h
    dsimp only at h
    split_ifs at h with hshape hend htenant
    rw [not_or, not_not, not_not] at hshape
    obtain ⟨lead, rfl⟩ := isSuffixOf_iff_suffix.mp hshape.2
    rw [length_append, Nat.add_sub_cancel] at hend h htenant
    cases lead with
    | nil => exact absurd (Nat.zero_le 1) hend
    | cons first lead =>
      have hfirst : first = 47 := Option.some.inj hshape.1
      rw [cons_append, drop_succ_cons, drop_zero, length_cons, Nat.add_sub_cancel, take_left] at h htenant
      cases h
      rw [not_or, List.isEmpty_iff] at htenant
      exact ⟨htenant, by rw [hfirst, cons_append]⟩
  · rintro ⟨hsegment, rfl⟩
    have hsuffix : kExtendedAgentCardPath.isSuffixOf (47 :: (tenant ++ kExtendedAgentCardPath)) :=
      isSuffixOf_iff_suffix.mpr ⟨47 :: tenant, rfl⟩
    have hlength : (47 :: (tenant ++ kExtendedAgentCardPath)).length - kExtendedAgentCardPath.length =
        tenant.length + 1 := by
      rw [length_cons, length_append]
      omega
    have hpos : ¬ tenant.length + 1 ≤ 1 := by
      have := length_pos_of_ne_nil hsegment.1
      omega
    dsimp only
    rw [if_neg (by rw [hsuffix]; simp), hlength, if_neg hpos, drop_succ_cons, drop_zero, Nat.add_sub_cancel,
      take_left, if_neg]
    rw [not_or, List.isEmpty_iff]
    exact hsegment

/-- The path of the collection of tasks, or a path below it. -/
def TaskPath (path : Bytes) : Prop := path = kTaskCollection ∨ ∃ rest, path = kTaskResourcePrefix ++ rest

/-- The path that a task and a tenant share. -/
def kTenantTasksCardPath : Bytes := "/tasks/extendedAgentCard"

open BasePath

open RestServerTransport

section Below

variable {base : BasePath} {path : Bytes}

theorem TaskPath.segments (h : TaskPath path) :
    ∃ tail more, path = 47 :: tail ∧ splitOn [47] tail = bytes "tasks" :: more := by
  rcases h with rfl | ⟨rest, rfl⟩
  · exact ⟨bytes "tasks", [], rfl, rfl⟩
  · exact ⟨bytes "tasks" ++ 47 :: rest, splitOn [47] rest, rfl, splitOn_append (by decide) rest⟩

theorem TaskPath.segments_below (h : TaskPath path) (base : BasePath) :
    ∃ more, splitOn [47] (base.text ++ path) = [] :: (base.segments ++ bytes "tasks" :: more) := by
  obtain ⟨tail, more, rfl, htail⟩ := h.segments
  exact ⟨more, by rw [splitOn_append_text, htail]⟩

theorem TaskPath.below_ne (h : TaskPath path) {card : Bytes} (hcard : bytes "tasks" ∉ splitOn [47] card) :
    base.text ++ path ≠ card := by
  rintro rfl
  obtain ⟨more, hmore⟩ := h.segments_below base
  rw [hmore] at hcard
  exact hcard (mem_cons_of_mem _ (mem_append_right _ (mem_cons_self ..)))

theorem splitOn_tenantPath {tenant : Bytes} (h : Segment tenant) :
    splitOn [47] (47 :: (tenant ++ kExtendedAgentCardPath)) = [[], tenant, bytes "extendedAgentCard"] := by
  have hrest : splitOn [47] (tenant ++ kExtendedAgentCardPath) = tenant :: splitOn [47] (bytes "extendedAgentCard") :=
    splitOn_append h.2 _
  rw [show (47 :: (tenant ++ kExtendedAgentCardPath) : Bytes) =
      [] ++ ([47] ++ (tenant ++ kExtendedAgentCardPath)) from rfl,
    splitOn_append not_mem_nil, hrest]
  rfl

theorem extractTenant_tenantTasks :
    extractTenantFromRelativeExtendedAgentCardPath kTenantTasksCardPath = some (bytes "tasks") :=
  extractTenant_eq_some_iff.mpr ⟨by decide, rfl⟩

theorem TaskPath.extractTenant (h : TaskPath path) (hne : path ≠ kTenantTasksCardPath) :
    extractTenantFromRelativeExtendedAgentCardPath path = none := by
  rw [Option.eq_none_iff_forall_ne_some]
  intro tenant htenant
  obtain ⟨hsegment, hpath⟩ := extractTenant_eq_some_iff.mp htenant
  obtain ⟨tail, more, htail, hmore⟩ := h.segments
  have hsegments : splitOn [47] (tenant ++ kExtendedAgentCardPath) = tenant :: [bytes "extendedAgentCard"] :=
    splitOn_append hsegment.2 _
  rw [← (List.cons.inj (htail.symm.trans hpath)).2, hmore] at hsegments
  obtain ⟨rfl, -⟩ := List.cons.inj hsegments
  exact hne hpath

/-- Below a base path no path of tasks has the segments of a tenant's card. -/
theorem TaskPath.extractTenant_below (h : TaskPath path) (hbase : base.segments ≠ []) :
    extractTenantFromRelativeExtendedAgentCardPath (base.text ++ path) = none := by
  rw [Option.eq_none_iff_forall_ne_some]
  intro tenant htenant
  obtain ⟨hsegment, hpath⟩ := extractTenant_eq_some_iff.mp htenant
  obtain ⟨more, hmore⟩ := h.segments_below base
  rw [hpath, splitOn_tenantPath hsegment] at hmore
  obtain ⟨-, hsegments⟩ := List.cons.inj hmore
  obtain ⟨first, rest, hfirst⟩ := exists_cons_of_ne_nil hbase
  rw [hfirst, cons_append] at hsegments
  obtain ⟨-, hrest⟩ := List.cons.inj hsegments
  cases rest with
  | nil => exact absurd (List.cons.inj hrest).1 (by decide)
  | cons second rest => exact absurd (List.cons.inj hrest).2.symm (by simp)

theorem pathStartsWithBasePath_below (h : TaskPath path) (hbase : base.segments ≠ []) :
    pathStartsWithBasePath (base.text ++ path) base.text := by
  obtain ⟨tail, -, rfl, -⟩ := h.segments
  obtain ⟨hne, hroot⟩ := text_ne hbase
  simp [pathStartsWithBasePath, hroot, hne, isPrefixOf_append]

theorem extractTenant_below (h : TaskPath path) (slashes : Nat) :
    extractTenantFromExtendedAgentCardPath (base.text ++ path) (normalizeBasePath (base.configured slashes)) =
      if path = kTenantTasksCardPath then some (bytes "tasks") else none := by
  rw [extractTenantFromExtendedAgentCardPath, normalizeBasePath_configured]
  by_cases hbase : base.segments = []
  · have hroot : pathStartsWithBasePath path (bytes "/") = false := rfl
    rw [if_pos hbase, text_eq_nil hbase, nil_append, hroot, if_pos Bool.false_ne_true]
    by_cases hcard : path = kTenantTasksCardPath
    · rw [if_pos hcard, hcard, extractTenant_tenantTasks]
    · rw [if_neg hcard, h.extractTenant hcard]
  · rw [if_neg hbase, h.extractTenant_below hbase, pathStartsWithBasePath_below h hbase, drop_left]
    dsimp only
    rw [if_neg (not_not.mpr rfl)]
    split_ifs with hcard
    · rw [hcard, extractTenant_tenantTasks]
    · exact h.extractTenant hcard

/-! ## Handling -/

/-- The path and the query of a target. -/
def targetOf (path : Bytes) (query : Option Bytes) : Bytes := path ++ (query.map (63 :: ·)).getD []

theorem splitTarget_targetOf {query : Option Bytes} (h : 63 ∉ path) :
    RestServerTransport.splitTarget (targetOf path query) = (path, query) := by
  unfold splitTarget targetOf
  cases query with
  | none =>
    rw [Option.map_none, Option.getD_none, append_nil]
    rw [show breakOn (bytes "?") path = none from breakOn_eq_none_of_notMem h]
  | some query =>
    rw [show breakOn (bytes "?") (path ++ ((some query).map (63 :: ·)).getD []) = some (path, query) from
      breakOn_of_notMem h query]

theorem targetOf_splitTarget (target : Bytes) :
    targetOf (RestServerTransport.splitTarget target).1 (RestServerTransport.splitTarget target).2 = target := by
  unfold splitTarget targetOf
  cases hbreak : breakOn (bytes "?") target with
  | none => exact append_nil target
  | some split => exact ((eq_of_breakOn hbreak).trans (append_assoc ..)).symm

theorem notMem_splitTarget (target : Bytes) : 63 ∉ (RestServerTransport.splitTarget target).1 := by
  unfold splitTarget
  cases hbreak : breakOn (bytes "?") target with
  | none =>
    intro hmem
    obtain ⟨before, after, rfl⟩ := append_of_mem hmem
    exact breakOn_eq_none_iff.mp hbreak ⟨before, after, by rw [append_assoc]; rfl⟩
  | some split => exact notMem_of_breakOn_singleton hbreak

theorem splitTarget_append {lead : Bytes} (h : 63 ∉ lead) (rest : Bytes) :
    RestServerTransport.splitTarget (lead ++ rest) =
      (lead ++ (RestServerTransport.splitTarget rest).1, (RestServerTransport.splitTarget rest).2) := by
  have hbreak : breakOn (bytes "?") (lead ++ rest) =
      (breakOn (bytes "?") rest).map fun split => (lead ++ split.1, split.2) := breakOn_append_of_notMem h rest
  unfold splitTarget
  rw [hbreak]
  cases breakOn (bytes "?") rest with
  | none | some => rfl

/-- The requests that a server with this base path gets for a path below it. -/
structure Below (base : BasePath) (options : RestServerTransportOptions) (path : Bytes) (query : Option Bytes)
    (request : HttpServerRequest) : Prop where
  configured : ∃ slashes, options.restApiBasePath = base.configured slashes
  target : request.target = targetOf (base.text ++ path) query
  taskPath : TaskPath path
  noQuery : 63 ∉ path

/-- Below its base path a server hands the path to the router, that of a card apart. -/
def handleBelow (options : RestServerTransportOptions) (bodies : RequestBodies) (path : Bytes) (query : Option Bytes)
    (request : HttpServerRequest) : RestOutcome :=
  if path = kTenantTasksCardPath then RestServerTransport.handleExtendedAgentCard options request (bytes "tasks")
  else
    RestServerTransport.withValidHeaders options request.headers <|
      match parseQueryString (query.getD []) with
      | .error _ => .errorBody 404 RestServerTransport.kNoMatchingRoute "UNSUPPORTED_OPERATION"
      | .ok queryParams =>
        match RestTransport.dispatchRequest bodies
            { method := request.method, path, queryParams, headers := request.headers, body := request.body } with
        | .ok dispatch => .dispatch dispatch
        | .error e => .errorResponse e

/-- The version and the extensions that a request asks for are accepted. -/
def HeadersAccepted (options : RestServerTransportOptions) (headers : HttpHeaders) : Prop :=
  (∃ accepted, validateVersion options.requireVersionHeader headers = .ok accepted) ∧
    ∃ accepted, validateExtensions options.requiredExtensions headers = .ok accepted

/-- The request that the dispatcher is handed, if there is one. -/
def RestOutcome.dispatched : RestOutcome → Option DispatchRequest
  | .dispatch request => some request
  | _ => none

variable {options : RestServerTransportOptions} {bodies : RequestBodies} {query : Option Bytes}
  {request : HttpServerRequest}

theorem dispatched_withValidHeaders (next : RestOutcome) {dispatch : DispatchRequest} :
    (RestServerTransport.withValidHeaders options request.headers next).dispatched = some dispatch ↔
      HeadersAccepted options request.headers ∧ next.dispatched = some dispatch := by
  unfold withValidHeaders HeadersAccepted
  cases validateVersion options.requireVersionHeader request.headers with
  | error e => simp [RestOutcome.dispatched]
  | ok version =>
    cases validateExtensions options.requiredExtensions request.headers with
    | error e => simp [RestOutcome.dispatched]
    | ok extensions => simp

section

variable (h : Below base options path query request)

include h

theorem Below.splitTarget : RestServerTransport.splitTarget request.target = (base.text ++ path, query) := by
  rw [h.target]
  apply splitTarget_targetOf
  rw [mem_append, not_or]
  exact ⟨noQuery_text, h.noQuery⟩

theorem Below.basePath :
    RestServerTransport.basePath options = if base.segments = [] then bytes "/" else base.text := by
  obtain ⟨slashes, hconfigured⟩ := h.configured
  rw [RestServerTransport.basePath, hconfigured, normalizeBasePath_configured]

theorem Below.stripBasePath : RestServerTransport.stripBasePath options (base.text ++ path) = .ok path := by
  rw [RestServerTransport.stripBasePath, h.basePath]
  by_cases hbase : base.segments = []
  · rw [if_pos hbase, if_neg (fun h => h.2 rfl), text_eq_nil hbase, nil_append]
  · obtain ⟨tail, -, htail, -⟩ := h.taskPath.segments
    rw [if_neg hbase, if_pos (text_ne hbase), if_neg (not_not.mpr (isPrefixOf_append ..)), drop_left, htail]

theorem Below.head_target : request.target.head? = some 47 := by
  rw [h.target, targetOf]
  cases hsegments : base.segments with
  | nil =>
    obtain ⟨tail, -, htail, -⟩ := h.taskPath.segments
    rw [text_eq_nil hsegments, htail]
    rfl
  | cons first rest =>
    rw [text_cons hsegments]
    rfl

theorem Below.ne_cardPath :
    ¬ (base.text ++ path = kExtendedAgentCardPath ∨ (RestServerTransport.basePath options ≠ bytes "/" ∧
      base.text ++ path = RestServerTransport.basePath options ++ kExtendedAgentCardPath)) := by
  rintro (hcard | ⟨hroot, hcard⟩)
  · exact h.taskPath.below_ne (by decide) hcard
  · rw [h.basePath] at hroot hcard
    split_ifs at hroot hcard with hbase
    · exact hroot rfl
    · obtain ⟨tail, more, rfl, hmore⟩ := h.taskPath.segments
      rw [(List.cons.inj (append_cancel_left hcard)).2] at hmore
      exact absurd (List.cons.inj hmore).1 (by decide)

theorem handle_below :
    RestServerTransport.handle options bodies request = handleBelow options bodies path query request := by
  have hcard : base.text ++ path ≠ kAgentCardPath := h.taskPath.below_ne (by decide)
  have hlegacy : base.text ++ path ≠ kLegacyAgentCardPath := h.taskPath.below_ne (by decide)
  obtain ⟨slashes, hconfigured⟩ := h.configured
  unfold handle handleBelow
  rw [if_neg (not_not.mpr h.head_target)]
  dsimp only
  rw [h.splitTarget, if_neg hcard, if_neg hlegacy, if_neg h.ne_cardPath, RestServerTransport.basePath, hconfigured,
    extractTenant_below h.taskPath]
  by_cases htenant : path = kTenantTasksCardPath
  · rw [if_pos htenant, if_pos htenant]
  · rw [if_neg htenant, if_neg htenant]
    dsimp only
    unfold handleRest buildRestRequest
    rw [h.splitTarget]
    dsimp only
    rw [h.stripBasePath]
    cases parseQueryString (query.getD []) with
    | error | ok => rfl

end

/-- The request that the router gets. -/
def HttpServerRequest.routed (request : HttpServerRequest) (path : Bytes) (queryParams : QueryParams) : RestRequest where
  method := request.method
  path
  queryParams
  headers := request.headers
  body := request.body

/-- The dispatcher is called for an agent card, or if the query is accepted and the router finds an operation. -/
theorem dispatched_below (h : Below base options path query request) {dispatch : DispatchRequest} :
    (RestServerTransport.handle options bodies request).dispatched = some dispatch ↔
      HeadersAccepted options request.headers ∧
        if path = kTenantTasksCardPath then
          request.method = kMethodGet ∧
            dispatch = { operation := .getExtendedAgentCard, payload := .getExtendedAgentCard { tenant := "tasks" } }
        else
          ∃ queryParams, parseQueryString (query.getD []) = .ok queryParams ∧
            RestTransport.dispatchRequest bodies (request.routed path queryParams) = .ok dispatch := by
  rw [handle_below h, handleBelow]
  split_ifs with htenant
  · unfold handleExtendedAgentCard
    split_ifs with hmethod
    · simp [RestOutcome.dispatched, hmethod]
    · rw [dispatched_withValidHeaders]
      rw [not_not] at hmethod
      simp only [RestOutcome.dispatched, hmethod, true_and, Option.some.injEq, eq_comm]
  · rw [dispatched_withValidHeaders]
    apply and_congr_right
    intro _
    cases hparse : parseQueryString (query.getD []) with
    | error e => simp [RestOutcome.dispatched]
    | ok queryParams =>
      have hrouted : RestTransport.dispatchRequest bodies (request.routed path queryParams) =
          RestTransport.dispatchRequest bodies
            { method := request.method, path, queryParams, headers := request.headers, body := request.body } := rfl
      simp only [Except.ok.injEq, exists_eq_left', hrouted]
      cases RestTransport.dispatchRequest bodies
          { method := request.method, path, queryParams, headers := request.headers, body := request.body } with
      | error e => simp [RestOutcome.dispatched]
      | ok dispatched => simp [RestOutcome.dispatched]

end Below

end A2A.Server.Transport
