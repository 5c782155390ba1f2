/-
# Which operation a path below `/tasks/` asks for.
-/
import A2A.Server.Transport.RestTransport

namespace A2A.Server.Transport

open A2A.Foundation A2A.Core A2A.Server.Dispatch RestEndpointPaths RestTransport List Option

/-! ## Paths -/

/-- A text between two slashes; a slash is written 47. -/
def Segment (text : Bytes) : Prop := text ≠ [] ∧ 47 ∉ text

instance (text : Bytes) : Decidable (Segment text) := inferInstanceAs (Decidable (_ ∧ _))

variable {id rest : Bytes}

theorem checkTaskId_eq_some_iff {text : Bytes} : checkTaskId text = some id ↔ Segment text ∧ id = text := by
  unfold checkTaskId Segment
  split_ifs with h
  · rw [List.isEmpty_iff] at h
    constructor
    · nofun
    · rintro ⟨hsegment, -⟩
      exact absurd h (not_or.mpr hsegment)
  · rw [List.isEmpty_iff, not_or] at h
    rw [Option.some.injEq]
    exact ⟨fun heq => ⟨h, heq.symm⟩, fun heq => heq.2.symm⟩

theorem isPrefixOf_append (lead rest : Bytes) : lead.isPrefixOf (lead ++ rest) :=
  isPrefixOf_iff_prefix.mpr ⟨rest, rfl⟩

/-- A task's own path: one segment that ends in no action. -/
theorem parseTaskIdFromPath_task :
    parseTaskIdFromPath (kTaskResourcePrefix ++ rest) false = some id ↔
      (Segment rest ∧ ¬ kTaskCancelSuffix <:+ rest ∧ ¬ kTaskSubscribeSuffix <:+ rest) ∧ id = rest := by
  unfold parseTaskIdFromPath
  rw [if_neg (not_not.mpr (isPrefixOf_append ..)), drop_left]
  dsimp only
  rw [if_neg Bool.false_ne_true]
  simp only [isSuffixOf_iff_suffix]
  by_cases hempty : rest = []
  · subst hempty
    exact ⟨nofun, fun h => absurd rfl h.1.1.1⟩
  · rw [if_neg (mt List.isEmpty_iff.mp hempty)]
    split_ifs with haction
    · refine ⟨nofun, fun h => ?_⟩
      exact absurd haction (not_or.mpr h.1.2)
    · rw [checkTaskId_eq_some_iff, and_assoc, and_iff_right (not_or.mp haction)]

/-- What both action routes do: cut the action off, and check what is left. -/
theorem checkTaskId_before {action : Bytes} :
    (if ¬ action <:+ rest then none else checkTaskId (rest.take (rest.length - action.length))) = some id ↔
      Segment id ∧ rest = id ++ action := by
  split_ifs with haction
  · obtain ⟨lead, rfl⟩ := haction
    rw [length_append, Nat.add_sub_cancel, take_left, checkTaskId_eq_some_iff, append_left_inj]
    constructor
    · rintro ⟨hlead, rfl⟩
      exact ⟨hlead, rfl⟩
    · rintro ⟨hid, rfl⟩
      exact ⟨hid, rfl⟩
  · refine ⟨nofun, fun h => ?_⟩
    exact absurd ⟨id, h.2.symm⟩ haction

theorem parseTaskIdFromPath_cancel :
    parseTaskIdFromPath (kTaskResourcePrefix ++ rest) true = some id ↔ Segment id ∧ rest = id ++ kTaskCancelSuffix := by
  unfold parseTaskIdFromPath
  rw [if_neg (not_not.mpr (isPrefixOf_append ..)), drop_left]
  dsimp only
  rw [if_pos rfl]
  simp only [isSuffixOf_iff_suffix]
  rw [← checkTaskId_before]
  cases rest with
  | nil => rfl
  | cons => rfl

/-- An action whose first symbol is not in the lead lies behind the lead. -/
theorem suffix_append_iff {c : UInt8} {action lead : Bytes} (hc : c ∉ lead) :
    c :: action <:+ lead ++ rest ↔ c :: action <:+ rest := by
  constructor
  · intro h
    rcases suffix_or_suffix_of_suffix h (suffix_append lead rest) with hrest | ⟨overlap, hoverlap⟩
    · exact hrest
    · cases overlap with
      | nil => exact ⟨[], hoverlap.symm⟩
      | cons first overlap =>
        obtain ⟨rfl, -⟩ := List.cons.inj hoverlap
        obtain ⟨before, hbefore⟩ := h
        rw [← hoverlap, ← append_assoc] at hbefore
        rw [← append_cancel_right hbefore] at hc
        exact absurd (mem_append_right before (mem_cons_self ..)) hc
  · exact fun h => h.trans (suffix_append lead rest)

theorem parseTaskIdFromActionPath_subscribe :
    parseTaskIdFromActionPath (kTaskResourcePrefix ++ rest) kTaskSubscribeSuffix = some id ↔
      Segment id ∧ rest = id ++ kTaskSubscribeSuffix := by
  have hsuffix : kTaskSubscribeSuffix.isSuffixOf (kTaskResourcePrefix ++ rest) ↔ kTaskSubscribeSuffix <:+ rest :=
    isSuffixOf_iff_suffix.trans (suffix_append_iff (by decide))
  unfold parseTaskIdFromActionPath
  simp only [isPrefixOf_append, hsuffix, not_true_eq_false, false_or, drop_left, length_append,
    Nat.add_sub_cancel_left]
  exact checkTaskId_before

/-- Of a configuration path, the task's segment, and the configuration's unless it is the collection. -/
theorem parsePushConfigPath_eq_some_iff {parts : PushConfigPathParts} :
    parsePushConfigPath (kTaskResourcePrefix ++ rest) = some parts ↔ Segment parts.taskId ∧
        ((parts.collection ∧ parts.configId = [] ∧ rest = parts.taskId ++ kPushNotificationConfigsSegment) ∨
          (parts.collection = false ∧ Segment parts.configId ∧
            rest = parts.taskId ++ (kPushNotificationConfigsSegment ++ 47 :: parts.configId))) := by
  unfold parsePushConfigPath
  rw [if_neg (not_not.mpr (isPrefixOf_append ..)), drop_left]
  constructor
  · intro h
    cases hbreak : breakOn kPushNotificationConfigsSegment rest with
    | none =>
      rw [hbreak] at h
      cases h
    | some split =>
      obtain ⟨taskId, remainder⟩ := split
      have hrest := eq_of_breakOn hbreak
      rw [hbreak] at h
      cases taskId with
      | nil => cases h
      | cons first taskId =>
        dsimp only at h
        split_ifs at h with hslash
        cases remainder with
        | nil =>
          cases h
          exact ⟨⟨cons_ne_nil _ _, hslash⟩, .inl ⟨rfl, rfl, by rw [hrest, append_nil]⟩⟩
        | cons lead configId =>
          dsimp only at h
          split_ifs at h with hconfig
          rw [not_or, not_or, not_not, List.isEmpty_iff] at hconfig
          obtain ⟨rfl, hconfig⟩ := hconfig
          cases h
          exact ⟨⟨cons_ne_nil _ _, hslash⟩, .inr ⟨rfl, hconfig, by rw [hrest, append_assoc]⟩⟩
  · obtain ⟨taskId, configId, collection⟩ := parts
    rintro ⟨⟨hne, hslash⟩, hkind⟩
    have hbreak : ∀ remainder, breakOn kPushNotificationConfigsSegment
        (taskId ++ (kPushNotificationConfigsSegment ++ remainder)) = some (taskId, remainder) :=
      fun remainder => breakOn_of_notMem hslash remainder
    obtain ⟨first, taskId, rfl⟩ := exists_cons_of_ne_nil hne
    rcases hkind with ⟨rfl, rfl, rfl⟩ | ⟨rfl, hconfig, rfl⟩
    · have hend := hbreak []
      rw [append_nil] at hend
      rw [hend]
      dsimp only
      rw [if_neg hslash]
    · rw [hbreak]
      dsimp only
      rw [if_neg hslash, if_neg]
      rw [not_or, not_or, not_not, List.isEmpty_iff]
      exact ⟨rfl, hconfig⟩

/-! ## Operations -/

/-- One rule per operation: the method, path and query it is executed for, and its request. -/
inductive Executes (bodies : RequestBodies) (request : RestRequest) : DispatchRequest → Prop
  | subscribe {id : Bytes} {payload : GetTaskRequest} :
      request.method = kMethodGet ∨ request.method = kMethodPost → Segment id →
      request.path = kTaskResourcePrefix ++ (id ++ kTaskSubscribeSuffix) →
      applyHistoryLengthQuery request { id } = some payload →
      Executes bodies request { operation := .subscribeTask, payload := .getTask payload }
  | create {taskId : Bytes} {config : TaskPushNotificationConfig} :
      request.method = kMethodPost → Segment taskId →
      request.path = kTaskResourcePrefix ++ (taskId ++ kPushNotificationConfigsSegment) →
      hasJsonContent request.headers = true → bodies.pushConfig request.body = .ok config →
      Executes bodies request
        { operation := .createTaskPushNotificationConfig, payload := .createPushConfig { config with taskId } }
  | list {taskId : Bytes} :
      request.method = kMethodGet → Segment taskId →
      request.path = kTaskResourcePrefix ++ (taskId ++ kPushNotificationConfigsSegment) →
      Executes bodies request
        { operation := .listTaskPushNotificationConfigs
          payload := .listPushConfigs (listPushConfigsRequest request taskId) }
  | get {taskId id : Bytes} :
      request.method = kMethodGet → Segment taskId → Segment id →
      request.path = kTaskResourcePrefix ++ (taskId ++ (kPushNotificationConfigsSegment ++ 47 :: id)) →
      Executes bodies request
        { operation := .getTaskPushNotificationConfig, payload := .getPushConfig { taskId, id } }
  | delete {taskId id : Bytes} :
      request.method = kMethodDelete → Segment taskId → Segment id →
      request.path = kTaskResourcePrefix ++ (taskId ++ (kPushNotificationConfigsSegment ++ 47 :: id)) →
      Executes bodies request
        { operation := .deleteTaskPushNotificationConfig, payload := .deletePushConfig { taskId, id } }
  | task {id : Bytes} {payload : GetTaskRequest} :
      request.method = kMethodGet → Segment id → ¬ kTaskCancelSuffix <:+ id → ¬ kTaskSubscribeSuffix <:+ id →
      request.path = kTaskResourcePrefix ++ id → applyHistoryLengthQuery request { id } = some payload →
      Executes bodies request { operation := .getTask, payload := .getTask payload }
  | cancel {id : Bytes} :
      request.method = kMethodPost → Segment id → request.path = kTaskResourcePrefix ++ (id ++ kTaskCancelSuffix) →
      hasJsonContent request.headers = true →
      Executes bodies request { operation := .cancelTask, payload := .cancelTask { id } }

section Operations

variable {bodies : RequestBodies} {request : RestRequest} {rest : Bytes} {dispatch : DispatchRequest}

/-- A path below `/tasks/` is no endpoint that does not start so. -/
theorem ne_of_not_isPrefixOf {other : Bytes} (h : ¬ kTaskResourcePrefix.isPrefixOf other) :
    kTaskResourcePrefix ++ rest ≠ other := by
  rintro rfl
  exact h (isPrefixOf_append ..)

theorem ne_taskCollection : kTaskResourcePrefix ++ rest ≠ kTaskCollection :=
  ne_of_not_isPrefixOf (by decide)

theorem validateJsonRequestContentType_of_ne (h : request.method ≠ kMethodPost) :
    validateJsonRequestContentType request = none := by
  rw [validateJsonRequestContentType, expectsJsonRequestBody, if_pos h]
  rfl

theorem validateJsonRequestContentType_of_json (h : hasJsonContent request.headers) :
    validateJsonRequestContentType request = none := by
  rw [validateJsonRequestContentType, if_pos h, ite_self]

theorem hasJsonContent_of_expects (hexpects : expectsJsonRequestBody request)
    (h : validateJsonRequestContentType request = none) : hasJsonContent request.headers := by
  rw [validateJsonRequestContentType, if_neg (not_not.mpr hexpects)] at h
  split_ifs at h with hjson
  exact hjson

section

variable (hpath : request.path = kTaskResourcePrefix ++ rest)

include hpath

theorem buildMessageDispatchRequest_eq_none : buildMessageDispatchRequest bodies request = none := by
  rw [buildMessageDispatchRequest, if_pos]
  rw [hpath]
  exact .inr ⟨ne_of_not_isPrefixOf (by decide), ne_of_not_isPrefixOf (by decide)⟩

theorem buildListTasksDispatchRequest_eq_none : buildListTasksDispatchRequest request = none := by
  rw [buildListTasksDispatchRequest, if_pos]
  rw [hpath]
  exact .inr ne_taskCollection

/-- Below `/tasks/` a request is about configurations, or about a task. -/
theorem buildDispatchRequest_eq :
    RestTransport.buildDispatchRequest bodies request = (buildPushConfigDispatchRequest bodies request).or
      ((buildGetTaskDispatchRequest request).or (buildCancelTaskDispatchRequest request)) := by
  rw [buildDispatchRequest, buildMessageDispatchRequest_eq_none hpath,
    buildListTasksDispatchRequest_eq_none hpath, none_or, none_or]

theorem executes_of_pushConfig (hvalid : validateJsonRequestContentType request = none)
    (h : buildPushConfigDispatchRequest bodies request = some dispatch) : Executes bodies request dispatch := by
  unfold buildPushConfigDispatchRequest at h
  cases hparts : parsePushConfigPath request.path with
  | none =>
    rw [hparts] at h
    cases h
  | some parts =>
    rw [hparts] at h
    dsimp only at h
    obtain ⟨hsegment, hkind⟩ := parsePushConfigPath_eq_some_iff.mp (hpath ▸ hparts)
    split_ifs at h with hcreate hlist hget hdelete
    · cases hbody : bodies.pushConfig request.body with
      | error e =>
        rw [hbody] at h
        cases h
      | ok config =>
        rw [hbody] at h
        cases h
        have hexpects : expectsJsonRequestBody request := by
          rw [expectsJsonRequestBody, if_neg (not_not.mpr hcreate.1), hparts]
          split_ifs
          · rfl
          · rfl
          · exact hcreate.2
        rcases hkind with ⟨-, -, hrest⟩ | ⟨hitem, -⟩
        · exact .create hcreate.1 hsegment (hrest ▸ hpath) (hasJsonContent_of_expects hexpects hvalid) hbody
        · exact absurd (hitem.symm.trans hcreate.2) Bool.false_ne_true
    · cases h
      rcases hkind with ⟨-, -, hrest⟩ | ⟨hitem, -⟩
      · exact .list hlist.1 hsegment (hrest ▸ hpath)
      · exact absurd (hitem.symm.trans hlist.2) Bool.false_ne_true
    · cases h
      rcases hkind with ⟨hcollection, -⟩ | ⟨-, hconfig, hrest⟩
      · exact absurd hcollection hget.2
      · exact .get hget.1 hsegment hconfig (hrest ▸ hpath)
    · cases h
      rcases hkind with ⟨hcollection, -⟩ | ⟨-, hconfig, hrest⟩
      · exact absurd hcollection hdelete.2
      · exact .delete hdelete.1 hsegment hconfig (hrest ▸ hpath)

theorem executes_of_getTask
    (h : buildGetTaskDispatchRequest request = some dispatch) : Executes bodies request dispatch := by
  unfold buildGetTaskDispatchRequest at h
  split_ifs at h with hmethod
  cases hid : parseTaskIdFromPath request.path false with
  | none =>
    rw [hid] at h
    cases h
  | some id =>
    rw [hid] at h
    obtain ⟨payload, hpayload, rfl⟩ := map_eq_some_iff.mp h
    obtain ⟨⟨hsegment, hcancel, hsubscribe⟩, rfl⟩ := parseTaskIdFromPath_task.mp (hpath ▸ hid)
    exact .task (not_not.mp hmethod) hsegment hcancel hsubscribe hpath hpayload

theorem executes_of_cancelTask (hvalid : validateJsonRequestContentType request = none)
    (h : buildCancelTaskDispatchRequest request = some dispatch) : Executes bodies request dispatch := by
  unfold buildCancelTaskDispatchRequest at h
  split_ifs at h with hmethod
  obtain ⟨id, hid, rfl⟩ := map_eq_some_iff.mp h
  obtain ⟨hsegment, hrest⟩ := parseTaskIdFromPath_cancel.mp (hpath ▸ hid)
  have hexpects : expectsJsonRequestBody request := by
    rw [expectsJsonRequestBody, if_neg hmethod, hid]
    show (if _ then true else true)
    exact ite_self true
  exact .cancel (not_not.mp hmethod) hsegment (hrest ▸ hpath) (hasJsonContent_of_expects hexpects hvalid)

theorem executes_of_dispatchByPath
    (h : RestTransport.dispatchByPath bodies request = .ok dispatch) : Executes bodies request dispatch := by
  unfold dispatchByPath at h
  cases hvalid : validateJsonRequestContentType request with
  | some e =>
    rw [hvalid] at h
    cases h
  | none =>
    rw [hvalid] at h
    cases hbuild : buildDispatchRequest bodies request with
    | none =>
      rw [hbuild] at h
      dsimp only at h
      split_ifs at h
    | some built =>
      rw [hbuild] at h
      cases h
      rw [buildDispatchRequest_eq hpath, or_eq_some_iff, or_eq_some_iff] at hbuild
      rcases hbuild with hpush | ⟨-, hget | ⟨-, hcancel⟩⟩
      · exact executes_of_pushConfig hpath hvalid hpush
      · exact executes_of_getTask hpath hget
      · exact executes_of_cancelTask hpath hvalid hcancel

/-- Whatever the router answers, a rule allows. -/
theorem executes_of_dispatchRequest
    (h : RestTransport.dispatchRequest bodies request = .ok dispatch) : Executes bodies request dispatch := by
  unfold dispatchRequest at h
  split_ifs at h with hmethod
  · cases hid : parseTaskIdFromActionPath request.path kTaskSubscribeSuffix with
    | none =>
      rw [hid] at h
      exact executes_of_dispatchByPath hpath h
    | some id =>
      rw [hid] at h
      dsimp only at h
      cases hpayload : applyHistoryLengthQuery request { id } with
      | none =>
        rw [hpayload] at h
        cases h
      | some payload =>
        rw [hpayload] at h
        cases h
        obtain ⟨hsegment, hrest⟩ := parseTaskIdFromActionPath_subscribe.mp (hpath ▸ hid)
        exact .subscribe hmethod hsegment (hrest ▸ hpath) hpayload
  · exact executes_of_dispatchByPath hpath h

theorem dispatchRequest_of_not_subscribe (h : ∀ id, Segment id → rest ≠ id ++ kTaskSubscribeSuffix) :
    RestTransport.dispatchRequest bodies request = RestTransport.dispatchByPath bodies request := by
  have hnone : parseTaskIdFromActionPath request.path kTaskSubscribeSuffix = none := by
    rw [hpath, eq_none_iff_forall_ne_some]
    intro id hid
    obtain ⟨hsegment, hrest⟩ := parseTaskIdFromActionPath_subscribe.mp hid
    exact h id hsegment hrest
  rw [dispatchRequest, hnone, ite_self]

end

theorem dispatchByPath_of_build (hvalid : validateJsonRequestContentType request = none)
    (h : RestTransport.buildDispatchRequest bodies request = some dispatch) :
    RestTransport.dispatchByPath bodies request = .ok dispatch := by
  rw [dispatchByPath, hvalid, h]

theorem ne_subscribe_of_slash (h : 47 ∈ rest) (id : Bytes) (hsegment : Segment id) :
    rest ≠ id ++ kTaskSubscribeSuffix := by
  rintro rfl
  rcases mem_append.mp h with h | h
  · exact hsegment.2 h
  · exact absurd h (by decide)

theorem append_ne_of_getLast {text action other : Bytes} (hne : action ≠ [])
    (hlast : action.getLast? ≠ other.getLast?) : text ++ action ≠ other := by
  rintro rfl
  exact hlast (List.getLast?_append_of_ne_nil text hne).symm

theorem cancel_ne_subscribe (id id' : Bytes) : id ++ kTaskCancelSuffix ≠ id' ++ kTaskSubscribeSuffix := by
  apply append_ne_of_getLast (by decide)
  rw [List.getLast?_append_of_ne_nil id' (by decide)]
  decide

/-- A path without another slash is not about push notification configurations. -/
theorem buildPushConfigDispatchRequest_eq_none (hpath : request.path = kTaskResourcePrefix ++ rest) (h : 47 ∉ rest) :
    buildPushConfigDispatchRequest bodies request = none := by
  have hnone : parsePushConfigPath request.path = none := by
    rw [hpath, eq_none_iff_forall_ne_some]
    intro parts hparts
    rcases (parsePushConfigPath_eq_some_iff.mp hparts).2 with ⟨-, -, hrest⟩ | ⟨-, -, hrest⟩
    · rw [hrest] at h
      exact h (mem_append_right _ (by decide))
    · rw [hrest] at h
      exact h (mem_append_right _ (mem_append_left _ (by decide)))
  rw [buildPushConfigDispatchRequest, hnone]

theorem dispatchRequest_of_pushConfig (hpath : request.path = kTaskResourcePrefix ++ rest) (hslash : 47 ∈ rest)
    (hvalid : validateJsonRequestContentType request = none)
    (h : buildPushConfigDispatchRequest bodies request = some dispatch) :
    RestTransport.dispatchRequest bodies request = .ok dispatch := by
  rw [dispatchRequest_of_not_subscribe hpath (ne_subscribe_of_slash hslash)]
  apply dispatchByPath_of_build hvalid
  rw [buildDispatchRequest_eq hpath, h, some_or]

theorem mem_segment (taskId rest : Bytes) : 47 ∈ taskId ++ (kPushNotificationConfigsSegment ++ rest) :=
  mem_append_right _ (mem_append_left _ (by decide))

theorem parsePushConfigPath_collection {taskId : Bytes} (hsegment : Segment taskId)
    (hpath : request.path = kTaskResourcePrefix ++ (taskId ++ kPushNotificationConfigsSegment)) :
    parsePushConfigPath request.path = some { taskId, collection := true } := by
  rw [hpath]
  exact parsePushConfigPath_eq_some_iff.mpr ⟨hsegment, .inl ⟨rfl, rfl, rfl⟩⟩

theorem parsePushConfigPath_item {taskId id : Bytes} (hsegment : Segment taskId) (hid : Segment id)
    (hpath : request.path = kTaskResourcePrefix ++ (taskId ++ (kPushNotificationConfigsSegment ++ 47 :: id))) :
    parsePushConfigPath request.path = some { taskId, configId := id } := by
  rw [hpath]
  exact parsePushConfigPath_eq_some_iff.mpr ⟨hsegment, .inr ⟨rfl, hid, rfl⟩⟩

/-- What a rule allows, the router answers: no earlier route takes the request. -/
theorem dispatchRequest_of_executes (h : Executes bodies request dispatch) :
    RestTransport.dispatchRequest bodies request = .ok dispatch := by
  have hpost : kMethodPost ≠ kMethodGet := by decide
  have hdelete : kMethodDelete ≠ kMethodGet ∧ kMethodDelete ≠ kMethodPost := by decide
  cases h with
  | @subscribe id _ hmethod hsegment hpath hpayload =>
    have hid : parseTaskIdFromActionPath request.path kTaskSubscribeSuffix = some id := by
      rw [hpath]
      exact parseTaskIdFromActionPath_subscribe.mpr ⟨hsegment, rfl⟩
    rw [dispatchRequest, if_pos hmethod, hid]
    dsimp only
    rw [hpayload]
  | create hmethod hsegment hpath hjson hbody =>
    refine dispatchRequest_of_pushConfig hpath (mem_append_right _ (by decide))
      (validateJsonRequestContentType_of_json hjson) ?_
    rw [buildPushConfigDispatchRequest, parsePushConfigPath_collection hsegment hpath]
    dsimp only
    rw [if_pos ⟨hmethod, rfl⟩, hbody]
  | list hmethod hsegment hpath =>
    refine dispatchRequest_of_pushConfig hpath (mem_append_right _ (by decide))
      (validateJsonRequestContentType_of_ne (hmethod ▸ hpost.symm)) ?_
    rw [buildPushConfigDispatchRequest, parsePushConfigPath_collection hsegment hpath]
    dsimp only
    rw [if_neg (fun h => hpost (h.1.symm.trans hmethod)), if_pos ⟨hmethod, rfl⟩]
  | get hmethod hsegment hid hpath =>
    refine dispatchRequest_of_pushConfig hpath (mem_segment ..)
      (validateJsonRequestContentType_of_ne (hmethod ▸ hpost.symm)) ?_
    rw [buildPushConfigDispatchRequest, parsePushConfigPath_item hsegment hid hpath]
    dsimp only
    rw [if_neg (fun h => nomatch h.2), if_neg (fun h => nomatch h.2), if_pos ⟨hmethod, Bool.false_ne_true⟩]
  | delete hmethod hsegment hid hpath =>
    refine dispatchRequest_of_pushConfig hpath (mem_segment ..)
      (validateJsonRequestContentType_of_ne (hmethod ▸ hdelete.2)) ?_
    rw [buildPushConfigDispatchRequest, parsePushConfigPath_item hsegment hid hpath]
    dsimp only
    rw [if_neg (fun h => nomatch h.2), if_neg (fun h => nomatch h.2),
      if_neg (fun h => hdelete.1 (hmethod.symm.trans h.1)), if_pos ⟨hmethod, Bool.false_ne_true⟩]
  | @task id _ hmethod hsegment hcancel hsubscribe hpath hpayload =>
    have hid : parseTaskIdFromPath request.path false = some id := by
      rw [hpath]
      exact parseTaskIdFromPath_task.mpr ⟨⟨hsegment, hcancel, hsubscribe⟩, rfl⟩
    rw [dispatchRequest_of_not_subscribe hpath fun id _ hrest => hsubscribe ⟨id, hrest.symm⟩]
    apply dispatchByPath_of_build (validateJsonRequestContentType_of_ne (hmethod ▸ hpost.symm))
    rw [buildDispatchRequest_eq hpath, buildPushConfigDispatchRequest_eq_none hpath hsegment.2, none_or,
      buildGetTaskDispatchRequest, if_neg (not_not.mpr hmethod), hid]
    dsimp only
    rw [hpayload, map_some, some_or]
  | @cancel id hmethod hsegment hpath hjson =>
    have hid : parseTaskIdFromPath request.path true = some id := by
      rw [hpath]
      exact parseTaskIdFromPath_cancel.mpr ⟨hsegment, rfl⟩
    have hslash : 47 ∉ id ++ kTaskCancelSuffix := by
      rw [mem_append, not_or]
      exact ⟨hsegment.2, by decide⟩
    rw [dispatchRequest_of_not_subscribe hpath fun id' _ => cancel_ne_subscribe id id']
    apply dispatchByPath_of_build (validateJsonRequestContentType_of_json hjson)
    rw [buildDispatchRequest_eq hpath, buildPushConfigDispatchRequest_eq_none hpath hslash, none_or,
      buildGetTaskDispatchRequest, if_pos (hmethod ▸ hpost), none_or, buildCancelTaskDispatchRequest,
      if_neg (not_not.mpr hmethod), hid]
    rfl

/-- The router executes exactly what the rules say. -/
theorem dispatchRequest_eq_ok_iff (hpath : request.path = kTaskResourcePrefix ++ rest) :
    RestTransport.dispatchRequest bodies request = .ok dispatch ↔ Executes bodies request dispatch :=
  ⟨executes_of_dispatchRequest hpath, dispatchRequest_of_executes⟩

end Operations

/-- The collection's own path is left to the listing route. -/
theorem dispatchRequest_collection (bodies : RequestBodies) {request : RestRequest}
    (hmethod : request.method = kMethodGet) (hpath : request.path = kTaskCollection) :
    (RestTransport.dispatchRequest bodies request).toOption = buildListTasksDispatchRequest request := by
  have hsubscribe : parseTaskIdFromActionPath kTaskCollection kTaskSubscribeSuffix = none := rfl
  have hpush : buildPushConfigDispatchRequest bodies request = none := by
    rw [buildPushConfigDispatchRequest, hpath]
    rfl
  have hmessage : buildMessageDispatchRequest bodies request = none := by
    rw [buildMessageDispatchRequest, hmethod]
    rfl
  have hget : buildGetTaskDispatchRequest request = none := by
    rw [buildGetTaskDispatchRequest, hmethod, hpath]
    rfl
  have hcancel : buildCancelTaskDispatchRequest request = none := by
    rw [buildCancelTaskDispatchRequest, hmethod]
    rfl
  have hcontent : validateJsonRequestContentType request = none := by
    rw [validateJsonRequestContentType, expectsJsonRequestBody, hmethod]
    rfl
  rw [dispatchRequest, if_pos (.inl hmethod), hpath, hsubscribe]
  dsimp only
  rw [dispatchByPath, hcontent, buildDispatchRequest, hpush, hmessage, hget, hcancel]
  cases buildListTasksDispatchRequest request with
  | none =>
    rw [if_pos ⟨hmethod, hpath⟩]
    rfl
  | some dispatch => rfl

end A2A.Server.Transport
