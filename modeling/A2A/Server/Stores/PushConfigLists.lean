/-
# The store of push configurations in memory is one list for every task.
-/
import A2A.Server.Stores.PushNotificationStores

namespace A2A.Server.Stores

open A2A.Foundation A2A.Core Table List Function

/-! ## The index of a task -/

namespace TaskConfigs

variable {task : TaskConfigs} {before after configs : List TaskPushNotificationConfig}
  {config : TaskPushNotificationConfig}

/-- The task has these configurations, and its index leads to each of them. -/
structure Holds (task : TaskConfigs) (configs : List TaskPushNotificationConfig) : Prop where
  same : task.configs = configs
  indexed : ∀ configId index, task.indexOf configId = some index ↔ (configs.map (·.id))[index]? = some configId

variable {configId : Bytes} {index : Nat}

theorem indexOf_put (task : TaskConfigs) (configs : List TaskPushNotificationConfig)
    (configId key : Bytes) (index : Nat) :
    indexOf { task with configs, configIndices := task.configIndices.put (configId, index) } key =
      if key = configId then some index else task.indexOf key := by
  unfold indexOf
  split_ifs with hkey
  · rw [hkey, show configId = (configId, index).1 from rfl, find_put_self]
    rfl
  · rw [find_put_of_ne hkey]

/-- The loop moves a configuration behind all others, and their positions with them. -/
theorem moveBack_spec (hconfigs : task.configs = before ++ config :: after) (hids : (after.map (·.id)).Nodup) :
    let moved := task.moveBack before.length after.length
    moved.taskId = task.taskId ∧ moved.configs = before ++ after ++ [config] ∧
      ∀ configId index, moved.indexOf configId = some index ↔
        (∃ position, (after.map (·.id))[position]? = some configId ∧ index = before.length + position) ∨
          configId ∉ after.map (·.id) ∧ task.indexOf configId = some index := by
  induction after generalizing task before with
  | nil => simp [moveBack, hconfigs]
  | cons next after ih =>
    obtain ⟨hnew, hids⟩ := nodup_cons.mp hids
    have hswap : swapElements task.configs before.length = (before ++ [next]) ++ config :: after := by
      simp [swapElements, hconfigs]
    have hnext : (swapElements task.configs before.length)[before.length]? = some next := by
      simp [hswap]
    obtain ⟨htask, hmoved, hindex⟩ := @ih { task with
      configs := swapElements task.configs before.length
      configIndices := task.configIndices.put (next.id, before.length) } (before ++ [next]) hswap hids
    rw [length_append, length_singleton] at htask hmoved hindex
    simp only [length_cons, moveBack, hnext]
    refine ⟨htask, by simp [hmoved], fun configId index => ?_⟩
    rw [hindex, indexOf_put, map_cons, mem_cons]
    constructor
    · rintro (⟨position, hposition, rfl⟩ | ⟨hmem, hstored⟩)
      · exact .inl ⟨position + 1, by simpa using hposition, by omega⟩
      · split_ifs at hstored with hkey
        · exact .inl ⟨0, by simp [hkey], by simpa using hstored.symm⟩
        · exact .inr ⟨by simp [hkey, hmem], hstored⟩
    · rintro (⟨_ | position, hposition, rfl⟩ | ⟨hmem, hstored⟩)
      · obtain rfl : next.id = configId := by simpa using hposition
        exact .inr ⟨hnew, by simp⟩
      · exact .inl ⟨position, by simpa using hposition, by omega⟩
      · obtain ⟨hkey, hmem⟩ := not_or.mp hmem
        exact .inr ⟨hmem, by simpa [hkey] using hstored⟩

theorem Holds.nodup (h : task.Holds configs) : (configs.map (·.id)).Nodup := by
  refine nodup_iff_getElem?_ne_getElem?.mpr fun i j hij hj heq => ?_
  have hfirst := (h.indexed _ i).mpr (heq.trans (List.getElem?_eq_getElem hj))
  have hsecond := (h.indexed _ j).mpr (List.getElem?_eq_getElem hj)
  exact hij.ne (Option.some.inj (hfirst.symm.trans hsecond))

theorem Holds.isSome_iff (h : task.Holds configs) :
    (task.indexOf configId).isSome ↔ configId ∈ configs.map (·.id) := by
  simp only [Option.isSome_iff_exists, h.indexed, mem_iff_getElem?]

/-- The index leads to the configuration that a search of the list would find. -/
theorem Holds.find?_eq (h : task.Holds configs) (configId : Bytes) :
    (task.indexOf configId).bind (task.configs[·]?) = configs.find? (·.id = configId) := by
  rw [h.same]
  cases hindex : task.indexOf configId with
  | none =>
    refine (List.find?_eq_none.mpr fun config hmem hid => ?_).symm
    have hid : config.id = configId := of_decide_eq_true hid
    simpa [hindex] using h.isSome_iff.mpr (mem_map.mpr ⟨config, hmem, hid⟩)
  | some index =>
    have hids := (h.indexed configId index).mp hindex
    rw [List.getElem?_map, Option.map_eq_some_iff] at hids
    obtain ⟨config, hconfig, rfl⟩ := hids
    obtain ⟨hlt, hconfig'⟩ := List.getElem?_eq_some_iff.mp hconfig
    rw [Option.bind_some, hconfig, eq_comm, List.find?_eq_some_iff_getElem]
    refine ⟨by simp, index, hlt, hconfig', fun before hbefore => ?_⟩
    -- an earlier one with the id would be where the index leads
    have hfirst : (configs[before].id = config.id) → False := fun hid => by
      have hstored := (h.indexed config.id before).mpr (by simp [← hid, show before < configs.length by omega])
      exact hbefore.ne (Option.some.inj (hstored.symm.trans hindex))
    simpa using hfirst

theorem holds_new (taskId : Bytes) : Holds { taskId } [] := ⟨rfl, by simp [indexOf]⟩

theorem Holds.isEmpty_iff (h : task.Holds configs) : task.configIndices.rows.isEmpty ↔ configs = [] := by
  constructor
  · intro hempty
    cases configs with
    | nil => rfl
    | cons config configs =>
      have hindex := (h.indexed config.id 0).mpr rfl
      simp [indexOf, find, isEmpty_iff.mp hempty] at hindex
  · rintro rfl
    cases hrows : task.configIndices.rows with
    | nil => rfl
    | cons row rows =>
      have hfind : task.configIndices.find row.1 = some row :=
        find_eq_some_iff.mpr ⟨hrows ▸ mem_cons_self, rfl⟩
      have hindex := (h.indexed row.1 row.2).mp (by rw [indexOf, hfind]; rfl)
      simp at hindex

theorem Holds.set (h : task.Holds configs) (hindex : task.indexOf config.id = some index) :
    Holds { task with configs := task.configs.set index config }
      (configs.map fun stored => if stored.id = config.id then config else stored) := by
  have hset : task.configs.set index config =
      configs.map fun stored => if stored.id = config.id then config else stored := by
    refine ext_getElem? fun position => ?_
    have hposition := h.indexed config.id position
    rw [hindex] at hposition
    rw [h.same]
    grind
  have hids : (configs.map fun stored => if stored.id = config.id then config else stored).map (·.id) =
      configs.map (·.id) := by
    rw [map_map]
    exact map_congr_left fun stored _ => by grind
  exact ⟨hset, fun configId position => by rw [hids]; exact h.indexed configId position⟩

theorem Holds.append (h : task.Holds configs) (hindex : task.indexOf config.id = none) :
    Holds { task with
      configs := task.configs ++ [config]
      configIndices := task.configIndices.put (config.id, task.configs.length) } (configs ++ [config]) := by
  refine ⟨by rw [h.same], fun configId position => ?_⟩
  have hposition := h.indexed configId position
  have hnew := h.indexed config.id position
  rw [indexOf_put, h.same]
  rw [hindex] at hnew
  grind

/-- Once another element is gone, an element stands at its place or one before. -/
theorem getElem?_removed {α : Type} {left right : List α} {removed x : α} {position : Nat} (hne : x ≠ removed)
    (hdisjoint : x ∈ left → x ∉ right) :
    (left ++ right)[position]? = some x ↔ (∃ index, right[index]? = some x ∧ position = left.length + index) ∨
      x ∉ right ∧ (left ++ removed :: right)[position]? = some x := by
  by_cases hlt : position < left.length
  · rw [List.getElem?_append_left hlt, List.getElem?_append_left hlt]
    refine ⟨fun h => .inr ⟨hdisjoint (mem_of_getElem? h), h⟩, ?_⟩
    rintro (⟨index, -, rfl⟩ | ⟨-, h⟩)
    · omega
    · exact h
  · rw [List.getElem?_append_right (by omega), List.getElem?_append_right (by omega)]
    refine ⟨fun h => .inl ⟨_, h, by omega⟩, ?_⟩
    rintro (⟨index, h, rfl⟩ | ⟨hright, h⟩)
    · simpa using h
    · rcases mem_cons.mp (mem_of_getElem? h) with rfl | hmem
      · exact absurd rfl hne
      · exact absurd hmem hright

/-- Moving the configuration to the end and dropping it leaves the others in order. -/
theorem Holds.delete (h : task.Holds configs) (hindex : task.indexOf configId = some index) :
    let moved := task.moveBack index (task.configs.length - 1 - index)
    moved.taskId = task.taskId ∧
      Holds { moved with configs := moved.configs.dropLast, configIndices := moved.configIndices.delete configId }
        (configs.filter (·.id ≠ configId)) := by
  have hids := h.nodup
  have hfound := (h.indexed configId index).mp hindex
  rw [List.getElem?_map, Option.map_eq_some_iff] at hfound
  obtain ⟨config, hconfig, rfl⟩ := hfound
  obtain ⟨hlt, rfl⟩ := List.getElem?_eq_some_iff.mp hconfig
  obtain ⟨before, after, hsplit, rfl⟩ :
      ∃ before after, configs = before ++ configs[index] :: after ∧ before.length = index :=
    ⟨configs.take index, configs.drop (index + 1), by simp, by simp; omega⟩
  generalize configs[before.length] = config at *
  subst hsplit
  have hrounds : task.configs.length - 1 - before.length = after.length := by
    rw [h.same, length_append, length_cons]
    omega
  rw [map_append, map_cons, nodup_append] at hids
  obtain ⟨-, hafter, hdisjoint⟩ := hids
  obtain ⟨hnew, hafter⟩ := nodup_cons.mp hafter
  obtain ⟨htask, hmoved, hindices⟩ := moveBack_spec h.same hafter
  rw [hrounds]
  have hkept : (before ++ config :: after).filter (·.id ≠ config.id) = before ++ after := by
    rw [filter_append, filter_cons_of_neg (by simp), filter_eq_self.mpr, filter_eq_self.mpr]
    · exact fun other hother => by
        have hmem : other.id ∈ after.map (·.id) := mem_map_of_mem hother
        simpa using fun heq : other.id = config.id => hnew (heq ▸ hmem)
    · exact fun other hother => by simpa using hdisjoint _ (mem_map_of_mem hother) _ mem_cons_self
  refine ⟨htask, by rw [hmoved, dropLast_concat, hkept], fun key position => ?_⟩
  rw [hkept]
  have hdelete : indexOf { task.moveBack before.length after.length with
      configs := (task.moveBack before.length after.length).configs.dropLast
      configIndices := (task.moveBack before.length after.length).configIndices.delete config.id } key =
      if key = config.id then none else (task.moveBack before.length after.length).indexOf key := by
    unfold indexOf
    split_ifs with hkey
    · rw [hkey, find_delete_self]
      rfl
    · rw [find_delete_of_ne hkey]
  rw [hdelete, map_append]
  split_ifs with hkey
  · refine iff_of_false nofun fun hfound => ?_
    rcases mem_append.mp (mem_of_getElem? hfound) with hmem | hmem
    · exact hdisjoint key hmem config.id mem_cons_self hkey
    · exact hnew (hkey ▸ hmem)
  · rw [hindices, h.indexed, map_append, map_cons,
      getElem?_removed hkey fun hleft hright => hdisjoint key hleft key (mem_cons_of_mem _ hright) rfl, length_map]

end TaskConfigs

/-! ## The lists of all tasks -/

/-- A configuration takes the place of the one with its id, or comes last. -/
def putConfig (configs : List TaskPushNotificationConfig) (config : TaskPushNotificationConfig) :
    List TaskPushNotificationConfig :=
  if config.id ∈ configs.map (·.id) then configs.map fun stored => if stored.id = config.id then config else stored
  else configs ++ [config]

/-- The configurations of every task, in the order of a listing. -/
abbrev ConfigLists := Bytes → List TaskPushNotificationConfig

def applyCall (lists : ConfigLists) (call : PushStoreCall) : ConfigLists :=
  match call with
  | .createOrUpdate config =>
    match validateConfig config with
    | .error _ => lists
    | .ok _ => Function.update lists config.taskId (putConfig (lists config.taskId) config)
  | .delete taskId configId =>
    match validateLookup taskId configId with
    | .error _ => lists
    | .ok _ => Function.update lists taskId ((lists taskId).filter (·.id ≠ configId))
  | .get _ _ => lists
  | .listForExistingTask _ _ _ => lists

def listsAfter (calls : List PushStoreCall) : ConfigLists := calls.foldl applyCall fun _ => []

theorem putConfig_ne_nil (configs : List TaskPushNotificationConfig) (config : TaskPushNotificationConfig) :
    putConfig configs config ≠ [] := by
  unfold putConfig
  split_ifs with hmem
  · intro hnil
    simp [map_eq_nil_iff.mp hnil] at hmem
  · simp

namespace InMemoryPushStore

def storeAfter (calls : List PushStoreCall) : InMemoryPushStore :=
  calls.foldl (fun store call => (perform store call).2) .empty

variable {store : InMemoryPushStore} {lists : ConfigLists} {config : TaskPushNotificationConfig}
  {taskId configId : Bytes} {pageSize : Int32}

/-- A task is there if it has configurations, and then it has them all. -/
def Represents (store : InMemoryPushStore) (lists : ConfigLists) : Prop :=
  ∀ taskId, match store.find taskId with
    | none => lists taskId = []
    | some task => lists taskId ≠ [] ∧ task.Holds (lists taskId)

variable {task : TaskConfigs} {pageToken : Bytes} {start : Nat}

section

variable (h : Represents store lists)

include h

theorem Represents.of_none (hfind : store.find taskId = none) : lists taskId = [] := by
  have htask := h taskId
  rwa [hfind] at htask

theorem Represents.of_some (hfind : store.find taskId = some task) : lists taskId ≠ [] ∧ task.Holds (lists taskId) := by
  have htask := h taskId
  rwa [hfind] at htask

theorem Represents.holds (taskId : Bytes) :
    ((store.find taskId).getD { taskId }).Holds (lists taskId) ∧
      ((store.find taskId).getD { taskId }).taskId = taskId := by
  cases hfind : store.find taskId with
  | none =>
    rw [h.of_none hfind]
    exact ⟨TaskConfigs.holds_new taskId, rfl⟩
  | some task => exact ⟨(h.of_some hfind).2, find_key hfind⟩

theorem Represents.put {configs : List TaskPushNotificationConfig} (hid : task.taskId = taskId)
    (htask : task.Holds configs) (hne : configs ≠ []) : Represents (store.put task) (update lists taskId configs) := by
  subst hid
  intro other
  by_cases hsame : other = task.taskId
  · rw [hsame, find_put_self, update_self]
    exact ⟨hne, htask⟩
  · rw [find_put_of_ne hsame, update_of_ne hsame]
    exact h other

theorem createOrUpdate_represents (hvalid : validateConfig config = .ok ()) :
    Represents (createOrUpdate store config).2
      (update lists config.taskId (putConfig (lists config.taskId) config)) := by
  unfold createOrUpdate
  rw [hvalid]
  obtain ⟨hholds, htask⟩ := h.holds config.taskId
  generalize (store.find config.taskId).getD { taskId := config.taskId } = task at *
  refine h.put ?_ ?_ (putConfig_ne_nil _ _)
  · cases task.indexOf config.id <;> exact htask
  · cases hindex : task.indexOf config.id with
    | some index =>
      rw [putConfig, if_pos (hholds.isSome_iff.mp (by rw [hindex]; rfl))]
      exact hholds.set hindex
    | none =>
      rw [putConfig, if_neg fun hid => by simpa [hindex] using hholds.isSome_iff.mpr hid]
      exact hholds.append hindex

theorem delete_represents (hvalid : validateLookup taskId configId = .ok ()) :
    Represents (delete store taskId configId).2 (update lists taskId ((lists taskId).filter (·.id ≠ configId))) := by
  -- if nothing is found, then there is nothing to delete
  have hsame (hnone : configId ∉ (lists taskId).map (·.id)) :
      update lists taskId ((lists taskId).filter (·.id ≠ configId)) = lists := by
    rw [filter_eq_self.mpr, update_eq_self]
    exact fun config hmem => by simpa using fun hid : config.id = configId => hnone (hid ▸ mem_map_of_mem hmem)
  unfold delete
  rw [hvalid]
  cases hfind : store.find taskId with
  | none =>
    rw [hsame (by simp [h.of_none hfind])]
    exact h
  | some task =>
    obtain ⟨-, hholds⟩ := h.of_some hfind
    dsimp only
    cases hindex : task.indexOf configId with
    | none =>
      rw [hsame fun hmem => by simpa [hindex] using hholds.isSome_iff.mpr hmem]
      exact h
    | some index =>
      obtain ⟨htask, hleft⟩ := hholds.delete hindex
      dsimp only
      split_ifs with hempty
      · intro other
        by_cases hne : other = taskId
        · rw [hne, find_delete_self, update_self]
          exact hleft.isEmpty_iff.mp hempty
        · rw [find_delete_of_ne hne, update_of_ne hne]
          exact h other
      · exact h.put (htask.trans (find_key hfind)) hleft fun hnil => hempty (hleft.isEmpty_iff.mpr hnil)

theorem perform_represents (call : PushStoreCall) : Represents (perform store call).2 (applyCall lists call) := by
  cases call with
  | get | listForExistingTask => exact h
  | createOrUpdate config =>
    rw [applyCall]
    cases hvalid : validateConfig config with
    | error e =>
      rw [perform, createOrUpdate, hvalid]
      exact h
    | ok _ => exact createOrUpdate_represents h hvalid
  | delete taskId configId =>
    rw [applyCall]
    cases hvalid : validateLookup taskId configId with
    | error e =>
      rw [perform, delete, hvalid]
      exact h
    | ok _ => exact delete_represents h hvalid

theorem run_represents (calls : List PushStoreCall) :
    Represents (calls.foldl (fun store call => (perform store call).2) store) (calls.foldl applyCall lists) := by
  induction calls generalizing store lists with
  | nil => exact h
  | cons call calls ih => exact ih (perform_represents h call)

end

theorem storeAfter_represents (calls : List PushStoreCall) : Represents (storeAfter calls) (listsAfter calls) :=
  run_represents (fun _ => rfl) calls

theorem get_eq (h : Represents store lists) (hvalid : validateLookup taskId configId = .ok ()) :
    get store taskId configId = match (lists taskId).find? (·.id = configId) with
      | some config => .ok (.config config)
      | none => if lists taskId = [] then .error (ProtocolErrors.taskNotFound kTaskConfigNotFoundMessage)
          else .error (.validation kConfigNotFoundMessage) := by
  unfold get
  rw [hvalid]
  cases hfind : store.find taskId with
  | none =>
    rw [h.of_none hfind]
    rfl
  | some task =>
    obtain ⟨hne, hholds⟩ := h.of_some hfind
    rw [if_neg hne, ← hholds.find?_eq configId]
    dsimp only
    cases (task.indexOf configId).bind (task.configs[·]?) <;> rfl

/-! ## Pages -/

/-- At most `pageSize` configurations, or all that are left. -/
def pageFrom (configs : List TaskPushNotificationConfig) (pageSize : Int32) (start : Nat) :
    List TaskPushNotificationConfig :=
  (configs.drop start).take (if pageSize = 0 then configs.length else pageSize.toInt.toNat)

/-- A page is a part of the list, with the position behind it as its token. -/
theorem list_eq (h : Represents store lists) (hvalid : validateListRequest taskId pageSize = .ok ())
    (htoken : parsePageToken pageToken = .ok start) (hstart : start ≤ (lists taskId).length) :
    list store taskId pageSize pageToken = .ok (.page (pageFrom (lists taskId) pageSize start)
      (if (pageFrom (lists taskId) pageSize start).length < (lists taskId).length - start then
        decimal (start + (pageFrom (lists taskId) pageSize start).length) else [])) := by
  unfold list pageFrom
  rw [hvalid, htoken]
  cases hfind : store.find taskId with
  | none =>
    rw [h.of_none hfind]
    simp [bind, Except.bind]
  | some task =>
    rw [← (h.of_some hfind).2.same] at hstart ⊢
    show (if start > task.configs.length then _ else _) = _
    rw [if_neg (by omega)]
    have hpage : (task.configs.drop start).take (min (if pageSize = 0 then task.configs.length - start else
        pageSize.toInt.toNat) (task.configs.length - start)) =
        (task.configs.drop start).take (if pageSize = 0 then task.configs.length else pageSize.toInt.toNat) := by
      rw [take_eq_take_iff, length_drop]
      split_ifs <;> omega
    rw [← hpage, length_take, length_drop, Nat.min_assoc, Nat.min_self]

/-- The pages from a token on; `none` if one is refused or the rounds do not reach the end. -/
def followPages (store : InMemoryPushStore) (taskId : Bytes) (pageSize : Int32) :
    Nat → Bytes → Option (List TaskPushNotificationConfig)
  | 0, _ => none
  | rounds + 1, pageToken =>
    match list store taskId pageSize pageToken with
    | .ok (.page configs nextPageToken) =>
      if nextPageToken = [] then some configs
      else (followPages store taskId pageSize rounds nextPageToken).map (configs ++ ·)
    | _ => none

theorem parsePageToken_decimal {n : Nat} (h : n < 2 ^ 64) : parsePageToken (decimal n) = .ok n := by
  have hvalue : decimalValue (decimal n) < 2 ^ 64 := by rwa [decimalValue_decimal]
  rw [parsePageToken, if_neg (decimal_ne_nil n),
    fromCharsUnsigned_digits (decimal_ne_nil n) (fun _ => isDigitByte_of_mem_decimal) hvalue, decimalValue_decimal]

theorem exists_pageFrom_eq (hvalid : validateListRequest taskId pageSize = .ok ())
    (configs : List TaskPushNotificationConfig) (start : Nat) :
    ∃ limit, pageFrom configs pageSize start = (configs.drop start).take limit ∧
      (0 < limit ∨ configs.length ≤ limit) := by
  refine ⟨_, rfl, ?_⟩
  split_ifs with hall
  · exact .inr le_rfl
  · unfold validateListRequest at hvalid
    split_ifs at hvalid with _ hnegative
    have hzero : pageSize.toInt ≠ 0 := fun h => hall (Int32.toInt_inj.mp h)
    have hnonneg : ¬ pageSize.toInt < 0 := fun h => hnegative (Int32.lt_iff_toInt_lt.mpr h)
    exact .inl (by omega)

/-- From any position of the list, the pages that follow are the rest of it. -/
theorem followPages_eq (h : Represents store lists) (hvalid : validateListRequest taskId pageSize = .ok ())
    (hsize : (lists taskId).length < 2 ^ 64) {rounds : Nat} (htoken : parsePageToken pageToken = .ok start)
    (hstart : start ≤ (lists taskId).length) (hrounds : (lists taskId).length - start < rounds) :
    followPages store taskId pageSize rounds pageToken = some ((lists taskId).drop start) := by
  induction rounds generalizing start pageToken with
  | zero => omega
  | succ rounds ih =>
    rw [followPages, list_eq h hvalid htoken hstart]
    obtain ⟨limit, hpage, hlimit⟩ := exists_pageFrom_eq hvalid (lists taskId) start
    rw [hpage]
    have hlength : (((lists taskId).drop start).take limit).length = min limit ((lists taskId).length - start) := by simp
    dsimp only
    by_cases hmore : (((lists taskId).drop start).take limit).length < (lists taskId).length - start
    · have hfull : (((lists taskId).drop start).take limit).length = limit := by omega
      rw [if_pos hmore, if_neg (decimal_ne_nil _), hfull,
        ih (parsePageToken_decimal (by omega)) (by omega) (by omega), Option.map_some]
      rw [← drop_drop, take_append_drop]
    · rw [if_neg hmore, if_pos rfl, take_of_length_le (by simp; omega)]

/-- After any calls: an entry is there exactly for a task with configurations, its index is the correspondence of ids and
positions, `Get` finds by id, and the pages from the start are the list. -/
theorem store_is_list_per_task (calls : List PushStoreCall) :
    (∀ taskId, ((listsAfter calls taskId).map (·.id)).Nodup ∧
      match (storeAfter calls).find taskId with
      | none => listsAfter calls taskId = []
      | some task => listsAfter calls taskId ≠ [] ∧ task.configs = listsAfter calls taskId ∧
          ∀ configId index, task.indexOf configId = some index ↔
            ((listsAfter calls taskId).map (·.id))[index]? = some configId) ∧
    (∀ taskId configId, validateLookup taskId configId = .ok () →
      get (storeAfter calls) taskId configId = match (listsAfter calls taskId).find? (·.id = configId) with
        | some config => .ok (.config config)
        | none => if listsAfter calls taskId = [] then .error (ProtocolErrors.taskNotFound kTaskConfigNotFoundMessage)
            else .error (.validation kConfigNotFoundMessage)) ∧
    ∀ taskId pageSize, validateListRequest taskId pageSize = .ok () → (listsAfter calls taskId).length < 2 ^ 64 →
      ∀ rounds, (listsAfter calls taskId).length < rounds →
        followPages (storeAfter calls) taskId pageSize rounds [] = some (listsAfter calls taskId) := by
  have h := storeAfter_represents calls
  refine ⟨fun taskId => ?_, fun taskId configId hvalid => get_eq h hvalid, ?_⟩
  · cases hfind : (storeAfter calls).find taskId with
    | none =>
      rw [h.of_none hfind]
      exact ⟨nodup_nil, rfl⟩
    | some task =>
      obtain ⟨hne, hholds⟩ := h.of_some hfind
      exact ⟨hholds.nodup, hne, hholds.same, hholds.indexed⟩
  · intro taskId pageSize hvalid hsize rounds hrounds
    exact followPages_eq h hvalid hsize rfl (Nat.zero_le _) hrounds

/-- Three configurations, the second deleted: two pages of one. -/
theorem pages_after_deletion :
    let config (id : Bytes) : TaskPushNotificationConfig := { id, taskId := "t", url := "u" }
    followPages (storeAfter [.createOrUpdate (config "a"), .createOrUpdate (config "b"), .createOrUpdate (config "c"),
      .delete "t" "b"]) "t" 1 3 [] = some [config "a", config "c"] :=
  (store_is_list_per_task _).2.2 "t" 1 rfl (by decide +kernel) 3 (by decide +kernel)

end InMemoryPushStore

end A2A.Server.Stores
