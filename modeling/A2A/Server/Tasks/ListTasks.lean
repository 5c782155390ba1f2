/-
# List requests, cursors, page tokens and projection (`list_tasks.cpp`).
-/
import A2A.Core.Error
import A2A.Server.Tasks.TaskHistory

namespace A2A.Server.Tasks

open A2A.Foundation A2A.Core List

/-! ## Requests, cursors and responses -/

/-- `ListTasksRequest`; a `pageSize` of zero asks for everything. -/
structure ListTasksRequest where
  pageSize : Nat := 0
  pageToken : Bytes := []
  contextId : Bytes := []
  statusFilter : Option TaskState := none
  statusTimestampAfter : Option Timestamp := none
  historyLength : Option Nat := none
  includeArtifacts : Bool := false
  includeTotalSize : Bool := true

/-- `ListTaskCursor`. -/
structure ListTaskCursor where
  updatedAt : Int64 := 0
  taskId : Bytes := []
  deriving DecidableEq

/-- `ListTasksResponse`. -/
structure ListTasksResponse where
  tasks : List Task := []
  pageSize : Nat := 0
  totalSize : Nat := 0
  nextPageToken : Bytes := []
  taskCursors : List ListTaskCursor := []

def kDefaultListTasksPageSize : Nat := 50
def kMaxListTasksPageSize : Nat := 100

/-- `NormalizeListTasksPageSize`. -/
def normalizeListTasksPageSize (pageSize : Option Int64) : Result Nat :=
  match pageSize with
  | none => .ok kDefaultListTasksPageSize
  | some size =>
    if size < 1 ∨ (kMaxListTasksPageSize : Int) < size.toInt then
      .error (.validation "ListTasksRequest.page_size must be between 1 and 100")
    else .ok size.toInt.toNat

/-! ## Filters and projection -/

/-- `HasStatusAfterCutoff`. -/
def hasStatusAfterCutoff (task : Task) (cutoff : Timestamp) : Bool :=
  match task.statusOr.timestamp with
  | none => false
  | some ts =>
    decide (ts.seconds > cutoff.seconds) ||
      (ts.seconds == cutoff.seconds && decide (ts.nanos ≥ cutoff.nanos))

/-- `MatchesListFilters`. -/
def matchesListFilters (task : Task) (request : ListTasksRequest) : Bool :=
  if ¬ request.contextId.isEmpty ∧ task.contextId ≠ request.contextId then false
  else if request.statusFilter.any (task.state ≠ ·) then false
  else if request.statusTimestampAfter.any (!hasStatusAfterCutoff task ·) then false
  else true

theorem matchesListFilters_iff (task : Task) (request : ListTasksRequest) :
    matchesListFilters task request = true ↔ (request.contextId = [] ∨ task.contextId = request.contextId) ∧
      request.statusFilter.any (task.state ≠ ·) = false ∧
      request.statusTimestampAfter.any (!hasStatusAfterCutoff task ·) = false := by
  unfold matchesListFilters
  by_cases hcontext : ¬ request.contextId.isEmpty ∧ task.contextId ≠ request.contextId
  · rw [if_pos hcontext]
    constructor
    · nofun
    · rintro ⟨hempty | hsame, -⟩
      · exact absurd (by rw [hempty]; rfl) hcontext.1
      · exact absurd hsame hcontext.2
  · have hcontext' : request.contextId = [] ∨ task.contextId = request.contextId := by
      simpa [or_iff_not_imp_left] using hcontext
    rw [if_neg hcontext]
    cases request.statusFilter.any (task.state ≠ ·) with
    | true => simp
    | false =>
      cases request.statusTimestampAfter.any (!hasStatusAfterCutoff task ·) with
      | true => simp
      | false => simp [hcontext']

/-- `ProjectTaskForList`. -/
def projectTaskForList (task : Task) (includeArtifacts : Bool) (historyLength : Option Nat) : Task :=
  if includeArtifacts && historyLength.isNone then task
  else
    { id := task.id
      contextId := task.contextId
      status := task.status
      artifacts := if includeArtifacts then task.artifacts else []
      history :=
        match historyLength with
        | none => task.history
        | some length => task.history.drop (task.history.length - min length task.history.length)
      metadata := task.metadata
      unknownFields := task.unknownFields }

@[simp] theorem projectTaskForList_id (task : Task) (includeArtifacts : Bool)
    (historyLength : Option Nat) : (projectTaskForList task includeArtifacts historyLength).id = task.id := by
  unfold projectTaskForList
  split_ifs <;> rfl

/-- `ApplyArtifactProjection`. -/
def applyArtifactProjection (task : Task) (includeArtifacts : Bool) : Task :=
  if includeArtifacts then task else { task with artifacts := [] }

/-- The last messages that are kept are those that the index loop copies. -/
theorem applyHistoryLimit_eq (task : Task) (keep : Nat) :
    applyHistoryLimit task keep =
      { task with history := task.history.drop (task.history.length - min keep task.history.length) } := by
  unfold applyHistoryLimit
  split_ifs with hzero hfits
  · rw [hzero, Nat.zero_min, Nat.sub_zero, drop_length]
  · rw [Nat.min_eq_right hfits, Nat.sub_self, drop_zero]
  · rw [Nat.min_eq_left (Nat.le_of_not_le hfits)]

/-- The field-by-field projection is the copy that is trimmed. -/
theorem projectTaskForList_eq_trimmed_copy (task : Task) (includeArtifacts : Bool) (historyLength : Option Nat) :
    projectTaskForList task includeArtifacts historyLength =
      applyHistoryRetention (applyArtifactProjection task includeArtifacts) historyLength := by
  cases historyLength with
  | none => cases includeArtifacts <;> rfl
  | some keep =>
    show projectTaskForList task includeArtifacts (some keep) =
      applyHistoryLimit (applyArtifactProjection task includeArtifacts) keep
    rw [applyHistoryLimit_eq]
    cases includeArtifacts <;> rfl

/-! ## The cursor order -/

/-- `ListCursorPrecedes`: newest first, ties by id, larger id first. -/
def listCursorPrecedes (lhs rhs : ListTaskCursor) : Bool :=
  if lhs.updatedAt ≠ rhs.updatedAt then decide (lhs.updatedAt > rhs.updatedAt)
  else decide (lhs.taskId > rhs.taskId)

/-- `listCursorPrecedes` as a relation, the `CursorOrder` of the store's ordered set. -/
def CursorOrder (lhs rhs : ListTaskCursor) : Prop := listCursorPrecedes lhs rhs = true

instance : DecidableRel CursorOrder := fun lhs rhs =>
  inferInstanceAs (Decidable (listCursorPrecedes lhs rhs = true))

theorem cursorOrder_iff {lhs rhs : ListTaskCursor} :
    CursorOrder lhs rhs ↔
      rhs.updatedAt < lhs.updatedAt ∨ (lhs.updatedAt = rhs.updatedAt ∧ rhs.taskId < lhs.taskId) := by
  unfold CursorOrder listCursorPrecedes
  by_cases hEq : lhs.updatedAt = rhs.updatedAt
  · simp [hEq]
  · simp [hEq]

instance : IsStrictTotalOrder ListTaskCursor CursorOrder where
  irrefl := by
    intro a h
    rcases cursorOrder_iff.mp h with h | h
    · exact lt_irrefl _ h
    · exact lt_irrefl _ h.2
  trans := by
    intro a b c hab hbc
    rw [cursorOrder_iff] at hab hbc ⊢
    rcases hab with hab | ⟨hab, hab'⟩ <;> rcases hbc with hbc | ⟨hbc, hbc'⟩
    · exact Or.inl (hbc.trans hab)
    · exact Or.inl (hbc ▸ hab)
    · exact Or.inl (hab ▸ hbc)
    · exact Or.inr ⟨hab.trans hbc, hbc'.trans hab'⟩
  trichotomous := by
    intro a b hab hba
    rw [cursorOrder_iff, not_or, not_and, not_lt] at hab hba
    have htime : a.updatedAt = b.updatedAt := le_antisymm hab.1 hba.1
    have hid : a.taskId = b.taskId :=
      le_antisymm (not_lt.mp (hab.2 htime)) (not_lt.mp (hba.2 htime.symm))
    cases a
    cases b
    simp_all

/-! ## Page tokens -/

def kCursorPrefix : Bytes := "a2a1_"
def kHexDigits : Bytes := "0123456789abcdef"
def kHexByteWidth : Nat := 2
def kHexShift : Nat := 4
def kHexMask : Nat := 15
def kCursorSeparator : UInt8 := charByte ':'
def kInvalidCursor : Bytes :=
  "ListTasksRequest.page_token is not a valid v1 cursor; restart pagination"

def hexByte (byte : UInt8) : Bytes :=
  [kHexDigits.getD (byte.toNat >>> kHexShift) 0, kHexDigits.getD (byte.toNat &&& kHexMask) 0]

/-- `EncodeListPageToken`. -/
def encodeListPageToken (cursor : ListTaskCursor) : Bytes :=
  let payload := toDecimal cursor.updatedAt.toInt ++ [kCursorSeparator] ++ cursor.taskId
  kCursorPrefix ++ payload.flatMap hexByte

/-- The decoding loop of `ParseListPageToken`: two lower-case digits a byte, `none` at anything else. -/
def decodeHexBytes : Bytes → Option Bytes
  | [] => some []
  | [_] => none
  | first :: second :: rest =>
    match kHexDigits.idxOf? first, kHexDigits.idxOf? second with
    | some high, some low =>
      (decodeHexBytes rest).map (UInt8.ofNat ((high <<< kHexShift) ||| low) :: ·)
    | _, _ => none

/-- `ParseListPageToken`. -/
def parseListPageToken (pageToken : Bytes) : Result (Option ListTaskCursor) :=
  if pageToken.isEmpty then .ok none
  else if ¬ kCursorPrefix.isPrefixOf pageToken then .error (.validation kInvalidCursor)
  else
    let digits := pageToken.drop kCursorPrefix.length
    if digits.length % kHexByteWidth ≠ 0 then .error (.validation kInvalidCursor)
    else
      match decodeHexBytes digits with
      | none => .error (.validation kInvalidCursor)
      | some payload =>
        match payload.idxOf? kCursorSeparator with
        | none => .error (.validation kInvalidCursor)
        | some separator =>
          if separator + 1 = payload.length then .error (.validation kInvalidCursor)
          else
            match fromChars (payload.take separator) with
            | .error _ => .error (.validation kInvalidCursor)
            | .ok (updatedAt, unread) =>
              if unread ≠ [] ∨ updatedAt < 0 then .error (.validation kInvalidCursor)
              else
                let cursor : ListTaskCursor := ⟨updatedAt, payload.drop (separator + 1)⟩
                if encodeListPageToken cursor ≠ kCursorPrefix ++ digits then
                  .error (.validation kInvalidCursor)
                else .ok (some cursor)

/-! ### The token round trip -/

theorem idxOf_kHexDigits {value : Nat} (h : value < 16) : kHexDigits.idxOf? (kHexDigits.getD value 0) = some value := by
  interval_cases value <;> decide

theorem joined_halves (byte : UInt8) :
    UInt8.ofNat (((byte.toNat >>> kHexShift) <<< kHexShift) ||| (byte.toNat &&& kHexMask)) = byte := by
  have hlow : byte.toNat &&& kHexMask = byte.toNat % 16 := Nat.and_two_pow_sub_one_eq_mod _ 4
  have hhigh : byte.toNat >>> kHexShift = byte.toNat / 16 := Nat.shiftRight_eq_div_pow _ 4
  have hjoin : ((byte.toNat / 16) <<< 4) ||| (byte.toNat % 16) = byte.toNat := by
    rw [← Nat.shiftLeft_add_eq_or_of_lt (by omega), Nat.shiftLeft_eq]
    omega
  rw [hlow, hhigh, kHexShift, hjoin, UInt8.ofNat_toNat]

theorem decodeHexBytes_flatMap_hexByte (payload : Bytes) : decodeHexBytes (payload.flatMap hexByte) = some payload := by
  induction payload with
  | nil => rfl
  | cons byte rest ih =>
    have hbyte : byte.toNat < 256 := byte.toNat_lt
    have hhigh : byte.toNat >>> kHexShift < 16 := by
      rw [kHexShift, Nat.shiftRight_eq_div_pow]
      omega
    have hlow : byte.toNat &&& kHexMask < 16 := Nat.lt_succ_of_le Nat.and_le_right
    simp only [flatMap_cons, hexByte, cons_append, nil_append, decodeHexBytes,
      idxOf_kHexDigits hhigh, idxOf_kHexDigits hlow, joined_halves]
    exact congrArg (Option.map (byte :: ·)) ih

theorem length_flatMap_hexByte (payload : Bytes) :
    (payload.flatMap hexByte).length = kHexByteWidth * payload.length := by
  induction payload with
  | nil => rfl
  | cons byte rest ih =>
    rw [flatMap_cons, length_append, ih, length_cons]
    simp only [hexByte, length_cons, length_nil, kHexByteWidth]
    omega

/-- The decimal time contains no separator, so the first one is the encoder's, whatever the id. -/
theorem idxOf_kCursorSeparator (n : Nat) (taskId : Bytes) :
    (decimal n ++ [kCursorSeparator] ++ taskId).idxOf? kCursorSeparator = some (decimal n).length := by
  have hnot : kCursorSeparator ∉ decimal n := by
    intro hmem
    exact absurd (isDigitByte_of_mem_decimal hmem) (by decide)
  rw [append_assoc]
  generalize decimal n = digits at hnot
  induction digits with
  | nil => simp [List.idxOf?, List.findIdx?_cons]
  | cons d ds ih =>
    have hd : d ≠ kCursorSeparator := fun hEq => hnot (hEq ▸ mem_cons_self)
    have hds : kCursorSeparator ∉ ds := fun hmem => hnot (mem_cons_of_mem d hmem)
    have hrest := ih hds
    simp only [List.idxOf?] at hrest ⊢
    rw [cons_append, List.findIdx?_cons, if_neg (by simpa using hd), hrest]
    rfl

theorem encodeListPageToken_ne_nil (cursor : ListTaskCursor) : encodeListPageToken cursor ≠ [] := by
  have htag : kCursorPrefix ≠ [] := by decide
  exact append_ne_nil_of_left_ne_nil htag _

@[simp] theorem parseListPageToken_nil : parseListPageToken [] = .ok none := rfl

/-- A cursor with a non-negative time and an id is read back from its token. -/
theorem parse_encode_listPageToken {cursor : ListTaskCursor} (htime : 0 ≤ cursor.updatedAt) (hid : cursor.taskId ≠ []) :
    parseListPageToken (encodeListPageToken cursor) = .ok (some cursor) := by
  have htime' : (0 : Int) ≤ cursor.updatedAt.toInt := Int64.le_iff_toInt_le.mp htime
  obtain ⟨n, hn⟩ : ∃ n : Nat, cursor.updatedAt.toInt = n := ⟨_, (Int.toNat_of_nonneg htime').symm⟩
  have htoken : encodeListPageToken cursor =
      kCursorPrefix ++ (decimal n ++ [kCursorSeparator] ++ cursor.taskId).flatMap hexByte := by
    rw [encodeListPageToken, toDecimal_of_nonneg htime', hn, Int.toNat_natCast]
  have hread : fromChars (decimal n) = .ok (cursor.updatedAt, []) := by
    have hmax : (n : Int) ≤ Int64.maxValue.toInt := by
      rw [← hn]
      exact Int64.le_iff_toInt_le.mp (Int64.le_maxValue _)
    rw [fromChars_decimal hmax, ← hn, Int64.ofInt_toInt]
  have hempty : (encodeListPageToken cursor).isEmpty = false := by
    simpa using encodeListPageToken_ne_nil cursor
  have hversion : kCursorPrefix.isPrefixOf (encodeListPageToken cursor) = true :=
    isPrefixOf_iff_prefix.mpr (prefix_append _ _)
  have hdigits : (encodeListPageToken cursor).drop kCursorPrefix.length =
      (decimal n ++ [kCursorSeparator] ++ cursor.taskId).flatMap hexByte := by
    rw [htoken, drop_left]
  have hlast : (decimal n).length + 1 ≠ (decimal n ++ [kCursorSeparator] ++ cursor.taskId).length := by
    have hpos := length_pos_iff.mpr hid
    simp only [length_append, length_cons, length_nil]
    omega
  have htake : (decimal n ++ [kCursorSeparator] ++ cursor.taskId).take (decimal n).length = decimal n := by
    rw [append_assoc, take_left]
  have hdrop : (decimal n ++ [kCursorSeparator] ++ cursor.taskId).drop ((decimal n).length + 1) =
      cursor.taskId := by
    simp [drop_append]
  unfold parseListPageToken
  rw [if_neg (by simp [hempty]), if_neg (by simp [hversion])]
  simp only [hdigits, length_flatMap_hexByte, Nat.mul_mod_right, decodeHexBytes_flatMap_hexByte,
    idxOf_kCursorSeparator, htake, hread, hdrop, ← htoken, ne_eq, not_true_eq_false, if_false,
    hlast, not_lt.mpr htime, or_self]

/-- A token that is accepted is the token of the cursor that is read. -/
theorem encode_of_parseListPageToken {token : Bytes} {read : Option ListTaskCursor} (hne : token ≠ [])
    (h : parseListPageToken token = .ok read) :
    ∃ cursor, read = some cursor ∧ 0 ≤ cursor.updatedAt ∧ cursor.taskId ≠ [] ∧ encodeListPageToken cursor = token := by
  unfold parseListPageToken at h
  rw [if_neg (by simpa using hne)] at h
  by_cases hversion : kCursorPrefix.isPrefixOf token = true
  · rw [if_neg (not_not.mpr hversion)] at h
    have htoken : kCursorPrefix ++ token.drop kCursorPrefix.length = token :=
      prefix_iff_eq_append.mp (List.isPrefixOf_iff_prefix.mp hversion)
    dsimp only at h
    rw [htoken] at h
    split_ifs at h
    split at h
    · cases h
    · rename_i payload _
      split at h
      · cases h
      · rename_i separator hseparator
        split_ifs at h with hlast
        split at h
        · cases h
        · rename_i updatedAt unread _
          split_ifs at h with hread hcanonical
          cases h
          rw [not_or, not_lt] at hread
          -- the separator stands in the payload, and not at its end
          have hinside : separator < payload.length :=
            (List.findIdx?_eq_some_iff_findIdx_eq.mp hseparator).1
          have hid : payload.drop (separator + 1) ≠ [] := by
            rw [ne_eq, drop_eq_nil_iff]
            omega
          exact ⟨_, rfl, hread.2, hid, not_not.mp hcanonical⟩
  · rw [if_pos hversion] at h
    cases h

/-- Cursors that a store can hold and accepted tokens are in one-to-one correspondence. -/
theorem listPageToken_is_codec :
    (∀ cursor : ListTaskCursor, 0 ≤ cursor.updatedAt → cursor.taskId ≠ [] →
      parseListPageToken (encodeListPageToken cursor) = .ok (some cursor)) ∧
    (∀ token ≠ [], ∀ read, parseListPageToken token = .ok read → ∃ cursor,
      read = some cursor ∧ 0 ≤ cursor.updatedAt ∧ cursor.taskId ≠ [] ∧ encodeListPageToken cursor = token) ∧
    ∀ token ≠ [], ∀ token' ≠ [], ∀ read, parseListPageToken token = .ok read → parseListPageToken token' = .ok read →
      token = token' := by
  refine ⟨fun cursor htime hid => parse_encode_listPageToken htime hid,
    fun token hne read h => encode_of_parseListPageToken hne h, fun token hne token' hne' read h h' => ?_⟩
  obtain ⟨cursor, rfl, -, -, htoken⟩ := encode_of_parseListPageToken hne h
  obtain ⟨cursor', hcursor, -, -, htoken'⟩ := encode_of_parseListPageToken hne' h'
  cases hcursor
  exact htoken.symm.trans htoken'

/-- An id that is the separator, a NUL byte and a byte that is no character. -/
theorem odd_id_survives_its_token :
    parseListPageToken (encodeListPageToken ⟨12, [58, 0, 255]⟩) = .ok (some ⟨12, [58, 0, 255]⟩) :=
  listPageToken_is_codec.1 ⟨12, [58, 0, 255]⟩ (by decide) (by decide)

end A2A.Server.Tasks
