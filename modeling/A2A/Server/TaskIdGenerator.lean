/-
# Task ids that sort by their time (`task_id_generator.cpp`).
-/
import A2A.Core.Error
import A2A.Foundation.Hexadecimal
import A2A.Foundation.Machine

namespace A2A.Server

open A2A.Foundation A2A.Core

/-! ## The generator -/

def kVersion7Nibble : Nat := 0x70
def kVersionNibbleMask : Nat := 0x0F
def kVariantKeepMask : Nat := 0x3F
def kVariantRfcBits : Nat := 0x80
def kByteMask : Nat := 0xFF
def kTimestampMask : Nat := 0xFFFFFFFFFFFF
def kSequenceMask : Nat := 0xFFF
def kInitialSequenceMask : Nat := 0x3FF
def kUuidStringSize : Nat := 36
def kTaskPrefix : Bytes := "task-"

/-- What `FillSecureRandomBytes` and the clock, in milliseconds, answer to a call. -/
structure GenerateCall where
  random : Result (Vector UInt8 16)
  currentMs : Fin (2 ^ 48)

/-- `UuidV7TaskIdGenerator`. -/
structure UuidV7TaskIdGenerator where
  lastTimestampMs : Nat := 0
  sequence : Nat := 0

/-- One `%02x`. -/
def hexPair (byte : UInt8) : Bytes := [hexDigit (byte.toNat / 16), hexDigit (byte.toNat % 16)]

/-- The `snprintf` call: the bytes, with what the format has behind each of them. -/
def uuidText : Bytes → List Bytes → Bytes
  | byte :: uuid, behind :: format => hexPair byte ++ behind ++ uuidText uuid format
  | _, _ => []

def kUuidFormat : List Bytes :=
  [[], [], [], "-", [], "-", [], "-", [], "-", [], [], [], [], [], []]

/-- The bytes of the id, for the time and the number taken under the lock. -/
def uuidBytes (effectiveMs sequence : Nat) (random : Vector UInt8 16) : Bytes :=
  let ts := effectiveMs &&& kTimestampMask
  [UInt8.ofNat ((ts >>> 40) &&& kByteMask), UInt8.ofNat ((ts >>> 32) &&& kByteMask),
    UInt8.ofNat ((ts >>> 24) &&& kByteMask), UInt8.ofNat ((ts >>> 16) &&& kByteMask),
    UInt8.ofNat ((ts >>> 8) &&& kByteMask), UInt8.ofNat (ts &&& kByteMask),
    UInt8.ofNat (kVersion7Nibble ||| ((sequence >>> 8) &&& kVersionNibbleMask)), UInt8.ofNat (sequence &&& kByteMask)] ++
  [UInt8.ofNat ((random[8].toNat &&& kVariantKeepMask) ||| kVariantRfcBits), random[9], random[10], random[11],
    random[12], random[13], random[14], random[15]]

/-- The id of a time, a sequence number and random bytes. -/
def taskId (effectiveMs sequence : Nat) (random : Vector UInt8 16) : Bytes :=
  kTaskPrefix ++ uuidText (uuidBytes effectiveMs sequence random) kUuidFormat

/-- The last part of `GenerateTaskId`, behind the lock. -/
def formatTaskId (effectiveMs sequence : Nat) (random : Vector UInt8 16) : Result Bytes :=
  if (uuidText (uuidBytes effectiveMs sequence random) kUuidFormat).length ≠ kUuidStringSize then
    .error (.internal "Failed to format UUIDv7")
  else .ok (taskId effectiveMs sequence random)

namespace UuidV7TaskIdGenerator

/-- `GenerateTaskId`. -/
def generateTaskId (g : UuidV7TaskIdGenerator) (call : GenerateCall) : Result Bytes × UuidV7TaskIdGenerator :=
  match call.random with
  | .error e => (.error e, g)
  | .ok random =>
    let effectiveMs := max call.currentMs.val g.lastTimestampMs
    if effectiveMs > g.lastTimestampMs then
      let sequence := ((random[6].toNat <<< 8) ||| random[7].toNat) &&& kInitialSequenceMask
      (formatTaskId effectiveMs sequence random, ⟨effectiveMs, sequence⟩)
    else
      let sequence := (g.sequence + 1) &&& kSequenceMask
      if sequence = 0 then
        (.error (.internal "UUIDv7 sequence overflow within one millisecond"), { g with sequence })
      else (formatTaskId effectiveMs sequence random, { g with sequence })

/-- Time and sequence number have their widths. -/
structure Valid (g : UuidV7TaskIdGenerator) : Prop where
  time : g.lastTimestampMs < 2 ^ 48
  sequence : g.sequence < 4096

end UuidV7TaskIdGenerator

/-! ## Texts in the order of their bytes -/

theorem append_lt_append_left (start : Bytes) {a b : Bytes} (h : a < b) : start ++ a < start ++ b := by
  induction start with
  | nil => exact h
  | cons c start ih => exact List.cons_lt_cons_iff.mpr (.inr ⟨rfl, ih⟩)

theorem append_lt_append_of_lt {a b : Bytes} (hlength : a.length = b.length) (h : a < b) (c d : Bytes) :
    a ++ c < b ++ d := by
  induction a generalizing b with
  | nil => exact absurd (List.eq_nil_of_length_eq_zero hlength.symm ▸ h) (lt_irrefl _)
  | cons x a ih =>
    cases b with
    | nil => exact absurd h (List.not_lt_nil _)
    | cons y b =>
      rcases List.cons_lt_cons_iff.mp h with hxy | ⟨hxy, hab⟩
      · exact List.cons_lt_cons_iff.mpr (.inl hxy)
      · exact List.cons_lt_cons_iff.mpr (.inr ⟨hxy, ih (Nat.succ.inj hlength) hab⟩)

theorem hexPair_lt {x y : UInt8} (h : x < y) : hexPair x < hexPair y := by
  have hdigits : ∀ d < 16, ∀ e < 16, d < e → hexDigit d < hexDigit e := by decide
  have hlt : x.toNat < y.toNat := UInt8.lt_iff_toNat_lt.mp h
  have hy := y.toNat_lt
  by_cases hhigh : x.toNat / 16 = y.toNat / 16
  · refine List.cons_lt_cons_iff.mpr (.inr ⟨by rw [hhigh], List.cons_lt_cons_iff.mpr (.inl ?_)⟩)
    exact hdigits _ (by omega) _ (by omega) (by omega)
  · exact List.cons_lt_cons_iff.mpr (.inl (hdigits _ (by omega) _ (by omega) (by omega)))

theorem uuidText_lt {uuid uuid' : Bytes} {format : List Bytes} (hlength : uuid.length = uuid'.length)
    (hformat : uuid.length ≤ format.length) (h : uuid < uuid') : uuidText uuid format < uuidText uuid' format := by
  induction uuid generalizing uuid' format with
  | nil => exact absurd (List.eq_nil_of_length_eq_zero hlength.symm ▸ h) (lt_irrefl _)
  | cons x uuid ih =>
    match uuid', format with
    | [], _ => exact absurd h (List.not_lt_nil _)
    | _ :: _, [] => nomatch hformat
    | y :: uuid', behind :: format =>
      rw [uuidText, uuidText, List.append_assoc, List.append_assoc]
      rcases List.cons_lt_cons_iff.mp h with hxy | ⟨rfl, hrest⟩
      · have hpairs : (hexPair x).length = (hexPair y).length := rfl
        exact append_lt_append_of_lt hpairs (hexPair_lt hxy) _ _
      · apply append_lt_append_left
        apply append_lt_append_left
        exact ih (Nat.succ.inj hlength) (Nat.le_of_succ_le_succ hformat) hrest

/-- The lowest bytes of a number, highest first. -/
def bigEndian : Nat → Nat → Bytes
  | 0, _ => []
  | width + 1, n => UInt8.ofNat (n / 256 ^ width % 256) :: bigEndian width n

theorem length_bigEndian (width n : Nat) : (bigEndian width n).length = width := by
  induction width with
  | zero => rfl
  | succ width ih => rw [bigEndian, List.length_cons, ih]

theorem bigEndian_lt {width n m : Nat} (hhigh : n / 256 ^ width = m / 256 ^ width) (h : n < m) :
    bigEndian width n < bigEndian width m := by
  induction width with
  | zero => exact absurd hhigh (by simp only [pow_zero, Nat.div_one]; omega)
  | succ width ih =>
    rw [pow_succ, ← Nat.div_div_eq_div_mul, ← Nat.div_div_eq_div_mul] at hhigh
    have hle : n / 256 ^ width ≤ m / 256 ^ width := Nat.div_le_div_right h.le
    by_cases hsame : n / 256 ^ width = m / 256 ^ width
    · exact List.cons_lt_cons_iff.mpr (.inr ⟨by rw [hsame], ih hsame⟩)
    · refine List.cons_lt_cons_iff.mpr (.inl (UInt8.lt_iff_toNat_lt.mpr ?_))
      rw [UInt8.toNat_ofNat', UInt8.toNat_ofNat']
      omega

/-- What stands before the random bits of an id, as a number. -/
def idNumber (effectiveMs sequence : Nat) : Nat := effectiveMs * 65536 + 28672 + sequence

theorem uuidBytes_eq {ms q : Nat} (hms : ms < 2 ^ 48) (hq : q < 4096) (random : Vector UInt8 16) :
    ∃ behind : Bytes, behind.length = 8 ∧ uuidBytes ms q random = bigEndian 8 (idNumber ms q) ++ behind := by
  refine ⟨_, rfl, congrArg (· ++ _) ?_⟩
  have hbyte : ∀ n : Nat, n &&& kByteMask = n % 256 := fun n => Nat.and_two_pow_sub_one_eq_mod n 8
  have hmask : ms &&& kTimestampMask = ms := by
    rw [show ms &&& kTimestampMask = ms % 2 ^ 48 from Nat.and_two_pow_sub_one_eq_mod ms 48, Nat.mod_eq_of_lt hms]
  have hversion : kVersion7Nibble ||| ((q >>> 8) &&& kVersionNibbleMask) = 112 + q / 256 := by
    have hor : ∀ n < 16, kVersion7Nibble ||| n = 112 + n := by decide
    rw [show (q >>> 8) &&& kVersionNibbleMask = (q >>> 8) % 16 from Nat.and_two_pow_sub_one_eq_mod _ 4,
      Nat.shiftRight_eq_div_pow, Nat.mod_eq_of_lt (by omega), hor _ (by omega)]
  rw [hmask, hversion]
  simp only [hbyte, Nat.shiftRight_eq_div_pow, bigEndian, idNumber, List.cons.injEq, and_true]
  refine ⟨?_, ?_, ?_, ?_, ?_, ?_, ?_, ?_⟩ <;> congr 1 <;> omega

/-- Ids are in the order of times and sequence numbers, whatever the random bits. -/
theorem taskId_lt {ms ms' q q' : Nat} (hms' : ms' < 2 ^ 48) (hq : q < 4096) (hq' : q' < 4096)
    (h : ms * 4096 + q < ms' * 4096 + q') (random random' : Vector UInt8 16) :
    taskId ms q random < taskId ms' q' random' := by
  have hms : ms < 2 ^ 48 := by omega
  have hnumber : idNumber ms q < idNumber ms' q' := by
    unfold idNumber
    grind
  have hhigh : idNumber ms q / 256 ^ 8 = idNumber ms' q' / 256 ^ 8 := by
    unfold idNumber
    omega
  obtain ⟨behind, hbehind, huuid⟩ := uuidBytes_eq hms hq random
  obtain ⟨behind', hbehind', huuid'⟩ := uuidBytes_eq hms' hq' random'
  apply append_lt_append_left
  rw [huuid, huuid']
  have hlength : (bigEndian 8 (idNumber ms q)).length = (bigEndian 8 (idNumber ms' q')).length := by
    rw [length_bigEndian, length_bigEndian]
  refine uuidText_lt ?_ ?_ (append_lt_append_of_lt hlength (bigEndian_lt hhigh hnumber) _ _)
  · rw [List.length_append, List.length_append, hbehind, hbehind', hlength]
  · show (bigEndian 8 (idNumber ms q) ++ behind).length ≤ 16
    rw [List.length_append, hbehind, length_bigEndian]

theorem formatTaskId_eq (ms q : Nat) (random : Vector UInt8 16) :
    formatTaskId ms q random = .ok (taskId ms q random) := by
  have hdash : (bytes "-").length = 1 := by decide +kernel
  have hlength : (uuidText (uuidBytes ms q random) kUuidFormat).length = kUuidStringSize := by
    simp [uuidText, uuidBytes, kUuidFormat, hexPair, kUuidStringSize, hdash]
  exact if_neg (not_not.mpr hlength)

/-! ## One call -/

namespace UuidV7TaskIdGenerator

variable {g : UuidV7TaskIdGenerator} {call : GenerateCall}

/-- The call gets its random bytes and reads no later time than the call before. -/
def GoesOn (g : UuidV7TaskIdGenerator) (call : GenerateCall) : Prop :=
  call.random.toOption.isSome ∧ call.currentMs.val ≤ g.lastTimestampMs

instance : Decidable (GoesOn g call) := inferInstanceAs (Decidable (_ ∧ _))

/-- What a call may do, by time and sequence number. -/
inductive Generates (g : UuidV7TaskIdGenerator) (call : GenerateCall) : Result Bytes → UuidV7TaskIdGenerator → Prop where
  | noRandom {e : Error} (h : ¬ GoesOn g call) : Generates g call (.error e) g
  | later {q : Nat} {random : Vector UInt8 16} (h : ¬ GoesOn g call) (hlater : g.lastTimestampMs < call.currentMs.val)
      (hq : q < 4096) : Generates g call (.ok (taskId call.currentMs.val q random)) ⟨call.currentMs.val, q⟩
  | next {random : Vector UInt8 16} (h : GoesOn g call) (hq : g.sequence + 1 < 4096) :
      Generates g call (.ok (taskId g.lastTimestampMs (g.sequence + 1) random)) { g with sequence := g.sequence + 1 }
  | overflow {e : Error} (h : GoesOn g call) (hq : g.sequence = 4095) :
      Generates g call (.error e) { g with sequence := 0 }

/-- What a call does, by the time that it reads. -/
theorem generates (hg : g.Valid) (call : GenerateCall) :
    Generates g call (g.generateTaskId call).1 (g.generateTaskId call).2 := by
  unfold generateTaskId
  cases hrandom : call.random with
  | error e =>
    refine .noRandom fun h => ?_
    have hsome := h.1
    simp [hrandom, Except.toOption] at hsome
  | ok random =>
    dsimp only
    by_cases hlater : g.lastTimestampMs < call.currentMs.val
    · have hmax : max call.currentMs.val g.lastTimestampMs = call.currentMs.val := Nat.max_eq_left hlater.le
      rw [hmax, if_pos hlater, formatTaskId_eq]
      refine .later (fun h => Nat.not_le.mpr hlater h.2) hlater ?_
      exact Nat.lt_of_le_of_lt Nat.and_le_right (by decide)
    · have hgoes : GoesOn g call := ⟨by rw [hrandom]; rfl, Nat.not_lt.mp hlater⟩
      have hmax : max call.currentMs.val g.lastTimestampMs = g.lastTimestampMs := Nat.max_eq_right hgoes.2
      have hmask : (g.sequence + 1) &&& kSequenceMask = (g.sequence + 1) % 4096 := Nat.and_two_pow_sub_one_eq_mod _ 12
      have hlt := hg.sequence
      rw [hmax, if_neg (Nat.lt_irrefl _), hmask, formatTaskId_eq]
      by_cases hlast : g.sequence = 4095
      · rw [hlast, if_pos rfl]
        exact .overflow hgoes hlast
      · rw [Nat.mod_eq_of_lt (by omega), if_neg (by omega)]
        exact .next hgoes (by omega)

end UuidV7TaskIdGenerator

/-! ## Runs -/

open UuidV7TaskIdGenerator

/-- The generator with the ids it has given out; `exhausted`: the last call found its sequence numbers used up. -/
structure IdRun where
  generator : UuidV7TaskIdGenerator := {}
  exhausted : Bool := false
  ids : List Bytes := []

def IdRun.generate (run : IdRun) (call : GenerateCall) : IdRun :=
  let answer := run.generator.generateTaskId call
  { generator := answer.2
    exhausted :=
      if answer.1.toOption.isSome then false
      else run.exhausted || decide (GoesOn run.generator call)
    ids := run.ids ++ answer.1.toOption.toList }

def idMachine : Machine IdRun GenerateCall where
  start := {}
  step run call := some (run.generate call)

/-- No call goes on in a millisecond whose sequence numbers are used up. -/
def WaitsForClock (run : IdRun) (call : GenerateCall) : Prop := ¬ (run.exhausted = true ∧ GoesOn run.generator call)

/-- An id with this time and number was returned. -/
def IdRun.Issued (run : IdRun) (ms q : Nat) : Prop := ∃ random, taskId ms q random ∈ run.ids

/-- The ids are those of pairs up to the last, which is there unless the count is at zero. -/
structure IdRun.Inv (run : IdRun) : Prop where
  valid : run.generator.Valid
  bounded : ∀ id ∈ run.ids, ∃ ms q random, id = taskId ms q random ∧ q < 4096 ∧
    ms * 4096 + q ≤ run.generator.lastTimestampMs * 4096 + if run.exhausted then 4095 else run.generator.sequence
  last : run.exhausted = false → run.generator.sequence ≠ 0 →
    run.Issued run.generator.lastTimestampMs run.generator.sequence
  used : run.exhausted = true → run.generator.sequence = 0 ∧ run.Issued run.generator.lastTimestampMs 4095

namespace IdRun

variable {run : IdRun}

variable {call : GenerateCall}

theorem ids_prefix_generate (run : IdRun) (call : GenerateCall) : run.ids <+: (run.generate call).ids :=
  List.prefix_append _ _

theorem ids_prefix_foldl (calls : List GenerateCall) (run : IdRun) : run.ids <+: (calls.foldl generate run).ids := by
  induction calls generalizing run with
  | nil => exact List.prefix_rfl
  | cons call calls ih => exact (run.ids_prefix_generate call).trans (ih _)

theorem Inv.append (h : run.Inv) (hids : run.ids.Pairwise (· < ·)) {ms q : Nat} (hms : ms < 2 ^ 48) (hq : q < 4096)
    (hlater : run.generator.lastTimestampMs * 4096 + (if run.exhausted then 4095 else run.generator.sequence) <
      ms * 4096 + q) (random : Vector UInt8 16) :
    Inv ⟨⟨ms, q⟩, false, run.ids ++ [taskId ms q random]⟩ ∧ (run.ids ++ [taskId ms q random]).Pairwise (· < ·) := by
  refine ⟨⟨⟨hms, hq⟩, fun id hid => ?_, fun _ _ => ⟨random, by simp⟩, nofun⟩, ?_⟩
  · rcases List.mem_append.mp hid with hold | hnew
    · obtain ⟨ms₀, q₀, random₀, rfl, hq₀, hle⟩ := h.bounded id hold
      exact ⟨ms₀, q₀, random₀, rfl, hq₀, hle.trans hlater.le⟩
    · exact ⟨ms, q, random, List.mem_singleton.mp hnew, hq, le_rfl⟩
  · refine List.pairwise_append.mpr ⟨hids, List.pairwise_singleton _ _, fun id hid id' hid' => ?_⟩
    obtain rfl := List.mem_singleton.mp hid'
    obtain ⟨ms₀, q₀, random₀, rfl, hq₀, hle⟩ := h.bounded id hid
    exact taskId_lt hms hq₀ hq (hle.trans_lt hlater) random₀ random

/-- One more call keeps the ids ascending, if it waits for the clock. -/
theorem inv_generate (h : run.Inv) (hids : run.ids.Pairwise (· < ·)) (hwaits : WaitsForClock run call) :
    (run.generate call).Inv ∧ (run.generate call).ids.Pairwise (· < ·) := by
  have hgenerates := generates h.valid call
  unfold generate
  dsimp only
  generalize run.generator.generateTaskId call = answer at hgenerates ⊢
  obtain ⟨result, g⟩ := answer
  cases hgenerates with
  | noRandom hstops =>
    have hsame : (run.exhausted || decide (GoesOn run.generator call)) = run.exhausted := by simp [hstops]
    simp only [Except.toOption, Option.isSome_none, Option.toList_none, List.append_nil, hsame]
    exact ⟨h, hids⟩
  | @later q random _ hlater hq =>
    refine h.append hids call.currentMs.isLt hq ?_ random
    have hseq := h.valid.sequence
    split_ifs <;> omega
  | @next random hgoes hq =>
    have hfresh : run.exhausted = false := Bool.eq_false_iff.mpr fun hused => hwaits ⟨hused, hgoes⟩
    refine h.append hids h.valid.time hq ?_ random
    rw [hfresh]
    exact Nat.lt_succ_self _
  | overflow hgoes hq =>
    have hfresh : run.exhausted = false := Bool.eq_false_iff.mpr fun hused => hwaits ⟨hused, hgoes⟩
    simp only [Except.toOption, Option.isSome_none, Option.toList_none, List.append_nil, hgoes, decide_true,
      Bool.or_true]
    have hbounded := h.bounded
    have hlast := h.last hfresh (by omega)
    rw [hfresh, hq] at hbounded
    rw [hq] at hlast
    exact ⟨⟨⟨h.valid.time, Nat.zero_lt_succ _⟩, hbounded, nofun, fun _ => ⟨rfl, hlast⟩⟩, hids⟩

theorem not_pairwise_generate (h : run.Inv) (hused : run.exhausted = true)
    (hgoes : GoesOn run.generator call) : ¬ (run.generate call).ids.Pairwise (· < ·) := by
  have hgenerates := generates h.valid call
  obtain ⟨hzero, random₀, hissued⟩ := h.used hused
  unfold generate
  dsimp only
  generalize run.generator.generateTaskId call = answer at hgenerates ⊢
  obtain ⟨result, g⟩ := answer
  cases hgenerates with
  | noRandom hstops | later hstops => exact absurd hgoes hstops
  | overflow _ hq => exact absurd (hzero.symm.trans hq) (by decide)
  | @next random _ hq =>
    intro hids
    have hlt := (List.pairwise_append.mp hids).2.2 _ hissued _ (List.mem_singleton.mpr rfl)
    refine lt_asymm hlt (taskId_lt h.valid.time hq (by decide) ?_ random random₀)
    omega

end IdRun

/-- The ids of a run increase exactly if no call goes on in a millisecond whose sequence numbers are used up. -/
theorem ids_increase_iff (calls : List GenerateCall) :
    (calls.foldl IdRun.generate {}).ids.Pairwise (· < ·) ↔ idMachine.Meets WaitsForClock {} calls := by
  have hstart : IdRun.Inv {} := ⟨⟨by decide, by decide⟩, nofun, fun _ h => absurd rfl h, nofun⟩
  have hnone : (({} : IdRun).ids).Pairwise (· < ·) := List.Pairwise.nil
  generalize ({} : IdRun) = run at hstart hnone
  induction calls generalizing run with
  | nil => exact iff_of_true hnone trivial
  | cons call calls ih =>
    by_cases hwaits : WaitsForClock run call
    · obtain ⟨hinv, hids⟩ := IdRun.inv_generate hstart hnone hwaits
      refine (ih _ hinv hids).trans ⟨fun hmeets => ⟨hwaits, fun next hnext => ?_⟩, fun hmeets => hmeets.2 _ rfl⟩
      cases hnext
      exact hmeets
    · refine iff_of_false (fun hids => ?_) fun hmeets => hwaits hmeets.1
      obtain ⟨hused, hgoes⟩ := not_not.mp hwaits
      exact IdRun.not_pairwise_generate hstart hused hgoes (hids.sublist (IdRun.ids_prefix_foldl calls _).sublist)

theorem foldl_replicate_zero (random : Vector UInt8 16) {n : Nat} (hn : n ≤ 4095) :
    (List.replicate n ⟨.ok random, 0⟩).foldl IdRun.generate {} =
      ⟨⟨0, n⟩, false, (List.range n).map fun i => taskId 0 (i + 1) random⟩ := by
  induction n with
  | zero => rfl
  | succ n ih =>
    have hmask : (n + 1) &&& kSequenceMask = n + 1 :=
      (Nat.and_two_pow_sub_one_eq_mod _ 12).trans (Nat.mod_eq_of_lt (by omega))
    rw [List.replicate_succ', List.foldl_append, ih (by omega), List.range_succ, List.map_append]
    simp [IdRun.generate, generateTaskId, hmask, formatTaskId_eq, Except.toOption]

/-- In a millisecond with 4097 calls the first sequence number is used again; with the same random bits, ids are equal. -/
theorem sequence_starts_again :
    ∃ calls : List GenerateCall, ¬ (calls.foldl IdRun.generate {}).ids.Pairwise (· < ·) ∧
      ¬ (calls.foldl IdRun.generate {}).ids.Nodup := by
  let random : Vector UInt8 16 := .replicate 16 0
  let call : GenerateCall := ⟨.ok random, 0⟩
  have hids : ((List.replicate 4095 call ++ [call, call]).foldl IdRun.generate {}).ids =
      (List.range 4095).map (fun i => taskId 0 (i + 1) random) ++ [taskId 0 1 random] := by
    rw [List.foldl_append, foldl_replicate_zero random le_rfl]
    simp [call, IdRun.generate, generateTaskId, kSequenceMask, formatTaskId_eq, Except.toOption, GoesOn]
  have htwice : ¬ ((List.range 4095).map (fun i => taskId 0 (i + 1) random) ++ [taskId 0 1 random]).Nodup := fun h =>
    (List.nodup_append.mp h).2.2 _ (List.mem_map.mpr ⟨0, List.mem_range.mpr (by omega), rfl⟩) _
      (List.mem_singleton.mpr rfl) rfl
  refine ⟨List.replicate 4095 call ++ [call, call], ?_, ?_⟩
  · rw [hids]
    exact fun h => htwice (h.imp fun hlt => ne_of_lt hlt)
  · rw [hids]
    exact htwice

end A2A.Server
