/-
# Programs that write to a transport which may take less than it is given.
-/
import A2A.Foundation.Bytes
import Mathlib.Data.List.Infix

namespace A2A.Foundation

open List

/-- A program over `Write`. -/
inductive WriteProgram (ε α : Type) where
  | done (value : α)
  | write (payload : Bytes) (next : Except ε Nat → WriteProgram ε α)

/-- A call of `Write` and its answer. -/
structure Write (ε : Type) where
  payload : Bytes
  answer : Except ε Nat

variable {ε α β σ : Type}

namespace Write

def Succeeded (call : Write ε) : Prop := call.answer.isOk = true

instance (call : Write ε) : Decidable call.Succeeded := inferInstanceAs (Decidable (call.answer.isOk = true))

def accepted (call : Write ε) : Bytes :=
  match call.answer with
  | .ok taken => call.payload.take taken
  | .error _ => []

end Write

def accepted (calls : List (Write ε)) : Bytes := (calls.map Write.accepted).flatten

@[simp] theorem accepted_cons (call : Write ε) (calls : List (Write ε)) :
    accepted (call :: calls) = call.accepted ++ accepted calls := rfl

@[simp] theorem accepted_append (calls calls' : List (Write ε)) :
    accepted (calls ++ calls') = accepted calls ++ accepted calls' := by
  simp [accepted]

namespace WriteProgram

def bind : WriteProgram ε α → (α → WriteProgram ε β) → WriteProgram ε β
  | .done value, next => next value
  | .write payload step, next => .write payload fun answer => (step answer).bind next

/-- The value of a run, its calls, and the state of the transport. -/
structure Execution (ε σ α : Type) where
  value : α
  calls : List (Write ε)
  state : σ

/-- A run against a transport that answers each call. -/
def run (handler : σ → Bytes → Except ε Nat × σ) : WriteProgram ε α → σ → Execution ε σ α
  | .done value, state => ⟨value, [], state⟩
  | .write payload next, state =>
    let (answer, state) := handler state payload
    let rest := (next answer).run handler state
    ⟨rest.value, ⟨payload, answer⟩ :: rest.calls, rest.state⟩

section Run

variable {handler : σ → Bytes → Except ε Nat × σ}

theorem run_write (payload : Bytes) (next : Except ε Nat → WriteProgram ε α) (state : σ) :
    (write payload next).run handler state =
      let rest := (next (handler state payload).1).run handler (handler state payload).2
      ⟨rest.value, ⟨payload, (handler state payload).1⟩ :: rest.calls, rest.state⟩ := rfl

theorem run_bind (program : WriteProgram ε α) (next : α → WriteProgram ε β) (state : σ) :
    (program.bind next).run handler state =
      let first := program.run handler state
      let second := (next first.value).run handler first.state
      ⟨second.value, first.calls ++ second.calls, second.state⟩ := by
  induction program generalizing state with
  | done value => rfl
  | write payload step ih =>
    show Execution.mk _ _ _ = _
    rw [ih]
    rfl

end Run

/-! ## Writing a text to its end -/

/-- The loop of `writeFully`: `skip` bytes of the text are already written. -/
def writeFullyLoop (stalled : ε) : Nat → Bytes → WriteProgram ε (Except ε Unit)
  | _, [] => .done (.ok ())
  | skip + 1, _ :: text => writeFullyLoop stalled skip text
  | 0, b :: text =>
    .write (b :: text) fun
      | .error e => .done (.error e)
      | .ok 0 => .done (.error stalled)
      | .ok (taken + 1) => writeFullyLoop stalled taken text

/-- Write a text to its end; a call that takes no byte is an error. -/
def writeFully (stalled : ε) (text : Bytes) : WriteProgram ε (Except ε Unit) := writeFullyLoop stalled 0 text

variable {handler : σ → Bytes → Except ε Nat × σ}

theorem writeFullyLoop_skip (stalled : ε) (skip : Nat) (text : Bytes) :
    writeFullyLoop stalled skip text = writeFully stalled (text.drop skip) := by
  induction text generalizing skip with
  | nil =>
    rw [drop_nil]
    cases skip with
    | zero | succ => rfl
  | cons b text ih =>
    cases skip with
    | zero => rfl
    | succ skip => exact ih skip

/-- The cases of the loop: nothing to write, a failing call, one that takes nothing, one that leaves a SHORTER text. -/
theorem writeFully_induct {stalled : ε} {motive : Bytes → σ → Execution ε σ (Except ε Unit) → Prop}
    (finished : ∀ state, motive [] state ⟨.ok (), [], state⟩)
    (failed : ∀ text state e, text ≠ [] → (handler state text).1 = .error e →
      motive text state ⟨.error e, [⟨text, .error e⟩], (handler state text).2⟩)
    (nothing : ∀ text state, text ≠ [] → (handler state text).1 = .ok 0 →
      motive text state ⟨.error stalled, [⟨text, .ok 0⟩], (handler state text).2⟩)
    (some : ∀ text state taken rest, text ≠ [] → (handler state text).1 = .ok (taken + 1) →
      motive (text.drop (taken + 1)) (handler state text).2 rest →
      motive text state ⟨rest.value, ⟨text, .ok (taken + 1)⟩ :: rest.calls, rest.state⟩)
    (text : Bytes) (state : σ) : motive text state ((writeFully stalled text).run handler state) := by
  induction hlength : text.length using Nat.strong_induction_on generalizing text state with
  | _ length ih =>
    cases text with
    | nil => exact finished state
    | cons b text =>
      have hne : b :: text ≠ [] := cons_ne_nil b text
      have hrun : (writeFully stalled (b :: text)).run handler state =
          let rest := ((match (handler state (b :: text)).1 with
            | .error e => .done (.error e)
            | .ok 0 => .done (.error stalled)
            | .ok (taken + 1) => writeFullyLoop stalled taken text : WriteProgram ε (Except ε Unit))).run handler
            (handler state (b :: text)).2
          ⟨rest.value, ⟨b :: text, (handler state (b :: text)).1⟩ :: rest.calls, rest.state⟩ := rfl
      rw [hrun]
      cases hanswer : (handler state (b :: text)).1 with
      | error e => exact failed _ _ e hne hanswer
      | ok taken =>
        cases taken with
        | zero => exact nothing _ _ hne hanswer
        | succ taken =>
          apply some _ _ taken _ hne hanswer
          rw [drop_succ_cons]
          show motive _ _ ((writeFullyLoop stalled taken text).run handler _)
          rw [writeFullyLoop_skip]
          apply ih _ _ _ _ rfl
          rw [← hlength, length_drop, length_cons]
          omega

/-- The loop reports a beginning of the text as written, and all of it on success. -/
theorem accepted_writeFully (stalled : ε) (handler : σ → Bytes → Except ε Nat × σ) (text : Bytes) (state : σ) :
    accepted ((writeFully stalled text).run handler state).calls <+: text ∧
      (((writeFully stalled text).run handler state).value = .ok () →
        accepted ((writeFully stalled text).run handler state).calls = text ∧
          ∀ call ∈ ((writeFully stalled text).run handler state).calls, call.Succeeded) := by
  apply writeFully_induct (motive := fun text _ execution => accepted execution.calls <+: text ∧
    (execution.value = .ok () → accepted execution.calls = text ∧ ∀ call ∈ execution.calls, call.Succeeded))
  · intro state
    exact ⟨prefix_rfl, fun _ => ⟨rfl, fun call hcall => nomatch hcall⟩⟩
  · intro text state e _ _
    exact ⟨List.nil_prefix, nofun⟩
  · intro text state _ _
    exact ⟨List.nil_prefix, nofun⟩
  · intro text state taken rest _ _ hrest
    obtain ⟨hbegins, hok⟩ := hrest
    refine ⟨?_, ?_⟩
    · show text.take (taken + 1) ++ accepted rest.calls <+: text
      conv_rhs => rw [← take_append_drop (taken + 1) text]
      exact ( prefix_append_right_inj _).mpr hbegins
    · intro hvalue
      obtain ⟨hall, hcalls⟩ := hok hvalue
      refine ⟨?_, ?_⟩
      · show text.take (taken + 1) ++ accepted rest.calls = text
        rw [hall, take_append_drop]
      · intro call hcall
        rcases mem_cons.mp hcall with rfl | hcall
        · rfl
        · exact hcalls call hcall

/-- A transport that never fails and takes at least one byte of a text that has one. -/
def Progresses (handler : σ → Bytes → Except ε Nat × σ) : Prop :=
  ∀ state text, text ≠ [] → ∃ taken, (handler state text).1 = .ok (taken + 1)

theorem value_writeFully (stalled : ε) (h : Progresses handler) (text : Bytes) (state : σ) :
    ((writeFully stalled text).run handler state).value = .ok () := by
  apply writeFully_induct (motive := fun _ _ execution => execution.value = .ok ())
  · exact fun _ => rfl
  · intro text state e hne hanswer
    obtain ⟨taken, htaken⟩ := h state text hne
    cases hanswer.symm.trans htaken
  · intro text state hne hanswer
    obtain ⟨taken, htaken⟩ := h state text hne
    cases hanswer.symm.trans htaken
  · intro text state taken rest _ _ hrest
    exact hrest

end WriteProgram

/-! ## The transport at the bottom -/

/-- How many bytes a call takes at most, and how it fails, if it does. -/
structure WriteAnswer (ε : Type) where
  taken : Nat
  failure : Option ε := none

/-- A transport: the answers it is going to give, after which it takes nothing, and the bytes that left it. -/
structure Sink (ε : Type) where
  answers : List (WriteAnswer ε)
  sent : Bytes := []

namespace Sink

/-- `Write`. -/
def write (sink : Sink ε) (payload : Bytes) : Except ε Nat × Sink ε :=
  match sink.answers with
  | [] => (.ok 0, sink)
  | ⟨taken, failure⟩ :: answers =>
    let sink : Sink ε := ⟨answers, sink.sent ++ payload.take taken⟩
    match failure with
    | none => (.ok (min taken payload.length), sink)
    | some e => (.error e, sink)

/-- A call sends a beginning of its text: what it reports, if it succeeds. -/
theorem sent_write (sink : Sink ε) (payload : Bytes) :
    ∃ part, (sink.write payload).2.sent = sink.sent ++ part ∧ part <+: payload ∧
      ∀ taken, (sink.write payload).1 = .ok taken → part = payload.take taken := by
  unfold write
  cases sink.answers with
  | nil =>
    refine ⟨[], (append_nil _).symm, nil_prefix, ?_⟩
    rintro taken ⟨⟩
    rfl
  | cons answer answers =>
    obtain ⟨limit, failure⟩ := answer
    refine ⟨payload.take limit, ?_, take_prefix _ _, ?_⟩
    · cases failure with
      | none | some => rfl
    · cases failure with
      | none =>
        rintro taken ⟨⟩
        rw [← take_eq_take_min]
      | some e => nofun

theorem sent_run (program : WriteProgram ε α) (sink : Sink ε)
    (h : ∀ call ∈ (program.run write sink).calls, call.Succeeded) :
    (program.run write sink).state.sent = sink.sent ++ accepted (program.run write sink).calls := by
  induction program generalizing sink with
  | done value => exact (append_nil _).symm
  | write payload next ih =>
    obtain ⟨part, hsent, -, hpart⟩ := sink.sent_write payload
    rw [WriteProgram.run_write] at h ⊢
    generalize sink.write payload = step at h hsent hpart ⊢
    obtain ⟨answer, after⟩ := step
    have hcall : Write.Succeeded ⟨payload, answer⟩ := h _ (mem_cons_self ..)
    have hrest := ih answer after fun call hmem => h call (mem_cons_of_mem _ hmem)
    cases answer with
    | error e => nomatch hcall
    | ok taken =>
      have hreported : part = payload.take taken := hpart taken rfl
      dsimp only at hrest hsent ⊢
      rw [hrest, hsent, hreported, append_assoc]
      rfl

/-- The loop sends a beginning of the text, and all of it on success. -/
theorem sent_writeFully (stalled : ε) (sink : Sink ε) (text : Bytes) :
    ∃ part, ((WriteProgram.writeFully stalled text).run write sink).state.sent = sink.sent ++ part ∧ part <+: text ∧
      (((WriteProgram.writeFully stalled text).run write sink).value = .ok () → part = text) := by
  apply WriteProgram.writeFully_induct (motive := fun text (sink : Sink ε) execution =>
    ∃ part, execution.state.sent = sink.sent ++ part ∧ part <+: text ∧ (execution.value = .ok () → part = text))
  · intro sink
    exact ⟨[], (append_nil _).symm, prefix_rfl, fun _ => rfl⟩
  · intro text sink e _ _
    obtain ⟨part, hsent, hbegins, -⟩ := sink.sent_write text
    exact ⟨part, hsent, hbegins, nofun⟩
  · intro text sink _ _
    obtain ⟨part, hsent, hbegins, -⟩ := sink.sent_write text
    exact ⟨part, hsent, hbegins, nofun⟩
  · intro text sink taken rest _ hanswer hrest
    obtain ⟨first, hfirst, -, htake⟩ := sink.sent_write text
    obtain ⟨part, hsent, hbegins, hall⟩ := hrest
    rw [htake _ hanswer] at hfirst
    refine ⟨text.take (taken + 1) ++ part, ?_, ?_, ?_⟩
    · rw [← append_assoc, ← hfirst]
      exact hsent
    · conv_rhs => rw [← take_append_drop (taken + 1) text]
      exact ( prefix_append_right_inj _).mpr hbegins
    · intro hvalue
      rw [hall hvalue, take_append_drop]

end Sink

end A2A.Foundation
