/-
# The rules of libcurl's multi interface, and how the reactor keeps them.
-/
import A2A.Http.CurlStreamReactor

namespace A2A.Http.CurlStreamReactor

open A2A.Foundation Table State List

/-! ## The rules -/

/-- The transfers whose easy handle the multi handle has, and those that are complete. -/
structure Ledger where
  attached : List Transfer := []
  completed : List Transfer := []

/-- The ledger after a use that keeps the rules: an easy handle is added when it is not attached and
its transfer is not complete, a message is read while its easy handle is attached, and a transfer is
completed when it is not attached. -/
def follow (ledger : Ledger) : Use → Option Ledger
  | .add transfer taken =>
    if transfer.easyHandle ∈ ledger.attached.map Transfer.easyHandle ∨
        transfer ∈ ledger.completed then none
    else if taken then some { ledger with attached := transfer :: ledger.attached }
    else some ledger
  | .remove easyHandle =>
    some { ledger with attached := ledger.attached.filter (·.easyHandle ≠ easyHandle) }
  | .result easyHandle =>
    if easyHandle ∈ ledger.attached.map Transfer.easyHandle then some ledger else none
  | .complete transfer =>
    if transfer ∈ ledger.attached then none
    else some { ledger with completed := transfer :: ledger.completed }

/-- The uses of a step; `Enqueue` completes the transfer of a command behind the shutdown. -/
def State.uses (s : State) : Label → List Use
  | .enqueue command =>
    if s.shutdownEnqueued ∧ command ≠ .shutdown then command.transfer.toList.map .complete else []
  | .react answer => s.reactUses answer

/-- The monitor accepts all uses of the run. -/
def KeepsMultiRules (labels : List Label) : Prop :=
  (machine.emitted State.uses machine.start labels).foldlM follow {} ≠ none

/-- What the callers of the reactor see to: a transfer is added once, with an easy handle whose
earlier transfers are complete, and cancelled behind that; after the shutdown only complete
transfers are cancelled. -/
def Disciplined (s : State) : Label → Prop
  | .enqueue (.add transfer) => transfer ∉ s.submitted ∧
    ∀ t ∈ s.submitted, t.easyHandle = transfer.easyHandle → t ∈ s.completed.map Prod.fst
  | .enqueue (.cancel transfer) => transfer ∈ s.submitted ∧
    (s.shutdownEnqueued = true → transfer ∈ s.completed.map Prod.fst)
  | _ => True

/-- `ReadCompletions` gets no message of a transfer that is in `transfers_`. -/
def NoMessage (s : State) : Label → Prop
  | .react answer => s.Idle → s.reading = true →
    ∀ message ∈ answer.message, s.transfers.find message.1 = none
  | .enqueue _ => True

/-! ## The ledger of a run -/

/-- The reactor and the monitor agree: `transfers_` has what is attached, what the monitor saw
complete is complete, and the easy handle of a queued transfer is free by the time of its turn. -/
structure Agrees (s : State) (ledger : Ledger) : Prop where
  inv : Inv True s
  swept : s.Swept
  rows : ∀ t, t ∈ ledger.attached ↔ t ∈ s.transfers.rows
  done : ∀ t ∈ ledger.completed, t ∈ s.completed.map Prod.fst
  free : ∀ transfer, .add transfer ∈ s.pipeline → ∀ t ∈ s.submitted,
    t.easyHandle = transfer.easyHandle → t = transfer ∨ t ∈ s.completed.map Prod.fst

section Steps

variable {s : State} {ledger : Ledger} {answer : Answer} {command : Command}
    {transfer : Transfer} {rest : List Command}

theorem mem_settled_of_completed (h : transfer ∈ s.completed.map Prod.fst) :
    transfer ∈ s.settled := by
  rw [State.settled, map_append]
  exact mem_append_right _ h

/-- The reactor only takes commands away and adds to what is complete. -/
theorem frame_react (s : State) (answer : Answer) : (s.react answer).pipeline <:+ s.pipeline ∧
    (s.react answer).submitted = s.submitted ∧
    s.completed.map Prod.fst ⊆ (s.react answer).completed.map Prod.fst := by
  refine react_cases (P := fun _ next => next.pipeline <:+ s.pipeline ∧
    next.submitted = s.submitted ∧ s.completed.map Prod.fst ⊆ next.completed.map Prod.fst)
    fun uses next hstep => ?_
  cases hstep with
  | complete =>
    unfold State.complete
    split_ifs
    · exact ⟨suffix_refl _, rfl, List.Subset.refl _⟩
    · exact ⟨suffix_refl _, rfl, by simp⟩
  | @process command rest _ hbatch =>
    have hsuffix : rest ++ s.commands <:+ s.pipeline := by simp [State.pipeline, hbatch]
    unfold State.process
    split <;> dsimp only <;> repeat' split
    all_goals exact ⟨hsuffix, rfl, List.Subset.refl _⟩
  | swap location hbatch =>
    exact ⟨by simp [State.pipeline, State.swap, hbatch], rfl, List.Subset.refl _⟩
  | _ => exact ⟨suffix_refl _, rfl, List.Subset.refl _⟩

section

variable (h : Agrees s ledger)

include h

/-- A step of the reactor after which the monitor's ledger is `after`. -/
theorem Agrees.react {after : Ledger}
    (hrows : ∀ t, t ∈ after.attached ↔ t ∈ (s.react answer).transfers.rows)
    (hdone : ∀ t ∈ after.completed, t ∈ (s.react answer).completed.map Prod.fst) :
    Agrees (s.react answer) after := by
  obtain ⟨hsuffix, hsubmitted, hcompleted⟩ := frame_react s answer
  refine ⟨inv_react h.inv h.swept answer, swept_react h.swept answer, hrows, hdone, ?_⟩
  rw [hsubmitted]
  intro transfer hadd t ht hkey
  exact (h.free transfer (hsuffix.subset hadd) t ht hkey).imp_right fun hmem => hcompleted hmem

/-- The easy handle of a transfer whose turn has come is free, and the transfer is not complete. -/
theorem Agrees.fresh (hbatch : s.batch = .add transfer :: rest) :
    transfer.easyHandle ∉ s.transfers.rows.map Transfer.easyHandle ∧
      transfer ∉ s.completed.map Prod.fst := by
  have hadd : .add transfer ∈ s.pipeline := by simp [State.pipeline, hbatch]
  obtain ⟨hnew, hopen⟩ := h.inv.new transfer hadd
  refine ⟨fun hmem => ?_, fun hdone => hopen trivial (mem_settled_of_completed hdone)⟩
  obtain ⟨t, ht, hkey⟩ := mem_map.mp hmem
  obtain ⟨haccepted, hsettled⟩ := (h.inv.exact trivial t).mp ht
  rcases h.free transfer hadd t (h.inv.known t (.inl haccepted)) hkey with rfl | hdone
  · exact hnew haccepted
  · exact hsettled (mem_settled_of_completed hdone)

/-- Removing an easy handle takes its transfer from the ledger, too. -/
theorem Agrees.rows_remove (easyHandle : Nat) (t : Transfer) :
    t ∈ ledger.attached.filter (·.easyHandle ≠ easyHandle) ↔
      t ∈ (s.transfers.delete easyHandle).rows := by
  rw [mem_filter, mem_delete, h.rows, decide_eq_true_eq]

/-- A command is processed within the rules. -/
theorem Agrees.process (hbatch : s.batch = command :: rest) :
    ∃ after, (s.processUses answer command).foldlM follow ledger = some after ∧
      (∀ t, t ∈ after.attached ↔
        t ∈ ({ s with batch := rest }.process answer command).transfers.rows) ∧
      (∀ t ∈ after.completed,
        t ∈ ({ s with batch := rest }.process answer command).completed.map Prod.fst) := by
  cases command with
  | shutdown => exact ⟨ledger, rfl, h.rows, h.done⟩
  | cancelOwner owner => exact ⟨ledger, rfl, h.rows, h.done⟩
  | cancel transfer =>
    unfold processUses State.process
    dsimp only
    split_ifs with hfind
    · exact ⟨_, rfl, h.rows_remove transfer.easyHandle, h.done⟩
    · exact ⟨ledger, rfl, h.rows, h.done⟩
  | add transfer =>
    obtain ⟨hfree, hopen⟩ := h.fresh hbatch
    have hallowed : ¬ (transfer.easyHandle ∈ ledger.attached.map Transfer.easyHandle ∨
        transfer ∈ ledger.completed) := by
      rintro (hmem | hmem)
      · obtain ⟨t, ht, hkey⟩ := mem_map.mp hmem
        exact hfree (hkey ▸ mem_map_of_mem ((h.rows t).mp ht))
      · exact hopen (h.done transfer hmem)
    have hput (t : Transfer) : t ∈ transfer :: ledger.attached ↔
        t ∈ (s.transfers.put transfer).rows := by
      simp [rows_put_of_notMem hfree, h.rows, or_comm]
    unfold processUses State.process
    dsimp only
    -- refused while shutting down, attached, attached and failed with all others, refused by libcurl
    split_ifs with hdown hadded hacted
    · exact ⟨ledger, rfl, h.rows, h.done⟩
    all_goals simp only [foldlM_cons, foldlM_nil, follow, if_neg hallowed, hadded]
    · exact ⟨_, rfl, hput, h.done⟩
    · exact ⟨_, rfl, hput, h.done⟩
    · exact ⟨ledger, rfl, h.rows, h.done⟩

/-- A step of the reactor without a message is within the rules. -/
theorem Agrees.accepts_react (hquiet : NoMessage s (.react answer)) :
    ∃ after, (s.reactUses answer).foldlM follow ledger = some after ∧
      Agrees (s.react answer) after := by
  suffices hafter : ∃ after, (s.reactUses answer).foldlM follow ledger = some after ∧
      (∀ t, t ∈ after.attached ↔ t ∈ (s.react answer).transfers.rows) ∧
      ∀ t ∈ after.completed, t ∈ (s.react answer).completed.map Prod.fst by
    obtain ⟨after, haccepted, hrows, hdone⟩ := hafter
    exact ⟨after, haccepted, h.react hrows hdone⟩
  refine react_cases (P := fun uses next => ∃ after, uses.foldlM follow ledger = some after ∧
    (∀ t, t ∈ after.attached ↔ t ∈ next.transfers.rows) ∧
    ∀ t ∈ after.completed, t ∈ next.completed.map Prod.fst) fun uses next hstep => ?_
  cases hstep with
  | @complete transfer code hcompleting =>
    have hout : transfer ∉ ledger.attached := by
      rw [h.rows, h.inv.exact trivial]
      simp [State.settled, hcompleting]
    simp only [foldlM_cons, foldlM_nil, follow, if_neg hout]
    have hdone := h.done
    refine ⟨_, rfl, ?_⟩
    unfold State.complete
    split_ifs with hmem
    · exact ⟨h.rows, forall_mem_cons.mpr ⟨hmem, hdone⟩⟩
    · refine ⟨h.rows, ?_⟩
      simp only [map_append, forall_mem_cons]
      grind
  | sweep => exact ⟨_, rfl, h.rows_remove _, h.done⟩
  | finish hidle hreading hmessage hfind =>
    cases hfind.symm.trans (hquiet hidle hreading _ hmessage)
  | process _ hbatch => exact h.process hbatch
  | _ => exact ⟨ledger, rfl, h.rows, h.done⟩

/-- A command is put into the queue, and names no transfer whose easy handle is taken. -/
theorem Agrees.push (hcallers : Disciplined s (.enqueue command))
    (hearly : ¬ (s.shutdownEnqueued = true ∧ command ≠ .shutdown))
    (hinv : Inv True (s.enqueue command)) : Agrees (s.enqueue command) ledger := by
  have hswept := swept_enqueue h.swept command
  have hnew := h.inv.new
  have hnamed := h.inv.named
  obtain ⟨-, -, hrows, hdone, hfree⟩ := h
  unfold State.enqueue at hinv hswept ⊢
  cases command with
  | add transfer =>
    dsimp only at hinv hswept hearly ⊢
    rw [if_neg hearly] at hinv hswept ⊢
    refine ⟨hinv, hswept, hrows, hdone, fun u hadd t ht hkey => ?_⟩
    have hadd' : .add u ∈ s.pipeline ++ [.add transfer] := by
      simpa [State.pipeline, append_assoc] using hadd
    rcases mem_append.mp hadd' with hqueued | hlast <;> rcases mem_cons.mp ht with rfl | hknown
    · -- a transfer in the queue is not complete, so its easy handle is not given away
      have hopen := (hnew u hqueued).2 trivial
      have hu := hcallers.2 u (hnamed _ hqueued u rfl) hkey.symm
      exact absurd (mem_settled_of_completed hu) hopen
    · exact hfree u hqueued t hknown hkey
    · exact .inl (Command.add.inj (mem_singleton.mp hlast)).symm
    · obtain rfl := Command.add.inj (mem_singleton.mp hlast)
      exact .inr (hcallers.2 t hknown hkey)
  | _ =>
    dsimp only at hinv hswept hearly ⊢
    rw [if_neg hearly] at hinv hswept ⊢
    refine ⟨hinv, hswept, hrows, hdone, fun u hadd => hfree u ?_⟩
    simpa [State.pipeline] using hadd

/-- A transfer that the reactor does not have is completed by `Enqueue`. -/
theorem Agrees.abort {submitted : List Transfer}
    (hout : transfer ∉ s.transfers.rows) (hsubmitted : ∀ t ∈ submitted, t = transfer ∨ t ∈ s.submitted)
    (hinv : Inv True (State.complete { s with submitted } transfer .abortedByCallback)) :
    ∃ after, [Use.complete transfer].foldlM follow ledger = some after ∧
      Agrees (State.complete { s with submitted } transfer .abortedByCallback) after := by
  have hallowed : transfer ∉ ledger.attached := mt (h.rows transfer).mp hout
  obtain ⟨-, hswept, hrows, hdone, hfree⟩ := h
  simp only [foldlM_cons, foldlM_nil, follow, if_neg hallowed]
  refine ⟨_, rfl, ?_⟩
  unfold State.complete at hinv ⊢
  split_ifs at hinv ⊢ with hmem
  · refine ⟨hinv, hswept, hrows, forall_mem_cons.mpr ⟨hmem, hdone⟩, fun u hadd t ht hkey => ?_⟩
    rcases hsubmitted t ht with rfl | hknown
    · exact .inr hmem
    · exact hfree u hadd t hknown hkey
  · refine ⟨hinv, hswept, hrows, ?_, fun u hadd t ht hkey => ?_⟩
    · simp only [map_append, forall_mem_cons]
      grind
    · rw [map_append, mem_append]
      rcases hsubmitted t ht with rfl | hknown
      · exact .inr (.inr mem_cons_self)
      · exact (hfree u hadd t hknown hkey).imp_right .inl

/-- What a caller enqueues is within the rules, too. -/
theorem Agrees.accepts_enqueue (hcallers : Disciplined s (.enqueue command)) :
    ∃ after, (s.uses (.enqueue command)).foldlM follow ledger = some after ∧
      Agrees (s.enqueue command) after := by
  have hordered : Ordered s (.enqueue command) := by
    cases command with
    | add | cancel => exact hcallers.1
    | _ => trivial
  -- the reactor neither has nor is going to have what `Enqueue` completes
  have hgone (hdown : s.shutdownEnqueued = true) (t : Transfer) (ht : command.transfer = some t) :
      t ∈ s.settled ∨ t ∉ s.accepted ∧ .add t ∉ s.pipeline := by
    cases command with
    | add transfer =>
      obtain rfl : transfer = t := Option.some.inj ht
      exact .inr ⟨fun hmem => hcallers.1 (h.inv.known transfer (.inl hmem)),
        fun hadd => hcallers.1 (h.inv.named _ hadd transfer rfl)⟩
    | cancel transfer =>
      obtain rfl : transfer = t := Option.some.inj ht
      exact .inl (mem_settled_of_completed (hcallers.2 hdown))
    | cancelOwner | shutdown => nomatch ht
  have hinv : Inv True (s.enqueue command) := inv_enqueue h.inv hordered (fun _ _ => trivial)
    fun hdown _ => ⟨trivial, hgone hdown⟩
  by_cases hlate : s.shutdownEnqueued = true ∧ command ≠ .shutdown
  · have hout (t : Transfer) (ht : command.transfer = some t) : t ∉ s.transfers.rows := by
      rw [h.inv.exact trivial, not_and_not_right]
      exact fun hmem => (hgone hlate.1 t ht).elim id fun hnew => absurd hmem hnew.1
    simp only [State.uses, if_pos hlate]
    unfold State.enqueue at hinv ⊢
    cases command with
    | add transfer =>
      simp only [if_pos hlate] at hinv ⊢
      exact h.abort (hout transfer rfl) (fun t => mem_cons.mp) hinv
    | cancel transfer =>
      simp only [if_pos hlate] at hinv ⊢
      exact h.abort (hout transfer rfl) (fun t => .inr) hinv
    | cancelOwner owner =>
      simp only [if_pos hlate]
      exact ⟨ledger, rfl, h⟩
    | shutdown => exact absurd rfl hlate.2
  · exact ⟨ledger, by simp only [State.uses, if_neg hlate]; rfl, h.push hcallers hlate hinv⟩

end

/-- A message of a transfer that is in `transfers_` is read when its easy handle is gone. -/
theorem rejects_react (hloud : ¬ NoMessage s (.react answer)) :
    (s.reactUses answer).foldlM follow ledger = none := by
  simp only [NoMessage, not_forall] at hloud
  obtain ⟨hidle, hreading, ⟨easyHandle, code⟩, hmessage, hfind⟩ := hloud
  have huses : s.reactUses answer = [.remove easyHandle, .result easyHandle] := by
    unfold reactUses
    rw [hidle.1, hidle.2, hreading, Option.mem_def.mp hmessage]
    simp [Option.isSome_iff_ne_none, hfind]
  rw [huses]
  simp [follow]

end Steps

/-- The callers keep to their part. Then the run is within the rules exactly if no message of a
transfer of `transfers_` is taken: `ReadCompletions` reads its result behind the removal. -/
theorem multi_rules_kept_iff_no_message {labels : List Label}
    (h : machine.Meets Disciplined machine.start labels) :
    KeepsMultiRules labels ↔ machine.Meets NoMessage machine.start labels := by
  have hstart : Agrees machine.start {} :=
    ⟨inv_start, swept_of_nil rfl, fun _ => Iff.rfl, nofun, nofun⟩
  refine Machine.accepted_iff_meets (R := Agrees) ?_ ?_ hstart h
  · intro s label ledger hagrees hcallers hquiet
    cases label with
    | enqueue command =>
      obtain ⟨after, haccepted, hafter⟩ := hagrees.accepts_enqueue hcallers
      exact ⟨after, haccepted, fun s' hstep => Option.some.inj hstep ▸ hafter⟩
    | react answer =>
      obtain ⟨after, haccepted, hafter⟩ := hagrees.accepts_react hquiet
      exact ⟨after, haccepted, fun s' hstep => Option.some.inj hstep ▸ hafter⟩
  · intro s label ledger _ _ hloud
    cases label with
    | enqueue command => exact absurd trivial hloud
    | react answer => exact rejects_react hloud

/-- A third transfer, of the first client. -/
def otherTransfer : Transfer := ⟨2, 8, 1⟩

/-- Two transfers are taken and one is cancelled; its easy handle is used again, but the action for
it fails, and while all transfers are being failed the reactor is shut down. -/
def reuseRun : List Label :=
  [.enqueue (.add sampleTransfer), .enqueue (.add otherTransfer), .react {}, .react {}, .react {},
    .react {}, .react {}, .enqueue (.cancel sampleTransfer), .react { events := some [.wakeup] },
    .react {}, .react {}, .react {}, .enqueue (.add laterTransfer), .react {}, .react {}, .react {},
    .react { acted := false }, .react {}, .enqueue .shutdown, .react {}, .react {},
    .enqueue (.cancel sampleTransfer), .react {}, .react {}, .react { events := some [.wakeup] },
    .react {}, .react {}, .react {}, .react {}, .react {}, .react {}]

theorem reuseRun_keeps_rules : KeepsMultiRules reuseRun ∧
    ∃ s, machine.exec machine.start reuseRun = some s ∧ s.location = .exited ∧
      s.completed.map Prod.fst = [sampleTransfer, otherTransfer, laterTransfer] := by
  have hcallers : machine.Meets Disciplined machine.start reuseRun := by
    simp only [reuseRun, Machine.Meets, Disciplined, machine, Option.some.injEq, forall_eq',
      implies_true, true_and]
    decide
  have hquiet : machine.Meets NoMessage machine.start reuseRun := by
    simp [reuseRun, Machine.Meets, NoMessage]
  exact ⟨(multi_rules_kept_iff_no_message hcallers).mpr hquiet, _, rfl, rfl, by decide⟩

/-- One transfer is taken, and libcurl finishes it. -/
def finishedRun : List Label :=
  [.enqueue (.add sampleTransfer), .react {}, .react {}, .react { message := some (7, .reported 0) }]

/-- The first transfer that libcurl finishes is against the rules, although the callers keep to
theirs. -/
theorem finished_transfer_breaks_multi_rules :
    machine.Meets Disciplined machine.start finishedRun ∧ ¬ KeepsMultiRules finishedRun := by
  refine ⟨?_, fun hkeeps => hkeeps rfl⟩
  simp [finishedRun, Machine.Meets, Disciplined, machine]

end A2A.Http.CurlStreamReactor
