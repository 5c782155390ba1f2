/-
# The thread that drives libcurl's transfers (`curl_stream_reactor.cpp`).
-/
import A2A.Foundation.Machine
import A2A.Foundation.Table

namespace A2A.Http.CurlStreamReactor

open A2A.Foundation Table List

/-! ## The machine -/

/-- The codes that the reactor chooses, and those of libcurl. -/
inductive Code where
  | abortedByCallback
  | failedInit
  | recvError
  | reported (code : Nat)

/-- `Transfer`; the id is the identity of the object. -/
structure Transfer where
  id : Nat
  easyHandle : Nat
  owner : Nat
  deriving DecidableEq

/-- `Command`: what `Add`, `Cancel`, `CancelOwner` and `Shutdown` enqueue. -/
inductive Command where
  | add (transfer : Transfer)
  | cancel (transfer : Transfer)
  | cancelOwner (owner : Nat)
  | shutdown
  deriving DecidableEq

/-- `Command::transfer`, which is null for the commands about an owner or the reactor. -/
def Command.transfer : Command → Option Transfer
  | .add transfer | .cancel transfer => some transfer
  | .cancelOwner _ | .shutdown => none

/-- What `epoll_wait` reports: the wakeup descriptor, or a timer or socket and how libcurl's action
ends. -/
inductive Event where
  | wakeup
  | action (ok : Bool)

/-- Where `Run` is, once its commands and completions are done; `leaving` is the loop at its end. -/
inductive Location where
  | loop
  | wait
  | events (pending : List Event)
  | leaving
  | exited

/-- The answers of libcurl and of the event wait; `none` is a wait that fails. -/
structure Answer where
  added : Bool := true
  acted : Bool := true
  message : Option (Nat × Code) := none
  events : Option (List Event) := some []

/-- What is done with an easy handle: `curl_multi_add_handle`, `curl_multi_remove_handle`, a read of
its `CURLMsg`, and `Complete` of its transfer. -/
inductive Use where
  | add (transfer : Transfer) (taken : Bool)
  | remove (easyHandle : Nat)
  | result (easyHandle : Nat)
  | complete (transfer : Transfer)

/-- The reactor. `completing` is the call of `Complete` that is next, and `sweep` has the transfers
that a loop over `transfers_` has still to remove and to complete. `submitted` and `accepted` only
record what has happened. -/
structure State where
  commands : List Command := []
  shutdownEnqueued : Bool := false
  batch : List Command := []
  completing : Option (Transfer × Code) := none
  sweep : List (Transfer × Code) := []
  reading : Bool := false
  location : Location := .loop
  shuttingDown : Bool := false
  transfers : Table Transfer.easyHandle := .empty
  completed : List (Transfer × Code) := []
  submitted : List Transfer := []
  accepted : List Transfer := []

namespace State

/-- `Complete`: the first call for a transfer counts. -/
def complete (s : State) (transfer : Transfer) (code : Code) : State :=
  if transfer ∈ s.completed.map Prod.fst then s
  else { s with completed := s.completed ++ [(transfer, code)] }

/-- `Enqueue`. -/
def enqueue (s : State) (command : Command) : State :=
  let s := match command with
    | .add transfer => { s with submitted := transfer :: s.submitted }
    | _ => s
  if s.shutdownEnqueued ∧ command ≠ .shutdown then
    match command.transfer with
    | some transfer => s.complete transfer .abortedByCallback
    | none => s
  else
    { s with
      shutdownEnqueued := s.shutdownEnqueued || command = .shutdown
      commands := s.commands ++ [command] }

/-- The transfers of the owner. -/
def owned (s : State) (owner : Nat) : List Transfer :=
  s.transfers.rows.filter (·.owner = owner)

/-- `curl_multi_remove_handle` and the removal from `transfers_`, with `Complete` as the next call.
`FailAll` and the end of `Run` clear the map behind their loop only, but read it no more. -/
def detach (s : State) (transfer : Transfer) (code : Code) : State :=
  { s with
    transfers := s.transfers.delete transfer.easyHandle
    completing := some (transfer, code) }

/-- `FailAll`. -/
def failAll (s : State) (code : Code) : State :=
  { s with sweep := s.transfers.rows.map (·, code) }

/-- One command of `ProcessCommands`: `AddOnReactor`, `Remove` and `RemoveOwner`. -/
def process (s : State) (answer : Answer) : Command → State
  | .add transfer =>
    if s.shuttingDown then { s with completing := some (transfer, .abortedByCallback) }
    else if answer.added ∧ s.transfers.find transfer.easyHandle = none then
      let attached := { s with
        transfers := s.transfers.put transfer
        accepted := transfer :: s.accepted
        reading := true }
      if answer.acted then attached else attached.failAll .recvError
    else { s with completing := some (transfer, .failedInit) }
  | .cancel transfer =>
    if s.transfers.find transfer.easyHandle = some transfer then
      s.detach transfer .abortedByCallback
    else { s with completing := some (transfer, .abortedByCallback) }
  | .cancelOwner owner => { s with sweep := (s.owned owner).map (·, .abortedByCallback) }
  | .shutdown => { s with shuttingDown := true }

/-- The loop at the end of `Run`. -/
def leave (s : State) : State := { s.failAll .abortedByCallback with location := .leaving }

/-- `commands.swap(commands_)`. -/
def swap (s : State) (location : Location) : State :=
  { s with batch := s.commands, commands := [], location }

/-- A step of the reactor's thread: the next call of `Complete`, the next transfer of a loop, the
next message of `ReadCompletions`, the next command of `ProcessCommands`, or what `Run` and
`WaitForLinuxEvents` do behind these. -/
def react (s : State) (answer : Answer) : State :=
  match s.completing, s.sweep with
  | some (transfer, code), _ => { s with completing := none }.complete transfer code
  | none, (transfer, code) :: rest => { s with sweep := rest }.detach transfer code
  | none, [] =>
    if s.reading then
      match answer.message with
      | none => { s with reading := false }
      | some (easyHandle, code) =>
        match s.transfers.find easyHandle with
        | none => s
        | some transfer => s.detach transfer code
    else
      match s.batch with
      | command :: rest => { s with batch := rest }.process answer command
      | [] =>
        match s.location with
        | .loop => if s.shuttingDown then s.leave else s.swap .wait
        | .wait =>
          if s.shuttingDown then s.leave
          else
            match answer.events with
            | none =>
              { s.failAll .recvError with shuttingDown := true, reading := true, location := .loop }
            | some events => { s with location := .events events }
        | .events [] => { s with reading := true, location := .loop }
        | .events (.wakeup :: pending) => s.swap (.events pending)
        | .events (.action ok :: pending) =>
          let s := { s with location := .events pending }
          if ok then s else s.failAll .recvError
        | .leaving => { s with location := .exited }
        | .exited => s

/-- The uses in `AddOnReactor` and `Remove`; those of `RemoveOwner` come in its loop. -/
def processUses (s : State) (answer : Answer) : Command → List Use
  | .add transfer =>
    if s.shuttingDown then []
    else [.add transfer (answer.added ∧ s.transfers.find transfer.easyHandle = none)]
  | .cancel transfer =>
    if s.transfers.find transfer.easyHandle = some transfer then [.remove transfer.easyHandle] else []
  | .cancelOwner _ | .shutdown => []

/-- The uses of a step of the reactor, in the source's order. -/
def reactUses (s : State) (answer : Answer) : List Use :=
  match s.completing, s.sweep with
  | some (transfer, _), _ => [.complete transfer]
  | none, (transfer, _) :: _ => [.remove transfer.easyHandle]
  | none, [] =>
    if s.reading then
      match answer.message with
      | none => []
      | some (easyHandle, _) =>
        -- `message->data.result` is an argument of the call of `Complete` behind the removal
        if (s.transfers.find easyHandle).isSome then [.remove easyHandle, .result easyHandle] else []
    else
      match s.batch with
      | command :: _ => s.processUses answer command
      | [] => []

end State

/-- A thread enqueues a command, or the reactor makes a step. -/
inductive Label where
  | enqueue (command : Command)
  | react (answer : Answer)

/-- The threads and the reactor, interleaved. -/
def machine : Machine State Label where
  start := {}
  step
    | s, .enqueue command => some (s.enqueue command)
    | s, .react answer => some (s.react answer)

/-- A transfer is added once, and before it is cancelled. -/
def Ordered (s : State) : Label → Prop
  | .enqueue (.add transfer) => transfer ∉ s.submitted
  | .enqueue (.cancel transfer) => transfer ∈ s.submitted
  | _ => True

/-- No call is under way: the reactor is between two steps of its loops. -/
def State.Idle (s : State) : Prop := s.completing = none ∧ s.sweep = []

/-- The reactor is about to wait for events. -/
def State.Waits (s : State) : Prop :=
  s.Idle ∧ s.reading = false ∧ s.batch = [] ∧ s.location = .wait ∧ s.shuttingDown = false

/-- `Run` is in its loop. -/
def Location.Runs : Location → Prop
  | .loop | .wait | .events _ => True
  | .leaving | .exited => False

/-- What a step of the reactor can do, and its uses. -/
inductive ReactStep (s : State) (answer : Answer) : List Use → State → Prop
  | complete {transfer : Transfer} {code : Code} : s.completing = some (transfer, code) →
      ReactStep s answer [.complete transfer]
        ({ s with completing := none }.complete transfer code)
  | sweep {transfer : Transfer} {code : Code} {rest : List (Transfer × Code)} :
      s.completing = none → s.sweep = (transfer, code) :: rest →
      ReactStep s answer [.remove transfer.easyHandle]
        ({ s with sweep := rest }.detach transfer code)
  | finish {easyHandle : Nat} {transfer : Transfer} {code : Code} : s.Idle → s.reading = true →
      answer.message = some (easyHandle, code) → s.transfers.find easyHandle = some transfer →
      ReactStep s answer [.remove easyHandle, .result easyHandle] (s.detach transfer code)
  | process {command : Command} {rest : List Command} : s.Idle → s.batch = command :: rest →
      ReactStep s answer (s.processUses answer command)
        ({ s with batch := rest }.process answer command)
  | leave : s.batch = [] → s.shuttingDown = true → ReactStep s answer [] s.leave
  | exit : s.Idle → s.location = .leaving → ReactStep s answer [] { s with location := .exited }
  | swap (location : Location) : s.batch = [] → s.location.Runs → location.Runs →
      ReactStep s answer [] (s.swap location)
  | failWait : s.Waits → answer.events = none → ReactStep s answer []
      { s.failAll .recvError with shuttingDown := true, reading := true, location := .loop }
  | moveTo (location : Location) (reading : Bool) :
      location = s.location ∨ s.location.Runs ∧ location.Runs →
      ReactStep s answer [] { s with location, reading }
  | failAction (location : Location) : s.Idle → s.location.Runs → location.Runs →
      ReactStep s answer [] ({ s with location }.failAll .recvError)

open State

theorem Location.Runs.ne_exited {location : Location} (h : location.Runs) : location ≠ .exited := by
  rintro rfl
  exact h

/-- Every step of the reactor is one of these. -/
theorem react_step (s : State) (answer : Answer) :
    ReactStep s answer (s.reactUses answer) (s.react answer) := by
  obtain ⟨_, _, batch, completing, sweep, reading, location, shuttingDown, transfers⟩ := s
  match completing, sweep, reading, batch, location, shuttingDown with
  | some _, _, _, _, _, _ => exact .complete rfl
  | none, _ :: _, _, _, _, _ => exact .sweep rfl rfl
  | none, [], true, _, _, _ =>
    cases hmessage : answer.message with
    | none =>
      simp only [reactUses, react, hmessage]
      exact .moveTo _ false (.inl rfl)
    | some message =>
      cases hfind : transfers.find message.1 with
      | none =>
        simp only [reactUses, react, hmessage, hfind]
        exact .moveTo _ true (.inl rfl)
      | some transfer =>
        simp only [reactUses, react, hmessage, hfind]
        exact .finish ⟨rfl, rfl⟩ rfl hmessage hfind
  | none, [], false, _ :: _, _, _ => exact .process ⟨rfl, rfl⟩ rfl
  | none, [], false, [], .loop, true => exact .leave rfl rfl
  | none, [], false, [], .loop, false => exact .swap .wait rfl trivial trivial
  | none, [], false, [], .wait, true => exact .leave rfl rfl
  | none, [], false, [], .wait, false =>
    cases hevents : answer.events with
    | none =>
      simp only [reactUses, react, hevents]
      exact .failWait ⟨⟨rfl, rfl⟩, rfl, rfl, rfl, rfl⟩ hevents
    | some events =>
      simp only [reactUses, react, hevents]
      exact .moveTo (.events events) false (.inr ⟨trivial, trivial⟩)
  | none, [], false, [], .events [], _ => exact .moveTo .loop true (.inr ⟨trivial, trivial⟩)
  | none, [], false, [], .events (.wakeup :: pending), _ =>
    exact .swap (.events pending) rfl trivial trivial
  | none, [], false, [], .events (.action true :: pending), _ =>
    exact .moveTo (.events pending) false (.inr ⟨trivial, trivial⟩)
  | none, [], false, [], .events (.action false :: pending), _ =>
    exact .failAction (.events pending) ⟨rfl, rfl⟩ trivial trivial
  | none, [], false, [], .leaving, _ => exact .exit ⟨rfl, rfl⟩ rfl
  | none, [], false, [], .exited, _ => exact .moveTo .exited false (.inl rfl)

/-- A property of a step and its uses that all of these have. -/
theorem react_cases {s : State} {answer : Answer} {P : List Use → State → Prop}
    (h : ∀ uses next, ReactStep s answer uses next → P uses next) :
    P (s.reactUses answer) (s.react answer) :=
  h _ _ (react_step s answer)

/-! ## Loops over `transfers_` -/

section Sweeps

variable {s : State} {answer : Answer} {command : Command} {transfer : Transfer}

/-- Removing an easy handle removes the transfer that has it. -/
theorem mem_delete_iff {table : Table Transfer.easyHandle} {t : Transfer}
    (hmem : transfer ∈ table.rows) :
    t ∈ (table.delete transfer.easyHandle).rows ↔ t ∈ table.rows ∧ t ∉ [transfer] := by
  rw [mem_delete, mem_singleton]
  refine and_congr_right fun ht => not_congr ⟨fun hkey => ?_, fun heq => heq ▸ rfl⟩
  exact inj_on_of_nodup_map table.unique ht hmem hkey

theorem sublist_delete {table : Table Transfer.easyHandle} {transfers : List Transfer}
    (h : (transfer :: transfers).Sublist table.rows) :
    transfers.Sublist (table.delete transfer.easyHandle).rows := by
  have hfresh := (nodup_cons.mp (table.unique.sublist (h.map Transfer.easyHandle))).1
  have hkept : (transfer :: transfers).filter (·.easyHandle ≠ transfer.easyHandle) = transfers := by
    rw [filter_cons_of_neg (by simp), filter_eq_self]
    intro t ht
    have hne : t.easyHandle ≠ transfer.easyHandle := fun hkey => hfresh (hkey ▸ mem_map_of_mem ht)
    simpa using hne
  rw [← hkept]
  exact h.filter _

/-- A loop over `transfers_` goes over transfers that are there. -/
def State.Swept (s : State) : Prop := (s.sweep.map Prod.fst).Sublist s.transfers.rows

theorem swept_of_nil (h : s.sweep = []) : s.Swept := by
  simp [Swept, h]

/-- `FailAll` and `RemoveOwner` begin a loop. -/
theorem swept_of_sublist {transfers : List Transfer} {code : Code}
    (h : transfers.Sublist s.transfers.rows) :
    State.Swept { s with sweep := transfers.map (·, code) } := by
  have hfst : (transfers.map (·, code)).map Prod.fst = transfers := by
    rw [map_map]
    exact map_id _
  rw [Swept, hfst]
  exact h

theorem swept_process (hsweep : s.sweep = []) : (s.process answer command).Swept := by
  cases command with
  | shutdown => exact swept_of_nil hsweep
  | cancelOwner owner => exact swept_of_sublist filter_sublist
  | cancel transfer =>
    unfold process
    dsimp only
    split_ifs <;> exact swept_of_nil hsweep
  | add transfer =>
    unfold process
    dsimp only
    split_ifs
    · exact swept_of_nil hsweep
    · exact swept_of_nil hsweep
    · exact swept_of_sublist (Sublist.refl _)
    · exact swept_of_nil hsweep

theorem swept_react (h : s.Swept) (answer : Answer) : (s.react answer).Swept := by
  refine react_cases (P := fun _ next => next.Swept) fun uses next hstep => ?_
  cases hstep with
  | complete => unfold complete; split_ifs <;> exact h
  | sweep _ hsweep =>
    rw [Swept, hsweep] at h
    exact sublist_delete h
  | finish hidle => exact swept_of_nil hidle.2
  | process hidle => exact swept_process hidle.2
  | leave | failWait | failAction => exact swept_of_sublist (Sublist.refl _)
  | _ => exact h

theorem swept_enqueue (h : s.Swept) (command : Command) : (s.enqueue command).Swept := by
  unfold enqueue complete
  cases command <;> dsimp only [Command.transfer] <;> split_ifs <;> exact h

end Sweeps

/-! ## The invariant -/

/-- The commands that are still to be processed, in order. -/
def State.pipeline (s : State) : List Command := s.batch ++ s.commands

/-- The transfers that are about to be completed, or are. -/
def State.settled (s : State) : List Transfer :=
  (s.completing.toList ++ s.completed).map Prod.fst

/-- The account that the reactor keeps. Where `strict` holds, no thread has completed a transfer
that the reactor has or is going to have; after a shutdown only the callers can promise that. -/
structure Inv (strict : Prop) (s : State) : Prop where
  once : (s.completed.map Prod.fst).Nodup
  /-- No command names a transfer that is added behind it. -/
  ordered : s.pipeline.Pairwise fun c d => ∀ transfer, d = .add transfer → c.transfer ≠ some transfer
  named : ∀ command ∈ s.pipeline, ∀ transfer, command.transfer = some transfer →
    transfer ∈ s.submitted
  known : ∀ transfer, transfer ∈ s.accepted ∨ transfer ∈ s.settled → transfer ∈ s.submitted
  attached : ∀ transfer ∈ s.transfers.rows, transfer ∈ s.accepted
  new : ∀ transfer, .add transfer ∈ s.pipeline →
    transfer ∉ s.accepted ∧ (strict → transfer ∉ s.settled)
  exact : strict → ∀ transfer,
    transfer ∈ s.transfers.rows ↔ transfer ∈ s.accepted ∧ transfer ∉ s.settled

theorem inv_start {strict : Prop} : Inv strict {} := by
  constructor <;> simp [State.pipeline, State.settled, empty]

section Steps

variable {strict strict' : Prop} {s s' : State} {answer : Answer}

variable {command : Command} {rest : List Command} {transfer : Transfer} {submitted : List Transfer}

/-- A step that takes transfers away to complete them: they were attached, or their command is
next. -/
theorem Inv.settle (h : Inv strict s) (moved : List Transfer) (hpipeline : s'.pipeline <:+ s.pipeline)
    (honce : (s'.completed.map Prod.fst).Nodup) (hsubmitted : s'.submitted = s.submitted)
    (haccepted : s'.accepted = s.accepted)
    (hsettled : ∀ t, t ∈ s'.settled ↔ t ∈ moved ∨ t ∈ s.settled)
    (hrows : ∀ t, t ∈ s'.transfers.rows ↔ t ∈ s.transfers.rows ∧ t ∉ moved)
    (hmoved : ∀ t ∈ moved, t ∈ s.transfers.rows ∨ t ∈ s.submitted ∧ .add t ∉ s'.pipeline) :
    Inv strict s' := by
  obtain ⟨_, hordered, hnamed, hknown, hattached, hnew, hexact⟩ := h
  have hsub := hpipeline.subset
  constructor
  · exact honce
  · exact hordered.sublist hpipeline.sublist
  all_goals grind

/-- What the next command names has been submitted, and is not added behind it. -/
theorem Inv.head (h : Inv strict s) (hbatch : s.batch = command :: rest)
    (hnamed : command.transfer = some transfer) :
    transfer ∈ s.submitted ∧ .add transfer ∉ rest ++ s.commands := by
  have hpipeline : s.pipeline = command :: (rest ++ s.commands) := by
    rw [State.pipeline, hbatch]
    rfl
  have hordered := h.ordered
  rw [hpipeline] at hordered
  refine ⟨h.named command (by simp [hpipeline]) transfer hnamed, fun hadd => ?_⟩
  exact (pairwise_cons.mp hordered).1 _ hadd transfer rfl hnamed

section

variable (h : Inv strict s)

include h

theorem Inv.sweep (sweep : List (Transfer × Code)) : Inv strict { s with sweep } :=
  ⟨h.once, h.ordered, h.named, h.known, h.attached, h.new, h.exact⟩

/-- libcurl takes a transfer. -/
theorem Inv.accept (hbatch : s.batch = .add transfer :: rest)
    (hfree : s.transfers.find transfer.easyHandle = none) :
    Inv strict { s with
      batch := rest
      transfers := s.transfers.put transfer
      accepted := transfer :: s.accepted
      reading := true } := by
  obtain ⟨hknown, hadd⟩ := h.head hbatch rfl
  have hnew := h.new transfer (by simp [State.pipeline, hbatch])
  have hrows : (s.transfers.put transfer).rows = s.transfers.rows ++ [transfer] :=
    rows_put_of_notMem (find_eq_none_iff.mp hfree)
  have hsuffix : rest ++ s.commands <:+ s.pipeline := by simp [State.pipeline, hbatch]
  have hsub := hsuffix.subset
  obtain ⟨honce, hordered, hnamed, hknown', hattached, hnew', hexact⟩ := h
  constructor
  · exact honce
  · exact hordered.sublist hsuffix.sublist
  · exact fun command hmem => hnamed command (hsub hmem)
  · simp only [State.settled] at hknown' ⊢
    grind
  · simp only [hrows]
    grind
  · simp only [State.pipeline, State.settled] at hnew' hsub ⊢
    grind
  · simp only [hrows, State.settled] at hexact hnew ⊢
    grind

/-- A transfer that is in `transfers_` is removed, and its completion is next. -/
theorem Inv.detach (s' : State) (hcompleting : s.completing = none) (hmem : transfer ∈ s.transfers.rows)
    (hsuffix : s'.pipeline <:+ s.pipeline) (hsubmitted : s'.submitted = s.submitted)
    (haccepted : s'.accepted = s.accepted) (htransfers : s'.transfers = s.transfers)
    (hcompleted : s'.completed = s.completed) (code : Code) : Inv strict (s'.detach transfer code) := by
  refine h.settle [transfer] hsuffix (hcompleted ▸ h.once) hsubmitted haccepted ?_ ?_ ?_
  · simp [State.settled, State.detach, hcompleting, hcompleted]
  · intro t
    rw [← htransfers] at hmem ⊢
    exact mem_delete_iff hmem
  · intro t ht
    exact .inl (mem_singleton.mp ht ▸ hmem)

/-- A command is processed: its transfer is taken, removed or completed. -/
theorem inv_process (hidle : s.Idle) (hbatch : s.batch = command :: rest) :
    Inv strict ({ s with batch := rest }.process answer command) := by
  have hcompleting := hidle.1
  have hsuffix : rest ++ s.commands <:+ s.pipeline := by simp [State.pipeline, hbatch]
  -- a transfer that is not attached is completed
  have hrefused {transfer : Transfer} (hnamed : command.transfer = some transfer)
      (hout : transfer ∉ s.transfers.rows) (code : Code) :
      Inv strict { s with batch := rest, completing := some (transfer, code) } := by
    obtain ⟨hknown, hadd⟩ := h.head hbatch hnamed
    refine h.settle [transfer] hsuffix h.once rfl rfl ?_ ?_ ?_
    · simp [State.settled, hcompleting]
    · intro t
      show t ∈ s.transfers.rows ↔ _
      grind
    · intro t ht
      obtain rfl := mem_singleton.mp ht
      exact .inr ⟨hknown, hadd⟩
  cases command with
  | shutdown =>
    exact h.settle [] hsuffix h.once rfl rfl (by simp [State.settled, process])
      (by simp [process]) nofun
  | cancelOwner owner =>
    exact h.settle [] hsuffix h.once rfl rfl (by simp [State.settled, process])
      (by simp [process]) nofun
  | cancel transfer =>
    unfold process
    dsimp only
    split_ifs with hfind
    · exact h.detach { s with batch := rest } hcompleting (find_eq_some_iff.mp hfind).1
        hsuffix rfl rfl rfl rfl _
    · exact hrefused rfl (by simpa [find_eq_some_iff] using hfind) _
  | add transfer =>
    have hout : transfer ∉ s.transfers.rows := fun hmem =>
      (h.new transfer (by simp [State.pipeline, hbatch])).1 (h.attached transfer hmem)
    unfold process
    dsimp only
    split_ifs with hdown hadded hacted
    · exact hrefused rfl hout _
    · exact h.accept hbatch hadded.2
    · exact (h.accept hbatch hadded.2).sweep _
    · exact hrefused rfl hout _

/-- `Complete` keeps the account: what is settled stays settled. -/
theorem inv_complete {code : Code} (hcompleting : s.completing = some (transfer, code)) :
    Inv strict ({ s with completing := none }.complete transfer code) := by
  unfold complete
  split_ifs with hdone
  · refine h.settle [] (suffix_refl _) h.once rfl rfl ?_ (by simp) nofun
    simp only [State.settled, hcompleting]
    grind
  · refine h.settle [] (suffix_refl _) ?_ rfl rfl ?_ (by simp) nofun
    · rw [map_append, nodup_append]
      have honce := h.once
      grind
    · simp only [State.settled, hcompleting]
      grind

theorem Inv.moveTo (location : Location) (reading shuttingDown : Bool) :
    Inv strict { s with location, reading, shuttingDown } :=
  ⟨h.once, h.ordered, h.named, h.known, h.attached, h.new, h.exact⟩

theorem Inv.swap (hbatch : s.batch = []) (location : Location) : Inv strict (s.swap location) := by
  have hpipeline : (s.swap location).pipeline = s.pipeline := by
    simp [State.pipeline, State.swap, hbatch]
  exact ⟨h.once, hpipeline ▸ h.ordered, hpipeline ▸ h.named, h.known, h.attached,
    hpipeline ▸ h.new, h.exact⟩

/-- The reactor keeps the account, whatever libcurl and the event wait answer. -/
theorem inv_react (hswept : s.Swept) (answer : Answer) : Inv strict (s.react answer) := by
  refine react_cases (P := fun _ next => Inv strict next) fun uses next hstep => ?_
  cases hstep with
  | complete hcompleting => exact inv_complete h hcompleting
  | @sweep _ _ rest hcompleting hsweep =>
    rw [Swept, hsweep] at hswept
    exact h.detach { s with sweep := rest } hcompleting (hswept.subset mem_cons_self)
      (suffix_refl _) rfl rfl rfl rfl _
  | finish hidle _ _ hfind =>
    exact h.detach s hidle.1 (find_eq_some_iff.mp hfind).1 (suffix_refl _) rfl rfl rfl rfl _
  | process hidle hbatch => exact inv_process h hidle hbatch
  | leave | failWait => exact (h.sweep _).moveTo _ _ _
  | exit => exact h.moveTo _ _ _
  | swap location hbatch => exact h.swap hbatch _
  | moveTo location reading => exact h.moveTo _ _ _
  | failAction location => exact (h.moveTo location s.reading s.shuttingDown).sweep _

/-- A command is put into the queue. -/
theorem Inv.push (hsub : s.submitted ⊆ submitted)
    (hnamed : ∀ transfer, command.transfer = some transfer → transfer ∈ submitted)
    (hnew : ∀ transfer, command = .add transfer → transfer ∉ s.submitted) (shutdownEnqueued : Bool)
    (hstrict : strict' → strict) :
    Inv strict' { s with commands := s.commands ++ [command], submitted, shutdownEnqueued } := by
  have hpipeline : State.pipeline
      { s with commands := s.commands ++ [command], submitted, shutdownEnqueued } =
        s.pipeline ++ [command] := (append_assoc ..).symm
  obtain ⟨honce, hordered, hnamed', hknown, hattached, hnew', hexact⟩ := h
  constructor
  · exact honce
  · rw [hpipeline, pairwise_append]
    refine ⟨hordered, pairwise_singleton _ _, fun c hc d hd transfer hadd hc' => ?_⟩
    exact hnew transfer (mem_singleton.mp hd ▸ hadd) (hnamed' c hc transfer hc')
  · rw [hpipeline]
    intro c hc transfer hc'
    rcases mem_append.mp hc with hc | hc
    · exact hsub (hnamed' c hc transfer hc')
    · exact hnamed transfer (mem_singleton.mp hc ▸ hc')
  · exact fun transfer ht => hsub (hknown transfer ht)
  · exact hattached
  · rw [hpipeline]
    intro transfer hadd
    rcases mem_append.mp hadd with hadd | hadd
    · exact ⟨(hnew' transfer hadd).1, fun h => (hnew' transfer hadd).2 (hstrict h)⟩
    · have hfresh := hnew transfer (mem_singleton.mp hadd).symm
      exact ⟨fun ht => hfresh (hknown transfer (.inl ht)),
        fun _ ht => hfresh (hknown transfer (.inr ht))⟩
  · exact fun h => hexact (hstrict h)

/-- A transfer that a thread completes itself, because the reactor is going to stop. The account
stays strict if the reactor does not have the transfer, and is not going to have it. -/
theorem Inv.abort (hsub : s.submitted ⊆ submitted) (ht : transfer ∈ submitted) (code : Code)
    (hstrict : strict' → strict ∧
      (transfer ∈ s.settled ∨ transfer ∉ s.accepted ∧ .add transfer ∉ s.pipeline)) :
    Inv strict' (State.complete { s with submitted } transfer code) := by
  obtain ⟨honce, hordered, hnamed, hknown, hattached, hnew, hexact⟩ := h
  have hnamed' : ∀ command ∈ s.pipeline, ∀ transfer, command.transfer = some transfer →
      transfer ∈ submitted := fun c hc t h => hsub (hnamed c hc t h)
  unfold complete
  split_ifs with hdone
  · exact ⟨honce, hordered, hnamed', fun t h => hsub (hknown t h), hattached,
      fun t hadd => ⟨(hnew t hadd).1, fun h => (hnew t hadd).2 (hstrict h).1⟩,
      fun h => hexact (hstrict h).1⟩
  · have hsettled (t : Transfer) : t ∈ State.settled
        { s with submitted, completed := s.completed ++ [(transfer, code)] } ↔
          t ∈ s.settled ∨ t = transfer := by
      simp [State.settled, or_assoc]
    refine ⟨?_, hordered, hnamed', ?_, hattached, ?_, ?_⟩
    · rw [map_append, nodup_append]
      grind
    · simp only [hsettled]
      grind
    · intro t hadd
      have hadd : .add t ∈ s.pipeline := hadd
      rw [hsettled]
      grind
    · simp only [hsettled]
      grind

end

/-- What `Enqueue` does, as long as the callers add a transfer once and before they cancel it. -/
theorem inv_enqueue (h : Inv strict s) (hordered : Ordered s (.enqueue command))
    (hopen : s.shutdownEnqueued = false → strict' → strict)
    (hlate : s.shutdownEnqueued = true → strict' → strict ∧ ∀ t, command.transfer = some t →
      t ∈ s.settled ∨ t ∉ s.accepted ∧ .add t ∉ s.pipeline) : Inv strict' (s.enqueue command) := by
  have hstrict : strict' → strict := by
    cases hdown : s.shutdownEnqueued with
    | false => exact hopen hdown
    | true => exact fun h => (hlate hdown h).1
  unfold enqueue
  cases command with
  | add transfer =>
    dsimp only
    split_ifs with hdown
    · exact h.abort (subset_cons_self _ _) mem_cons_self _ fun hs =>
        (hlate hdown.1 hs).imp_right fun hfree => hfree transfer rfl
    · exact h.push (subset_cons_self _ _) (by simp [Command.transfer])
        (by simpa [Ordered] using hordered) _ hstrict
  | cancel transfer =>
    dsimp only
    split_ifs with hdown
    · exact h.abort (List.Subset.refl _) hordered _ fun hs =>
        (hlate hdown.1 hs).imp_right fun hfree => hfree transfer rfl
    · exact h.push (List.Subset.refl _) (by simpa [Command.transfer, Ordered] using hordered)
        (by simp) _ hstrict
  | cancelOwner owner =>
    dsimp only
    split_ifs with hdown
    · exact ⟨h.once, h.ordered, h.named, h.known, h.attached,
        fun t hadd => (h.new t hadd).imp_right fun hnew hs => hnew (hstrict hs),
        fun hs => h.exact (hstrict hs)⟩
    · exact h.push (List.Subset.refl _) (by simp [Command.transfer]) (by simp) _ hstrict
  | shutdown =>
    dsimp only
    split_ifs with hdown
    · exact absurd rfl hdown.2
    · exact h.push (List.Subset.refl _) (by simp [Command.transfer]) (by simp) _ hstrict

end Steps

theorem shutdownEnqueued_of_enqueue {s : State} {command : Command}
    (h : (s.enqueue command).shutdownEnqueued = false) : s.shutdownEnqueued = false := by
  unfold enqueue complete at h
  cases command <;> dsimp only [Command.transfer] at h <;> split_ifs at h <;> simp_all

/-- The reactor does not enqueue. -/
theorem shutdownEnqueued_react (s : State) (answer : Answer) :
    (s.react answer).shutdownEnqueued = s.shutdownEnqueued := by
  refine react_cases (P := fun _ next => next.shutdownEnqueued = s.shutdownEnqueued) fun uses next hstep => ?_
  cases hstep with
  | complete => unfold complete; split_ifs <;> rfl
  | process => cases ‹Command› <;> simp only [process] <;> split_ifs <;> rfl
  | _ => rfl

/-- Runs in which a transfer is added once and before it is cancelled: the account is strict until
a shutdown is enqueued. -/
theorem inv_of_reachable {s : State} (h : machine.ReachableMeeting Ordered s) :
    Inv (s.shutdownEnqueued = false) s ∧ s.Swept := by
  refine h.invariant (I := fun s => Inv (s.shutdownEnqueued = false) s ∧ s.Swept)
    ⟨inv_start, swept_of_nil rfl⟩ fun s label s' hinv hordered hstep => ?_
  obtain ⟨hinv, hswept⟩ := hinv
  cases label with
  | enqueue command =>
    obtain rfl := Option.some.inj hstep
    refine ⟨inv_enqueue hinv hordered (fun hopen _ => hopen) fun hdown hopen => ?_,
      swept_enqueue hswept command⟩
    exact nomatch hdown.symm.trans (shutdownEnqueued_of_enqueue hopen)
  | react answer =>
    obtain rfl := Option.some.inj hstep
    refine ⟨?_, swept_react hswept answer⟩
    show Inv ((s.react answer).shutdownEnqueued = false) (s.react answer)
    rw [shutdownEnqueued_react]
    exact inv_react hinv hswept answer

/-! ## What a command does -/

section Commands

variable {s processed : State}

/-- The steps that the calls under way take: one for `Complete`, and two for each transfer of a
loop. -/
def State.callsUnderWay (s : State) : Nat := s.completing.toList.length + 2 * s.sweep.length

/-- The reactor takes a command from the batch, and makes its calls. -/
def Processes (s : State) (command : Command) (processed : State) : Prop :=
  s.Idle ∧ s.reading = false ∧ (∃ rest, s.batch = command :: rest) ∧
    ∃ answer answers, answers.length = (s.react answer).callsUnderWay ∧
      machine.exec s ((answer :: answers).map .react) = some processed

/-- The calls under way are made: what they are about is removed and completed, and nothing
else. -/
theorem exec_callsUnderWay {answers : List Answer}
    (hlength : answers.length = s.callsUnderWay)
    (hswept : s.Swept) (h : machine.exec s (answers.map .react) = some processed) : processed.Idle ∧
      (∀ t, t ∈ processed.transfers.rows ↔ t ∈ s.transfers.rows ∧ t ∉ s.sweep.map Prod.fst) ∧
      ∀ t, t ∈ processed.completed.map Prod.fst ↔ t ∈ s.settled ∨ t ∈ s.sweep.map Prod.fst := by
  induction answers generalizing s with
  | nil =>
    obtain rfl : processed = s := (Option.some.inj h).symm
    unfold callsUnderWay at hlength
    rw [length_nil] at hlength
    have hcompleting : processed.completing = none :=
      Option.toList_eq_nil_iff.mp (eq_nil_of_length_eq_zero (by omega))
    have hsweep : processed.sweep = [] := eq_nil_of_length_eq_zero (by omega)
    simp [Idle, hcompleting, hsweep, State.settled]
  | cons answer answers ih =>
    obtain ⟨next, hstep, hrest⟩ := Machine.exec_cons.mp h
    cases hstep
    cases hcompleting : s.completing with
    | some p =>
      obtain ⟨transfer, code⟩ := p
      have hnext : s.react answer = { s with completing := none }.complete transfer code := by
        unfold react
        rw [hcompleting]
      rw [hnext] at hrest
      have hfields : ({ s with completing := none }.complete transfer code).transfers = s.transfers ∧
          ({ s with completing := none }.complete transfer code).completing = none ∧
          ({ s with completing := none }.complete transfer code).sweep = s.sweep ∧
          ∀ t, t ∈ ({ s with completing := none }.complete transfer code).settled ↔
            t ∈ s.settled := by
        unfold complete
        split_ifs <;> simp [State.settled, hcompleting] <;> grind
      obtain ⟨htransfers, hnone, hsweep, hsettled⟩ := hfields
      obtain ⟨hidle, hrows, hcompleted⟩ := ih
        (by simp [callsUnderWay, hcompleting, hnone, hsweep] at hlength ⊢; omega)
        (by rw [Swept, hsweep, htransfers]; exact hswept) hrest
      refine ⟨hidle, fun t => ?_, fun t => ?_⟩
      · rw [hrows, htransfers, hsweep]
      · rw [hcompleted, hsettled, hsweep]
    | none =>
      cases hsweep : s.sweep with
      | nil => simp [callsUnderWay, hcompleting, hsweep] at hlength
      | cons p rest =>
        obtain ⟨transfer, code⟩ := p
        have hnext : s.react answer = { s with sweep := rest }.detach transfer code := by
          unfold react
          rw [hcompleting, hsweep]
        rw [hnext] at hrest
        rw [Swept, hsweep] at hswept
        have hmem : transfer ∈ s.transfers.rows := hswept.subset mem_cons_self
        have hrestSwept : State.Swept ({ s with sweep := rest }.detach transfer code) :=
          sublist_delete hswept
        obtain ⟨hidle, hrows, hcompleted⟩ := ih
          (by simp [callsUnderWay, hcompleting, hsweep, detach] at hlength ⊢; omega)
          hrestSwept hrest
        refine ⟨hidle, fun t => ?_, fun t => ?_⟩
        · rw [hrows]
          show t ∈ (s.transfers.delete transfer.easyHandle).rows ∧ t ∉ rest.map Prod.fst ↔ _
          rw [mem_delete_iff hmem]
          simp [and_assoc]
        · rw [hcompleted]
          simp [State.settled, detach, hcompleting]
          grind

/-- What a processed command has done is what `process` begins. -/
theorem Processes.spec {command : Command} (h : Processes s command processed) : ∃ rest answer next,
      next = { s with batch := rest }.process answer command ∧
      (∀ t, t ∈ processed.transfers.rows ↔ t ∈ next.transfers.rows ∧ t ∉ next.sweep.map Prod.fst) ∧
      ∀ t, t ∈ processed.completed.map Prod.fst ↔ t ∈ next.settled ∨ t ∈ next.sweep.map Prod.fst := by
  obtain ⟨hidle, hreading, ⟨rest, hbatch⟩, answer, answers, hlength, hexec⟩ := h
  obtain ⟨next, hstep, hrest⟩ := Machine.exec_cons.mp hexec
  cases hstep
  have hnext : s.react answer = { s with batch := rest }.process answer command := by
    unfold react
    rw [hidle.1, hidle.2]
    simp only [hreading, hbatch]
    rfl
  rw [hnext] at hlength hrest
  exact ⟨rest, answer, _, rfl, (exec_callsUnderWay hlength (swept_process hidle.2) hrest).2⟩

end Commands

/-- A transfer of the first client, and one of the second with the same easy handle. -/
def sampleTransfer : Transfer := ⟨0, 7, 1⟩

@[inherit_doc sampleTransfer] def laterTransfer : Transfer := ⟨1, 7, 2⟩

/-- A wait that fails finds no transfer in the queue, and behind it none is added, unless a shutdown
was enqueued so that `Enqueue` completes it. -/
def NoneStranded (s : State) : Label → Prop
  | .react answer => s.Waits → answer.events = none → ∀ t, .add t ∉ s.commands
  | .enqueue (.add _) => s.shuttingDown = true → s.shutdownEnqueued = true
  | .enqueue _ => True

/-- Nothing is lost: once the loop is going to end no transfer waits in the queue, and those of
`transfers_` are swept. -/
structure Drains (s : State) : Prop where
  stopped : s.shuttingDown = true → ∀ t, .add t ∉ s.pipeline
  /-- Behind a shutdown no transfer is added. -/
  last : s.pipeline.Pairwise fun c d => c = .shutdown → ∀ t, d ≠ .add t
  marked : .shutdown ∈ s.pipeline → s.shutdownEnqueued = true
  kept : ∀ t ∈ s.submitted, t ∈ s.settled ∨ t ∈ s.transfers.rows ∨ .add t ∈ s.pipeline
  left : ¬ s.location.Runs → s.shuttingDown = true ∧ s.batch = [] ∧
    ∀ t ∈ s.transfers.rows, t ∈ s.sweep.map Prod.fst
  exited : s.location = .exited → s.Idle

section Draining

variable {s s' : State} {answer : Answer}

variable {command : Command} {submitted : List Transfer}

section

variable (h : Drains s)

include h

/-- A step of the reactor that works on the pipeline. -/
theorem Drains.react (hpipeline : s'.pipeline <:+ s.pipeline) (hsubmitted : s'.submitted = s.submitted)
    (hshutdown : s'.shutdownEnqueued = s.shutdownEnqueued)
    (hstopped : s'.shuttingDown → s.shuttingDown ∨ (∀ t, .add t ∉ s.pipeline) ∨
      s.pipeline = .shutdown :: s'.pipeline)
    (hkept : ∀ t, t ∈ s.settled ∨ t ∈ s.transfers.rows ∨ .add t ∈ s.pipeline →
      t ∈ s'.settled ∨ t ∈ s'.transfers.rows ∨ .add t ∈ s'.pipeline)
    (hleft : ¬ s'.location.Runs → s'.shuttingDown ∧ s'.batch = [] ∧
      ∀ t ∈ s'.transfers.rows, t ∈ s'.sweep.map Prod.fst)
    (hexited : s'.location = .exited → s'.Idle) : Drains s' := by
  have hsub := hpipeline.subset
  refine ⟨fun hdown t hadd => ?_, h.last.sublist hpipeline.sublist,
    fun hmem => hshutdown ▸ h.marked (hsub hmem), fun t ht => hkept t (h.kept t (hsubmitted ▸ ht)),
    hleft, hexited⟩
  rcases hstopped hdown with hdown | hnone | hhead
  · exact h.stopped hdown t (hsub hadd)
  · exact hnone t (hsub hadd)
  · have hlast := h.last
    rw [hhead] at hlast
    exact (pairwise_cons.mp hlast).1 _ hadd rfl t rfl

/-- A transfer of `transfers_` is removed, to be completed next. -/
theorem Drains.detach {transfer : Transfer} (rest : List (Transfer × Code))
    (hcompleting : s.completing = none) (hmem : transfer ∈ s.transfers.rows) (code : Code)
    (hrest : ∀ t ∈ s.sweep.map Prod.fst, t = transfer ∨ t ∈ rest.map Prod.fst)
    (hrunning : s.location ≠ .exited) :
    Drains ({ s with sweep := rest }.detach transfer code) := by
  refine h.react (suffix_refl _) rfl rfl .inl ?_ (fun hleft => ?_) (absurd · hrunning)
  · simp only [State.settled, State.pipeline, State.detach, mem_delete_iff hmem, hcompleting]
    grind
  · obtain ⟨hdown, hbatch, hrows⟩ := h.left hleft
    refine ⟨hdown, hbatch, fun t ht => ?_⟩
    obtain ⟨ht, hne⟩ := (mem_delete_iff hmem).mp ht
    rcases hrest t (hrows t ht) with rfl | hswept
    · exact absurd mem_cons_self hne
    · exact hswept

/-- All transfers of `transfers_` are swept. -/
theorem Drains.failAll (code : Code) (hrunning : s.location ≠ .exited) : Drains (s.failAll code) := by
  refine h.react (suffix_refl _) rfl rfl .inl (fun t => id) (fun hleft => ?_) (absurd · hrunning)
  obtain ⟨hdown, hbatch, -⟩ := h.left hleft
  refine ⟨hdown, hbatch, fun t ht => ?_⟩
  simpa [State.failAll] using ht

theorem Drains.moveTo {location : Location}
    (hlocation : location = s.location ∨ location.Runs) (reading : Bool) :
    Drains { s with location, reading } := by
  refine ⟨h.stopped, h.last, h.marked, h.kept, fun hleft => ?_, fun hexit => ?_⟩
  · rcases hlocation with rfl | hruns
    · exact h.left hleft
    · exact absurd hruns hleft
  · rcases hlocation with rfl | hruns
    · exact h.exited hexit
    · exact absurd hexit hruns.ne_exited

/-- A command is processed, and its transfer is settled, attached or still to come. -/
theorem drains_process (hidle : s.Idle) {rest : List Command} (hbatch : s.batch = command :: rest) :
    Drains ({ s with batch := rest }.process answer command) := by
  obtain ⟨hcompleting, hsweep⟩ := hidle
  have hsuffix : rest ++ s.commands <:+ s.pipeline := by simp [State.pipeline, hbatch]
  have hpipeline : s.pipeline = command :: (rest ++ s.commands) := by
    simp [State.pipeline, hbatch]
  have hruns : s.location.Runs := by
    by_contra hleft
    exact nomatch hbatch.symm.trans (h.left hleft).2.1
  have hrunning := hruns.ne_exited
  -- a transfer that is not attached is completed
  have hrefused {transfer : Transfer} (hnamed : command.transfer = some transfer) (code : Code) :
      Drains { s with batch := rest, completing := some (transfer, code) } := by
    refine h.react hsuffix rfl rfl .inl ?_ (absurd hruns ·) (absurd · hrunning)
    rw [hpipeline]
    simp only [State.settled, State.pipeline, hcompleting]
    grind [Command.transfer]
  cases command with
  | shutdown =>
    refine h.react hsuffix rfl rfl (fun _ => .inr (.inr hpipeline)) ?_ (absurd hruns ·)
      (absurd · hrunning)
    rw [hpipeline]
    simp [process, State.settled, State.pipeline]
  | cancelOwner owner =>
    refine h.react hsuffix rfl rfl .inl ?_ (absurd hruns ·) (absurd · hrunning)
    rw [hpipeline]
    simp [process, State.settled, State.pipeline]
  | cancel transfer =>
    unfold process
    dsimp only
    split_ifs with hfind
    · have hmem := (find_eq_some_iff.mp hfind).1
      refine h.react hsuffix rfl rfl .inl ?_ (absurd hruns ·) (absurd · hrunning)
      rw [hpipeline]
      simp only [State.settled, State.pipeline, State.detach, mem_delete_iff hmem, hcompleting]
      grind
    · exact hrefused rfl _
  | add transfer =>
    have haccepted (hfree : s.transfers.find transfer.easyHandle = none) : Drains { s with
        batch := rest
        transfers := s.transfers.put transfer
        accepted := transfer :: s.accepted
        reading := true } := by
      refine h.react hsuffix rfl rfl .inl ?_ (absurd hruns ·) (absurd · hrunning)
      rw [hpipeline]
      simp only [State.settled, State.pipeline, rows_put_of_notMem (find_eq_none_iff.mp hfree)]
      grind
    unfold process
    dsimp only
    split_ifs with hdown hadded hacted
    · exact hrefused rfl _
    · exact haccepted hadded.2
    · exact (haccepted hadded.2).failAll _ hrunning
    · exact hrefused rfl _

/-- No step of the reactor loses a transfer, except a failed wait with transfers in the queue. -/
theorem drains_react (hswept : s.Swept) (hstranded : NoneStranded s (.react answer)) :
    Drains (s.react answer) := by
  refine react_cases (P := fun _ next => Drains next) fun uses next hstep => ?_
  cases hstep with
  | complete hcompleting =>
    have hrunning : s.location ≠ .exited := fun hexit =>
      nomatch hcompleting.symm.trans (h.exited hexit).1
    unfold complete
    split_ifs with hdone <;>
      refine h.react (suffix_refl _) rfl rfl .inl ?_ h.left (absurd · hrunning) <;>
      simp only [State.settled, State.pipeline, hcompleting] <;> grind
  | @sweep transfer code rest hcompleting hsweep =>
    have hrunning : s.location ≠ .exited := fun hexit =>
      nomatch hsweep.symm.trans (h.exited hexit).2
    rw [Swept, hsweep] at hswept
    refine h.detach rest hcompleting (hswept.subset mem_cons_self) code (fun t ht => ?_) hrunning
    rw [hsweep] at ht
    exact mem_cons.mp ht
  | finish hidle hreading hmessage hfind =>
    have hmem := (find_eq_some_iff.mp hfind).1
    have hruns : s.location ≠ .exited := by
      intro hexit
      have hswept := (h.left (by simp [hexit, Location.Runs])).2.2 _ hmem
      simp [hidle.2] at hswept
    exact h.detach s.sweep hidle.1 hmem _ (fun t ht => .inr ht) hruns
  | process hidle hbatch => exact drains_process h hidle hbatch
  | leave hbatch hdown =>
    refine h.react (suffix_refl _) rfl rfl .inl (fun t => id) (fun _ => ⟨hdown, hbatch, ?_⟩) nofun
    intro t ht
    simpa [State.leave, State.failAll] using ht
  | exit hidle hlocation =>
    have hleft := h.left (by simp [hlocation, Location.Runs])
    exact h.react (suffix_refl _) rfl rfl .inl (fun t => id) (fun _ => hleft) fun _ => hidle
  | swap location hbatch hruns hlocation =>
    have hpipeline : (s.swap location).pipeline = s.pipeline := by
      simp [State.pipeline, State.swap, hbatch]
    refine h.react (hpipeline ▸ suffix_refl _) rfl rfl .inl ?_ (absurd hlocation ·) (absurd · hlocation.ne_exited)
    rw [hpipeline]
    exact fun t => id
  | failWait hwaits hfails =>
    have hnone : ∀ t, .add t ∉ s.pipeline := by
      have hempty := hstranded hwaits hfails
      simpa [State.pipeline, hwaits.2.2.1] using hempty
    exact h.react (suffix_refl _) rfl rfl (fun _ => .inr (.inl hnone)) (fun t => id)
      (fun hleft => absurd trivial hleft) nofun
  | moveTo location reading hlocation => exact h.moveTo (hlocation.imp_right And.right) _
  | failAction location hidle hruns hlocation =>
    exact (h.moveTo (.inr hlocation) s.reading).failAll _ hlocation.ne_exited

theorem Drains.push (hadd : ∀ t, command = .add t → s.shuttingDown = false ∧
      s.shutdownEnqueued = false)
    (hsubmitted : ∀ t ∈ submitted, t ∈ s.submitted ∨ command = .add t) :
    Drains { s with
      commands := s.commands ++ [command]
      submitted
      shutdownEnqueued := s.shutdownEnqueued || command = .shutdown } := by
  obtain ⟨hstopped, hlast, hmarked, hkept, hleft, hexited⟩ := h
  constructor
  · simp only [State.pipeline] at hstopped ⊢
    grind
  · simp only [State.pipeline, ← append_assoc, pairwise_append] at hlast hmarked ⊢
    grind
  · simp only [State.pipeline] at hmarked ⊢
    grind
  · simp only [State.pipeline, State.settled] at hkept ⊢
    grind
  · exact hleft
  · exact hexited

theorem Drains.abort {transfer : Transfer}
    (hsubmitted : ∀ t ∈ submitted, t ∈ s.submitted ∨ t = transfer) (code : Code) :
    Drains (State.complete { s with submitted } transfer code) := by
  obtain ⟨hstopped, hlast, hmarked, hkept, hleft, hexited⟩ := h
  unfold complete
  split_ifs with hdone <;> refine ⟨hstopped, hlast, hmarked, ?_, hleft, hexited⟩ <;>
    simp only [State.pipeline, State.settled] at hkept ⊢ <;> grind

/-- Nor does `Enqueue`, unless the loop has ended by itself. -/
theorem drains_enqueue (hstranded : NoneStranded s (.enqueue command)) :
    Drains (s.enqueue command) := by
  unfold enqueue
  cases command with
  | add transfer =>
    dsimp only
    split_ifs with hdown
    · exact h.abort (by grind) _
    · simp only [NoneStranded] at hstranded
      exact h.push (by grind) (by grind)
  | cancel transfer =>
    dsimp only
    split_ifs with hdown
    · exact h.abort (fun _ => .inl) _
    · exact h.push nofun fun _ => .inl
  | cancelOwner owner =>
    dsimp only
    split_ifs with hdown
    · exact h
    · exact h.push nofun fun _ => .inl
  | shutdown =>
    dsimp only
    split_ifs with hdown
    · exact absurd rfl hdown.2
    · exact h.push nofun fun _ => .inl

end

end Draining

/-- When the loop has ended, every transfer that has been added is completed, unless one was in the
queue at a failed wait or added behind it. -/
theorem added_transfers_are_completed {s : State} (h : machine.ReachableMeeting NoneStranded s)
    (hexited : s.location = .exited) : ∀ t ∈ s.submitted, t ∈ s.completed.map Prod.fst := by
  have hdrains : Drains s ∧ s.Swept := by
    refine h.invariant (I := fun s => Drains s ∧ s.Swept) ⟨?_, swept_of_nil rfl⟩
      fun s label s' hinv hstranded hstep => ?_
    · constructor <;> simp [State.pipeline, machine, Location.Runs]
    · obtain ⟨hdrains, hswept⟩ := hinv
      cases label with
      | enqueue command =>
        obtain rfl := Option.some.inj hstep
        exact ⟨drains_enqueue hdrains hstranded, swept_enqueue hswept command⟩
      | react answer =>
        obtain rfl := Option.some.inj hstep
        exact ⟨drains_react hdrains hswept hstranded, swept_react hswept answer⟩
  obtain ⟨hdrains, -⟩ := hdrains
  intro t ht
  obtain ⟨hcompleting, hsweep⟩ := hdrains.exited hexited
  obtain ⟨hdown, -, hrows⟩ := hdrains.left (by simp [hexited, Location.Runs])
  rcases hdrains.kept t ht with hsettled | hattached | hadd
  · simpa [State.settled, hcompleting] using hsettled
  · have hswept := hrows t hattached
    simp [hsweep] at hswept
  · exact absurd hadd (hdrains.stopped hdown t)

/-- The loop takes a transfer and its wait fails, with another transfer enqueued behind a shutdown
that comes while the first is being completed. -/
def sampleRun : List Label :=
  [.enqueue (.add sampleTransfer), .react {}, .react {}, .react {}, .react { events := none },
    .react {}, .enqueue .shutdown, .enqueue (.add laterTransfer), .react {}, .react {}, .react {},
    .react {}]

theorem sampleTransfer_is_completed : ∃ s, machine.exec machine.start sampleRun = some s ∧
    s.location = .exited ∧ s.submitted = [laterTransfer, sampleTransfer] ∧
    sampleTransfer ∈ s.completed.map Prod.fst ∧ laterTransfer ∈ s.completed.map Prod.fst := by
  have hmeets : machine.Meets NoneStranded machine.start sampleRun := by
    simp [sampleRun, Machine.Meets, NoneStranded, machine]
    exact ⟨fun _ _ => not_mem_nil, fun _ => rfl⟩
  have hcompleted := added_transfers_are_completed ⟨sampleRun, rfl, hmeets⟩ rfl
  exact ⟨_, rfl, rfl, rfl, hcompleted sampleTransfer (by decide), hcompleted laterTransfer (by decide)⟩

/-- The event wait fails, the loop ends, and then a transfer is added. -/
def failedRun : List Label :=
  [.react {}, .react { events := none }, .react {}, .react {}, .react {},
    .enqueue (.add sampleTransfer)]

/-- The transfer that is added after the loop has ended by itself stays in the queue, whatever the
reactor does. -/
theorem transfer_behind_failed_wait_is_lost : ∃ s, machine.exec machine.start failedRun = some s ∧
    s.location = .exited ∧ s.completing = none ∧ sampleTransfer ∈ s.submitted ∧
    sampleTransfer ∉ s.completed.map Prod.fst ∧
    ∀ answers : List Answer, machine.exec s (answers.map .react) = some s := by
  refine ⟨_, rfl, rfl, rfl, by decide, by decide, fun answers => ?_⟩
  induction answers with
  | nil => rfl
  | cons answer answers ih => exact Machine.exec_cons.mpr ⟨_, rfl, ih⟩

end A2A.Http.CurlStreamReactor
