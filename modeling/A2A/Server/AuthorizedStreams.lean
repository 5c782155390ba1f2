/-
# What a protected stream hands out.
-/
import A2A.Foundation.EventLog
import A2A.Server.SecurityEvents

namespace A2A.Server.Dispatch

open A2A.Foundation A2A.Core A2A.Server.Tasks Traced List

variable {σ : Type}

namespace AuthorizedStream

/-! ## One read -/

/-- The events of the check before the wait, when it goes well. -/
def Opened (stream : AuthorizedStream σ) (events : List (Event σ)) : Prop :=
  (stream.taskId = [] ∧ events = []) ∨
    (stream.taskId ≠ [] ∧ ∃ task, events = Shown stream.context stream.taskId task)

/-- The task of an event: its own, or the stream's for a message without one. -/
def ReleasedFor (stream : AuthorizedStream σ) (item : StreamResponse) (id : Bytes) : Prop :=
  (eventTaskId item ≠ [] ∧ id = eventTaskId item) ∨
    (eventTaskId item = [] ∧ item.hasMessage = true ∧ stream.taskId ≠ [] ∧ id = stream.taskId)

/-- Everything a read can do: the result, the stream afterwards, and the calls. -/
inductive Reading (stream : AuthorizedStream σ) (timeout : Option Int64) :
    ReadResult → AuthorizedStream σ → List (Event σ) → Prop
  /-- The associated task is not accessible before the wait. -/
  | refused {error : Error} {events : List (Event σ)} (hid : stream.taskId ≠ [])
      (hquiet : ∀ read, .streamRead timeout read ∉ events) :
      Reading stream timeout (.error error) stream events
  /-- The wait fails, or the stream has ended. -/
  | over {earlier : List (Event σ)} (read : ReadResult) (hread : ∀ item, read ≠ .ok (some item))
      (hopened : stream.Opened earlier) :
      Reading stream timeout read stream (earlier ++ [.streamRead timeout read])
  /-- The event that came is not handed out. -/
  | withheld {earlier later : List (Event σ)} (item : StreamResponse) (error : Error)
      (hopened : stream.Opened earlier) :
      Reading stream timeout (.error error) stream
        (earlier ++ .streamRead timeout (.ok (some item)) :: later)
  /-- A message without a task, from a stream without one. -/
  | taskless (item : StreamResponse) (hitem : eventTaskId item = []) (hmessage : item.hasMessage = true)
      (hid : stream.taskId = []) :
      Reading stream timeout (.ok (some item)) stream [.streamRead timeout (.ok (some item))]
  /-- The event's task is accessible after the wait. -/
  | released {earlier : List (Event σ)} (item : StreamResponse) (id : Bytes) (task : Task)
      (hopened : stream.Opened earlier) (hid : stream.ReleasedFor item id) :
      Reading stream timeout (.ok (some item)) { stream with taskId := id }
        (earlier ++ .streamRead timeout (.ok (some item)) :: Shown stream.context id task)

variable (stream : AuthorizedStream σ)

section

variable (timeout : Option Int64)

include timeout

theorem release_emits (earlier : List (Event σ)) (item : StreamResponse)
    (id : Bytes) (hopened : stream.Opened earlier) (hid : stream.ReleasedFor item id) :
    Emits (stream.release id item) (Event.Within stream.context)
      fun answer events => Reading stream timeout answer.1 answer.2
        (earlier ++ .streamRead timeout (.ok (some item)) :: events) := by
  refine emits_bind (getAuthorizedTask_emits within_admitsLookup) ?_
  intro answer events hanswer
  cases answer with
  | error error => exact emits_pure (.withheld item error hopened)
  | ok task =>
    refine emits_pure ?_
    rw [hanswer task rfl, append_nil]
    exact .released item id task hopened hid

/-- An event is released for its own task, or for that of the stream. -/
theorem afterWait_emits (earlier : List (Event σ)) (item : StreamResponse) (hopened : stream.Opened earlier) :
    Emits (if (eventTaskId item).isEmpty then
        if ¬ item.hasMessage then
          pure (.error ProtocolErrors.taskNotFound, stream)
        else if stream.taskId.isEmpty then pure (.ok (some item), stream)
        else stream.release stream.taskId item
      else stream.release (eventTaskId item) item)
      (Event.Within stream.context)
      fun answer events => Reading stream timeout answer.1 answer.2
        (earlier ++ .streamRead timeout (.ok (some item)) :: events) := by
  split_ifs with hitem hmessage hid
  · -- Unassociated: there was nothing to check before the wait either.
    have hnil := isEmpty_iff.mp hid
    obtain ⟨-, rfl⟩ | ⟨hne, -⟩ := hopened
    · exact emits_pure (.taskless item (isEmpty_iff.mp hitem) hmessage hnil)
    · exact absurd hnil hne
  · refine stream.release_emits timeout earlier item stream.taskId hopened (.inr ?_)
    exact ⟨isEmpty_iff.mp hitem, hmessage, fun h => hid (isEmpty_iff.mpr h), rfl⟩
  · exact emits_pure (.withheld item _ hopened)
  · refine stream.release_emits timeout earlier item _ hopened (.inl ⟨?_, rfl⟩)
    exact fun h => hitem (isEmpty_iff.mpr h)

/-- The check before the wait makes no read, and fails about an associated task. -/
theorem openCheck_emits :
    Emits (checkTask stream.store stream.policy stream.context stream.taskId)
      (Event.Within stream.context) fun result events =>
        (∀ read, .streamRead timeout read ∉ events) ∧
          match result with
          | .ok _ => stream.Opened events
          | .error _ => stream.taskId ≠ [] := by
  have hadmits : AdmitsLookup stream.context fun e : Event σ =>
      e.Within stream.context ∧ ∀ read, .streamRead timeout read ≠ e :=
    ⟨fun _ _ => ⟨trivial, fun _ h => nomatch h⟩, fun _ _ => ⟨rfl, fun _ h => nomatch h⟩⟩
  intro s
  obtain ⟨hreturned, hstopped⟩ := checkTask_emits hadmits s
  refine ⟨?_, fun hnone e he => (hstopped hnone e he).1⟩
  intro result hresult
  obtain ⟨hevents, hchecked⟩ := hreturned result hresult
  refine ⟨fun e he => (hevents e he).1, fun read hmem => (hevents _ hmem).2 read rfl, ?_⟩
  obtain ⟨hnil, rfl, hempty⟩ | ⟨hid, hshown⟩ := hchecked
  · exact .inl ⟨hnil, hempty⟩
  · cases result with
    | error error => exact hid
    | ok _ => exact .inr ⟨hid, hshown rfl⟩

theorem read_emits :
    Emits (stream.read timeout) (Event.Within stream.context)
      fun answer events => Reading stream timeout answer.1 answer.2 events := by
  refine emits_bind (stream.openCheck_emits timeout) ?_
  rintro checked earlier ⟨hquiet, hchecked⟩
  cases checked with
  | error error =>
    refine emits_pure ?_
    rw [append_nil]
    exact .refused hchecked hquiet
  | ok _ =>
    refine emits_bind (P := fun read events => events = [.streamRead timeout read])
      (emits_call (fun _ => trivial) fun _ => rfl) ?_
    rintro read _ rfl
    cases read with
    | error error => exact emits_pure (.over (.error error) (fun _ h => nomatch h) hchecked)
    | ok item =>
      cases item with
      | none => exact emits_pure (.over (.ok none) (fun _ h => nomatch h) hchecked)
      | some item => exact stream.afterWait_emits timeout earlier item hchecked

theorem read_returns : Returns (stream.read timeout) := by
  refine returns_bind checkTask_returns ?_
  intro checked
  cases checked with
  | error error => exact returns_pure
  | ok _ =>
    refine returns_bind returns_call ?_
    intro read
    have hrelease : ∀ id item, Returns (stream.release id item) := by
      intro id item
      refine returns_bind getAuthorizedTask_returns ?_
      intro answer
      cases answer with
      | error | ok => exact returns_pure
    cases read with
    | error error => exact returns_pure
    | ok item =>
      cases item with
      | none => exact returns_pure
      | some item =>
        show Returns (if (eventTaskId item).isEmpty then _ else _)
        split_ifs
        · exact returns_pure
        · exact hrelease _ _
        · exact returns_pure
        · exact hrelease _ _

theorem read_of_inaccessible {s : σ} (hid : stream.taskId ≠ [])
    (h : Inaccessible stream.store stream.policy stream.context stream.taskId s) :
    (run (stream.read timeout) s).value = some (.error ProtocolErrors.taskNotFound, stream) ∧
      ∀ read, .streamRead timeout read ∉ (run (stream.read timeout) s).events := by
  have hcheck := checkTask_of_inaccessible hid h
  have hquiet := ((stream.openCheck_emits timeout s).1 _ hcheck).2.1
  unfold read
  rw [run_bind_some hcheck]
  refine ⟨rfl, ?_⟩
  intro read
  show Event.streamRead timeout read ∉ _ ++ []
  rw [append_nil]
  exact hquiet read

end

/-! ## Sequences of reads -/

end AuthorizedStream

/-- One read of a protected stream, as it happened. -/
structure Read (σ : Type) where
  start : σ
  timeout : Option Int64
  result : ReadResult
  events : List (Event σ)

/-- The task id of the event that was handed out, if it had one. -/
def Read.association (read : Read σ) : Option Bytes :=
  match read.result with
  | .ok (some item) => if (eventTaskId item).isEmpty then none else some (eventTaskId item)
  | _ => none

/-- The task a stream belongs to after the reads `earlier`. -/
def associated (initial : Bytes) (earlier : List (Read σ)) : Bytes :=
  (lastOf Read.association earlier).getD initial

theorem associated_cons (initial : Bytes) (read : Read σ) (earlier : List (Read σ)) :
    associated initial (read :: earlier) = associated (read.association.getD initial) earlier := by
  unfold associated
  rw [lastOf_cons]
  cases lastOf Read.association earlier with
  | none | some => rfl

namespace AuthorizedStream

/-- Read again and again; each read starts in the world it is given. -/
def readAll : AuthorizedStream σ → List (σ × Option Int64) → List (Read σ)
  | _, [] => []
  | stream, (s, timeout) :: calls =>
    match (run (stream.read timeout) s).value with
    | none => []
    | some (result, after) =>
      ⟨s, timeout, result, (run (stream.read timeout) s).events⟩ :: after.readAll calls

/-- `read` is what happened when `stream` was read. -/
def Did (stream : AuthorizedStream σ) (read : Read σ) : Prop :=
  ∃ after, (run (stream.read read.timeout) read.start).value = some (read.result, after) ∧
    (run (stream.read read.timeout) read.start).events = read.events

theorem read_after (stream : AuthorizedStream σ) {s : σ} {timeout : Option Int64} {result : ReadResult}
    {after : AuthorizedStream σ} {events : List (Event σ)} (h : Reading stream timeout result after events) :
    after = { stream with
      taskId := (Read.association ⟨s, timeout, result, events⟩).getD stream.taskId } := by
  cases h with
  | refused | withheld => rfl
  | «over» _ hread hopened =>
    cases result with
    | error error => rfl
    | ok item =>
      cases item with
      | none => rfl
      | some item => exact absurd rfl (hread item)
  | taskless item hitem hmessage hid => simp [Read.association, hitem]
  | released item id task hopened hid =>
    obtain ⟨hne, rfl⟩ | ⟨hnil, -, -, rfl⟩ := hid
    · simp [Read.association, hne]
    · simp [Read.association, hnil]

/-- Every read is one of the stream as the earlier reads have left it. -/
theorem readAll_did (stream : AuthorizedStream σ) (calls : List (σ × Option Int64)) :
    EachEvent (fun earlier read => Did { stream with taskId := associated stream.taskId earlier } read)
      (stream.readAll calls) := by
  induction calls generalizing stream with
  | nil => exact eachEvent_nil _
  | cons call calls ih =>
    obtain ⟨s, timeout⟩ := call
    obtain ⟨⟨result, after⟩, hvalue⟩ := stream.read_returns timeout s
    have hreading : Reading stream timeout result after _ :=
      ((stream.read_emits timeout s).1 _ hvalue).2
    have hafter := stream.read_after (s := s) hreading
    have hstart : Did stream ⟨s, timeout, result, (run (stream.read timeout) s).events⟩ :=
      ⟨after, hvalue, rfl⟩
    unfold readAll
    simp only [hvalue]
    refine eachEvent_cons hstart ?_
    intro earlier read later hsplit
    have hdid := ih after earlier read later hsplit
    rw [hafter] at hdid
    show Did { stream with taskId := associated stream.taskId (_ :: earlier) } read
    rw [associated_cons]
    exact hdid

theorem readAll_calls (stream : AuthorizedStream σ) (calls : List (σ × Option Int64)) :
    (stream.readAll calls).map (fun read => (read.start, read.timeout)) = calls := by
  induction calls generalizing stream with
  | nil => rfl
  | cons call calls ih =>
    obtain ⟨s, timeout⟩ := call
    obtain ⟨⟨result, after⟩, hvalue⟩ := stream.read_returns timeout s
    unfold readAll
    simp only [hvalue, map_cons, ih]

end AuthorizedStream

/-! ## What is handed out -/

/-- The event came in this very read, and after that `id` was found in the store and allowed. -/
def Read.Verified (read : Read σ) (context : RequestContext) (item : StreamResponse) (id : Bytes) :
    Prop :=
  ∃ earlier task,
    read.events = earlier ++ .streamRead read.timeout (.ok (some item)) :: Shown context id task

/-- A read consumed nothing of the underlying stream. -/
def Read.ConsumedNothing (read : Read σ) : Prop :=
  ∀ answer, .streamRead read.timeout answer ∉ read.events

/-- What holds of a read that starts with the task `id` as the stream's. -/
structure ReadGuarded (policy : SecurityPolicy σ) (store : TaskStore σ) (context : RequestContext)
    (id : Bytes) (read : Read σ) : Prop where
  ofTask : ∀ item, read.result = .ok (some item) → eventTaskId item ≠ [] →
    read.Verified context item (eventTaskId item)
  taskless : ∀ item, read.result = .ok (some item) → eventTaskId item = [] →
    item.hasMessage = true ∧ (id = [] ∨ read.Verified context item id)
  inaccessible : id ≠ [] → Inaccessible store policy context id read.start →
    read.result = .error ProtocolErrors.taskNotFound ∧ read.ConsumedNothing

/-- A read of a protected stream is guarded. -/
theorem AuthorizedStream.readGuarded_of_did {stream : AuthorizedStream σ} {read : Read σ} (h : stream.Did read) :
    ReadGuarded stream.policy stream.store stream.context stream.taskId read := by
  obtain ⟨start, timeout, result, events⟩ := read
  obtain ⟨after, hvalue, hevents⟩ := h
  dsimp only at hvalue hevents
  have hreading : Reading stream timeout result after events := by
    rw [← hevents]
    exact ((stream.read_emits timeout start).1 _ hvalue).2
  refine ⟨?_, ?_, ?_⟩
  · rintro item rfl hitem
    cases hreading with
    | «over» answer hread hopened => exact absurd rfl (hread item)
    | taskless answer hnil hmessage hid => exact absurd hnil hitem
    | @released earlier answer id task hopened hid =>
      obtain ⟨-, rfl⟩ | ⟨hnil, -⟩ := hid
      · exact ⟨earlier, task, rfl⟩
      · exact absurd hnil hitem
  · rintro item rfl hitem
    cases hreading with
    | «over» answer hread hopened => exact absurd rfl (hread item)
    | taskless answer hnil hmessage hid => exact ⟨hmessage, .inl hid⟩
    | @released earlier answer id task hopened hid =>
      obtain ⟨hne, -⟩ | ⟨-, hmessage, -, rfl⟩ := hid
      · exact absurd hitem hne
      · exact ⟨hmessage, .inr ⟨earlier, task, rfl⟩⟩
  · intro hid hgone
    have hrefused := stream.read_of_inaccessible timeout hid hgone
    have hsame := Option.some.inj (hvalue.symm.trans hrefused.1)
    exact ⟨congrArg Prod.fst hsame, fun answer hmem => hrefused.2 answer (hevents ▸ hmem)⟩

/-- For every underlying stream, policy and store, and for every sequence of reads of the stream that
`ProtectStream` makes, each started in an arbitrary world: every call is answered, and every read is
guarded by the task the stream belongs to at that point. -/
theorem protected_stream_hands_out_accessible_events (policy : SecurityPolicy σ)
    (store : TaskStore σ) (request : DispatchRequest) (context : RequestContext)
    (inner : ServerStreamSession σ) (calls : List (σ × Option Int64)) :
    ∃ stream : AuthorizedStream σ, DispatchSecurity.protectStream ⟨some policy, some store⟩ request context
          (.stream (some (.executor inner))) = .ok (.stream (some (.authorized stream))) ∧
        stream.stream = inner ∧
        (stream.readAll calls).map (fun read => (read.start, read.timeout)) = calls ∧
        EachEvent (fun earlier read =>
            ReadGuarded policy store context (associated (taskId request) earlier) read)
          (stream.readAll calls) := by
  refine ⟨⟨inner, policy, store, context, taskId request⟩, rfl, rfl, ?_, ?_⟩
  · exact AuthorizedStream.readAll_calls _ calls
  · intro earlier read later hsplit
    exact AuthorizedStream.readGuarded_of_did (AuthorizedStream.readAll_did _ calls earlier read later hsplit)

end A2A.Server.Dispatch
