/-
# No task is completed without a validated credential.
-/
import A2A.Server.Tasks.AuthorizationSteps

namespace A2A.Server.Tasks.TaskAuthorizationService

open A2A.Foundation A2A.Core InMemoryTaskStore List

/-! ## Requests and grants -/

/-- The event is a successful request for authorization of the task. -/
def Event.asksFor (id : Bytes) : Event → Bool
  | .wrote write => write.request.any Request.asksForAuthorization && write.task.id == id
  | _ => false

/-- The validator has accepted a credential for the task, and no request for authorization has come since. -/
def Granted (id : Bytes) (log : List Event) : Prop :=
  ∃ before validation after, log = before ++ .validated validation :: after ∧
    validation.task.id = id ∧ validation.verdict = true ∧ ∀ e ∈ after, e.asksFor id = false

variable {id : Bytes} {w w' : World} {planned : TaskSnapshot} {e : Entry} {store : ConsistentStore} {a : Action}

theorem Granted.append {log later : List Event} (h : Granted id log)
    (hlater : ∀ e ∈ later, e.asksFor id = false) : Granted id (log ++ later) := by
  obtain ⟨before, validation, after, rfl, hid, hverdict, hafter⟩ := h
  refine ⟨before, validation, after ++ later, by simp, hid, hverdict, ?_⟩
  intro e he
  rcases mem_append.mp he with he | he
  · exact hafter e he
  · exact hlater e he

/-- Other writers leave this task alone. -/
def onlyService (id : Bytes) (_ : World) : Action → Bool
  | .external c _ => c.taskId != id
  | _ => true

theorem onlyService_external {c : StoreCall} {now : Int64} (h : onlyService id w (.external c now)) :
    id ≠ c.taskId := by
  rintro rfl
  exact absurd h (by simp [onlyService])

/-! ## The invariant -/

/-- The states behind the gate. -/
def Admitted (task : Task) : Prop := task.state = .working ∨ task.state = .completed

/-- What a planned write of the task has to satisfy. -/
structure PlanOk (id : Bytes) (store : InMemoryTaskStore) (log : List Event) (request : Request)
    (planned : TaskSnapshot) : Prop where
  granted : Admitted planned.task → Granted id log ∧ request.asksForAuthorization = false
  live : ∀ e, store.entryOf id = some e → e.revision = planned.revision →
    isTerminalTaskState e.task.state = false

/-- Behind the gate: what is stored or planned was granted. -/
structure Gate (id : Bytes) (w : World) : Prop where
  stored : ∀ e, w.store.raw.entryOf id = some e → Admitted e.task → Granted id w.log
  planned : ∀ c planned, w.call = some c → c.stage = .persist planned → planned.task.id = id →
    PlanOk id w.store.raw w.log c.request planned

theorem Gate.keep (h : Gate id w) (hentry : w'.store.raw.entryOf id = w.store.raw.entryOf id)
    (later : List Event) (hlog : w'.log = w.log ++ later) (hlater : ∀ e ∈ later, e.asksFor id = false)
    (hplan : ∀ c planned, w'.call = some c → c.stage = .persist planned → planned.task.id = id →
      w.call = some c ∨ PlanOk id w.store.raw w'.log c.request planned) :
    Gate id w' where
  stored := by
    intro e he hadmitted
    rw [hlog]
    exact (h.stored e (hentry ▸ he) hadmitted).append hlater
  planned := by
    intro c planned hcall hstage hid
    rcases hplan c planned hcall hstage hid with hbefore | hnew
    · obtain ⟨hgranted, hlive⟩ := h.planned c planned hbefore hstage hid
      refine ⟨?_, by rw [hentry]; exact hlive⟩
      intro hadmitted
      rw [hlog]
      exact ⟨(hgranted hadmitted).1.append hlater, (hgranted hadmitted).2⟩
    · exact ⟨hnew.granted, by rw [hentry]; exact hnew.live⟩

theorem Rewrites.live_of_entry {store : InMemoryTaskStore} {e' : Entry} (h : Rewrites store planned e)
    (he' : store.entryOf planned.task.id = some e') : isTerminalTaskState e'.task.state = false := by
  cases h.found.symm.trans he'
  exact h.live

/-- What is planned follows from what is stored and from the answer of the validator. -/
theorem Gate.plan {request : Request} {v : Option Validation} (h : Gate planned.task.id w)
    (hplanned : Planned w.store.raw request v planned) :
    PlanOk planned.task.id w.store.raw (w.log ++ (v.map Event.validated).toList) request planned := by
  cases hplanned with
  | asked hasks hstate hsource =>
    refine ⟨fun hadmitted => absurd hadmitted (by simp [Admitted, hstate]), ?_⟩
    intro e he hrevision
    rcases hsource with hzero | ⟨e', hsource⟩
    · -- A new task: an entry that exists has a revision of at least one.
      have hpos := (w.store.wellFormed.entryOf_ok he).revision_pos
      rw [hrevision, hzero] at hpos
      exact absurd hpos (by decide)
    · exact hsource.live_of_entry he
  | received hstate hsource | canceled _ hstate hsource =>
    exact ⟨fun hadmitted => absurd hadmitted (by simp [Admitted, hstate]), fun e he _ => hsource.live_of_entry he⟩
  | authorized validator taskId credential hstate hid hsource =>
    refine ⟨fun _ => ⟨⟨w.log, _, [], rfl, hid, rfl, ?_⟩, rfl⟩, fun e he _ => hsource.live_of_entry he⟩
    intro e he
    cases he
  | completed taskId hstate hbefore hsource =>
    refine ⟨fun _ => ⟨?_, rfl⟩, fun e he _ => hsource.live_of_entry he⟩
    rw [Option.map_none, Option.toList_none, append_nil]
    exact h.stored _ hsource.found (.inl hbefore)

/-- A planned task is stored. -/
theorem Gate.persisted (h : Gate id w) {c : Call} {revision : UInt64} (hcall : w.call = some c)
    (hstage : c.stage = .persist planned) (hwrote : Wrote w.store.raw store.raw planned.task) :
    Gate id { w with
      store
      call := some { c with stage := .publish planned.task }
      log := w.log ++ [.wrote ⟨some c.request, planned.task, revision, c.seenAt⟩] } := by
  have hnoPlan : ∀ c' planned', some { c with stage := .publish planned.task } = some c' →
      c'.stage ≠ .persist planned' := by
    intro c' planned' hc'
    cases hc'
    simp
  by_cases hid : planned.task.id = id
  · subst hid
    refine ⟨?_, fun c' planned' hc' hs' => absurd hs' (hnoPlan c' planned' hc')⟩
    intro e he hadmitted
    obtain ⟨new, hnew, htask, _⟩ := hwrote.written
    cases hnew.symm.trans he
    rw [htask] at hadmitted
    obtain ⟨hgranted, hasks⟩ := (h.planned c planned hcall hstage rfl).granted hadmitted
    refine hgranted.append ?_
    intro event hevent
    obtain rfl := mem_singleton.mp hevent
    simp [Event.asksFor, hasks]
  · refine h.keep (hwrote.frame id (Ne.symm hid)) [_] rfl ?_ ?_
    · intro event hevent
      obtain rfl := mem_singleton.mp hevent
      simp [Event.asksFor, hid]
    · intro c' planned' hc' hs'
      exact absurd hs' (hnoPlan c' planned' hc')

/-- A step of the service keeps what is stored or planned behind the gate. -/
theorem Gate.step (h : Gate id w) (honly : onlyService id w a) (hstep : Step w a w') : Gate id w' := by
  cases hstep with
  | begin request hcall =>
    refine h.keep rfl [] (by simp) (by simp) ?_
    intro c planned hc hs
    cases hc
    cases hs
  | read c v stage hcall hstage hdecided =>
    refine h.keep rfl _ rfl ?_ ?_
    · intro e he
      obtain ⟨validation, _, rfl⟩ := Option.map_eq_some_iff.mp (Option.mem_toList.mp he)
      rfl
    · intro c' planned hc' hs hid
      cases hc'
      cases hdecided with
      | refused e => nomatch hs
      | answered task => exact absurd hs (goOn_ne_persist c task planned)
      | planned planned' hplanned =>
        obtain rfl : planned' = planned := by injection hs
        subst hid
        exact .inr (h.plan hplanned)
  | refused now c planned e hcall hstage =>
    refine h.keep rfl [] (by simp) (by simp) ?_
    intro c' planned' hc' hs
    cases hc'
    cases hs
  | persisted now c planned store revision hcall hstage hexpected hwrote hrevision =>
    exact h.persisted hcall hstage hwrote
  | publish c task hcall hstage hidle | published c task hcall hstage hidle
  | subscribe c task hcall hstage =>
    refine h.keep rfl [] (by simp [World.subscribe]) (by simp) ?_
    intro c' planned' hc' hs
    cases hc'
    exact absurd hs (by simp)
  | unlock c result hcall hstage =>
    refine h.keep rfl [_] rfl ?_ ?_
    · intro e he
      obtain rfl := mem_singleton.mp he
      rfl
    · intro c' planned' hc'
      exact absurd hc' (by simp [World.unlock])
  | session a subscriptions ha hsession =>
    exact h.keep rfl [] (by simp) (by simp) fun c planned hc _ _ => .inl hc
  | externalSilent c now store hsame =>
    exact h.keep (hsame.entryOf id) [] (by simp) (by simp) fun c planned hc _ _ => .inl hc
  | externalWrote c now store task revision hid hwrote hrevision =>
    -- other writers leave this task alone
    have hne : id ≠ task.id := hid ▸ onlyService_external honly
    refine h.keep (hwrote.frame id hne) [_] rfl ?_ fun c planned hc _ _ => .inl hc
    intro e he
    obtain rfl := mem_singleton.mp he
    rfl

theorem Gate.entry_of_step (h : Gate id w) (honly : onlyService id w a) (hstep : Step w a w')
    (he : w.store.raw.entryOf id = some e) (hterminal : isTerminalTaskState e.task.state) :
    w'.store.raw.entryOf id = some e := by
  cases hstep with
  | persisted now c planned store revision hcall hstage hexpected hwrote hrevision =>
    by_cases hid : planned.task.id = id
    · subst hid
      -- The planned write would have to carry the revision of a terminal entry.
      have hlive := (h.planned c planned hcall hstage rfl).live e he
        (by rw [← hexpected, InMemoryTaskStore.revisionOf, he]; rfl)
      cases hterminal.symm.trans hlive
    · exact (hwrote.frame id (Ne.symm hid)).trans he
  | externalSilent c now store hsame => exact (hsame.entryOf id).trans he
  | externalWrote c now store task revision hid hwrote hrevision =>
    have hne : id ≠ task.id := hid ▸ onlyService_external honly
    exact (hwrote.frame id hne).trans he
  | _ => exact he

/-! ## Runs -/

theorem gate_of_reachableMeeting (hnew : store.raw.entryOf id = none)
    (h : (service store).ReachableMeeting (fun w a => onlyService id w a) w) : Gate id w := by
  refine h.invariant (I := Gate id) ⟨?_, ?_⟩ ?_
  · intro e he
    cases hnew.symm.trans he
  · intro c planned hcall
    exact absurd hcall (by simp [service])
  · intro w a w' hgate honly hstep
    exact hgate.step honly (step_inv hstep)

theorem Gate.entry_of_exec {ls : List Action} (h : Gate id w) (hrun : (service store).exec w ls = some w')
    (honly : (service store).Meets (fun w a => onlyService id w a) w ls) (he : w.store.raw.entryOf id = some e)
    (hterminal : isTerminalTaskState e.task.state) : w'.store.raw.entryOf id = some e := by
  have hfinal := Machine.exec_invariant (M := service store) (C := fun w a => onlyService id w a)
    (I := fun w => Gate id w ∧ w.store.raw.entryOf id = some e) ?_ ⟨h, he⟩ honly hrun
  · exact hfinal.2
  · rintro v a v' ⟨hgate, hentry⟩ hC hstep
    exact ⟨hgate.step hC (step_inv hstep), hgate.entry_of_step hC (step_inv hstep) hentry hterminal⟩

/-- A completed task has been authorized since it was last asked for, and a completed or canceled
task stays as it is. -/
theorem completion_requires_validation (store : ConsistentStore) {id : Bytes} (hnew : store.raw.entryOf id = none)
    {w : World} (h : (service store).ReachableMeeting (fun w a => onlyService id w a = true) w) {e : Entry}
    (he : w.store.raw.entryOf id = some e) :
    (e.task.state = .completed → Granted id w.log) ∧
    (e.task.state = .completed ∨ e.task.state = .canceled → ∀ ls w', (service store).exec w ls = some w' →
        (service store).Meets (fun w a => onlyService id w a = true) w ls →
        ∃ e', w'.store.raw.entryOf id = some e' ∧ e'.task.status = e.task.status ∧
          e'.task.history = e.task.history) := by
  have hgate := gate_of_reachableMeeting hnew h
  refine ⟨fun hcompleted => hgate.stored e he (.inr hcompleted), ?_⟩
  intro hfinal ls w' hrun honly
  have hterminal : isTerminalTaskState e.task.state = true := by
    rcases hfinal with hstate | hstate <;> rw [hstate] <;> rfl
  exact ⟨e, hgate.entry_of_exec hrun honly he hterminal, rfl, rfl⟩

namespace Runs

/-- A request for authorization that makes the task `t`. -/
def ask : Request :=
  .requestAuthorization (fun _ => .ok "t") { message := some { messageId := "m", role := .user } }
    { messageId := "why", role := .agent, parts := [{ content := .text "sign in" }] }

def authorize : Request := .authorize (some fun _ _ => true) "t" "secret"

/-- A call of the service without steps in between. -/
def undisturbed (request : Request) (now : Int64) : List Action :=
  [.begin request, .read, .persist now, .publish] ++
    List.replicate 3 (.session (.thread serviceThread [])) ++ [.published, .unlock]

/-- From the question to the completed task. -/
def toCompletion : List Action :=
  undisturbed ask 1 ++ undisturbed authorize 2 ++ undisturbed (.complete "t") 3

/-- The stored state of the task `t`. -/
def storedState (w : World) : Option TaskState := (w.store.raw.entryOf "t").map fun e => e.task.state

end Runs

theorem completion_after_validated_run : ∃ (w : World) (e : Entry),
    w.store.raw.entryOf "t" = some e ∧ e.task.state = .completed ∧ Granted "t" w.log := by
  obtain ⟨w, hw, hp⟩ := Machine.reachableMeeting_of_execIf (M := service .empty)
    (c := onlyService "t") (p := fun w => decide (Runs.storedState w = some .completed))
    Runs.toCompletion (by decide)
  obtain ⟨e, he, hstate⟩ := Option.map_eq_some_iff.mp (of_decide_eq_true hp)
  exact ⟨w, e, he, hstate, (completion_requires_validation .empty rfl hw he).1 hstate⟩

end A2A.Server.Tasks.TaskAuthorizationService
