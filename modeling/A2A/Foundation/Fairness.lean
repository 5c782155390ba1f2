/-
# Infinite runs, weak fairness, and progress by rank.
-/
import A2A.Foundation.Machine
import Mathlib.Data.Nat.Init

namespace A2A.Foundation.Machine

universe u v p

variable {State : Type u} {Label : Type v} {Process : Type p}

/-- An infinite run: a state and a label for every point of time. -/
structure InfiniteRun (M : Machine State Label) where
  state : Nat → State
  label : Nat → Label
  step : ∀ n, M.step (state n) (label n) = some (state (n + 1))

variable {M : Machine State Label} (process : Label → Option Process)

/-- Some label of the process is enabled. -/
def Enabled (M : Machine State Label) (process : Label → Option Process) (q : Process) (s : State) :
    Prop :=
  ∃ l s', process l = some q ∧ M.step s l = some s'

namespace InfiniteRun

variable (r : M.InfiniteRun)

/-- A process that stays enabled takes a step. -/
def Fair (q : Process) : Prop :=
  ∀ n, (∀ m, n ≤ m → M.Enabled process q (r.state m)) → ∃ m, n ≤ m ∧ process (r.label m) = some q

theorem exec_from (n k : Nat) :
    M.exec (r.state n) ((List.range k).map fun i => r.label (n + i)) = some (r.state (n + k)) := by
  induction k with
  | zero => rfl
  | succ k ih =>
    rw [List.range_succ, List.map_append]
    refine exec_append.mpr ⟨r.state (n + k), ih, ?_⟩
    exact exec_cons.mpr ⟨r.state (n + k + 1), r.step (n + k), rfl⟩

variable {r}

variable {n : Nat}

theorem always {I : State → Prop} (hstep : ∀ s l s', I s → M.step s l = some s' → I s') (hn : I (r.state n)) :
    ∀ m, n ≤ m → I (r.state m) := by
  intro m hm
  induction m, hm using Nat.le_induction with
  | base => exact hn
  | succ m _ ih => exact hstep _ _ _ ih (r.step m)

theorem reachableMeeting {C : State → Label → Prop} (hn : M.ReachableMeeting C (r.state n))
    (hC : ∀ m, n ≤ m → C (r.state m) (r.label m)) : ∀ m, n ≤ m → M.ReachableMeeting C (r.state m) := by
  intro m hm
  induction m, hm using Nat.le_induction with
  | base => exact hn
  | succ m hm ih => exact ih.step (hC m hm) (r.step m)

/-- Progress by rank, with a helpful process for every state. -/
theorem leadsTo (I goal : State → Prop) (allowed : Label → Prop) (rank : State → Nat)
    (helps : State → Process → Prop) (hfair : ∀ s q, helps s q → r.Fair process q)
    (hexists : ∀ s, I s → ¬ goal s → ∃ q, helps s q)
    (henabled : ∀ s q, I s → ¬ goal s → helps s q → M.Enabled process q s)
    (hstep : ∀ s l s' q, I s → ¬ goal s → allowed l →
      helps s q → M.step s l = some s' →
        goal s' ∨ rank s' < rank s ∨ (rank s' = rank s ∧ helps s' q ∧ process l ≠ some q))
    (hI : ∀ m, n ≤ m → I (r.state m)) (hallowed : ∀ m, n ≤ m → allowed (r.label m)) :
    ∃ m, n ≤ m ∧ goal (r.state m) := by
  -- Induction on the rank: either the goal or a state of smaller rank is reached.
  induction hrank : rank (r.state n) using Nat.strong_induction_on generalizing n with
  | _ k ih =>
    by_contra hnever
    have hnot : ∀ m, n ≤ m → ¬ goal (r.state m) := fun m hm hgoal => hnever ⟨m, hm, hgoal⟩
    obtain ⟨q, hq⟩ := hexists _ (hI n (Nat.le_refl n)) (hnot n (Nat.le_refl n))
    have hdrop : ∀ m, n ≤ m → ¬ rank (r.state m) < k := by
      intro m hm hlt
      obtain ⟨m', hm', hgoal⟩ := ih _ hlt (fun i hi => hI i (Nat.le_trans hm hi))
        (fun i hi => hallowed i (Nat.le_trans hm hi)) rfl
      exact hnot m' (Nat.le_trans hm hm') hgoal
    -- So the rank stays, and with it the help of `q`, which never moves.
    have hstay : ∀ m, n ≤ m → rank (r.state m) = k ∧ helps (r.state m) q := by
      intro m hm
      induction m, hm using Nat.le_induction with
      | base => exact ⟨hrank, hq⟩
      | succ m hm ihm =>
        rcases hstep _ _ _ q (hI m hm) (hnot m hm) (hallowed m hm) ihm.2 (r.step m) with
          hgoal | hlt | ⟨hsame, hhelps, _⟩
        · exact absurd hgoal (hnot _ (Nat.le_succ_of_le hm))
        · exact absurd (ihm.1 ▸ hlt) (hdrop _ (Nat.le_succ_of_le hm))
        · exact ⟨hsame.trans ihm.1, hhelps⟩
    obtain ⟨m, hm, hmoves⟩ := hfair _ q hq n fun m hm => henabled _ q (hI m hm) (hnot m hm) (hstay m hm).2
    rcases hstep _ _ _ q (hI m hm) (hnot m hm) (hallowed m hm) (hstay m hm).2 (r.step m) with
      hgoal | hlt | ⟨_, _, hother⟩
    · exact hnot _ (Nat.le_succ_of_le hm) hgoal
    · exact hdrop _ (Nat.le_succ_of_le hm) ((hstay m hm).1 ▸ hlt)
    · exact hother hmoves

end InfiniteRun

end A2A.Foundation.Machine
