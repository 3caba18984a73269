import LandingBench.Data.Lists

/-!
# Machines and their runs

A concurrent program is a machine whose scheduler picks one action at a time.
Whatever the tasks, the channels and the outside world may do next is an
action, so a list of actions is one interleaving.  The two induction rules of
this module are the only place where runs are taken apart: an invariant is
checked on one step, possibly under an assumption on the steps of the run.
-/

namespace Async

/-- A machine that the scheduler drives.  An action that the current state
does not allow has no successor. -/
structure Machine (σ α : Type*) where
  init : σ
  step : σ → α → Option σ

namespace Machine

variable {σ α τ β : Type*} (M : Machine σ α)

/-- The state after a list of actions, each of which must be allowed in turn. -/
def runFrom (M : Machine σ α) : σ → List α → Option σ
  | s, [] => some s
  | s, a :: as => (M.step s a).bind fun t ↦ M.runFrom t as

def run (as : List α) : Option σ := M.runFrom M.init as

@[simp] theorem runFrom_nil (s : σ) : M.runFrom s [] = some s := rfl

@[simp] theorem runFrom_cons (s : σ) (a : α) (as : List α) :
    M.runFrom s (a :: as) = (M.step s a).bind fun t ↦ M.runFrom t as := rfl

@[simp] theorem run_nil : M.run [] = some M.init := rfl

theorem runFrom_append (s : σ) (as bs : List α) :
    M.runFrom s (as ++ bs) = (M.runFrom s as).bind fun t ↦ M.runFrom t bs := by
  induction as generalizing s with
  | nil => rfl
  | cons a as ih =>
      cases h : M.step s a with
      | none => simp [h]
      | some t => simp [h, ih]

theorem run_append_eq_some {as bs : List α} {u : σ} :
    M.run (as ++ bs) = some u ↔ ∃ t, M.run as = some t ∧ M.runFrom t bs = some u := by
  simp [run, runFrom_append, Option.bind_eq_some_iff]

theorem run_snoc_eq_some {as : List α} {a : α} {u : σ} :
    M.run (as ++ [a]) = some u ↔ ∃ t, M.run as = some t ∧ M.step t a = some u := by
  simp [run_append_eq_some]

/-- Induction on a run by its last step. -/
theorem run_induction {motive : List α → σ → Prop}
    (nil : motive [] M.init)
    (snoc : ∀ as a s t, M.run as = some s → motive as s → M.step s a = some t →
      motive (as ++ [a]) t)
    {as : List α} {s : σ} (h : M.run as = some s) : motive as s := by
  induction as using List.reverseRecOn generalizing s with
  | nil =>
      obtain rfl : M.init = s := by simpa using h
      exact nil
  | append_singleton as a ih =>
      obtain ⟨t, ht, hstep⟩ := M.run_snoc_eq_some.mp h
      exact snoc as a t s ht (ih ht) hstep

/-- What holds at first and survives every step holds after every run. -/
theorem invariant {P : σ → Prop} (init : P M.init)
    (step : ∀ s a t, P s → M.step s a = some t → P t)
    {as : List α} {s : σ} (h : M.run as = some s) : P s :=
  M.run_induction (motive := fun _ s ↦ P s) init
    (fun _ a s t _ hs hstep ↦ step s a t hs hstep) h

/-- What survives every step survives every continuation of a run. -/
theorem invariant_from {P : σ → Prop}
    (step : ∀ s a t, P s → M.step s a = some t → P t)
    {s t : σ} {as : List α} (hs : P s) (h : M.runFrom s as = some t) : P t := by
  induction as generalizing s with
  | nil =>
      obtain rfl : s = t := by simpa using h
      exact hs
  | cons a as ih =>
      obtain ⟨u, hu, hrest⟩ := Option.bind_eq_some_iff.mp h
      exact ih (step s a u hs hu) hrest

/-- What the steps of a run put out, in order. -/
def outputsFrom (M : Machine σ α) (output : σ → α → Option β) : σ → List α → List β
  | _, [] => []
  | s, a :: as =>
      (output s a).toList ++ match M.step s a with
        | some t => M.outputsFrom output t as
        | none => []

def outputs (output : σ → α → Option β) (as : List α) : List β := M.outputsFrom output M.init as

theorem outputs_snoc (output : σ → α → Option β) {as : List α} {s : σ} (h : M.run as = some s)
    (a : α) : M.outputs output (as ++ [a]) = M.outputs output as ++ (output s a).toList := by
  suffices hfrom : ∀ (as : List α) (t : σ), M.runFrom t as = some s →
      M.outputsFrom output t (as ++ [a]) =
        M.outputsFrom output t as ++ (output s a).toList from hfrom as M.init h
  intro as
  induction as with
  | nil =>
      intro t ht
      obtain rfl : t = s := by simpa using ht
      cases hstep : M.step t a <;> simp [outputsFrom, hstep]
  | cons b bs ih =>
      intro t ht
      obtain ⟨u, hu, hrest⟩ := Option.bind_eq_some_iff.mp ht
      rw [List.cons_append, outputsFrom, outputsFrom, hu]
      simp only [ih u hrest, List.append_assoc]

/-- Every step of the run is taken from a state and by an action that `good`
relates. -/
def Along (good : σ → α → Prop) (as : List α) : Prop :=
  ∀ pre a post s, as = pre ++ a :: post → M.run pre = some s → good s a

theorem along_nil {good : σ → α → Prop} : M.Along good [] :=
  fun pre a post s h ↦ by simp at h

theorem along_snoc {good : σ → α → Prop} {as : List α} {a : α} :
    M.Along good (as ++ [a]) ↔
      M.Along good as ∧ ∀ s, M.run as = some s → good s a := by
  constructor
  · intro h
    refine ⟨?_, fun s hs ↦ h as a [] s rfl hs⟩
    rintro pre b post s rfl hs
    exact h pre b (post ++ [a]) s (by simp) hs
  · rintro ⟨hinit, hlast⟩ pre b post s heq hs
    rcases Data.Lists.snoc_eq_append_cons_iff.mp heq with ⟨-, rfl, rfl⟩ | ⟨post, -, rfl⟩
    · exact hlast s hs
    · exact hinit pre b post s rfl hs

/-- The invariant rule for runs whose steps are all good. -/
theorem invariant_of_along {P : σ → Prop} {good : σ → α → Prop} (init : P M.init)
    (step : ∀ s a t, P s → good s a → M.step s a = some t → P t)
    {as : List α} {s : σ} (hgood : M.Along good as) (h : M.run as = some s) : P s := by
  have hrun := M.run_induction (motive := fun as s ↦ M.Along good as → P s)
    (fun _ ↦ init)
    (fun as a s t hs ih hstep hal ↦ by
      obtain ⟨hal, hlast⟩ := M.along_snoc.mp hal
      exact step s a t (ih hal) (hlast s hs) hstep) h
  exact hrun hgood

/-- The part of a good run up to any of its steps is good. -/
theorem Along.left {good : σ → α → Prop} {as bs : List α}
    (h : M.Along good (as ++ bs)) : M.Along good as := by
  rintro pre a post s rfl hs
  exact h pre a (post ++ bs) s (by simp) hs

theorem Along.mono {good weaker : σ → α → Prop} (himp : ∀ s a, good s a → weaker s a)
    {as : List α} (h : M.Along good as) : M.Along weaker as :=
  fun pre a post s has hs ↦ himp s a (h pre a post s has hs)

/-- Walk along a run with a test that implies `good`. -/
def checkFrom (check : σ → α → Bool) : σ → List α → Bool
  | _, [] => true
  | s, a :: as =>
      check s a && match M.step s a with
        | some t => checkFrom check t as
        | none => true

theorem along_of_check {good : σ → α → Prop} (check : σ → α → Bool) {as : List α}
    (hcheck : ∀ s a, check s a = true → good s a)
    (h : M.checkFrom check M.init as = true) : M.Along good as := by
  suffices hfrom : ∀ (as : List α) (s : σ), M.checkFrom check s as = true →
      ∀ pre a post t, as = pre ++ a :: post → M.runFrom s pre = some t → good t a from
    hfrom as M.init h
  intro as
  induction as with
  | nil => intro s _ pre a post t heq; simp at heq
  | cons b bs ih =>
      intro s hs pre a post t heq hrun
      obtain ⟨hb, hrest⟩ := Bool.and_eq_true_iff.mp hs
      cases pre with
      | nil =>
          obtain ⟨rfl, rfl⟩ := List.cons.inj heq
          obtain rfl : s = t := by simpa using hrun
          exact hcheck s b hb
      | cons c pre =>
          obtain ⟨rfl, rfl⟩ := List.cons.inj heq
          obtain ⟨u, hu, hpre⟩ := Option.bind_eq_some_iff.mp hrun
          rw [hu] at hrest
          exact ih u hrest pre a post t rfl hpre

/-- The steps of a continuation of a run are all good. -/
def AlongFrom (M : Machine σ α) (good : σ → α → Prop) : σ → List α → Prop
  | _, [] => True
  | s, a :: as => good s a ∧ ∀ t, M.step s a = some t → M.AlongFrom good t as

/-- The invariant rule for a good continuation of a run. -/
theorem invariant_of_alongFrom {P : σ → Prop} {good : σ → α → Prop}
    (step : ∀ s a t, P s → good s a → M.step s a = some t → P t)
    {s t : σ} {as : List α} (hs : P s) (hgood : M.AlongFrom good s as)
    (h : M.runFrom s as = some t) : P t := by
  induction as generalizing s with
  | nil =>
      obtain rfl : s = t := by simpa using h
      exact hs
  | cons a as ih =>
      obtain ⟨u, hu, hrest⟩ := Option.bind_eq_some_iff.mp h
      exact ih (step s a u hs hgood.1 hu) (hgood.2 u hu) hrest

theorem alongFrom_of_forall {good : σ → α → Prop} {as : List α}
    (h : ∀ a ∈ as, ∀ s, good s a) (s : σ) : M.AlongFrom good s as := by
  induction as generalizing s with
  | nil => trivial
  | cons a as ih =>
      refine ⟨h a List.mem_cons_self s, fun t _ ↦ ih (fun b hb ↦ ?_) t⟩
      exact h b (List.mem_cons_of_mem a hb)

theorem forall_of_alongFrom {K : α → Prop} {as : List α} {s t : σ}
    (hgood : M.AlongFrom (fun _ ↦ K) s as) (h : M.runFrom s as = some t) : ∀ a ∈ as, K a := by
  induction as generalizing s with
  | nil => exact fun a hmem ↦ by cases hmem
  | cons b as ih =>
      obtain ⟨u, hu, hrest⟩ := Option.bind_eq_some_iff.mp h
      exact List.forall_mem_cons.mpr ⟨hgood.1, ih (hgood.2 u hu) hrest⟩

theorem AlongFrom.append {good : σ → α → Prop} {as bs : List α} {s t : σ}
    (has : M.AlongFrom good s as) (h : M.runFrom s as = some t) (hbs : M.AlongFrom good t bs) :
    M.AlongFrom good s (as ++ bs) := by
  induction as generalizing s with
  | nil =>
      obtain rfl : s = t := by simpa using h
      exact hbs
  | cons a as ih =>
      obtain ⟨u, hu, hrest⟩ := Option.bind_eq_some_iff.mp h
      refine ⟨has.1, fun v hv ↦ ?_⟩
      obtain rfl : u = v := Option.some.inj (hu.symm.trans hv)
      exact ih (has.2 u hu) hrest

/-! ## Runs that come to an end -/

section Potential

variable (potential : σ → ℕ)

/-- Actions that use a potential up, which no action raises, are so many at most. -/
theorem countP_add_le (used : α → Bool)
    (step : ∀ s a t, M.step s a = some t →
      potential t + (if used a then 1 else 0) ≤ potential s)
    {as : List α} {s : σ} (h : M.run as = some s) :
    as.countP used + potential s ≤ potential M.init := by
  refine M.run_induction (motive := fun as s ↦ as.countP used + potential s ≤ potential M.init)
    (by simp) ?_ h
  intro as a s t _ ih hstep
  have hpaid := step s a t hstep
  rw [List.countP_append, List.countP_singleton]
  omega

/-- Where every state short of the goal can be left by good steps for one of less
potential, the goal can be reached by good steps. -/
theorem exists_runFrom_along {P Q : σ → Prop} {good : σ → α → Prop}
    (progress : ∀ s, P s → ¬ Q s → ∃ as t, M.runFrom s as = some t ∧ M.AlongFrom good s as ∧
      P t ∧ potential t < potential s)
    {s : σ} (hs : P s) :
    ∃ as t, M.runFrom s as = some t ∧ M.AlongFrom good s as ∧ P t ∧ Q t := by
  induction hn : potential s using Nat.strong_induction_on generalizing s with
  | _ n ih =>
      by_cases hgoal : Q s
      · exact ⟨[], s, rfl, trivial, hs, hgoal⟩
      · obtain ⟨as, t, hrun, hgood, ht, hless⟩ := progress s hs hgoal
        obtain ⟨bs, u, hrest, hgood', hu, hgoal⟩ := ih (potential t) (hn ▸ hless) ht rfl
        refine ⟨as ++ bs, u, ?_, hgood.append M hrun hgood', hu, hgoal⟩
        rw [runFrom_append, hrun]
        exact hrest

/-- The same with actions of one kind. -/
theorem exists_runFrom_within {P Q : σ → Prop} {K : α → Prop}
    (progress : ∀ s, P s → ¬ Q s → ∃ as t, M.runFrom s as = some t ∧ (∀ a ∈ as, K a) ∧
      P t ∧ potential t < potential s)
    {s : σ} (hs : P s) : ∃ as t, M.runFrom s as = some t ∧ (∀ a ∈ as, K a) ∧ P t ∧ Q t := by
  obtain ⟨as, t, hrun, hgood, hreached⟩ :
      ∃ as t, M.runFrom s as = some t ∧ M.AlongFrom (fun _ ↦ K) s as ∧ P t ∧ Q t := by
    refine M.exists_runFrom_along potential (fun s hs hgoal ↦ ?_) hs
    obtain ⟨as, t, hrun, hall, hless⟩ := progress s hs hgoal
    exact ⟨as, t, hrun, M.alongFrom_of_forall (fun a hmem _ ↦ hall a hmem) s, hless⟩
  exact ⟨as, t, hrun, M.forall_of_alongFrom hgood hrun, hreached⟩

/-- The same with actions of any kind. -/
theorem exists_runFrom_of_potential {P Q : σ → Prop}
    (progress : ∀ s, P s → ¬ Q s →
      ∃ as t, M.runFrom s as = some t ∧ P t ∧ potential t < potential s)
    {s : σ} (hs : P s) : ∃ as t, M.runFrom s as = some t ∧ Q t := by
  obtain ⟨as, t, hrun, -, -, hgoal⟩ :
      ∃ as t, M.runFrom s as = some t ∧ (∀ a ∈ as, True) ∧ P t ∧ Q t := by
    refine M.exists_runFrom_within potential (fun s hs hgoal ↦ ?_) hs
    obtain ⟨as, t, hrun, hless⟩ := progress s hs hgoal
    exact ⟨as, t, hrun, fun _ _ ↦ trivial, hless⟩
  exact ⟨as, t, hrun, hgoal⟩

end Potential

/-- A projection reads each step of one machine as a run of another. -/
structure Projection (M : Machine σ α) (N : Machine τ β) where
  state : σ → τ
  acts : σ → α → List β
  init : state M.init = N.init
  step : ∀ s a t, M.step s a = some t → N.runFrom (state s) (acts s a) = some (state t)

/-- Every run of the projected machine is a run of the other one. -/
theorem Projection.exists_run {M : Machine σ α} {N : Machine τ β} (p : Projection M N)
    {as : List α} {s : σ} (h : M.run as = some s) :
    ∃ bs, N.run bs = some (p.state s) := by
  refine M.run_induction (motive := fun _ s ↦ ∃ bs, N.run bs = some (p.state s))
    ⟨[], by simp [p.init]⟩ ?_ h
  rintro as a s t - ⟨bs, hbs⟩ hstep
  exact ⟨bs ++ p.acts s a, (N.run_append_eq_some).mpr ⟨_, hbs, p.step s a t hstep⟩⟩

end Machine
end Async
