import Mathlib.Tactic.Common

namespace evrma.lib

variable {σ α : Type*}

/-- The state after the labels `as` are taken in order from `s`. -/
def run (step : σ → α → Option σ) : σ → List α → Option σ
  | s, [] => some s
  | s, a :: as => (step s a).bind fun t => run step t as

/-- Every state of the run, the first and the last included, satisfies `P`. -/
def StatesMeet (step : σ → α → Option σ) (P : σ → Prop) : σ → List α → Prop
  | s, [] => P s
  | s, a :: as => P s ∧ ∀ t, step s a = some t → StatesMeet step P t as

/-- Every step of the run is taken in a state that meets the condition `G` on
the step's label. -/
def StepsMeet (step : σ → α → Option σ) (G : σ → α → Prop) : σ → List α → Prop
  | _, [] => True
  | s, a :: as => ∀ t, step s a = some t → G s a ∧ StepsMeet step G t as

variable {step : σ → α → Option σ}

theorem run_cons_eq_some {s u : σ} {a : α} {as : List α} :
    run step s (a :: as) = some u ↔ ∃ t, step s a = some t ∧ run step t as = some u := by
  simp [run, Option.bind_eq_some_iff]

theorem run_append {s : σ} {as bs : List α} :
    run step s (as ++ bs) = (run step s as).bind fun t => run step t bs := by
  induction as generalizing s with
  | nil => rfl
  | cons a as ih =>
    simp only [List.cons_append, run, Option.bind_assoc]
    congr 1
    funext t
    exact ih

theorem run_append_eq_some {s u : σ} {as bs : List α} :
    run step s (as ++ bs) = some u ↔ ∃ t, run step s as = some t ∧ run step t bs = some u := by
  rw [run_append, Option.bind_eq_some_iff]

/-- A property kept by every step holds at the end of every run. -/
theorem run_invariant {I : σ → Prop}
    (hstep : ∀ s a t, I s → step s a = some t → I t)
    {s u : σ} {as : List α} (hrun : run step s as = some u) (hs : I s) : I u := by
  induction as generalizing s with
  | nil =>
    simp only [run, Option.some.injEq] at hrun
    exact hrun ▸ hs
  | cons a as ih =>
    obtain ⟨t, ht, hu⟩ := run_cons_eq_some.mp hrun
    exact ih hu (hstep s a t hs ht)

/-- If each step of another machine is a run, then so are its runs. -/
theorem run_of_steps {β : Type*} {step' : σ → β → Option σ}
    (hstep : ∀ s b t, step' s b = some t → ∃ as, run step s as = some t) {s u : σ} {bs : List β}
    (hrun : run step' s bs = some u) : ∃ as, run step s as = some u := by
  induction bs generalizing s with
  | nil => exact ⟨[], hrun⟩
  | cons b bs ih =>
    obtain ⟨t, ht, hu⟩ := run_cons_eq_some.mp hrun
    obtain ⟨as, has⟩ := hstep s b t ht
    obtain ⟨as', has'⟩ := ih hu
    exact ⟨as ++ as', run_append_eq_some.mpr ⟨t, has, has'⟩⟩

/-- A property kept by the steps that meet `G` holds at the end of every run
whose steps all meet `G`. -/
theorem run_invariant_of_stepsMeet {I : σ → Prop} {G : σ → α → Prop}
    (hstep : ∀ s a t, I s → G s a → step s a = some t → I t)
    {s u : σ} {as : List α} (hmeet : StepsMeet step G s as) (hrun : run step s as = some u)
    (hs : I s) : I u := by
  induction as generalizing s with
  | nil =>
    simp only [run, Option.some.injEq] at hrun
    exact hrun ▸ hs
  | cons a as ih =>
    obtain ⟨t, ht, hu⟩ := run_cons_eq_some.mp hrun
    obtain ⟨hG, hrest⟩ := hmeet t ht
    exact ih hrest hu (hstep s a t hs hG ht)

theorem StatesMeet.head {P : σ → Prop} {s : σ} {as : List α} (hmeet : StatesMeet step P s as) :
    P s := by
  cases as with
  | nil => exact hmeet
  | cons a as => exact hmeet.1

theorem StatesMeet.mono {P Q : σ → Prop} {s : σ} {as : List α} (hmeet : StatesMeet step P s as)
    (hPQ : ∀ s, P s → Q s) : StatesMeet step Q s as := by
  induction as generalizing s with
  | nil => exact hPQ s hmeet
  | cons a as ih => exact ⟨hPQ s hmeet.1, fun t ht => ih (hmeet.2 t ht)⟩

/-- Where the steps of a run meet `G`, they meet what `G` gives in the states of an
invariant that such steps keep. -/
theorem StepsMeet.mono_of_invariant {I : σ → Prop} {G G' : σ → α → Prop}
    (hkeep : ∀ s a t, I s → G s a → step s a = some t → I t)
    (hGG' : ∀ s a, I s → G s a → G' s a) {s : σ} (hs : I s) {as : List α}
    (hmeet : StepsMeet step G s as) : StepsMeet step G' s as := by
  induction as generalizing s with
  | nil => trivial
  | cons a as ih =>
    intro t ht
    obtain ⟨hG, hrest⟩ := hmeet t ht
    exact ⟨hGG' s a hs hG, ih (hkeep s a t hs hG ht) hrest⟩

theorem StepsMeet.mono {G G' : σ → α → Prop} {s : σ} {as : List α} (hmeet : StepsMeet step G s as)
    (hGG' : ∀ s a, G s a → G' s a) : StepsMeet step G' s as :=
  hmeet.mono_of_invariant (I := fun _ => True) (fun _ _ _ _ _ _ => trivial)
    (fun s a _ => hGG' s a) trivial

/-- The states of a run whose steps all meet `G` meet `P`, for an invariant `I`
that gives `P` and is kept by these steps. -/
theorem statesMeet_of_stepsMeet {I P : σ → Prop} {G : σ → α → Prop}
    (hP : ∀ s, I s → P s) (hgood : ∀ s a t, I s → G s a → step s a = some t → I t)
    {s : σ} (hs : I s) {as : List α} (hmeet : StepsMeet step G s as) : StatesMeet step P s as := by
  induction as generalizing s with
  | nil => exact hP s hs
  | cons a as ih =>
    refine ⟨hP s hs, fun t ht => ?_⟩
    obtain ⟨hG, hrest⟩ := hmeet t ht
    exact ih (hgood s a t hs hG ht) hrest

/-- The states of a run meet `P` exactly when its steps meet `G`, for an
invariant `I` that gives `P`, is kept by the steps meeting `G`, and whose other
steps all end outside `P`. -/
theorem statesMeet_iff_stepsMeet {I P : σ → Prop} {G : σ → α → Prop}
    (hP : ∀ s, I s → P s)
    (hgood : ∀ s a t, I s → G s a → step s a = some t → I t)
    (hbad : ∀ s a t, I s → ¬ G s a → step s a = some t → ¬ P t)
    {s : σ} (hs : I s) (as : List α) :
    StatesMeet step P s as ↔ StepsMeet step G s as := by
  induction as generalizing s with
  | nil => simp [StatesMeet, StepsMeet, hP s hs]
  | cons a as ih =>
    simp only [StatesMeet, StepsMeet, hP s hs, true_and]
    refine forall_congr' fun t => forall_congr' fun ht => ?_
    by_cases hG : G s a
    · simp only [hG, true_and]
      exact ih (hgood s a t hs hG ht)
    · have hnot : ¬ StatesMeet step P t as := by
        intro hmeet
        exact hbad s a t hs hG ht hmeet.head
      simp [hG, hnot]

/-- So they do where the steps of the run are known to meet `A`. -/
theorem statesMeet_iff_of_stepsMeet {I P : σ → Prop} {A G : σ → α → Prop} (hP : ∀ s, I s → P s)
    (hgood : ∀ s a t, I s → A s a → G s a → step s a = some t → I t)
    (hbad : ∀ s a t, I s → ¬ G s a → step s a = some t → ¬ P t) {s : σ} (hs : I s) {as : List α}
    (hmeet : StepsMeet step A s as) : StatesMeet step P s as ↔ StepsMeet step G s as := by
  induction as generalizing s with
  | nil => simp [StatesMeet, StepsMeet, hP s hs]
  | cons a as ih =>
    simp only [StatesMeet, StepsMeet, hP s hs, true_and]
    refine forall_congr' fun t => forall_congr' fun ht => ?_
    obtain ⟨hA, hrest⟩ := hmeet t ht
    by_cases hG : G s a
    · simp only [hG, true_and]
      exact ih (hgood s a t hs hA hG ht) hrest
    · have hnot : ¬ StatesMeet step P t as := by
        intro hmeet'
        exact hbad s a t hs hG ht hmeet'.head
      simp [hG, hnot]

/-- A condition on the labels alone holds of every step that is taken. -/
theorem stepsMeet_of_mem {G : α → Prop} {s : σ} {as : List α} (h : ∀ a ∈ as, G a) :
    StepsMeet step (fun _ a => G a) s as := by
  induction as generalizing s with
  | nil => trivial
  | cons a as ih =>
    intro t _
    exact ⟨h a List.mem_cons_self, ih fun b hb => h b (List.mem_cons_of_mem a hb)⟩

/-- The states of a run's rest are states of the run. -/
theorem StatesMeet.rest {P : σ → Prop} {s u : σ} {as bs : List α}
    (hmeet : StatesMeet step P s (as ++ bs)) (hrun : run step s as = some u) :
    StatesMeet step P u bs := by
  induction as generalizing s with
  | nil =>
    simp only [run, Option.some.injEq] at hrun
    exact hrun ▸ hmeet
  | cons a as ih =>
    obtain ⟨t, ht, hu⟩ := run_cons_eq_some.mp hrun
    exact ih (hmeet.2 t ht) hu

/-- So are its steps. -/
theorem StepsMeet.rest {G : σ → α → Prop} {s u : σ} {as bs : List α}
    (hmeet : StepsMeet step G s (as ++ bs)) (hrun : run step s as = some u) :
    StepsMeet step G u bs := by
  induction as generalizing s with
  | nil =>
    simp only [run, Option.some.injEq] at hrun
    exact hrun ▸ hmeet
  | cons a as ih =>
    obtain ⟨t, ht, hu⟩ := run_cons_eq_some.mp hrun
    exact ih (hmeet t ht).2 hu

/-- The last state of a run is one of its states. -/
theorem StatesMeet.last {P : σ → Prop} {s u : σ} {as : List α}
    (hmeet : StatesMeet step P s as) (hrun : run step s as = some u) : P u := by
  rw [← List.append_nil as] at hmeet
  exact hmeet.rest hrun

/-- A test of every step of the run. -/
def steps_check (step : σ → α → Option σ) (check : σ → α → Bool) : σ → List α → Bool
  | _, [] => true
  | s, a :: as => (step s a).all fun t => check s a && steps_check step check t as

theorem stepsMeet_of_check {G : σ → α → Prop} {check : σ → α → Bool}
    (hcheck : ∀ s a, check s a = true → G s a) {s : σ} {as : List α}
    (hsteps : steps_check step check s as = true) : StepsMeet step G s as := by
  induction as generalizing s with
  | nil => trivial
  | cons a as ih =>
    intro t ht
    rw [steps_check, ht, Option.all_some, Bool.and_eq_true] at hsteps
    exact ⟨hcheck s a hsteps.1, ih hsteps.2⟩

/-- In the states of an invariant all runs meet what the invariant gives. -/
theorem stepsMeet_of_invariant {I : σ → Prop} {G : σ → α → Prop}
    (hkeep : ∀ s a t, I s → step s a = some t → I t)
    (hG : ∀ s a t, I s → step s a = some t → G s a) {s : σ} (hs : I s) (as : List α) :
    StepsMeet step G s as := by
  induction as generalizing s with
  | nil => trivial
  | cons a as ih => exact fun t ht => ⟨hG s a t hs ht, ih (hkeep s a t hs ht)⟩

theorem statesMeet_of_invariant {I P : σ → Prop} (hP : ∀ s, I s → P s)
    (hkeep : ∀ s a t, I s → step s a = some t → I t) {s : σ} (hs : I s) (as : List α) :
    StatesMeet step P s as := by
  induction as generalizing s with
  | nil => exact hP s hs
  | cons a as ih => exact ⟨hP s hs, fun t ht => ih (hkeep s a t hs ht)⟩

/-- A run that can be followed to a state outside `P`. -/
theorem not_statesMeet_of_last {P : σ → Prop} {bad : σ → Bool} (hbad : ∀ u, bad u = true → ¬ P u)
    {s : σ} {as : List α} (hrun : (run step s as).any bad = true) : ¬ StatesMeet step P s as := by
  intro hmeet
  cases hu : run step s as with
  | none =>
    rw [hu] at hrun
    cases hrun
  | some u =>
    rw [hu] at hrun
    exact hbad u hrun (hmeet.last hu)

/-- A run after which a step can be taken that does not meet `G`. -/
theorem not_stepsMeet_of_last {G : σ → α → Prop} {a : α} {bad : σ → Bool}
    (hbad : ∀ u, bad u = true → (step u a).isSome = true ∧ ¬ G u a) {s : σ} {as : List α}
    (hrun : (run step s as).any bad = true) : ¬ StepsMeet step G s (as ++ [a]) := by
  intro hmeet
  cases hu : run step s as with
  | none =>
    rw [hu] at hrun
    cases hrun
  | some u =>
    rw [hu] at hrun
    obtain ⟨hstep, hG⟩ := hbad u hrun
    obtain ⟨t, ht⟩ := Option.isSome_iff_exists.mp hstep
    exact hG (hmeet.rest hu t ht).1

end evrma.lib
