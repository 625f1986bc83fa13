import Mathlib.Logic.Function.Basic

namespace evrma.lib

variable {ρ ω : Type*}

/-- Who has which resource. -/
abbrev Ownership (ρ ω : Type*) := ρ → Option ω

/-- The resource gets an owner, whatever it had before. -/
def Ownership.seize [DecidableEq ρ] (own : Ownership ρ ω) (r : ρ) (o : ω) : Ownership ρ ω :=
  Function.update own r (some o)

/-- The owner lets go of its resources. -/
def Ownership.release [DecidableEq ω] (own : Ownership ρ ω) (o : ω) : Ownership ρ ω := fun r =>
  if own r = some o then none else own r

/-- A step of exclusive ownership, labelled with the owner that lets go, if any. -/
inductive Ownership.Step [DecidableEq ρ] [DecidableEq ω] (own : Ownership ρ ω) :
    Option ω → Ownership ρ ω → Prop where
  | same : own.Step none own
  | seize (r : ρ) (o : ω) (hfree : own r = none) : own.Step none (own.seize r o)
  | release (o : ω) : own.Step (some o) (own.release o)

/-- A resource stays with its owner until the owner lets go, and is free then. -/
theorem Ownership.Step.keeps [DecidableEq ρ] [DecidableEq ω] {own own' : Ownership ρ ω}
    {leaves : Option ω} (h : own.Step leaves own') {r : ρ} {o : ω} (howned : own r = some o) :
    own' r = if leaves = some o then none else some o := by
  cases h with
  | same => rw [if_neg (by simp), howned]
  | seize r' o' hfree =>
    have hne : r ≠ r' := by
      rintro rfl
      rw [hfree] at howned
      cases howned
    rw [if_neg (by simp), Ownership.seize, Function.update_of_ne hne, howned]
  | release o' =>
    rw [Ownership.release, howned]
    by_cases heq : o = o'
    · rw [if_pos (by rw [heq]), if_pos (by rw [heq])]
    · have hne : ¬ some o = some o' := fun h => heq (Option.some.inj h)
      have hne' : ¬ some o' = some o := fun h => heq (Option.some.inj h).symm
      rw [if_neg hne, if_neg hne']

end evrma.lib
