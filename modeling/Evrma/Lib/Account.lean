import Mathlib.Data.Finset.Basic

namespace evrma.lib

inductive Action (ρ : Type*) where
  | acquire (r : ρ)
  | use (r : ρ)
  | release (r : ρ)

/-- A `switch` without `break`: the actions of the case and of all cases below it. -/
def fall_through {κ ρ : Type*} [DecidableEq κ] (cases : List (κ × List (Action ρ))) (what : κ) :
    List (Action ρ) :=
  (cases.dropWhile fun c => c.1 ≠ what).flatMap Prod.snd

variable {ρ : Type*} [DecidableEq ρ]

/-- What is held after the actions. There is no such set where something is acquired that is
held, or where something is used or released that is not. -/
def account : Finset ρ → List (Action ρ) → Option (Finset ρ)
  | held, [] => some held
  | held, .acquire r :: as => if r ∈ held then none else account (insert r held) as
  | held, .use r :: as => if r ∈ held then account held as else none
  | held, .release r :: as => if r ∈ held then account (held.erase r) as else none

variable {held held' : Finset ρ} {r : ρ} {as bs : List (Action ρ)}

@[simp]
theorem account_nil : account held [] = some held := rfl

theorem account_acquire (hr : r ∉ held) :
    account held (.acquire r :: as) = account (insert r held) as := by
  rw [account, if_neg hr]

theorem account_use (hr : r ∈ held) : account held (.use r :: as) = account held as := by
  rw [account, if_pos hr]

theorem account_use_of_notMem (hr : r ∉ held) : account held (.use r :: as) = none := by
  rw [account, if_neg hr]

theorem account_release (hr : r ∈ held) :
    account held (.release r :: as) = account (held.erase r) as := by
  rw [account, if_pos hr]

theorem account_append :
    account held (as ++ bs) = (account held as).bind fun held => account held bs := by
  induction as generalizing held with
  | nil => rfl
  | cons a as ih =>
    cases a with
    | acquire r =>
      simp only [List.cons_append, account]
      split_ifs
      · rfl
      · exact ih
    | use r =>
      simp only [List.cons_append, account]
      split_ifs
      · exact ih
      · rfl
    | release r =>
      simp only [List.cons_append, account]
      split_ifs
      · exact ih
      · rfl

theorem account_append_of_some (has : account held as = some held') :
    account held (as ++ bs) = account held' bs := by
  rw [account_append, has, Option.bind_some]

theorem account_append_of_none (has : account held as = none) :
    account held (as ++ bs) = none := by
  rw [account_append, has, Option.bind_none]

end evrma.lib
