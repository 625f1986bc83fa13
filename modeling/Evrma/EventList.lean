import Mathlib.Algebra.GroupWithZero.Nat
import Mathlib.Data.Fintype.Basic
import Mathlib.Data.List.Basic
import Mathlib.Logic.Function.Basic
import Mathlib.Tactic.Common
import Evrma.Errno

namespace evrma.event_list

abbrev EVENT_LIST_TYPE_MAX_EVENTS : Nat := 512

instance : NeZero EVENT_LIST_TYPE_MAX_EVENTS := ⟨by decide⟩

/-- Should match `MAX_VIRT_DEVS_PER_MNG_DEV`. -/
abbrev EVENT_DISPATCH_LIST_MAX_SUBSCRIBERS : Nat := 31

/-- The bits of `mask`. -/
abbrev event_list_type := Fin EVENT_LIST_TYPE_MAX_EVENTS → Bool

/-- The code as an index, unless it is out of range. -/
def event_index (event : Int) : Option (Fin EVENT_LIST_TYPE_MAX_EVENTS) :=
  if h : 0 ≤ event ∧ event < EVENT_LIST_TYPE_MAX_EVENTS then
    some ⟨event.toNat, by omega⟩
  else none

def event_list_clear : event_list_type := fun _ => false

def event_list_is_empty (event_list : event_list_type) : Bool :=
  decide (∀ event, event_list event = false)

def event_list_test (event_list : event_list_type) (event : Int) : Bool :=
  match event_index event with
  | none => false
  | some i => event_list i

def event_list_add (event_list : event_list_type) (event : Int) : event_list_type :=
  match event_index event with
  | none => event_list
  | some i => Function.update event_list i true

def event_list_remove (event_list : event_list_type) (event : Int) : event_list_type :=
  match event_index event with
  | none => event_list
  | some i => Function.update event_list i false

/-- The least code in the list, -1 if there is none. -/
def event_list_extract_one (event_list : event_list_type) : Int :=
  match (List.finRange EVENT_LIST_TYPE_MAX_EVENTS).find? (event_list ·) with
  | some i => i
  | none => -1

theorem event_index_natCast (i : Fin EVENT_LIST_TYPE_MAX_EVENTS) : event_index (i : Nat) = some i := by
  have hi := i.isLt
  rw [event_index, dif_pos (by omega)]
  rfl

theorem event_index_eq_some {event : Int} {i : Fin EVENT_LIST_TYPE_MAX_EVENTS}
    (h : event_index event = some i) : event = i := by
  unfold event_index at h
  split_ifs at h with hrange
  obtain rfl := Option.some.inj h
  exact (Int.toNat_of_nonneg hrange.1).symm

/-- The test is whether the event is a code of the list. -/
theorem event_list_test_eq_true {event_list : event_list_type} {event : Int} :
    event_list_test event_list event = true ↔
      ∃ i : Fin EVENT_LIST_TYPE_MAX_EVENTS, event = (i : Nat) ∧ event_list i = true := by
  constructor
  · intro htest
    unfold event_list_test at htest
    cases hindex : event_index event with
    | none =>
      rw [hindex] at htest
      cases htest
    | some i =>
      rw [hindex] at htest
      exact ⟨i, event_index_eq_some hindex, htest⟩
  · rintro ⟨i, rfl, hi⟩
    rw [event_list_test, event_index_natCast]
    exact hi

theorem event_list_is_empty_eq_true {event_list : event_list_type} :
    event_list_is_empty event_list = true ↔ ∀ event, event_list event = false := by
  simp [event_list_is_empty]

variable {S : Type*} [DecidableEq S]

/-- The subscribers of one code, an array of as many pointers as there can be
VIRT_DEVs. -/
structure event_subs (S : Type*) where
  entries : List (Option S)
  length_eq : entries.length = EVENT_DISPATCH_LIST_MAX_SUBSCRIBERS

abbrev event_dispatch_list (S : Type*) := Fin EVENT_LIST_TYPE_MAX_EVENTS → event_subs S

/-- The loop of `event_dispatch_list_add`; `none` when it runs off the array. -/
def add_loop (subscriber : S) : List (Option S) → Option (List (Option S))
  | [] => none
  | none :: rest => some (some subscriber :: rest)
  | some s :: rest =>
    if s = subscriber then some (some s :: rest)
    else (add_loop subscriber rest).map (some s :: ·)

/-- The loop of `event_dispatch_list_remove`: what follows the subscriber is moved
by one. -/
def remove_loop (subscriber : S) : List (Option S) → List (Option S)
  | [] => []
  | none :: rest => none :: rest
  | some s :: rest =>
    if s = subscriber then rest ++ [none] else some s :: remove_loop subscriber rest

theorem add_loop_length {subscriber : S} {entries entries' : List (Option S)}
    (h : add_loop subscriber entries = some entries') : entries'.length = entries.length := by
  induction entries generalizing entries' with
  | nil => cases h
  | cons entry rest ih =>
    cases entry with
    | none =>
      simp only [add_loop, Option.some.injEq] at h
      simp [← h]
    | some s =>
      simp only [add_loop] at h
      split_ifs at h with heq
      · simp only [Option.some.injEq] at h
        simp [← h]
      · obtain ⟨rest', hrest, rfl⟩ := Option.map_eq_some_iff.mp h
        simp [ih hrest]

theorem remove_loop_length (subscriber : S) (entries : List (Option S)) :
    (remove_loop subscriber entries).length = entries.length := by
  induction entries with
  | nil => rfl
  | cons entry rest ih =>
    cases entry with
    | none => rfl
    | some s =>
      simp only [remove_loop]
      split_ifs <;> simp [ih]

def event_dispatch_list_init : event_dispatch_list S :=
  fun _ => ⟨List.replicate EVENT_DISPATCH_LIST_MAX_SUBSCRIBERS none, List.length_replicate⟩

def event_subs.add (subs : event_subs S) (subscriber : S) : Option (event_subs S) :=
  match h : add_loop subscriber subs.entries with
  | none => none
  | some entries => some ⟨entries, (add_loop_length h).trans subs.length_eq⟩

def event_subs.remove (subs : event_subs S) (subscriber : S) : event_subs S :=
  ⟨remove_loop subscriber subs.entries, (remove_loop_length _ _).trans subs.length_eq⟩

def event_dispatch_list_add (list : event_dispatch_list S) (subscriber : S) (event : Int) :
    event_dispatch_list S × Int :=
  match event_index event with
  | none => (list, -EINVAL)
  | some i =>
    match (list i).add subscriber with
    | none => (list, -ENOMEM)
    | some subs => (Function.update list i subs, 0)

/-- An addition that fails changes nothing. -/
theorem event_dispatch_list_add_of_ne_zero {list : event_dispatch_list S} {subscriber : S}
    {event : Int} (h : (event_dispatch_list_add list subscriber event).2 ≠ 0) :
    (event_dispatch_list_add list subscriber event).1 = list := by
  unfold event_dispatch_list_add at h ⊢
  cases hindex : event_index event with
  | none => rfl
  | some i =>
    rw [hindex] at h
    dsimp only at h ⊢
    cases hadd : (list i).add subscriber with
    | none => rfl
    | some subs =>
      rw [hadd] at h
      exact absurd rfl h

def event_dispatch_list_remove (list : event_dispatch_list S) (subscriber : S) (event : Int) :
    event_dispatch_list S :=
  match event_index event with
  | none => list
  | some i => Function.update list i ((list i).remove subscriber)

def event_dispatch_list_remove_all (list : event_dispatch_list S) (subscriber : S) :
    event_dispatch_list S :=
  fun i => (list i).remove subscriber

/-- A code is used by at least one subscriber if the first entry is not NULL. -/
def event_dispatch_list_add_subscribed_events (list : event_dispatch_list S)
    (all_events : event_list_type) : event_list_type :=
  fun i => all_events i || ((list i).entries.head?.join).isSome

/-- The subscribers that the callback is called for, in order. -/
def event_dispatch_list_for_all_subscribers (list : event_dispatch_list S) (event : Int) :
    List S :=
  match event_index event with
  | none => []
  | some i => ((list i).entries.takeWhile Option.isSome).reduceOption

end evrma.event_list
