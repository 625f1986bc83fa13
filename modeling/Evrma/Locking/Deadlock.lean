import Evrma.Lib.Run
import Evrma.Locking.Paths

namespace evrma.locking

open evrma.lib

variable {T D : Type*}

/-- The order in which the mutexes nest, except that `vdev_table_mutex` and the
references nest both ways. -/
def level : mutex D → Nat
  | .mngdev_table_mutex => 0
  | .vdev_table_mutex => 1
  | .ref_mtx _ => 1
  | .pci_mutex => 2

theorem level_le {h l : mutex D} (hnests : nests h l) : level h ≤ level l := by
  cases hnests <;> simp [level]

/-- Round a deadlock only `vdev_table_mutex` and references are waited for, in
turn. -/
theorem nests_level {h l : mutex D} (hnests : nests h l) (heq : level h = level l) :
    (h = .vdev_table_mutex ∧ ∃ d, l = .ref_mtx d) ∨
      (l = .vdev_table_mutex ∧ ∃ d, h = .ref_mtx d) := by
  cases hnests with
  | table_table => simp [level] at heq
  | table_ref d => simp [level] at heq
  | vdev_table_ref d => exact .inl ⟨rfl, d, rfl⟩
  | ref_vdev_table d => exact .inr ⟨rfl, d, rfl⟩
  | ref_pci d => simp [level] at heq

variable [DecidableEq D]

/-- A deadlock has two threads in it that hold `vdev_table_mutex` and one
reference and each wait for the other one's. -/
theorem opposed_of_deadlock {s : LockState T (mutex D)} (hs : LocksNested nests s)
    (hdead : s.Deadlock) : s.Opposed := by
  obtain ⟨f, w, hwalk⟩ := hs.walk_of_deadlock level (fun _ _ => level_le) hdead
  have hnests : ∀ n, nests (w n) (w (n + 1)) := fun n =>
    hs.order_of_wanted (hwalk n).2.1 (hwalk (n + 1)).1
  have hneeds : ∀ n, s.HoldsAndNeeds (f (n + 1)) (w n) (w (n + 1)) := fun n =>
    LockState.holdsAndNeeds_of_wanted (hwalk n).2.1 (hwalk (n + 1)).1
  -- from a wait for the table on, the next two waits are for a reference and the table again
  have hpair : ∀ n, w n = .vdev_table_mutex → s.Opposed := by
    intro n hn
    rcases nests_level (hnests n) (hwalk n).2.2 with ⟨-, d, hd⟩ | ⟨-, d, hd⟩
    · rcases nests_level (hnests (n + 1)) (hwalk (n + 1)).2.2 with ⟨hd', -⟩ | ⟨hn2, -⟩
      · rw [hd] at hd'
        cases hd'
      · have h0 := hneeds n
        have h1 := hneeds (n + 1)
        have hne : f (n + 1) ≠ f (n + 1 + 1) := by
          intro heq
          have hwant := (hwalk (n + 1)).1
          rw [heq, (hwalk (n + 1 + 1)).1, hd, hn2] at hwant
          cases hwant
        rw [hn, hd] at h0
        rw [hd, hn2] at h1
        exact ⟨_, _, _, _, by simp, hne, h0, h1⟩
    · rw [hn] at hd
      cases hd
  rcases nests_level (hnests 0) (hwalk 0).2.2 with ⟨hn, -⟩ | ⟨hn, -⟩
  · exact hpair 0 hn
  · exact hpair 1 hn

variable [DecidableEq T]

/-- No state of a run is a deadlock, for any number of threads and devices, if no
step takes `vdev_table_mutex` or a reference that the holder of the other one
needs first, in an operation that needs the other one first. -/
theorem no_deadlock (as : List (LockLabel T (operation D)))
    (hmeet : StepsMeet (lock_step operation.path) (fun s a => ¬ Opposes s a) LockState.init as) :
    StatesMeet (lock_step operation.path) (fun s => ¬ s.Deadlock) LockState.init as := by
  refine statesMeet_of_stepsMeet (I := fun s => LocksNested nests s ∧ ¬ s.Opposed) ?_ ?_ ?_ hmeet
  · rintro s ⟨hs, hfree⟩ hdead
    exact hfree (opposed_of_deadlock hs hdead)
  · rintro s a t ⟨hs, hfree⟩ hgood hstep
    exact ⟨hs.step path_nested hstep, hs.not_opposed hfree hgood hstep⟩
  · refine ⟨locksNested_init, ?_⟩
    rintro ⟨l, m, t, u, -, -, ⟨howner, -⟩, -⟩
    cases howner

/-- The condition is exact: after a step that opposes, two operations never end,
whatever the other threads do. -/
theorem opposed_for_ever {s t u : LockState T (mutex D)} {a : LockLabel T (operation D)}
    {as : List (LockLabel T (operation D))} (hs : LocksNested nests s) (hopposes : Opposes s a)
    (hstep : lock_step operation.path s a = some t)
    (hrun : run (lock_step operation.path) t as = some u) : u.Opposed := by
  have hinv : LocksNested nests u ∧ u.Opposed := by
    refine run_invariant (I := fun s => LocksNested nests s ∧ s.Opposed) ?_ hrun
      ⟨hs.step path_nested hstep, LockState.opposed_of_opposes hstep hopposes⟩
    rintro s a t ⟨hs, hopposed⟩ hstep
    exact ⟨hs.step path_nested hstep, hs.opposed_step hstep hopposed⟩
  exact hinv.2

/-- An open of a VIRT_DEV and a MNG_DEV_IOC_DESTROY of the same device, each up
to its first mutex. -/
def open_against_destroy : List (LockLabel Bool (operation Unit)) :=
  [.start false (.vdev_open (.device () true)),
    .start true (.mngdev_unlocked_ioctl () (.destroy false)), .act false, .act true]

/-- Both operations then wait for each other's mutex. -/
theorem open_against_destroy_deadlocks :
    ¬ StatesMeet (lock_step operation.path) (fun s => ¬ s.Deadlock) LockState.init
      open_against_destroy := by
  intro hmeet
  refine hmeet.last rfl ⟨false, Relation.TransGen.trans (b := true) (.single ?_) (.single ?_)⟩
  · exact ⟨.ref_mtx (), rfl, rfl⟩
  · exact ⟨.vdev_table_mutex, rfl, rfl⟩

/-- The same two operations, where the open has let go of the reference before the other one takes
it. -/
def open_before_destroy : List (LockLabel Bool (operation Unit)) :=
  [.start false (.vdev_open (.device () true)),
    .start true (.mngdev_unlocked_ioctl () (.destroy false))] ++
  List.replicate 5 (.act false) ++ [.act true, .act false, .act true, .act true, .act true]

/-- Both operations come to their ends. -/
theorem open_before_destroy_no_deadlock :
    (run (lock_step operation.path) LockState.init open_before_destroy).isSome = true ∧
      StatesMeet (lock_step operation.path) (fun s => ¬ s.Deadlock) LockState.init
        open_before_destroy :=
  ⟨rfl, no_deadlock _ (stepsMeet_of_check not_opposes_of_yields (by decide +kernel))⟩

end evrma.locking
