import Evrma.Evr.DirectIoctl
import Evrma.Evr.MapRam
import Evrma.Lib.Run

namespace evrma.evr

open evrma.lib

/-- The operation under the mutex. Like the paths without it, it reads the control register, changes
it and writes it back. -/
inductive ctrl_op where
  | ram_map_change_flush (map_ram : Fin EVR_MAPRAM_EVENT_CODES → evr_map_ram_item_struct)
  | output_enable (state : Bool)

/-- A path without the mutex: the direct ioctl or the interrupt handler. -/
inductive direct_path where
  | latched_timestamp_get
  | isr_fifofull

/-- What a path without the mutex makes of the control word. -/
def direct_path.ctrl : direct_path → BitVec 32 → BitVec 32
  | .latched_timestamp_get, ctrl => latch_timestamp_ctrl ctrl
  | .isr_fifofull, ctrl => ctrl ||| bit C_EVR_CTRL_RESET_EVENTFIFO

/-- How far the operation under the mutex has come. After its write it knows the
control word that it wrote. -/
inductive op_progress where
  | start
  | read (ctrl : BitVec 32)
  | saved (ctrl : BitVec 32)
  | written (ctrl : BitVec 32)
  | finished (ctrl : BitVec 32)

inductive direct_progress where
  | start
  | read (ctrl : BitVec 32)
  | finished

structure race_state (T : Type) where
  io : io_state
  op : op_progress
  direct : T → direct_progress

/-- Each access to the control register is a step of its own. -/
inductive race_label (T : Type) where
  | op
  | direct (t : T)

/-- The next step of the operation under the mutex. -/
def op_step (op : ctrl_op) (io : io_state) : op_progress → Option (io_state × op_progress)
  | .start =>
    let (ctrl, io) := evr_read32 io EVR_REG_CTRL
    some (io, .read ctrl)
  | .read ctrl =>
    match op with
    | .ram_map_change_flush map_ram =>
      some (save_map_ram io map_ram (newram_offset ctrl), .saved ctrl)
    | .output_enable state =>
      let ctrl := output_enable_ctrl ctrl state
      some (evr_write32 io EVR_REG_CTRL ctrl, .written ctrl)
  | .saved ctrl =>
    let ctrl := switched_ctrl ctrl (newram_offset ctrl)
    some (evr_write32 io EVR_REG_CTRL ctrl, .finished ctrl)
  | .written ctrl => some ((evr_read32 io EVR_REG_CTRL).2, .finished ctrl)
  | .finished _ => none

def direct_step (path : direct_path) (io : io_state) :
    direct_progress → Option (io_state × direct_progress)
  | .start =>
    let (ctrl, io) := evr_read32 io EVR_REG_CTRL
    some (io, .read ctrl)
  | .read ctrl => some (evr_write32 io EVR_REG_CTRL (path.ctrl ctrl), .finished)
  | .finished => none

/-- Undisturbed, the steps make up `evr_ram_map_change_flush`. -/
theorem flush_eq_steps {P : Type} (hw : evr_hw_data P) :
    ∃ io₁ io₂ ctrl ctrl', let op := ctrl_op.ram_map_change_flush hw.map_ram
      op_step op hw.io .start = some (io₁, .read ctrl) ∧
      op_step op io₁ (.read ctrl) = some (io₂, .saved ctrl) ∧
      op_step op io₂ (.saved ctrl) = some ((evr_ram_map_change_flush hw).io, .finished ctrl') :=
  ⟨_, _, _, _, rfl, rfl, rfl⟩

/-- Undisturbed, the steps make up `evr_output_enable`. -/
theorem output_enable_eq_steps {P : Type} (hw : evr_hw_data P) (state : Bool) :
    ∃ io₁ io₂ ctrl ctrl', let op := ctrl_op.output_enable state
      op_step op hw.io .start = some (io₁, .read ctrl) ∧
      op_step op io₁ (.read ctrl) = some (io₂, .written ctrl') ∧
      op_step op io₂ (.written ctrl') = some ((evr_output_enable hw state).io, .finished ctrl') :=
  ⟨_, _, _, _, rfl, rfl, rfl⟩

variable {T : Type} [DecidableEq T]

def race_step (op : ctrl_op) (path : T → direct_path) (s : race_state T) :
    race_label T → Option (race_state T)
  | .op => (op_step op s.io s.op).map fun (io, op) => { s with io, op }
  | .direct t =>
    (direct_step (path t) s.io (s.direct t)).map fun (io, progress) =>
      { s with io, direct := Function.update s.direct t progress }

/-- Nothing has begun, and the device is in any state. -/
def race_init (io : io_state) : race_state T := ⟨io, .start, fun _ => .start⟩

/-- The two control words agree on the bits that only the operation under the
mutex is there to change. -/
def same_selection (ctrl ctrl' : BitVec 32) : Prop :=
  ∀ i ∈ [C_EVR_CTRL_MAP_RAM_SELECT, C_EVR_CTRL_MAP_RAM_ENABLE, C_EVR_CTRL_OUTEN],
    ctrl.getLsbD i = ctrl'.getLsbD i

/-- The control word that the operation under the mutex has written, if it has. -/
def op_progress.ctrl_written : op_progress → Option (BitVec 32)
  | .written ctrl => some ctrl
  | .finished ctrl => some ctrl
  | _ => none

/-- The operation's update of the control register is in force, and a bank that
it wrote is the selected one. -/
def UpdateInForce (op : ctrl_op) (s : race_state T) : Prop :=
  ∀ ctrl, s.op.ctrl_written = some ctrl →
    same_selection (s.io.reg32 EVR_REG_CTRL) ctrl ∧
      match op with
      | .ram_map_change_flush map_ram =>
        bank_holds s.io (selected_bank (s.io.reg32 EVR_REG_CTRL)) map_ram
      | .output_enable _ => True

/-- Once all have finished, no update of the control register is lost. -/
def NoLostUpdate (op : ctrl_op) (s : race_state T) : Prop :=
  (∃ ctrl, s.op = .finished ctrl) → (∀ t, s.direct t = .finished) → UpdateInForce op s

/-- The step writes the control register back from a reading that differs, in the
bits of the operation under the mutex, from what this operation wrote since. -/
def WritesBackStale (s : race_state T) (a : race_label T) : Prop :=
  ∃ t old ctrl, a = .direct t ∧ s.direct t = .read old ∧ s.op.ctrl_written = some ctrl ∧
    ¬ same_selection old ctrl

theorem same_selection_refl (ctrl : BitVec 32) : same_selection ctrl ctrl := fun _ _ => rfl

theorem same_selection.trans {a b c : BitVec 32} (hab : same_selection a b)
    (hbc : same_selection b c) : same_selection a c :=
  fun i hi => (hab i hi).trans (hbc i hi)

theorem same_selection.symm {a b : BitVec 32} (hab : same_selection a b) : same_selection b a :=
  fun i hi => (hab i hi).symm

theorem same_selection.selected_bank_eq {a b : BitVec 32} (hab : same_selection a b) :
    selected_bank a = selected_bank b := by
  rw [selected_bank, selected_bank, hab C_EVR_CTRL_MAP_RAM_SELECT (by simp)]

/-- The paths without the mutex only set bits of their own. -/
theorem direct_path.same_selection_ctrl (path : direct_path) (ctrl : BitVec 32) :
    same_selection (path.ctrl ctrl) ctrl := by
  intro i hi
  simp only [List.mem_cons, List.not_mem_nil, or_false] at hi
  cases path <;> rcases hi with rfl | rfl | rfl <;>
    simp [direct_path.ctrl, latch_timestamp_ctrl, C_EVR_CTRL_MAP_RAM_SELECT,
      C_EVR_CTRL_MAP_RAM_ENABLE, C_EVR_CTRL_OUTEN, C_EVR_CTRL_LATCH_TIMESTAMP,
      C_EVR_CTRL_RESET_EVENTFIFO]

theorem bank_holds_ctrl_write {io : io_state} {address : Nat} {ctrl : BitVec 32}
    {map_ram : Fin EVR_MAPRAM_EVENT_CODES → evr_map_ram_item_struct}
    (haddress : address = 0x4000 ∨ address = 0x5000) (hholds : bank_holds io address map_ram) :
    bank_holds (evr_write32 io EVR_REG_CTRL ctrl) address map_ram := by
  refine bank_holds_congr haddress ?_ hholds
  intro reg hreg
  have hne : reg ≠ 4 := by
    rw [is_map_ram_iff] at hreg
    omega
  rw [evr_write32_reg32, Function.update_of_ne hne]

/-- The update is in force, and a saved bank is waiting to be selected. -/
structure RaceInv (op : ctrl_op) (s : race_state T) : Prop where
  in_force : UpdateInForce op s
  saved : ∀ ctrl, s.op = .saved ctrl → ∃ map_ram, op = .ram_map_change_flush map_ram ∧
    bank_holds s.io (newram_offset ctrl) map_ram

omit [DecidableEq T] in
theorem raceInv_init (op : ctrl_op) (io : io_state) : RaceInv op (race_init io : race_state T) :=
  ⟨fun _ h => (by cases h), fun _ h => (by cases h)⟩

omit [DecidableEq T] in
theorem RaceInv.op_step {op : ctrl_op} {s : race_state T} (hs : RaceInv op s) {io : io_state}
    {progress : op_progress} (hstep : evr.op_step op s.io s.op = some (io, progress)) :
    RaceInv op { s with io, op := progress } := by
  obtain ⟨hforce, hsaved⟩ := hs
  cases hop : s.op with
  | start =>
    simp only [hop, evr.op_step, Option.some.injEq, Prod.mk.injEq] at hstep
    obtain ⟨rfl, rfl⟩ := hstep
    exact ⟨fun _ h => (by cases h), fun _ h => (by cases h)⟩
  | read ctrl =>
    simp only [hop, evr.op_step] at hstep
    cases op with
    | ram_map_change_flush map_ram =>
      simp only [Option.some.injEq, Prod.mk.injEq] at hstep
      obtain ⟨rfl, rfl⟩ := hstep
      refine ⟨fun _ h => (by cases h), fun ctrl' h => ?_⟩
      obtain rfl : ctrl = ctrl' := by simpa using h
      exact ⟨map_ram, rfl, save_map_ram_holds s.io map_ram (newram_offset ctrl)⟩
    | output_enable state =>
      simp only [Option.some.injEq, Prod.mk.injEq] at hstep
      obtain ⟨rfl, rfl⟩ := hstep
      refine ⟨fun ctrl' h => ⟨?_, trivial⟩, fun _ h => (by cases h)⟩
      obtain rfl : output_enable_ctrl ctrl state = ctrl' := by
        simpa [op_progress.ctrl_written] using h
      simpa using same_selection_refl _
  | saved ctrl =>
    obtain ⟨map_ram, rfl, hholds⟩ := hsaved ctrl hop
    simp only [hop, evr.op_step, Option.some.injEq, Prod.mk.injEq] at hstep
    obtain ⟨rfl, rfl⟩ := hstep
    refine ⟨fun ctrl' h => ?_, fun _ h => (by cases h)⟩
    obtain rfl : switched_ctrl ctrl (newram_offset ctrl) = ctrl' := by
      simpa [op_progress.ctrl_written] using h
    have hbank := selected_bank_switched_ctrl ctrl (newram_offset_cases ctrl)
    simp only [evr_write32_reg32, Function.update_self]
    refine ⟨same_selection_refl _, ?_⟩
    rw [hbank]
    exact bank_holds_ctrl_write (newram_offset_cases ctrl) hholds
  | written ctrl =>
    simp only [hop, evr.op_step, Option.some.injEq, Prod.mk.injEq] at hstep
    obtain ⟨rfl, rfl⟩ := hstep
    refine ⟨fun ctrl' h => hforce ctrl' ?_, fun _ h => (by cases h)⟩
    rw [hop]
    exact h
  | finished ctrl =>
    simp [hop, evr.op_step] at hstep

theorem RaceInv.direct_step {op : ctrl_op} {path : T → direct_path} {s : race_state T}
    (hs : RaceInv op s) {t : T} (hgood : ¬ WritesBackStale s (.direct t)) {io : io_state}
    {progress : direct_progress}
    (hstep : evr.direct_step (path t) s.io (s.direct t) = some (io, progress)) :
    RaceInv op { s with io, direct := Function.update s.direct t progress } := by
  obtain ⟨hforce, hsaved⟩ := hs
  cases hdirect : s.direct t with
  | start =>
    simp only [hdirect, evr.direct_step, Option.some.injEq, Prod.mk.injEq] at hstep
    obtain ⟨rfl, rfl⟩ := hstep
    exact ⟨hforce, hsaved⟩
  | read old =>
    simp only [hdirect, evr.direct_step, Option.some.injEq, Prod.mk.injEq] at hstep
    obtain ⟨rfl, rfl⟩ := hstep
    refine ⟨fun ctrl h => ?_, fun ctrl h => ?_⟩
    · obtain ⟨hsel, hbank⟩ := hforce ctrl h
      have hold : same_selection old ctrl := by
        by_contra hstale
        exact hgood ⟨t, old, ctrl, rfl, hdirect, h, hstale⟩
      have hnew : same_selection ((path t).ctrl old) ctrl :=
        ((path t).same_selection_ctrl old).trans hold
      simp only [evr_write32_reg32, Function.update_self]
      refine ⟨hnew, ?_⟩
      cases op with
      | output_enable state => trivial
      | ram_map_change_flush map_ram =>
        rw [(hnew.trans hsel.symm).selected_bank_eq]
        exact bank_holds_ctrl_write (selected_bank_cases _) hbank
    · obtain ⟨map_ram, rfl, hholds⟩ := hsaved ctrl h
      exact ⟨map_ram, rfl, bank_holds_ctrl_write (newram_offset_cases ctrl) hholds⟩
  | finished =>
    simp [hdirect, evr.direct_step] at hstep

theorem RaceInv.step {op : ctrl_op} {path : T → direct_path} {s s' : race_state T}
    {a : race_label T} (hs : RaceInv op s) (hgood : ¬ WritesBackStale s a)
    (hstep : race_step op path s a = some s') : RaceInv op s' := by
  cases a with
  | op =>
    simp only [race_step, Option.map_eq_some_iff, Prod.exists] at hstep
    obtain ⟨io, progress, hnext, rfl⟩ := hstep
    exact hs.op_step hnext
  | direct t =>
    simp only [race_step, Option.map_eq_some_iff, Prod.exists] at hstep
    obtain ⟨io, progress, hnext, rfl⟩ := hstep
    exact hs.direct_step hgood hnext

/-- Writing a stale control word back undoes the update. -/
theorem not_in_force_of_stale {op : ctrl_op} {path : T → direct_path} {s s' : race_state T}
    {a : race_label T} (hbad : WritesBackStale s a) (hstep : race_step op path s a = some s') :
    ¬ UpdateInForce op s' := by
  obtain ⟨t, old, ctrl, rfl, hdirect, hwritten, hstale⟩ := hbad
  simp only [race_step, hdirect, evr.direct_step, Option.map_some, Option.some.injEq] at hstep
  subst hstep
  intro hforce
  obtain ⟨hsel, -⟩ := hforce ctrl hwritten
  simp only [evr_write32_reg32, Function.update_self] at hsel
  exact hstale (((path t).same_selection_ctrl old).symm.trans hsel)

/-- From its write on, the update stays in force exactly as long as no stale
control word is written back. -/
theorem update_in_force_iff (op : ctrl_op) (path : T → direct_path) (io : io_state)
    (as : List (race_label T)) :
    StatesMeet (race_step op path) (UpdateInForce op) (race_init io) as ↔
      StepsMeet (race_step op path) (fun s a => ¬ WritesBackStale s a) (race_init io) as :=
  statesMeet_iff_stepsMeet (fun _ hs => hs.in_force)
    (fun _ _ _ hs hgood hstep => hs.step hgood hstep)
    (fun _ _ _ _ hbad hstep => not_in_force_of_stale (not_not.mp hbad) hstep)
    (raceInv_init op io) as

/-- For any number of paths without the mutex and any order of the accesses, the
update is in force once all have finished if no path writes a stale control word
back after it. -/
theorem no_lost_update (op : ctrl_op) (path : T → direct_path) (io : io_state)
    (as : List (race_label T))
    (hmeet : StepsMeet (race_step op path) (fun s a => ¬ WritesBackStale s a) (race_init io) as) :
    StatesMeet (race_step op path) (NoLostUpdate op) (race_init io) as :=
  ((update_in_force_iff op path io as).mpr hmeet).mono fun _ hforce _ _ => hforce

/-- All registers and the table in memory are zero. -/
def zero_io : io_state := ⟨fun _ => 0, fun _ => 0, []⟩

def zero_flush : ctrl_op := .ram_map_change_flush fun _ => ⟨0, 0, 0, 0⟩

/-- The direct ioctl reads the control register before the flush begins and
writes it back after the flush has finished: the old bank is selected again. -/
theorem flush_is_lost :
    ¬ StatesMeet (race_step zero_flush fun _ : Unit => .latched_timestamp_get)
      (NoLostUpdate zero_flush) (race_init zero_io)
      [.direct (), .op, .op, .op, .direct ()] := by
  intro hmeet
  have hlast := hmeet.last rfl
  obtain ⟨hsel, -⟩ := hlast ⟨_, rfl⟩ (fun _ => rfl) _ rfl
  have hselect := hsel C_EVR_CTRL_MAP_RAM_SELECT (by simp)
  exact absurd hselect (by decide)

/-- The direct ioctl after the flush. -/
theorem flush_then_latch_not_lost :
    StatesMeet (race_step zero_flush fun _ : Unit => .latched_timestamp_get)
      (NoLostUpdate zero_flush) (race_init zero_io)
      [.op, .op, .op, .direct (), .direct ()] := by
  apply no_lost_update
  refine fun s₁ h₁ => ⟨?_, fun s₂ h₂ => ⟨?_, fun s₃ h₃ => ⟨?_, fun s₄ h₄ => ⟨?_, fun s₅ h₅ =>
    ⟨?_, trivial⟩⟩⟩⟩⟩
  iterate 3
    rintro ⟨t, old, ctrl, ha, -⟩
    cases ha
  all_goals
    obtain rfl := Option.some.inj h₁
    obtain rfl := Option.some.inj h₂
    obtain rfl := Option.some.inj h₃
  · rintro ⟨t, old, ctrl, -, hread, -⟩
    cases hread
  · obtain rfl := Option.some.inj h₄
    rintro ⟨t, old, ctrl, -, hread, hwritten, hstale⟩
    cases hread
    cases hwritten
    exact hstale (same_selection_refl _)

end evrma.evr
