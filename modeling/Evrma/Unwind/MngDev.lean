import Evrma.Evr.HwData
import Evrma.Lib.Account
import Evrma.MngDev.Data

namespace evrma.unwind

open evrma.evr evrma.lib evrma.mng_dev evrma.rm

/-- Fields of `struct mngdev_data`. The memory comes from `kmalloc`, so a field has no value
before it is assigned. -/
inductive mngdev_field where
  | hw_support_data_mngdev_des
  | hw_support_data_hw_res_defs
  | hw_support_data_priv
  | rm_data_priv
  | devt
  | des
deriving DecidableEq

/-- What a MNG_DEV acquires, and its fields. -/
inductive mngdev_item where
  | mngdev_data
  | hw_res_defs
  | evr_hw_data
  | sim
  | res_data
  | res_states
  | device
  | field (f : mngdev_field)
deriving DecidableEq

def mngdev_item.is_field : mngdev_item → Bool
  | .field _ => true
  | _ => false

abbrev mngdev_actions := List (Action mngdev_item)

def assign (f : mngdev_field) : mngdev_actions := [.use .mngdev_data, .acquire (.field f)]

def use_field (f : mngdev_field) : mngdev_actions := [.use .mngdev_data, .use (.field f)]

/-- How the steps turn out that are not in the driver's hand. Without `io_start` the EVR is
simulated. The number of types is `EVR_RES_TYPE_COUNT` for the EVR. -/
structure create_steps where
  kmalloc_mngdev : Bool
  io_start : Bool
  evr_type_docd : Int
  fw_version : BitVec 32
  hw_res_def_count : Nat
  kmalloc_hw_res_defs : Bool
  kzalloc_hw_data : Bool
  kzalloc_sim : Bool
  kmalloc_res_data : Bool
  kmalloc_res_states : Bool
  device_create : kernel_call

inductive clean_hw where
  | CLEAN_RES
  | CLEAN_DATA
  | CLEAN_SIM
deriving DecidableEq

/-- The pointer to the data of the card is read in any case but only counts where it is used. -/
def cleanup_hw (io_start : Bool) : clean_hw → mngdev_actions :=
  fall_through [
    (.CLEAN_SIM, use_field .hw_support_data_priv ++ [.use .evr_hw_data] ++
      (if io_start then [] else [.release .sim])),
    (.CLEAN_DATA, use_field .hw_support_data_priv ++ [.release .evr_hw_data]),
    (.CLEAN_RES, use_field .hw_support_data_hw_res_defs ++ [.release .hw_res_defs])]

def hw_support_evr_init (o : create_steps) : mngdev_actions × Int :=
  if o.kmalloc_hw_res_defs = false then (assign .hw_support_data_hw_res_defs, -ENOMEM)
  else
    let res := .acquire .hw_res_defs :: assign .hw_support_data_hw_res_defs
    if o.kzalloc_hw_data = false then (res ++ cleanup_hw o.io_start .CLEAN_RES, -ENOMEM)
    else
      let data := res ++ .acquire .evr_hw_data :: assign .hw_support_data_priv ++
        use_field .hw_support_data_mngdev_des
      if o.io_start = false then
        if o.kzalloc_sim = false then (data ++ cleanup_hw o.io_start .CLEAN_DATA, -ENOMEM)
        else (data ++ [.acquire .sim], 0)
      else if (select_evr_type o.evr_type_docd o.fw_version).isNone then
        (data ++ cleanup_hw o.io_start .CLEAN_DATA, -ENOSYS)
      else (data, 0)

def hw_support_evr_end (io_start : Bool) : mngdev_actions := cleanup_hw io_start .CLEAN_SIM

inductive clean_rm where
  | CLEAN_DATA
  | CLEAN_STATES
deriving DecidableEq

def cleanup_rm : clean_rm → mngdev_actions :=
  fall_through [
    (.CLEAN_STATES, use_field .rm_data_priv ++ [.use .res_data, .release .res_states]),
    (.CLEAN_DATA, use_field .rm_data_priv ++ [.release .res_data])]

def modac_rm_init (o : create_steps) : mngdev_actions × Int :=
  if MODAC_RES_TYPE_MAX_COUNT < o.hw_res_def_count then ([], - ENXIO)
  else if o.kmalloc_res_data = false then ([], -ENOMEM)
  else
    let data := .acquire .res_data :: assign .rm_data_priv
    if o.kmalloc_res_states = false then (data ++ cleanup_rm .CLEAN_DATA, -ENOMEM)
    else (data ++ [.acquire .res_states], 0)

def modac_rm_end : mngdev_actions := cleanup_rm .CLEAN_STATES

inductive clean_mngdev where
  | CLEAN_PRIV
  | CLEAN_HW
  | CLEAN_RM
  | CLEAN_DEV
deriving DecidableEq

/-- The support code is reached through the field `des`. -/
def cleanup (io_start : Bool) : clean_mngdev → mngdev_actions :=
  fall_through [
    (.CLEAN_DEV, use_field .devt ++ [.release .device]),
    (.CLEAN_RM, modac_rm_end),
    (.CLEAN_HW, use_field .des ++ hw_support_evr_end io_start),
    (.CLEAN_PRIV, [.release .mngdev_data])]

structure create_result where
  actions : mngdev_actions
  mngdev_table : Nat → Bool
  ret : Int

/-- `mngdev_table` tells which rows are occupied. -/
def modac_mngdev_create (mngdev_first_minor minor : Int) (mngdev_table_size : Nat)
    (mngdev_table : Nat → Bool) (o : create_steps) : create_result :=
  let imngdev := (minor - mngdev_first_minor).tdiv MINOR_MULTIPLICATOR
  if imngdev < 0 ∨ mngdev_table_size ≤ imngdev then ⟨[], mngdev_table, -ENOTSUPP⟩
  else if o.kmalloc_mngdev = false then ⟨[], mngdev_table, -ENOMEM⟩
  else
    let mngdev := .acquire .mngdev_data :: assign .hw_support_data_mngdev_des
    let hw := hw_support_evr_init o
    if hw.2 ≠ 0 then ⟨mngdev ++ hw.1 ++ cleanup o.io_start .CLEAN_PRIV, mngdev_table, hw.2⟩
    else
      let rm := modac_rm_init o
      if rm.2 ≠ 0 then
        ⟨mngdev ++ hw.1 ++ rm.1 ++ cleanup o.io_start .CLEAN_HW, mngdev_table, rm.2⟩
      else
        let des := mngdev ++ hw.1 ++ rm.1 ++ assign .devt ++ assign .des
        match o.device_create with
        | .error err => ⟨des ++ cleanup o.io_start .CLEAN_RM, mngdev_table, err⟩
        | .ok () =>
          let dev := des ++ [.acquire .device]
          if mngdev_table imngdev.toNat then ⟨dev ++ cleanup o.io_start .CLEAN_DEV, mngdev_table, -EEXIST⟩
          else ⟨dev, Function.update mngdev_table imngdev.toNat true, 0⟩

def step_error (ret : Int) : Option Int := if ret = 0 then none else some ret

/-- The error of the first step that fails. -/
def failing_step (mngdev_first_minor minor : Int) (mngdev_table_size : Nat)
    (mngdev_table : Nat → Bool) (o : create_steps) : Option Int :=
  let imngdev := (minor - mngdev_first_minor).tdiv MINOR_MULTIPLICATOR
  [ if imngdev < 0 ∨ mngdev_table_size ≤ imngdev then some (-ENOTSUPP) else none,
    if o.kmalloc_mngdev then none else some (-ENOMEM),
    step_error (hw_support_evr_init o).2,
    step_error (modac_rm_init o).2,
    match o.device_create with | .error err => some err.val | .ok () => none,
    if mngdev_table imngdev.toNat then some (-EEXIST) else none ].findSome? id

/-- Only fields that have a value are used, all that was acquired is released, once and in an
order that lets it be used until then, the table is as it was and the error is the one of the
step that failed. The fields are gone with their structure. -/
def CleanFailure (mngdev_table : Nat → Bool) (failing_step : Option Int) (r : create_result) :
    Prop :=
  r.ret ≠ 0 →
    (∃ held, account ∅ r.actions = some held ∧ ∀ item ∈ held, item.is_field = true) ∧
    r.mngdev_table = mngdev_table ∧ failing_step = some r.ret

/-- The steps up to `modac_rm_init` succeed and that one fails. -/
def RmInitFails (mngdev_first_minor minor : Int) (mngdev_table_size : Nat) (o : create_steps) :
    Prop :=
  let imngdev := (minor - mngdev_first_minor).tdiv MINOR_MULTIPLICATOR
  (0 ≤ imngdev ∧ imngdev < mngdev_table_size) ∧ o.kmalloc_mngdev = true ∧
  (hw_support_evr_init o).2 = 0 ∧
  (MODAC_RES_TYPE_MAX_COUNT < o.hw_res_def_count ∨ o.kmalloc_res_data = false ∨
    o.kmalloc_res_states = false)

section

variable {o : create_steps}

def started : Finset mngdev_item := {.mngdev_data, .field .hw_support_data_mngdev_des}

/-- What is held after `hw_support_evr_init`, after `modac_rm_init`, and before
`device_create`. -/
def hw_held (io_start : Bool) : Finset mngdev_item :=
  started ∪ {.hw_res_defs, .field .hw_support_data_hw_res_defs, .evr_hw_data,
    .field .hw_support_data_priv} ∪ if io_start then ∅ else {.sim}

def rm_held (io_start : Bool) : Finset mngdev_item :=
  hw_held io_start ∪ {.res_data, .field .rm_data_priv, .res_states}

theorem account_start :
    account ∅ (.acquire .mngdev_data :: assign .hw_support_data_mngdev_des) = some started := by
  decide

/-- A failing `hw_support_evr_init` leaves nothing but fields. -/
theorem hw_support_evr_init_failed (hret : (hw_support_evr_init o).2 ≠ 0) :
    ∃ held, account started (hw_support_evr_init o).1 = some held ∧ .mngdev_data ∈ held ∧
      ∀ item ∈ held.erase .mngdev_data, item.is_field = true := by
  unfold hw_support_evr_init at hret ⊢
  split_ifs at hret ⊢ with hdefs hdata hsim hkzalloc htype
  · exact ⟨started ∪ {.field .hw_support_data_hw_res_defs}, by decide, by decide, by decide⟩
  · exact ⟨started ∪ {.field .hw_support_data_hw_res_defs},
      by cases o.io_start with | false => decide | true => decide, by decide, by decide⟩
  · rw [hsim]
    exact ⟨started ∪ {.field .hw_support_data_hw_res_defs, .field .hw_support_data_priv},
      by decide, by decide, by decide⟩
  · exact absurd rfl hret
  · rw [Bool.not_eq_false] at hsim
    rw [hsim]
    exact ⟨started ∪ {.field .hw_support_data_hw_res_defs, .field .hw_support_data_priv},
      by decide, by decide, by decide⟩
  · exact absurd rfl hret

theorem hw_support_evr_init_ok (hret : (hw_support_evr_init o).2 = 0) :
    account started (hw_support_evr_init o).1 = some (hw_held o.io_start) := by
  unfold hw_support_evr_init at hret ⊢
  split_ifs at hret ⊢ with hdefs hdata hsim hkzalloc htype
  · cases hret
  · cases hret
  · cases hret
  · rw [hsim]
    decide
  · cases hret
  · rw [Bool.not_eq_false] at hsim
    rw [hsim]
    decide

theorem modac_rm_init_ok (hret : (modac_rm_init o).2 = 0) :
    account (hw_held o.io_start) (modac_rm_init o).1 = some (rm_held o.io_start) := by
  unfold modac_rm_init at hret ⊢
  split_ifs at hret ⊢
  · cases hret
  · cases hret
  · cases hret
  · cases o.io_start with
    | false => decide
    | true => decide

theorem modac_rm_init_eq_zero : (modac_rm_init o).2 = 0 ↔
    ¬ (MODAC_RES_TYPE_MAX_COUNT < o.hw_res_def_count ∨ o.kmalloc_res_data = false ∨
      o.kmalloc_res_states = false) := by
  unfold modac_rm_init
  split_ifs with hcount hdata hstates
  · simp [hcount, ENXIO]
  · simp [hdata, ENOMEM]
  · simp [hstates, ENOMEM]
  · simp [hcount, hdata, hstates]

/-- Where `modac_rm_init` fails, the support code is called through a field without a value. -/
theorem account_rm_failed (hret : (modac_rm_init o).2 ≠ 0) :
    account (hw_held o.io_start) ((modac_rm_init o).1 ++ cleanup o.io_start .CLEAN_HW) = none := by
  unfold modac_rm_init at hret ⊢
  split_ifs at hret ⊢
  · cases o.io_start with
    | false => decide
    | true => decide
  · cases o.io_start with
    | false => decide
    | true => decide
  · cases o.io_start with
    | false => decide
    | true => decide
  · exact absurd rfl hret

/-- What is left at the end: the fields that had a value. -/
def fields : Finset mngdev_item :=
  {.field .hw_support_data_mngdev_des, .field .hw_support_data_hw_res_defs,
    .field .hw_support_data_priv, .field .rm_data_priv, .field .devt, .field .des}

theorem account_device_failed :
    account (rm_held o.io_start) (assign .devt ++ assign .des ++ cleanup o.io_start .CLEAN_RM) =
      some fields := by
  cases o.io_start with
  | false => decide
  | true => decide

theorem account_slot_occupied :
    account (rm_held o.io_start) (assign .devt ++ assign .des ++ [.acquire .device] ++
      cleanup o.io_start .CLEAN_DEV) = some fields := by
  cases o.io_start with
  | false => decide
  | true => decide

end

/-- `modac_mngdev_create` fails cleanly unless it is `modac_rm_init` that fails. -/
theorem create_fails_cleanly_iff (mngdev_first_minor minor : Int) (mngdev_table_size : Nat)
    (mngdev_table : Nat → Bool) (o : create_steps) :
    CleanFailure mngdev_table
      (failing_step mngdev_first_minor minor mngdev_table_size mngdev_table o)
      (modac_mngdev_create mngdev_first_minor minor mngdev_table_size mngdev_table o) ↔
    ¬ RmInitFails mngdev_first_minor minor mngdev_table_size o := by
  unfold CleanFailure modac_mngdev_create RmInitFails failing_step
  dsimp only
  by_cases hindex : (minor - mngdev_first_minor).tdiv MINOR_MULTIPLICATOR < 0 ∨
      (mngdev_table_size : Int) ≤ (minor - mngdev_first_minor).tdiv MINOR_MULTIPLICATOR
  · rw [if_pos hindex, if_pos hindex]
    constructor
    · rintro - ⟨⟨hge, hlt⟩, -⟩
      omega
    · exact fun _ _ => ⟨⟨∅, rfl, by decide⟩, rfl, rfl⟩
  rw [if_neg hindex, if_neg hindex]
  cases hkmalloc : o.kmalloc_mngdev with
  | false =>
    constructor
    · rintro - ⟨-, hkmalloc_true, -⟩
      cases hkmalloc_true
    · exact fun _ _ => ⟨⟨∅, rfl, by decide⟩, rfl, rfl⟩
  | true =>
    rw [if_neg (by decide)]
    have hstart := account_start
    by_cases hhw : (hw_support_evr_init o).2 = 0
    · have hhw_ok := hw_support_evr_init_ok hhw
      rw [if_neg (not_not_intro hhw)]
      by_cases hrm : (modac_rm_init o).2 = 0
      · have hrm_ok := modac_rm_init_ok hrm
        rw [if_neg (not_not_intro hrm)]
        have hnot := modac_rm_init_eq_zero.mp hrm
        refine iff_of_true ?_ fun h => hnot h.2.2.2
        have hdes : account ∅ (.acquire .mngdev_data :: assign .hw_support_data_mngdev_des ++
            (hw_support_evr_init o).1 ++ (modac_rm_init o).1) = some (rm_held o.io_start) := by
          rw [account_append_of_some (account_append_of_some hstart ▸ hhw_ok), hrm_ok]
        cases hdevice : o.device_create with
        | error err =>
          refine fun _ => ⟨⟨fields, ?_, by decide⟩, rfl, by simp [step_error, hhw, hrm]⟩
          rw [List.append_assoc, List.append_assoc, account_append_of_some hdes,
            ← List.append_assoc]
          exact account_device_failed
        | ok _ =>
          dsimp only
          by_cases hslot : mngdev_table
              ((minor - mngdev_first_minor).tdiv MINOR_MULTIPLICATOR).toNat = true
          · rw [if_pos hslot, if_pos hslot]
            refine fun _ => ⟨⟨fields, ?_, by decide⟩, rfl, by simp [step_error, hhw, hrm]⟩
            rw [List.append_assoc, List.append_assoc, List.append_assoc,
              account_append_of_some hdes, ← List.append_assoc, ← List.append_assoc]
            exact account_slot_occupied
          · rw [if_neg hslot]
            exact fun hret => absurd rfl hret
      · rw [if_pos hrm]
        have hfails := not_not.mp (mt modac_rm_init_eq_zero.mpr hrm)
        refine iff_of_false (fun hclean => ?_) (not_not_intro ⟨by omega, rfl, hhw, hfails⟩)
        obtain ⟨⟨held, hheld, -⟩, -⟩ := hclean hrm
        rw [List.append_assoc, account_append_of_some (account_append_of_some hstart ▸ hhw_ok),
          account_rm_failed hrm] at hheld
        cases hheld
    · rw [if_pos hhw]
      obtain ⟨held, hheld, hmngdev, hfields⟩ := hw_support_evr_init_failed hhw
      refine iff_of_true (fun _ => ⟨⟨held.erase .mngdev_data, ?_, hfields⟩, rfl, ?_⟩)
        fun h => hhw h.2.2.1
      · rw [account_append_of_some (account_append_of_some hstart ▸ hheld)]
        exact account_release hmngdev
      · simp [step_error, hhw]

/-- An EVR that is there, without memory for the resource manager. -/
def no_memory_for_rm : create_steps where
  kmalloc_mngdev := true
  io_start := true
  evr_type_docd := 0
  fw_version := 0x1f000000
  hw_res_def_count := EVR_RES_TYPE_COUNT
  kmalloc_hw_res_defs := true
  kzalloc_hw_data := true
  kzalloc_sim := true
  kmalloc_res_data := false
  kmalloc_res_states := true
  device_create := .ok ()

theorem rm_init_fails_unclean :
    ¬ CleanFailure (fun _ => false) (failing_step 0 0 8 (fun _ => false) no_memory_for_rm)
      (modac_mngdev_create 0 0 8 (fun _ => false) no_memory_for_rm) := by
  intro hclean
  obtain ⟨⟨held, hheld, -⟩, -⟩ := hclean (by decide)
  have hnone : account ∅ (modac_mngdev_create 0 0 8 (fun _ => false) no_memory_for_rm).actions =
    none := by decide +kernel
  rw [hnone] at hheld
  cases hheld

end evrma.unwind
