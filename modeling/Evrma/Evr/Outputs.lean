import Evrma.Evr.HwData

namespace evrma.evr

/-- The configuration whose range holds the output, and the index in it. -/
def find_out_cfg (cfgs : List evr_hw_data_out_cfg) (res_output_index : Int) :
    Option (evr_hw_data_out_cfg × Nat) :=
  match cfgs with
  | [] => none
  | cfg :: cfgs =>
    if cfg.res_start ≤ res_output_index ∧ res_output_index < cfg.res_start + cfg.res_count then
      some (cfg, (res_output_index - cfg.res_start).toNat)
    else find_out_cfg cfgs res_output_index

variable {P : Type}

/-- The mapping register of an output. -/
def output_reg (t : evr_type_data) (res_output_index : Int) : Option Nat :=
  if res_output_index < 0 ∨ t.out_res_count ≤ res_output_index then none
  else
    (find_out_cfg t.out_cfg res_output_index).map fun (cfg, rel_index) =>
      cfg.evr_map_reg_start + rel_index * EVR_REG_OUTPUT_SLOT_SIZE

/-- The value is cut to the width of the register. -/
def evr_set_out_map (hw : evr_hw_data P) (res_output_index map : Int) : evr_hw_data P × Int :=
  match output_reg hw.evr_type_data res_output_index with
  | none => (hw, -EINVAL)
  | some reg => ({ hw with io := evr_write16 hw.io reg (BitVec.ofInt 16 map) }, 0)

def internal_evr_get_out_map (hw : evr_hw_data P) (res_output_index : Int) :
    evr_hw_data P × Int :=
  match output_reg hw.evr_type_data res_output_index with
  | none => (hw, -EINVAL)
  | some reg =>
    let (map, io) := evr_read16 hw.io reg
    ({ hw with io }, map.toNat)

/-- Every output of the card has a mapping register: the outputs of a kind have
consecutive ones. -/
theorem output_reg_eq (t : evr_type_data) {i : Nat} (hi : i < t.out_res_count) :
    output_reg t i = some (
      if i < t.output_count then EVR_REG_FIRST_OUTPUT_FP_TTL + i * 2
      else if i < t.output_count + t.univ_io then
        EVR_REG_FIRST_OUTPUT_FP_UNIV + (i - t.output_count) * 2
      else EVR_REG_FIRST_OUTPUT_TB + (i - (t.output_count + t.univ_io)) * 2) := by
  simp only [evr_type_data.out_res_count] at hi
  have hin : ¬ ((i : Int) < 0 ∨ (t.out_res_count : Int) ≤ i) := by
    simp only [evr_type_data.out_res_count]
    omega
  rw [output_reg, if_neg hin]
  simp only [evr_type_data.out_cfg, find_out_cfg]
  by_cases h1 : i < t.output_count
  · rw [if_pos (by omega), if_pos h1]
    simp
  · by_cases h2 : i < t.output_count + t.univ_io
    · rw [if_neg (by omega), if_pos (by omega), if_neg h1, if_pos h2]
      simp only [Option.map_some, EVR_REG_OUTPUT_SLOT_SIZE, Option.some.injEq]
      omega
    · rw [if_neg (by omega), if_neg (by omega), if_pos (by omega), if_neg h1, if_neg h2]
      simp only [Option.map_some, EVR_REG_OUTPUT_SLOT_SIZE, Option.some.injEq]
      omega

/-- Two outputs have two registers. -/
theorem output_reg_inj (t : evr_type_data) {i j : Nat} (hi : i < t.out_res_count)
    (hj : j < t.out_res_count) (h : output_reg t i = output_reg t j) : i = j := by
  have h1 := t.output_count_le
  have h2 := t.univ_io_le
  rw [output_reg_eq t hi, output_reg_eq t hj, Option.some.injEq] at h
  simp only [EVR_REG_FIRST_OUTPUT_FP_TTL, EVR_REG_FIRST_OUTPUT_FP_UNIV,
    EVR_REG_FIRST_OUTPUT_TB] at h
  split_ifs at h <;> omega

end evrma.evr
