import Evrma.Evr.Outset

namespace evrma.evr

open evrma.ioctl

variable {P : Type}

/-- `EVR_OUT_TYPE_...` -/
inductive evr_out_type where
  | FP_TTL
  | FP_UNIV
  | TB_OUTPUT
deriving DecidableEq

def evr_out_types : List evr_out_type := [.FP_TTL, .FP_UNIV, .TB_OUTPUT]

/-- The switch of the loop in `hw_support_evr_init`: `cnt` and `evr_map_reg_start`. -/
def out_type_data (t : evr_type_data) : evr_out_type → Nat × Nat
  | .FP_TTL => (t.output_count, EVR_REG_FIRST_OUTPUT_FP_TTL)
  | .FP_UNIV => (t.univ_io, EVR_REG_FIRST_OUTPUT_FP_UNIV)
  | .TB_OUTPUT => (t.tb_outputs, EVR_REG_FIRST_OUTPUT_TB)

/-- The loop over the kinds, which leaves the configurations and the `out_res_count`. -/
def init_out_cfg (t : evr_type_data) :
    List evr_out_type → (current_res_inx : Nat) → List evr_hw_data_out_cfg × Nat
  | [], current_res_inx => ([], current_res_inx)
  | otype :: otypes, current_res_inx =>
    let (cnt, evr_map_reg_start) := out_type_data t otype
    let (cfgs, out_res_count) := init_out_cfg t otypes (current_res_inx + cnt)
    (⟨current_res_inx, cnt, evr_map_reg_start⟩ :: cfgs, out_res_count)

/-- `&hw_data->out_cfg[otype]` -/
def out_cfg_of (t : evr_type_data) : evr_out_type → evr_hw_data_out_cfg
  | .FP_TTL => ⟨0, t.output_count, EVR_REG_FIRST_OUTPUT_FP_TTL⟩
  | .FP_UNIV => ⟨t.output_count, t.univ_io, EVR_REG_FIRST_OUTPUT_FP_UNIV⟩
  | .TB_OUTPUT => ⟨t.output_count + t.univ_io, t.tb_outputs, EVR_REG_FIRST_OUTPUT_TB⟩

theorem out_cfg_eq (t : evr_type_data) : t.out_cfg = evr_out_types.map (out_cfg_of t) := rfl

theorem init_out_cfg_eq (t : evr_type_data) :
    init_out_cfg t evr_out_types 0 = (t.out_cfg, t.out_res_count) := by
  simp only [init_out_cfg, evr_out_types, out_type_data, evr_type_data.out_cfg,
    evr_type_data.out_res_count, Nat.zero_add]

/-- What `scnprintf` leaves in a buffer of a size, behind what is there. -/
def scnprintf (buf : List Char) (count : Nat) (text : String) : List Char :=
  buf ++ text.toList.take (count - buf.length - 1)

/-- The chained comparison of `hw_support_evr_dbg_res`. -/
def dbg_out_type (t : evr_type_data) (res_index : Int) : evr_out_type × Int :=
  let ttl := out_cfg_of t .FP_TTL
  let univ := out_cfg_of t .FP_UNIV
  let tb := out_cfg_of t .TB_OUTPUT
  if res_index < ttl.res_start + ttl.res_count then (.FP_TTL, res_index - ttl.res_start)
  else if res_index < univ.res_start + univ.res_count then (.FP_UNIV, res_index - univ.res_start)
  else (.TB_OUTPUT, res_index - tb.res_start)

def evr_out_type.dbg_name : evr_out_type → String
  | .FP_TTL => "FP_TTL"
  | .FP_UNIV => "FP_UNIV"
  | .TB_OUTPUT => "TB"

/-- `"OUT[%d]=%s[%d]"` -/
def out_text (res_index : Int) (otype : evr_out_type) (rel_index : Int) : String :=
  "OUT[" ++ toString res_index ++ "]=" ++ otype.dbg_name ++ "[" ++ toString rel_index ++ "]"

/-- `",MAP=%d"` -/
def out_map_text (out_map : Int) : String := ",MAP=" ++ toString out_map

/-- `"abs:%d,bits:presc=%d;delay=%d;width=%d"` -/
def pulsegen_text (res_index : Int) (info : evr_pulsegen_bit_info) : String :=
  "abs:" ++ toString res_index ++ ",bits:presc=" ++ toString info.prescaler_bits ++
    ";delay=" ++ toString info.delay_bits ++ ";width=" ++ toString info.width_bits

/-- The text about one resource. -/
def hw_support_evr_dbg_res (hw : evr_hw_data P) (count : Nat) (res_type res_index : Int) :
    evr_hw_data P × List Char :=
  let t := hw.evr_type_data
  if res_type = EVR_RES_TYPE_PULSEGEN then
    if h : res_index < 0 ∨ t.pulsegen_count ≤ res_index then (hw, scnprintf [] count "invalid")
    else
      have hlt : res_index.toNat < EVR_MAX_PULSEGEN_COUNT := by
        have hle := t.pulsegen_count_le
        omega
      (hw, scnprintf [] count (pulsegen_text res_index t.pulsegen_data[res_index.toNat]))
  else if res_type = EVR_RES_TYPE_OUTPUT then
    if res_index < 0 ∨ t.out_res_count ≤ res_index then (hw, scnprintf [] count "invalid")
    else
      let (otype, rel_index) := dbg_out_type t res_index
      let buf := scnprintf [] count (out_text res_index otype rel_index)
      let (hw, out_map) := internal_evr_get_out_map hw res_index
      if 0 ≤ out_map then (hw, scnprintf buf count (out_map_text out_map)) else (hw, buf)
  else (hw, [])

/-- The place of an output: the kind it is of, and its index among those. -/
structure is_place (t : evr_type_data) (i : Nat) (p : evr_out_type × Nat) : Prop where
  lt : p.2 < (out_cfg_of t p.1).res_count
  eq : i = (out_cfg_of t p.1).res_start + p.2

section

variable {t : evr_type_data} {i : Nat} {p q : evr_out_type × Nat}

theorem exists_place (hi : i < t.out_res_count) : ∃ p, is_place t i p := by
  simp only [evr_type_data.out_res_count] at hi
  by_cases h1 : i < t.output_count
  · exact ⟨(.FP_TTL, i), h1, (Nat.zero_add i).symm⟩
  · by_cases h2 : i < t.output_count + t.univ_io
    · refine ⟨(.FP_UNIV, i - t.output_count), ?_, ?_⟩
      · simp only [out_cfg_of]
        omega
      · simp only [out_cfg_of]
        omega
    · refine ⟨(.TB_OUTPUT, i - (t.output_count + t.univ_io)), ?_, ?_⟩
      · simp only [out_cfg_of]
        omega
      · simp only [out_cfg_of]
        omega

theorem is_place.unique (hp : is_place t i p) (hq : is_place t i q) : p = q := by
  obtain ⟨otype, rel⟩ := p
  obtain ⟨otype', rel'⟩ := q
  obtain ⟨hlt, heq⟩ := hp
  obtain ⟨hlt', heq'⟩ := hq
  cases otype <;> cases otype' <;> simp only [out_cfg_of] at hlt heq hlt' heq' <;>
    first
    | omega
    | (congr 1; omega)

theorem is_place.lt_count (hp : is_place t i p) : i < t.out_res_count := by
  obtain ⟨otype, rel⟩ := p
  obtain ⟨hlt, heq⟩ := hp
  cases otype <;> simp only [out_cfg_of, evr_type_data.out_res_count] at hlt heq ⊢ <;> omega

theorem rel_index_eq (res_start rel : Nat) : ((res_start + rel : Nat) : Int) - res_start = rel := by
  omega

/-- An index in the first range is found there. -/
theorem find_out_cfg_of_lt {cfg : evr_hw_data_out_cfg} (cfgs : List evr_hw_data_out_cfg) {rel : Nat}
    (hlt : rel < cfg.res_count) :
    find_out_cfg (cfg :: cfgs) (cfg.res_start + rel : Nat) = some (cfg, rel) := by
  rw [find_out_cfg, if_pos (by omega), rel_index_eq, Int.toNat_natCast]

/-- An index behind the first range is looked for in the others. -/
theorem find_out_cfg_of_ge {cfg : evr_hw_data_out_cfg} (cfgs : List evr_hw_data_out_cfg) {i : Nat}
    (hle : cfg.res_start + cfg.res_count ≤ i) :
    find_out_cfg (cfg :: cfgs) i = find_out_cfg cfgs i := by
  rw [find_out_cfg, if_neg (by omega)]

/-- The search over the ranges finds the place. -/
theorem is_place.find_out_cfg (hp : is_place t i p) :
    find_out_cfg t.out_cfg i = some (out_cfg_of t p.1, p.2) := by
  obtain ⟨otype, rel⟩ := p
  obtain ⟨hlt, rfl⟩ := hp
  rw [out_cfg_eq]
  simp only [evr_out_types, List.map_cons, List.map_nil]
  cases otype with
  | FP_TTL => exact find_out_cfg_of_lt _ hlt
  | FP_UNIV =>
    rw [find_out_cfg_of_ge]
    · exact find_out_cfg_of_lt _ hlt
    · simp only [out_cfg_of]
      omega
  | TB_OUTPUT =>
    rw [find_out_cfg_of_ge, find_out_cfg_of_ge]
    · exact find_out_cfg_of_lt _ hlt
    · simp only [out_cfg_of]
      omega
    · simp only [out_cfg_of]
      omega

/-- So does the chained comparison. -/
theorem is_place.dbg_out_type (hp : is_place t i p) : dbg_out_type t i = (p.1, (p.2 : Int)) := by
  obtain ⟨otype, rel⟩ := p
  obtain ⟨hlt, rfl⟩ := hp
  have hend (kind : evr_out_type) : ((out_cfg_of t kind).res_start : Int) +
      (out_cfg_of t kind).res_count = ((out_cfg_of t kind).res_start +
        (out_cfg_of t kind).res_count : Nat) := (Int.natCast_add _ _).symm
  simp only [evr.dbg_out_type, hend, Int.ofNat_lt]
  cases otype with
  | FP_TTL =>
    rw [if_pos (Nat.add_lt_add_left hlt _), rel_index_eq]
  | FP_UNIV =>
    have hnot : ¬ (out_cfg_of t .FP_UNIV).res_start + rel <
        (out_cfg_of t .FP_TTL).res_start + (out_cfg_of t .FP_TTL).res_count := by
      simp only [out_cfg_of]
      omega
    rw [if_neg hnot, if_pos (Nat.add_lt_add_left hlt _), rel_index_eq]
  | TB_OUTPUT =>
    have hnot_ttl : ¬ (out_cfg_of t .TB_OUTPUT).res_start + rel <
        (out_cfg_of t .FP_TTL).res_start + (out_cfg_of t .FP_TTL).res_count := by
      simp only [out_cfg_of]
      omega
    have hnot_univ : ¬ (out_cfg_of t .TB_OUTPUT).res_start + rel <
        (out_cfg_of t .FP_UNIV).res_start + (out_cfg_of t .FP_UNIV).res_count := by
      simp only [out_cfg_of]
      omega
    rw [if_neg hnot_ttl, if_neg hnot_univ, rel_index_eq]

end

/-- The register of an output is the one at its place. -/
theorem is_place.output_reg {t : evr_type_data} {i : Nat} {p : evr_out_type × Nat}
    (hp : is_place t i p) :
    output_reg t i =
      some ((out_cfg_of t p.1).evr_map_reg_start + p.2 * EVR_REG_OUTPUT_SLOT_SIZE) := by
  have hi := hp.lt_count
  rw [evr.output_reg, if_neg (by omega), hp.find_out_cfg, Option.map_some]

/-- The registers of a kind of outputs, as the inner loop goes over them. -/
theorem output_regs_of_type (t : evr_type_data) (otype : evr_out_type) :
    ((List.range (out_cfg_of t otype).res_count).map fun i =>
        (out_cfg_of t otype).evr_map_reg_start + i * EVR_REG_OUTPUT_SLOT_SIZE).map some =
      (List.range' (out_cfg_of t otype).res_start (out_cfg_of t otype).res_count).map
        fun i : Nat => output_reg t i := by
  rw [List.range'_eq_map_range, List.map_map, List.map_map]
  apply List.map_congr_left
  intro rel hrel
  exact (@is_place.output_reg t _ (otype, rel) ⟨List.mem_range.mp hrel, rfl⟩).symm

/-- The two nested loops go over the registers in the order of the outputs. -/
theorem output_regs_eq (t : evr_type_data) :
    t.output_regs.map some = (List.range t.out_res_count).map fun i : Nat => output_reg t i := by
  have hrange : List.range t.out_res_count =
      evr_out_types.flatMap fun otype =>
        List.range' (out_cfg_of t otype).res_start (out_cfg_of t otype).res_count := by
    simp only [evr_out_types, List.flatMap_cons, List.flatMap_nil, List.append_nil, out_cfg_of]
    have hunivs := @List.range'_append_1 0 t.output_count t.univ_io
    have htbs := @List.range'_append_1 0 (t.output_count + t.univ_io) t.tb_outputs
    rw [Nat.zero_add] at hunivs htbs
    rw [← List.append_assoc, hunivs, htbs, ← List.range_eq_range']
    rfl
  rw [hrange, evr_type_data.output_regs, out_cfg_eq, List.flatMap_map, List.map_flatMap,
    List.map_flatMap]
  congr 1
  funext otype
  exact output_regs_of_type t otype

/-- The mapping registers are written one by one, each of them once. -/
theorem output_regs_nodup (t : evr_type_data) : t.output_regs.Nodup := by
  have hnodup : (t.output_regs.map some).Nodup := by
    rw [output_regs_eq]
    refine List.Nodup.map_on ?_ List.nodup_range
    intro i hi j hj heq
    exact output_reg_inj t (List.mem_range.mp hi) (List.mem_range.mp hj) heq
  exact hnodup.of_map some

theorem mem_output_regs {t : evr_type_data} {reg : Nat} :
    reg ∈ t.output_regs ↔ ∃ i < t.out_res_count, output_reg t i = some reg := by
  have hmem : reg ∈ t.output_regs ↔ some reg ∈ t.output_regs.map some := by simp
  rw [hmem, output_regs_eq, List.mem_map]
  simp only [List.mem_range]

/-- The writes to mapping registers among the accesses to the device. -/
def writes16 (log : List io_access) : List (Nat × BitVec 16) :=
  log.filterMap fun
    | .write16 reg val => some (reg, val)
    | _ => none

theorem writes16_append (log log' : List io_access) :
    writes16 (log ++ log') = writes16 log ++ writes16 log' :=
  List.filterMap_append

theorem writes16_set_pulse_params (io : io_state) (start : Nat) (params : pulse_params) :
    writes16 (set_pulse_params io start params).log = writes16 io.log := by
  simp [set_pulse_params, writes16]

theorem writes16_idle_pulsegens (io : io_state) (indexes : List Nat) :
    writes16 (indexes.foldl idle_pulsegen io).log = writes16 io.log := by
  induction indexes generalizing io with
  | nil => rfl
  | cons index indexes ih =>
    rw [List.foldl_cons, ih, idle_pulsegen, evr_write32_log, writes16_append,
      writes16_set_pulse_params]
    exact List.append_nil _

theorem writes16_write_all (io : io_state) (writes : List (Nat × BitVec 32)) :
    writes16 (write_all io writes).log = writes16 io.log := by
  rw [write_all_log, writes16_append]
  have hnone : writes16 (writes.map fun w => io_access.write32 w.1 w.2) = [] := by
    simp [writes16]
  rw [hnone, List.append_nil]

theorem writes16_flush (hw : evr_hw_data P) :
    writes16 (evr_ram_map_change_flush hw).io.log = writes16 hw.io.log := by
  simp only [evr_ram_map_change_flush, evr_write32_log, writes16_append, save_map_ram,
    writes16_write_all, evr_read32_log]
  simp [writes16]

theorem writes16_output_enable (hw : evr_hw_data P) (state : Bool) :
    writes16 (evr_output_enable hw state).io.log = writes16 hw.io.log := by
  simp [evr_output_enable, writes16]

/-- The loop of writes to the mapping registers. -/
theorem writes16_force_low (io : io_state) (regs : List Nat) :
    writes16 (regs.foldl (fun io reg => evr_write16 io reg OUTPUT_REG_MAPPING_FORCE_LOW) io).log =
      writes16 io.log ++ regs.map fun reg => (reg, OUTPUT_REG_MAPPING_FORCE_LOW) := by
  induction regs generalizing io with
  | nil => exact (List.append_nil _).symm
  | cons reg regs ih =>
    rw [List.foldl_cons, ih, evr_write16_log, writes16_append, List.append_assoc]
    rfl

/-- `MNG_DEV_EVR_IOC_INIT` writes the mapping registers in the order of the loops, and no other
register of 16 bits. -/
theorem writes16_init (hw : evr_hw_data P) :
    writes16 (evr_init hw).1.io.log = writes16 hw.io.log ++
      hw.evr_type_data.output_regs.map fun reg => (reg, OUTPUT_REG_MAPPING_FORCE_LOW) := by
  rw [evr_init]
  rw [writes16_output_enable, evr_ram_map_init, writes16_flush, writes16_idle_pulsegens,
    writes16_force_low]

/-- What is read of an output after a source was set: the source, as far as it fits the register,
and of the others what was read before. -/
theorem get_out_map_of_set (hw : evr_hw_data P) (map : Int) {i j : Nat}
    (hi : i < hw.evr_type_data.out_res_count) (hj : j < hw.evr_type_data.out_res_count) :
    (internal_evr_get_out_map (evr_set_out_map hw i map).1 j).2 =
      if j = i then ((BitVec.ofInt 16 map).toNat : Int) else (internal_evr_get_out_map hw j).2 := by
  obtain ⟨p, hp⟩ := exists_place hi
  obtain ⟨q, hq⟩ := exists_place hj
  simp only [evr_set_out_map, hp.output_reg, internal_evr_get_out_map, hq.output_reg, evr_read16,
    evr_write16_reg16]
  rcases eq_or_ne j i with rfl | hne
  · rw [hq.unique hp, Function.update_self, if_pos rfl]
  · have hreg :
        (out_cfg_of hw.evr_type_data q.1).evr_map_reg_start + q.2 * EVR_REG_OUTPUT_SLOT_SIZE ≠
          (out_cfg_of hw.evr_type_data p.1).evr_map_reg_start + p.2 * EVR_REG_OUTPUT_SLOT_SIZE := by
      intro heq
      apply hne
      apply output_reg_inj hw.evr_type_data hj hi
      rw [hq.output_reg, hp.output_reg, heq]
    rw [Function.update_of_ne hreg, if_neg hne]

/-- What is printed of an output is its place and its source. -/
theorem is_place.dbg_res {hw : evr_hw_data P} {i : Nat} {p : evr_out_type × Nat}
    (hp : is_place hw.evr_type_data i p) (count : Nat) :
    (hw_support_evr_dbg_res hw count EVR_RES_TYPE_OUTPUT i).2 =
      scnprintf (scnprintf [] count (out_text i p.1 p.2)) count
        (out_map_text (internal_evr_get_out_map hw i).2) := by
  have hlt := hp.lt_count
  have htype : ¬ EVR_RES_TYPE_OUTPUT = EVR_RES_TYPE_PULSEGEN := by decide
  have hmap : 0 ≤ (internal_evr_get_out_map hw i).2 := by
    simp only [internal_evr_get_out_map, hp.output_reg]
    exact Int.natCast_nonneg _
  rw [hw_support_evr_dbg_res]
  simp only [if_neg htype, if_pos, hp.dbg_out_type]
  rw [if_neg (by omega), if_pos hmap]

/-- What the users of the layout agree on: where an output is, which register it has, and what is
printed of it; and that the initialization writes its register once. -/
structure OutLayout (hw : evr_hw_data P) : Prop where
  built : init_out_cfg hw.evr_type_data evr_out_types 0 =
    (hw.evr_type_data.out_cfg, hw.evr_type_data.out_res_count)
  found : ∀ i < hw.evr_type_data.out_res_count, ∃! p, is_place hw.evr_type_data i p ∧
    find_out_cfg hw.evr_type_data.out_cfg i = some (out_cfg_of hw.evr_type_data p.1, p.2)
  registers : ∀ i < hw.evr_type_data.out_res_count, ∀ j < hw.evr_type_data.out_res_count,
    i ≠ j → ∃ reg reg', output_reg hw.evr_type_data i = some reg ∧
      output_reg hw.evr_type_data j = some reg' ∧ reg ≠ reg'
  set_get : ∀ i < hw.evr_type_data.out_res_count, ∀ map : Int,
    (evr_set_out_map hw i map).2 = 0 ∧
      (internal_evr_get_out_map (evr_set_out_map hw i map).1 i).2 = (BitVec.ofInt 16 map).toNat
  set_get_other : ∀ i < hw.evr_type_data.out_res_count, ∀ j < hw.evr_type_data.out_res_count,
    j ≠ i → ∀ map : Int, (internal_evr_get_out_map (evr_set_out_map hw i map).1 j).2 =
      (internal_evr_get_out_map hw j).2
  init : ∀ (resources : hw_resources) (arg : evr_ioctl_arg), ∃ writes,
    writes16 (hw_support_evr_ioctl hw resources MNG_DEV_EVR_IOC_INIT arg).1.io.log =
        writes16 hw.io.log ++ writes ∧
      (∀ i < hw.evr_type_data.out_res_count, ∀ reg, output_reg hw.evr_type_data i = some reg →
        (writes.map Prod.fst).count reg = 1) ∧
      ∀ w ∈ writes, w.2 = OUTPUT_REG_MAPPING_FORCE_LOW ∧
        ∃ i < hw.evr_type_data.out_res_count, output_reg hw.evr_type_data i = some w.1
  printed : ∀ i < hw.evr_type_data.out_res_count, ∀ otype rel_index,
    find_out_cfg hw.evr_type_data.out_cfg i =
        some (out_cfg_of hw.evr_type_data otype, rel_index) →
      ∀ count, (hw_support_evr_dbg_res hw count EVR_RES_TYPE_OUTPUT i).2 =
        scnprintf (scnprintf [] count (out_text i otype rel_index)) count
          (out_map_text (internal_evr_get_out_map hw i).2)

/-- Different kinds have different first registers, so that a configuration tells its kind. -/
theorem out_cfg_of_inj (t : evr_type_data) {otype otype' : evr_out_type}
    (h : out_cfg_of t otype = out_cfg_of t otype') : otype = otype' := by
  have hstart := congrArg evr_hw_data_out_cfg.evr_map_reg_start h
  have hne : EVR_REG_FIRST_OUTPUT_FP_TTL ≠ EVR_REG_FIRST_OUTPUT_FP_UNIV ∧
      EVR_REG_FIRST_OUTPUT_FP_TTL ≠ EVR_REG_FIRST_OUTPUT_TB ∧
      EVR_REG_FIRST_OUTPUT_FP_UNIV ≠ EVR_REG_FIRST_OUTPUT_TB := by decide
  obtain ⟨h1, h2, h3⟩ := hne
  cases otype <;> cases otype' <;>
    first
    | rfl
    | exact absurd hstart ‹_›
    | exact absurd hstart.symm ‹_›

theorem out_layout (hw : evr_hw_data P) : OutLayout hw where
  built := init_out_cfg_eq hw.evr_type_data
  found i hi := by
    obtain ⟨p, hp⟩ := exists_place hi
    exact ⟨p, ⟨hp, hp.find_out_cfg⟩, fun q hq => hq.1.unique hp⟩
  registers i hi j hj hne := by
    obtain ⟨p, hp⟩ := exists_place hi
    obtain ⟨q, hq⟩ := exists_place hj
    refine ⟨_, _, hp.output_reg, hq.output_reg, ?_⟩
    intro heq
    apply hne
    apply output_reg_inj hw.evr_type_data hi hj
    rw [hp.output_reg, hq.output_reg, heq]
  set_get i hi map := by
    obtain ⟨p, hp⟩ := exists_place hi
    refine ⟨?_, ?_⟩
    · rw [evr_set_out_map, hp.output_reg]
    · rw [get_out_map_of_set hw map hi hi, if_pos rfl]
  set_get_other i hi j hj hne map := by
    rw [get_out_map_of_set hw map hi hj, if_neg hne]
  init resources arg := by
    have hfst : (hw.evr_type_data.output_regs.map fun reg =>
        (reg, OUTPUT_REG_MAPPING_FORCE_LOW)).map Prod.fst = hw.evr_type_data.output_regs := by
      rw [List.map_map]
      exact List.map_id _
    rw [ioctl_init]
    refine ⟨_, writes16_init hw, ?_, ?_⟩
    · intro i hi reg hreg
      rw [hfst]
      exact List.count_eq_one_of_mem (output_regs_nodup _) (mem_output_regs.mpr ⟨i, hi, hreg⟩)
    · intro w hw'
      obtain ⟨reg, hreg, rfl⟩ := List.mem_map.mp hw'
      exact ⟨rfl, mem_output_regs.mp hreg⟩
  printed i hi otype rel_index hfind count := by
    obtain ⟨⟨otype', rel⟩, hp⟩ := exists_place hi
    obtain ⟨hcfg, hrel⟩ := Prod.mk.inj (Option.some.inj (hp.find_out_cfg.symm.trans hfind))
    obtain rfl := out_cfg_of_inj _ hcfg
    obtain rfl : rel = rel_index := hrel
    exact hp.dbg_res count

end evrma.evr
