import Evrma.Evr.CopyOut
import Evrma.Evr.DirectIoctl
import Evrma.Evr.PulsegenAlloc

namespace evrma.evr

open evrma.event_list evrma.ioctl

abbrev EVRSIM_OUTPUT_COUNT : Nat := 10

/-- The data of a simulated card, where `io_start` is NULL and there are no registers. The lengths of the prescalers never change. A store beside
`output_src` is only counted in `stray`; what it overwrites is not followed. -/
structure evr_sim_data where
  sim : evr_sim
  output_src : Fin EVRSIM_OUTPUT_COUNT → Int
  stray : Nat

/-- What an ioctl may find behind its argument, and on the stack. -/
structure evr_sim_arg extends evr_ioctl_arg where
  params : pulse_params

def evr_sim_arg.stack (arg : evr_sim_arg) : get_locals := ⟨arg.locals, arg.params⟩

def pulsegen_prescaler_lengths : Vector Int EVRSIM_PULSEGEN_COUNT :=
  #v[16, 16, 32, 32, 8, 8, 8, 8, 0, 0, 0, 0, 0, 0, 0, 0]

theorem prescaler_filter_lt : 0 < MNG_DEV_IOCTL_RES_ARG_FILTER_MAX_COUNT := by decide

/-- Only the length of the prescaler counts. -/
def evr_sim_pulsegen_suits (index : Int)
    (arg_filters : Vector Int MNG_DEV_IOCTL_RES_ARG_FILTER_MAX_COUNT) : Int :=
  let prescaler_length := arg_filters.get ⟨0, prescaler_filter_lt⟩
  if index < 0 ∨ EVRSIM_PULSEGEN_COUNT ≤ index then 0
  else
    let length := pulsegen_prescaler_lengths.toList.getD index.toNat 0
    if length < prescaler_length then 0 else 32 + prescaler_length - length + 1

def default_res_defs : List modac_hw_res_def :=
  [ { name := PULSEGEN_NAME
      type := 0
      count := EVRSIM_PULSEGEN_COUNT
      suits := fun index => evr_sim_pulsegen_suits index },
    { name := OUTPUT_NAME
      type := 1
      count := EVRSIM_OUTPUT_COUNT
      suits := fun index => output_suits index } ]

/-- The data after `evr_sim_init`. -/
def evr_sim_init : evr_sim_data where
  sim := { pulsegen_params := fun _ => ⟨0, 0, 0⟩, irqflag_reads := 0 }
  output_src := fun _ => 0
  stray := 0

/-- Both ways to set the source of an output store a number, without a check of the index. -/
def set_output_src (hw : evr_sim_data) (index_output src : Int) : evr_sim_data × Int :=
  if h : 0 ≤ index_output ∧ index_output < EVRSIM_OUTPUT_COUNT then
    ({ hw with
      output_src := Function.update hw.output_src ⟨index_output.toNat, by omega⟩ src }, 0)
  else ({ hw with stray := hw.stray + 1 }, 0)

def evr_sim_set_output_to_pulsegen (hw : evr_sim_data) (index_output index_pulsegen : Int) :
    evr_sim_data × Int :=
  set_output_src hw index_output index_pulsegen

def evr_sim_set_output_to_misc_func (hw : evr_sim_data) (index_output misc_func : Int) :
    evr_sim_data × Int :=
  set_output_src hw index_output misc_func

theorem toNat_lt_pulsegen_count {index : Int} (h : 0 ≤ index ∧ index < EVRSIM_PULSEGEN_COUNT) :
    index.toNat < EVRSIM_PULSEGEN_COUNT := by
  omega

def evr_sim_set_pulsegen_param (hw : evr_sim_data) (index : Int) (params : pulse_params) :
    evr_sim_data × Int :=
  if h : 0 ≤ index ∧ index < EVRSIM_PULSEGEN_COUNT then
    ({ hw with
      sim := { hw.sim with
        pulsegen_params :=
          Function.update hw.sim.pulsegen_params ⟨index.toNat, toNat_lt_pulsegen_count h⟩
            params } }, 0)
  else (hw, -EINVAL)

def evr_sim_init_res (hw : evr_sim_data) (res_type res_index : Int) : evr_sim_data × Int :=
  if res_type = EVR_RES_TYPE_PULSEGEN then evr_sim_set_pulsegen_param hw res_index ⟨0, 0, 0⟩
  else if res_type = EVR_RES_TYPE_OUTPUT then (hw, 0)
  else (hw, -ENOSYS)

/-- The output is the first resource, the pulse generator the second one. -/
def evr_sim_outset (hw : evr_sim_data) (resources : hw_resources)
    (output_set : Option mngdev_evr_output_set) : evr_sim_data × Int :=
  let res_output := resources.1
  let res_pulsegen := resources.2
  if res_output.type ≠ EVR_RES_TYPE_OUTPUT then (hw, -EINVAL)
  else
    match output_set with
    | none => (hw, -EFAULT)
    | some set_args =>
      if res_pulsegen.type = EVR_RES_TYPE_PULSEGEN then
        if res_pulsegen.index < EVR_OUTPUT_SOURCE_PULSEGEN_FIRST ∨
            EVR_OUTPUT_SOURCE_PULSEGEN_FIRST + EVR_OUTPUT_SOURCE_PULSEGEN_COUNT ≤
              res_pulsegen.index then
          (hw, -EINVAL)
        else evr_sim_set_output_to_pulsegen hw res_output.index res_pulsegen.index
      else if res_pulsegen.type = MODAC_RES_TYPE_NONE then
        if EVR_OUTPUT_SOURCE_PULSEGEN_FIRST ≤ set_args.misc_func ∧
            set_args.misc_func <
              EVR_OUTPUT_SOURCE_PULSEGEN_FIRST + EVR_OUTPUT_SOURCE_PULSEGEN_COUNT then
          (hw, -EINVAL)
        else evr_sim_set_output_to_misc_func hw res_output.index set_args.misc_func
      else (hw, -EINVAL)

/-- The error of `evr_sim_set_pulsegen_param` is dropped. -/
def evr_sim_param_set (hw : evr_sim_data) (res_pulsegen : modac_rm_vres_desc)
    (pulse_param : Option vevr_ioctl_pulse_param) : evr_sim_data × Int :=
  if res_pulsegen.type ≠ EVR_RES_TYPE_PULSEGEN then (hw, -EINVAL)
  else
    match pulse_param with
    | none => (hw, -EFAULT)
    | some pulse_param_args =>
      ((evr_sim_set_pulsegen_param hw res_pulsegen.index pulse_param_args.params).1, 0)

/-- The commands of the pulse generators that a simulated card does not support. -/
def unsupported (cmd : ioctl_cmd) : Bool :=
  cmd = VEVR_IOC_PULSE_PROP_SET || cmd = VEVR_IOC_PULSE_PROP_GET ||
    cmd = VEVR_IOC_PULSE_MAP_RAM_SET || cmd = VEVR_IOC_PULSE_MAP_RAM_SET_FOR_EVENT ||
    cmd = VEVR_IOC_PULSE_MAP_RAM_GET || cmd = VEVR_IOC_PULSE_MAP_RAM_GET_FOR_EVENT

/-- The initialization only writes to registers and to a map RAM, and nothing is read from
these. -/
def evr_sim_ioctl (hw : evr_sim_data) (resources : hw_resources) (cmd : ioctl_cmd)
    (arg : evr_sim_arg) : evr_sim_data × Int × Option evr_ioctl_out :=
  if cmd = MNG_DEV_EVR_IOC_INIT then (hw, 0, none)
  else if cmd = MNG_DEV_EVR_IOC_OUTSET then
    let (hw, ret) := evr_sim_outset hw resources arg.output_set
    (hw, ret, none)
  else if cmd = VEVR_IOC_STATUS_GET ∨ cmd = VEVR_IOC_PULSE_PARAM_GET then
    let (sim, ret, out) := evr_sim_ioctl_get hw.sim resources cmd arg.copy_to_user arg.stack
    ({ hw with sim }, ret, out)
  else if cmd = VEVR_IOC_PULSE_PARAM_SET then
    let (hw, ret) := evr_sim_param_set hw resources.1 arg.pulse_param
    (hw, ret, none)
  else if unsupported cmd then
    if resources.1.type ≠ EVR_RES_TYPE_PULSEGEN then (hw, -EINVAL, none) else (hw, -ENOSYS, none)
  else (hw, -ENOSYS, none)

/-- The registers are read as 0, and so is the version of the firmware. -/
def evr_sim_direct_ioctl (hw : evr_sim_data) (cmd : ioctl_cmd) (arg : evr_sim_arg) :
    evr_sim_data × Int × Option evr_ioctl_out :=
  if cmd = VEVR_IOC_LATCHED_TIMESTAMP_GET ∨ cmd = VEVR_IOC_AXIXADC_TEMPERATURE_GET ∨
      cmd = VEVR_IOC_AXIXADC_MAXTEMPERATURE_GET then
    if arg.copy_to_user then (hw, 0, some (.word 0)) else (hw, -EFAULT, none)
  else (hw, -ENOSYS, none)

/-- The support code with a simulated card. What is written to `dbg` changes no data of the card;
the event that it stands for comes after it. -/
def hw_support_evr_sim (mmap_p_final_size : Nat) :
    modac_hw_support_def evr_sim_data evr_sim_arg evr_ioctl_out where
  on_subscribe_change hw _ := (hw, 0)
  init_res := evr_sim_init_res
  ioctl := some evr_sim_ioctl
  direct_ioctl := some evr_sim_direct_ioctl
  vdev_mmap_ro := some fun _ _ vsize => if mmap_p_final_size < vsize then -EINVAL else 0
  store_dbg := some fun hw => hw
  show_dbg := some fun hw => hw
  dbg_res := some fun hw _ _ => hw
  dbg_regs := some fun hw _ _ _ => hw
  dbg_info := some fun hw => hw

/-- The parameters of one pulse generator are the same. -/
def SimPulseKept (index : Nat) (hw hw' : evr_sim_data) : Prop :=
  ∀ i : Fin EVRSIM_PULSEGEN_COUNT, i.val = index →
    hw'.sim.pulsegen_params i = hw.sim.pulsegen_params i

theorem SimPulseKept.of_params {index : Nat} {hw hw' : evr_sim_data}
    (h : hw'.sim.pulsegen_params = hw.sim.pulsegen_params) : SimPulseKept index hw hw' :=
  fun _ _ => by rw [h]

/-- The parameters of another pulse generator are set. -/
theorem evr_sim_set_pulsegen_param_kept (hw : evr_sim_data) {index : Nat} {i : Int}
    (hne : i ≠ index) (params : pulse_params) :
    SimPulseKept index hw (evr_sim_set_pulsegen_param hw i params).1 := by
  intro k hk
  unfold evr_sim_set_pulsegen_param
  split_ifs with hrange
  · dsimp only
    rw [Function.update_of_ne]
    rintro rfl
    simp only at hk
    omega
  · rfl

/-- After a successful call the parameters are those that were given. -/
theorem evr_sim_get_set_pulsegen_param (hw : evr_sim_data) {index : Nat}
    (hindex : index < EVRSIM_PULSEGEN_COUNT) (params : pulse_params) :
    evr_sim_get_pulsegen_param (evr_sim_set_pulsegen_param hw index params).1.sim index =
      some params := by
  have hrange : (0 : Int) ≤ index ∧ (index : Int) < EVRSIM_PULSEGEN_COUNT := by omega
  rw [evr_sim_set_pulsegen_param, dif_pos hrange, evr_sim_get_pulsegen_param, dif_pos hrange]
  exact congrArg some (Function.update_self _ _ _)

theorem SimPulseKept.get {index : Nat} {hw hw' : evr_sim_data} (h : SimPulseKept index hw hw') :
    evr_sim_get_pulsegen_param hw'.sim index = evr_sim_get_pulsegen_param hw.sim index := by
  unfold evr_sim_get_pulsegen_param
  split_ifs with hrange
  · rw [h _ (Int.toNat_natCast index)]
  · rfl

theorem set_output_src_params (hw : evr_sim_data) (index_output src : Int) :
    (set_output_src hw index_output src).1.sim = hw.sim := by
  unfold set_output_src
  split_ifs
  · rfl
  · rfl

/-- The source of an output is set, or nothing is. -/
theorem evr_sim_outset_cases (hw : evr_sim_data) (resources : hw_resources)
    (output_set : Option mngdev_evr_output_set) :
    (evr_sim_outset hw resources output_set).1 = hw ∨
      resources.1.type = EVR_RES_TYPE_OUTPUT ∧
        ∃ src, (evr_sim_outset hw resources output_set).1 =
          (set_output_src hw resources.1.index src).1 := by
  unfold evr_sim_outset
  by_cases htype : resources.1.type = EVR_RES_TYPE_OUTPUT
  · rw [if_neg (not_not_intro htype)]
    cases output_set with
    | none => exact .inl rfl
    | some set_args =>
      dsimp only
      split_ifs
      · exact .inl rfl
      · exact .inr ⟨htype, _, rfl⟩
      · exact .inl rfl
      · exact .inr ⟨htype, _, rfl⟩
      · exact .inl rfl
  · rw [if_pos htype]
    exact .inl rfl

/-- The reading ioctls leave the parameters as they are. -/
theorem evr_sim_ioctl_get_params (sim : evr_sim) (resources : hw_resources) (cmd : ioctl_cmd)
    (copy_to_user : Bool) (stack : get_locals) :
    (evr_sim_ioctl_get sim resources cmd copy_to_user stack).1.pulsegen_params =
      sim.pulsegen_params := by
  unfold evr_sim_ioctl_get
  split_ifs
  · rfl
  · rfl
  · rfl
  · rfl
  · rfl
  · rfl

/-- What an ioctl of the hardware does to a simulated card. -/
inductive evr_sim_effect (hw : evr_sim_data) (resources : hw_resources) (cmd : ioctl_cmd) :
    evr_sim_data → Prop where
  | read (sim : evr_sim) (hparams : sim.pulsegen_params = hw.sim.pulsegen_params) :
      evr_sim_effect hw resources cmd { hw with sim }
  | outset (src : Int) (hcmd : cmd = MNG_DEV_EVR_IOC_OUTSET)
      (htype : resources.1.type = EVR_RES_TYPE_OUTPUT) :
      evr_sim_effect hw resources cmd (set_output_src hw resources.1.index src).1
  | param_set (params : pulse_params) (hcmd : cmd = VEVR_IOC_PULSE_PARAM_SET)
      (htype : resources.1.type = EVR_RES_TYPE_PULSEGEN) :
      evr_sim_effect hw resources cmd
        (evr_sim_set_pulsegen_param hw resources.1.index params).1

theorem evr_sim_effect_of (hw : evr_sim_data) (resources : hw_resources) (cmd : ioctl_cmd)
    (arg : evr_sim_arg) :
    evr_sim_effect hw resources cmd (evr_sim_ioctl hw resources cmd arg).1 := by
  have hnone : evr_sim_effect hw resources cmd hw := .read hw.sim rfl
  unfold evr_sim_ioctl
  split_ifs with hinit houtset hget hset hunsupported htype
  · exact hnone
  · dsimp only
    obtain heq | ⟨htype, src, heq⟩ := evr_sim_outset_cases hw resources arg.output_set
    · rw [heq]
      exact hnone
    · rw [heq]
      exact .outset src houtset htype
  · exact .read _ (evr_sim_ioctl_get_params _ _ _ _ _)
  · dsimp only
    unfold evr_sim_param_set
    by_cases htype : resources.1.type = EVR_RES_TYPE_PULSEGEN
    · rw [if_neg (not_not_intro htype)]
      cases arg.pulse_param with
      | none => exact hnone
      | some args => exact .param_set args.params hset htype
    · rw [if_pos htype]
      exact hnone
  · exact hnone
  · exact hnone
  · exact hnone

theorem evr_sim_effect.pulseKept {hw hw' : evr_sim_data} {resources : hw_resources}
    {cmd : ioctl_cmd} {index : Nat} (h : evr_sim_effect hw resources cmd hw')
    (hother : cmd = VEVR_IOC_PULSE_PARAM_SET → resources.1 ≠ ⟨EVR_RES_TYPE_PULSEGEN, index⟩) :
    SimPulseKept index hw hw' := by
  cases h with
  | read sim hparams => exact .of_params hparams
  | outset src hcmd htype =>
    exact .of_params (congrArg evr_sim.pulsegen_params (set_output_src_params hw _ src))
  | param_set params hcmd htype =>
    apply evr_sim_set_pulsegen_param_kept
    intro hindex
    apply hother hcmd
    rw [← htype, ← hindex]

theorem evr_sim_set_pulsegen_param_stray (hw : evr_sim_data) (index : Int) (params : pulse_params) :
    (evr_sim_set_pulsegen_param hw index params).1.stray = hw.stray := by
  unfold evr_sim_set_pulsegen_param
  split_ifs
  · rfl
  · rfl

/-- Only an output that is not there makes a store beside the array. -/
theorem evr_sim_effect.stray {hw hw' : evr_sim_data} {resources : hw_resources} {cmd : ioctl_cmd}
    (h : evr_sim_effect hw resources cmd hw')
    (hrange : cmd = MNG_DEV_EVR_IOC_OUTSET → resources.1.type = EVR_RES_TYPE_OUTPUT →
      0 ≤ resources.1.index ∧ resources.1.index < EVRSIM_OUTPUT_COUNT) : hw'.stray = hw.stray := by
  cases h with
  | read sim hparams => rfl
  | outset src hcmd htype => rw [set_output_src, dif_pos (hrange hcmd htype)]
  | param_set params hcmd htype => exact evr_sim_set_pulsegen_param_stray hw _ params

theorem evr_sim_init_res_kept (hw : evr_sim_data) {index : Nat} {res_type res_index : Int}
    (hother : ¬ (res_type = EVR_RES_TYPE_PULSEGEN ∧ res_index = index)) :
    SimPulseKept index hw (evr_sim_init_res hw res_type res_index).1 := by
  unfold evr_sim_init_res
  split_ifs with hpulsegen houtput
  · exact evr_sim_set_pulsegen_param_kept hw (fun h => hother ⟨hpulsegen, h⟩) _
  · exact .of_params rfl
  · exact .of_params rfl

end evrma.evr
