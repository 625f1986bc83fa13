import Evrma.Evr.MapRamRuns
import Evrma.Evr.PulseRegs

namespace evrma.evr

open evrma.event_list evrma.ioctl evrma.lib

variable {P : Type}

/-- The actions as the low three bits of `EVR_PULSE_CFG_BIT_...`. -/
abbrev pulse_table := (index : Nat) → Fin EVR_MAPRAM_EVENT_CODES → BitVec 8

def pulse_table_empty : pulse_table := fun _ _ => 0

/-- The pulse generator of the card that the resource is. -/
def named_pulsegen (pulsegen_count : Nat) (res_pulsegen : modac_rm_vres_desc) : Option Nat :=
  if res_pulsegen.type = EVR_RES_TYPE_PULSEGEN ∧
      0 ≤ res_pulsegen.index ∧ res_pulsegen.index < pulsegen_count then
    some res_pulsegen.index.toNat
  else none

/-- The table that an operation leaves. A subscription has no part in it. -/
def table_step (pulsegen_count : Nat) (table : pulse_table) : map_ram_op → pulse_table
  | .ioctl_init _ _ => pulse_table_empty
  | .ioctl_map_ram_set resources arg =>
    match named_pulsegen pulsegen_count resources.1, arg.pulse_map_ram with
    | some index, some request =>
      Function.update table index fun event => request.map event &&& 7
    | _, _ => table
  | .ioctl_map_ram_set_for_event resources arg =>
    match named_pulsegen pulsegen_count resources.1, arg.pulse_map_ram_for_event with
    | some index, some request =>
      Function.update table index
        (Function.update (table index) (fifo_event_code request.event_code) (request.map &&& 7))
    | _, _ => table
  | .init_res res_type res_index =>
    if res_type = EVR_RES_TYPE_PULSEGEN then Function.update table res_index.toNat fun _ => 0
    else table
  | _ => table

/-- The map RAM in memory shows the table. -/
def ShowsTable (hw : evr_hw_data P) (table : pulse_table) : Prop :=
  ∀ index < EVR_MAX_PULSEGEN_COUNT, ∀ event,
    get_pulse_actions (hw.map_ram event) index = table index event

/-- The operation is one on this pulse generator. -/
def map_ram_op.On (op : map_ram_op) (index : Nat) : Prop :=
  match op with
  | .ioctl_map_ram_set resources _ => resources.1 = pulsegen_res index
  | .ioctl_map_ram_set_for_event resources _ => resources.1 = pulsegen_res index
  | .ioctl_map_ram_get resources _ => resources.1 = pulsegen_res index
  | .ioctl_map_ram_get_for_event resources _ => resources.1 = pulsegen_res index
  | .init_res res_type res_index => res_type = EVR_RES_TYPE_PULSEGEN ∧ res_index = index
  | _ => False

theorem get_set_pulse_actions (item : evr_map_ram_item_struct) {index : Nat} (map : BitVec 8)
    (hindex : index < 32) (other : Nat) :
    get_pulse_actions (set_pulse_actions item index map) other =
      if other = index then map &&& 7 else get_pulse_actions item other := by
  rw [get_pulse_actions, set_pulse_actions]
  simp only [getLsbD_put_bit _ hindex]
  split_ifs
  · exact pulse_cfg_bits_eq map
  · rfl

theorem getLsbD_clear_bit (word : BitVec 32) (n : Nat) {i : Nat} (hi : i < 32) :
    (word &&& ~~~bit n).getLsbD i = if i = n then false else word.getLsbD i := by
  rw [BitVec.getLsbD_and, BitVec.getLsbD_not, getLsbD_bit]
  by_cases heq : i = n
  · simp [heq]
  · simp [heq, hi]

theorem get_clear_pulse_actions (item : evr_map_ram_item_struct) (index : Nat) {other : Nat}
    (hother : other < 32) :
    get_pulse_actions (clear_pulse_actions item index) other =
      if other = index then 0 else get_pulse_actions item other := by
  rw [get_pulse_actions, clear_pulse_actions]
  simp only [getLsbD_clear_bit _ _ hother]
  split_ifs
  · rfl
  · rfl

theorem get_pulse_actions_save_subscribed (subscriptions : event_list_type)
    (map_ram : Fin EVR_MAPRAM_EVENT_CODES → evr_map_ram_item_struct)
    (event : Fin EVR_MAPRAM_EVENT_CODES) (index : Nat) :
    get_pulse_actions (save_subscribed subscriptions map_ram event) index =
      get_pulse_actions (map_ram event) index := by
  rw [get_pulse_actions, save_subscribed, get_pulse_actions]

/-- The code and the table agree on the pulse generator that a resource is. -/
theorem named_pulsegen_eq (hw : evr_hw_data P) {res_pulsegen : modac_rm_vres_desc}
    (htype : res_pulsegen.type = EVR_RES_TYPE_PULSEGEN) :
    named_pulsegen hw.evr_pulsegen_count res_pulsegen =
      (pulsegen_index hw res_pulsegen).map Fin.val := by
  unfold named_pulsegen pulsegen_index
  by_cases hindex : res_pulsegen.index < 0 ∨ (hw.evr_pulsegen_count : Int) ≤ res_pulsegen.index
  · rw [dif_pos hindex, if_neg (by omega)]
    rfl
  · rw [dif_neg hindex, if_pos ⟨htype, by omega, by omega⟩]
    rfl

theorem named_pulsegen_of_ne {pulsegen_count : Nat} {res_pulsegen : modac_rm_vres_desc}
    (htype : res_pulsegen.type ≠ EVR_RES_TYPE_PULSEGEN) :
    named_pulsegen pulsegen_count res_pulsegen = none := if_neg fun h => htype h.1

/-- After the initialization of the hardware nothing is set. -/
theorem showsTable_init (hw : evr_hw_data P) : ShowsTable (evr_ram_map_init hw) pulse_table_empty := by
  intro index _ event
  have hzero : ∀ i, (0 : BitVec 32).getLsbD i = false := fun i => BitVec.getLsbD_zero
  rw [evr_ram_map_init, flush_map_ram, get_pulse_actions]
  simp only [hzero]
  rfl

section

variable {hw : evr_hw_data P} {table : pulse_table} (h : ShowsTable hw table)
include h

theorem showsTable_map_ram_set (resources : hw_resources) (arg : evr_ioctl_arg) :
    ShowsTable (evr_pulse_map_ram_set hw resources.1 arg).1
      (table_step hw.evr_pulsegen_count table (.ioctl_map_ram_set resources arg)) := by
  rw [evr_pulse_map_ram_set, table_step]
  by_cases htype : resources.1.type ≠ EVR_RES_TYPE_PULSEGEN
  · rw [if_pos htype, named_pulsegen_of_ne htype]
    exact h
  · rw [if_neg htype, named_pulsegen_eq hw (not_not.mp htype)]
    cases arg.pulse_map_ram with
    | none =>
      cases pulsegen_index hw resources.1 with
      | none => exact h
      | some index => exact h
    | some request =>
      cases pulsegen_index hw resources.1 with
      | none => exact h
      | some index =>
        intro other hother event
        have hindex : (index : Nat) < 16 := index.isLt
        dsimp only [Option.map_some]
        rw [flush_map_ram, get_set_pulse_actions _ _ (by omega), Function.update_apply]
        split_ifs with heq
        · rfl
        · exact h other hother event

theorem showsTable_map_ram_set_for_event (resources : hw_resources) (arg : evr_ioctl_arg) :
    ShowsTable (evr_pulse_map_ram_set_for_event hw resources.1 arg).1
      (table_step hw.evr_pulsegen_count table (.ioctl_map_ram_set_for_event resources arg)) := by
  rw [evr_pulse_map_ram_set_for_event, table_step]
  by_cases htype : resources.1.type ≠ EVR_RES_TYPE_PULSEGEN
  · rw [if_pos htype, named_pulsegen_of_ne htype]
    exact h
  · rw [if_neg htype, named_pulsegen_eq hw (not_not.mp htype)]
    cases arg.pulse_map_ram_for_event with
    | none =>
      cases pulsegen_index hw resources.1 with
      | none => exact h
      | some index => exact h
    | some request =>
      cases pulsegen_index hw resources.1 with
      | none => exact h
      | some index =>
        intro other hother event
        have hindex : (index : Nat) < 16 := index.isLt
        dsimp only [Option.map_some]
        rw [flush_map_ram]
        dsimp only
        rw [Function.update_apply, Function.update_apply]
        by_cases heq : other = index
        · subst heq
          rw [if_pos rfl, Function.update_apply]
          split_ifs with hevent
          · rw [get_set_pulse_actions _ _ (by omega), if_pos rfl]
          · exact h _ hother event
        · rw [if_neg heq]
          split_ifs with hevent
          · rw [get_set_pulse_actions _ _ (by omega), if_neg heq, hevent]
            exact h other hother _
          · exact h other hother event

theorem showsTable_init_res (res_type res_index : Int) :
    ShowsTable (hw_support_evr_init_res hw res_type res_index).1
      (table_step hw.evr_pulsegen_count table (.init_res res_type res_index)) := by
  rw [hw_support_evr_init_res, table_step]
  split_ifs with hpulsegen houtput
  · intro other hother event
    have hmax : EVR_MAX_PULSEGEN_COUNT = 16 := rfl
    rw [flush_map_ram, get_clear_pulse_actions _ _ (by omega), Function.update_apply]
    split_ifs with heq
    · rfl
    · exact h other hother event
  · exact h
  · exact h

/-- One operation on the map RAM is one on the table. -/
theorem showsTable_step {irq_set : Option (evr_irq_set P)} {hw' : evr_hw_data P}
    {op : map_ram_op} (hstep : map_ram_step irq_set hw op = some hw') :
    ShowsTable hw' (table_step hw.evr_pulsegen_count table op) := by
  cases op with
  | ioctl_init resources arg =>
    obtain rfl := Option.some.inj hstep
    have hmap : (evr_init hw).1.map_ram = (evr_ram_map_init hw).map_ram := rfl
    intro index hindex event
    rw [ioctl_init, no_out, hmap]
    exact showsTable_init hw index hindex event
  | ioctl_map_ram_set resources arg =>
    obtain rfl := Option.some.inj hstep
    rw [ioctl_pulse_map_ram_set]
    exact showsTable_map_ram_set h resources arg
  | ioctl_map_ram_set_for_event resources arg =>
    obtain rfl := Option.some.inj hstep
    rw [ioctl_pulse_map_ram_set_for_event]
    exact showsTable_map_ram_set_for_event h resources arg
  | ioctl_map_ram_get resources arg =>
    obtain rfl := Option.some.inj hstep
    rw [ioctl_pulse_map_ram_get, map_ram_get_card]
    exact h
  | ioctl_map_ram_get_for_event resources arg =>
    obtain rfl := Option.some.inj hstep
    rw [ioctl_pulse_map_ram_get_for_event, map_ram_get_for_event_card]
    exact h
  | init_res res_type res_index =>
    simp only [map_ram_step] at hstep
    split_ifs at hstep
    obtain rfl := Option.some.inj hstep
    exact showsTable_init_res h res_type res_index
  | on_subscribe_change subscriptions =>
    obtain rfl := Option.some.inj hstep
    intro index hindex event
    rw [subscribe_map_ram, get_pulse_actions_save_subscribed]
    exact h index hindex event

end

/-- The number of pulse generators does not change. -/
theorem map_ram_step_count {irq_set : Option (evr_irq_set P)} {hw hw' : evr_hw_data P}
    {op : map_ram_op} (hstep : map_ram_step irq_set hw op = some hw') :
    hw'.evr_pulsegen_count = hw.evr_pulsegen_count := by
  cases op with
  | ioctl_init resources arg =>
    obtain rfl := Option.some.inj hstep
    rw [ioctl_init]
    rfl
  | ioctl_map_ram_set resources arg =>
    obtain rfl := Option.some.inj hstep
    rw [ioctl_pulse_map_ram_set, no_out]
    obtain heq | ⟨map_ram, heq⟩ := map_ram_set_cases hw resources.1 arg
    · rw [heq]
    · rw [heq]
      rfl
  | ioctl_map_ram_set_for_event resources arg =>
    obtain rfl := Option.some.inj hstep
    rw [ioctl_pulse_map_ram_set_for_event, no_out]
    obtain heq | ⟨map_ram, heq⟩ := map_ram_set_for_event_cases hw resources.1 arg
    · rw [heq]
    · rw [heq]
      rfl
  | ioctl_map_ram_get resources arg =>
    obtain rfl := Option.some.inj hstep
    rw [ioctl_pulse_map_ram_get, map_ram_get_card]
  | ioctl_map_ram_get_for_event resources arg =>
    obtain rfl := Option.some.inj hstep
    rw [ioctl_pulse_map_ram_get_for_event, map_ram_get_for_event_card]
  | init_res res_type res_index =>
    simp only [map_ram_step] at hstep
    split_ifs at hstep
    obtain rfl := Option.some.inj hstep
    rw [hw_support_evr_init_res]
    split_ifs
    · rfl
    · rfl
    · rfl
  | on_subscribe_change subscriptions =>
    obtain rfl := Option.some.inj hstep
    rw [evr_hw_data.evr_pulsegen_count, subscribe_type]
    rfl

/-- A run of the map RAM is a run of the table. -/
theorem showsTable_run {irq_set : Option (evr_irq_set P)} {hw hw' : evr_hw_data P}
    {table : pulse_table} {ops : List map_ram_op} (h : ShowsTable hw table)
    (hrun : run (map_ram_step irq_set) hw ops = some hw') :
    ShowsTable hw' (ops.foldl (table_step hw.evr_pulsegen_count) table) ∧
      hw'.evr_pulsegen_count = hw.evr_pulsegen_count := by
  induction ops generalizing hw table with
  | nil =>
    obtain rfl := Option.some.inj hrun
    exact ⟨h, rfl⟩
  | cons op ops ih =>
    obtain ⟨hw₁, hstep, hrun⟩ := run_cons_eq_some.mp hrun
    have hcount := map_ram_step_count hstep
    obtain ⟨hshows, hsame⟩ := ih (showsTable_step h hstep) hrun
    rw [hcount] at hshows hsame
    exact ⟨hshows, hsame⟩

/-- An operation on one pulse generator leaves the others in the table. -/
theorem table_step_other {pulsegen_count : Nat} (table : pulse_table) {op : map_ram_op}
    {index other : Nat} (hon : op.On index) (hne : other ≠ index) :
    table_step pulsegen_count table op other = table other := by
  have hnamed : ∀ index', named_pulsegen pulsegen_count (pulsegen_res index) = some index' →
      index' = index := by
    intro index' hnamed
    unfold named_pulsegen pulsegen_res at hnamed
    split_ifs at hnamed
    exact (Option.some.inj hnamed).symm
  cases op with
  | ioctl_init resources arg => exact absurd hon id
  | ioctl_map_ram_set resources arg =>
    have hres : resources.1 = pulsegen_res index := hon
    rw [table_step, hres]
    cases hindex' : named_pulsegen pulsegen_count (pulsegen_res index) with
    | none => rfl
    | some index' =>
      cases arg.pulse_map_ram with
      | none => rfl
      | some request =>
        dsimp only
        rw [hnamed index' hindex', Function.update_of_ne hne]
  | ioctl_map_ram_set_for_event resources arg =>
    have hres : resources.1 = pulsegen_res index := hon
    rw [table_step, hres]
    cases hindex' : named_pulsegen pulsegen_count (pulsegen_res index) with
    | none => rfl
    | some index' =>
      cases arg.pulse_map_ram_for_event with
      | none => rfl
      | some request =>
        dsimp only
        rw [hnamed index' hindex', Function.update_of_ne hne]
  | ioctl_map_ram_get resources arg => rfl
  | ioctl_map_ram_get_for_event resources arg => rfl
  | init_res res_type res_index =>
    obtain ⟨rfl, rfl⟩ := hon
    rw [table_step, if_pos rfl, Int.toNat_natCast, Function.update_of_ne hne]
  | on_subscribe_change subscriptions => exact absurd hon id

/-- An operation on a pulse generator leaves the `int_event` words. -/
theorem map_ram_step_int_event {irq_set : Option (evr_irq_set P)} {hw hw' : evr_hw_data P}
    {op : map_ram_op} {index : Nat} (hon : op.On index)
    (hstep : map_ram_step irq_set hw op = some hw') (event : Fin EVR_MAPRAM_EVENT_CODES) :
    (hw'.map_ram event).int_event = (hw.map_ram event).int_event := by
  cases op with
  | ioctl_init resources arg => exact absurd hon id
  | ioctl_map_ram_set resources arg =>
    obtain rfl := Option.some.inj hstep
    rw [ioctl_pulse_map_ram_set, no_out, evr_pulse_map_ram_set]
    split
    · rfl
    · split
      · rfl
      · split
        · rfl
        · rfl
  | ioctl_map_ram_set_for_event resources arg =>
    obtain rfl := Option.some.inj hstep
    rw [ioctl_pulse_map_ram_set_for_event, no_out, evr_pulse_map_ram_set_for_event]
    split
    · rfl
    · split
      · rfl
      · split
        · rfl
        · dsimp only
          rw [flush_map_ram]
          dsimp only
          rw [Function.update_apply]
          split_ifs with heq
          · rw [heq]
            rfl
          · rfl
  | ioctl_map_ram_get resources arg =>
    obtain rfl := Option.some.inj hstep
    rw [ioctl_pulse_map_ram_get, map_ram_get_card]
  | ioctl_map_ram_get_for_event resources arg =>
    obtain rfl := Option.some.inj hstep
    rw [ioctl_pulse_map_ram_get_for_event, map_ram_get_for_event_card]
  | init_res res_type res_index =>
    simp only [map_ram_step] at hstep
    split_ifs at hstep
    obtain rfl := Option.some.inj hstep
    rw [hw_support_evr_init_res]
    split_ifs
    · rfl
    · rfl
    · rfl
  | on_subscribe_change subscriptions => exact absurd hon id

section

variable {hw : evr_hw_data P} {index : Fin EVR_MAX_PULSEGEN_COUNT}
  (hindex : index < hw.evr_pulsegen_count) (other : modac_rm_vres_desc) {arg : evr_ioctl_arg}
  (hcopy : arg.copy_to_user = true)
include hindex hcopy

theorem map_ram_get_eq :
    (hw_support_evr_ioctl hw (pulsegen_res index, other) VEVR_IOC_PULSE_MAP_RAM_GET arg).2 =
      (0, some (.pulse_map_ram
        { header := arg.locals.pulse_map_ram_header
          map := fun event => get_pulse_actions (hw.map_ram event) index })) := by
  have htype : ¬ (pulsegen_res index).type ≠ EVR_RES_TYPE_PULSEGEN := not_not_intro rfl
  rw [ioctl_pulse_map_ram_get, evr_pulse_map_ram_get, if_neg htype, pulsegen_index_eq hindex]
  dsimp only
  rw [copy_out, if_pos hcopy]

theorem map_ram_get_for_event_eq {request : vevr_ioctl_pulse_map_ram_for_event}
    (hrequest : arg.pulse_map_ram_for_event = some request) :
    (hw_support_evr_ioctl hw (pulsegen_res index, other) VEVR_IOC_PULSE_MAP_RAM_GET_FOR_EVENT
        arg).2 =
      (0, some (.pulse_map_ram_for_event
        { request with
          map := get_pulse_actions (hw.map_ram (fifo_event_code request.event_code)) index })) := by
  have htype : ¬ (pulsegen_res index).type ≠ EVR_RES_TYPE_PULSEGEN := not_not_intro rfl
  rw [ioctl_pulse_map_ram_get_for_event, evr_pulse_map_ram_get_for_event, if_neg htype, hrequest,
    pulsegen_index_eq hindex]
  dsimp only
  rw [copy_out, if_pos hcopy]

end

/-- After any run the GETs return what was last set in the table of the pulse generators, and
an operation on one of them changes what they return for no other one, and no `int_event`. -/
theorem map_ram_refines_table {irq_set : Option (evr_irq_set P)} {hw₀ hw : evr_hw_data P}
    {ops : List map_ram_op}
    (hrun : run (map_ram_step irq_set) (evr_ram_map_init hw₀) ops = some hw) :
    let table := ops.foldl (table_step hw₀.evr_pulsegen_count) pulse_table_empty
    (∀ index : Fin EVR_MAX_PULSEGEN_COUNT, index < hw₀.evr_pulsegen_count →
      ∀ (other : modac_rm_vres_desc) (arg : evr_ioctl_arg), arg.copy_to_user = true →
        (hw_support_evr_ioctl hw (pulsegen_res index, other) VEVR_IOC_PULSE_MAP_RAM_GET arg).2 =
            (0, some (.pulse_map_ram
              { header := arg.locals.pulse_map_ram_header, map := table index })) ∧
          ∀ request, arg.pulse_map_ram_for_event = some request →
            (hw_support_evr_ioctl hw (pulsegen_res index, other)
                VEVR_IOC_PULSE_MAP_RAM_GET_FOR_EVENT arg).2 =
              (0, some (.pulse_map_ram_for_event
                { request with map := table index (fifo_event_code request.event_code) }))) ∧
    (∀ op hw' on, map_ram_step irq_set hw op = some hw' → op.On on →
      (∀ index : Fin EVR_MAX_PULSEGEN_COUNT, index < hw₀.evr_pulsegen_count → (index : Nat) ≠ on →
        ∀ (other : modac_rm_vres_desc) (arg : evr_ioctl_arg), arg.copy_to_user = true →
          (hw_support_evr_ioctl hw' (pulsegen_res index, other) VEVR_IOC_PULSE_MAP_RAM_GET arg).2 =
              (hw_support_evr_ioctl hw (pulsegen_res index, other)
                VEVR_IOC_PULSE_MAP_RAM_GET arg).2 ∧
            ∀ request, arg.pulse_map_ram_for_event = some request →
              (hw_support_evr_ioctl hw' (pulsegen_res index, other)
                  VEVR_IOC_PULSE_MAP_RAM_GET_FOR_EVENT arg).2 =
                (hw_support_evr_ioctl hw (pulsegen_res index, other)
                  VEVR_IOC_PULSE_MAP_RAM_GET_FOR_EVENT arg).2) ∧
      ∀ event, (hw'.map_ram event).int_event = (hw.map_ram event).int_event) := by
  intro table
  obtain ⟨hshows, hcount⟩ := showsTable_run (showsTable_init hw₀) hrun
  have hget : ∀ (index : Fin EVR_MAX_PULSEGEN_COUNT) event,
      get_pulse_actions (hw.map_ram event) index = table index event :=
    fun index event => hshows index index.isLt event
  refine ⟨?_, ?_⟩
  · intro index hindex other arg hcopy
    have hindex' : index < hw.evr_pulsegen_count := by
      rw [hcount]
      exact hindex
    refine ⟨?_, ?_⟩
    · rw [map_ram_get_eq hindex' other hcopy]
      simp only [hget]
    · intro request hrequest
      rw [map_ram_get_for_event_eq hindex' other hcopy hrequest, hget]
  · intro op hw' on hstep hon
    refine ⟨?_, map_ram_step_int_event hon hstep⟩
    intro index hindex hne other arg hcopy
    have hindex' : index < hw.evr_pulsegen_count := by
      rw [hcount]
      exact hindex
    have hindex'' : index < hw'.evr_pulsegen_count := by
      rw [map_ram_step_count hstep]
      exact hindex'
    have hsame : ∀ event, get_pulse_actions (hw'.map_ram event) index =
        get_pulse_actions (hw.map_ram event) index := by
      intro event
      rw [showsTable_step hshows hstep index index.isLt event, table_step_other _ hon hne,
        hshows index index.isLt event]
    refine ⟨?_, ?_⟩
    · rw [map_ram_get_eq hindex'' other hcopy, map_ram_get_eq hindex' other hcopy]
      simp only [hsame]
    · intro request hrequest
      rw [map_ram_get_for_event_eq hindex'' other hcopy hrequest,
        map_ram_get_for_event_eq hindex' other hcopy hrequest, hsame]

/-- The event 40 triggers the first pulse generator. -/
def trigger_on_40 : evr_ioctl_arg :=
  { misc_func_0x10005 with
    pulse_map_ram_for_event := some ⟨⟨⟨EVR_RES_TYPE_PULSEGEN, 0⟩⟩, 40, 4, 0⟩ }

theorem map_ram_refines_table_40 :
    (hw_support_evr_ioctl
        (hw_support_evr_ioctl (evr_ram_map_init lattice_card) (pulsegen_res 0, modac_rm_vres_none)
          VEVR_IOC_PULSE_MAP_RAM_SET_FOR_EVENT trigger_on_40).1
        (pulsegen_res 0, modac_rm_vres_none) VEVR_IOC_PULSE_MAP_RAM_GET_FOR_EVENT trigger_on_40).2 =
      (0, some (.pulse_map_ram_for_event ⟨⟨⟨EVR_RES_TYPE_PULSEGEN, 0⟩⟩, 40, 4, 0⟩)) := by
  have hrun : run (map_ram_step (none : Option (evr_irq_set Bool))) (evr_ram_map_init lattice_card)
      [.ioctl_map_ram_set_for_event (pulsegen_res 0, modac_rm_vres_none) trigger_on_40] =
        some (hw_support_evr_ioctl (evr_ram_map_init lattice_card)
          (pulsegen_res 0, modac_rm_vres_none)
          VEVR_IOC_PULSE_MAP_RAM_SET_FOR_EVENT trigger_on_40).1 := by
    rw [run, map_ram_step, Option.bind_some, run]
  exact ((map_ram_refines_table hrun).1 (0 : Fin 16) (by decide) modac_rm_vres_none trigger_on_40
    rfl).2 _ rfl

end evrma.evr
