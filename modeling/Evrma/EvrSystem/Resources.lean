import Evrma.EvrSystem.Device
import Evrma.System.Recorded

namespace evrma.evr

open evrma.event_list evrma.ioctl evrma.lib evrma.mng_dev evrma.rm evrma.system

variable {P : Type} {mmap_p_final_size : Nat} {irq_set : Option (evr_irq_set P)}

/-- The four words that the device has for the event in its selected bank. -/
def selected_item (io : io_state) (event : Fin EVR_MAPRAM_EVENT_CODES) :
    evr_map_ram_item_struct :=
  let address := selected_bank (io.reg32 EVR_REG_CTRL) + event * EVR_REG_MAPRAM_SLOT_SIZE
  { int_event := io.reg32 (address + EVR_REG_MAPRAM_INT_FUNC_OFFSET)
    pulse_trigger := io.reg32 (address + EVR_REG_MAPRAM_TRIGGET_OFFSET)
    pulse_set := io.reg32 (address + EVR_REG_MAPRAM_SET_OFFSET)
    pulse_clear := io.reg32 (address + EVR_REG_MAPRAM_CLEAR_OFFSET) }

/-- The selected bank is the table in memory where the map RAM is in force. -/
theorem selected_item_eq {hw : evr_hw_data P} (h : MapRamInForce hw)
    (event : Fin EVR_MAPRAM_EVENT_CODES) : selected_item hw.io event = hw.map_ram event := by
  obtain ⟨hint, htrigger, hset, hclear⟩ := h.2 event
  unfold selected_item
  cases hitem : hw.map_ram event with
  | mk int_event pulse_trigger pulse_set pulse_clear =>
    rw [hitem] at hclear hset htrigger hint
    rw [evr_map_ram_item_struct.mk.injEq]
    exact ⟨hint, htrigger, hset, hclear⟩

/-- The resources are those of the flavour `t`, and as long as the device is not unplugged the card
is of this flavour and has its map RAM in force. -/
structure CardInv (t : evr_type_data) (s : modac_state (evr_hw_data P)) : Prop where
  res : TypeInv (hw_res_defs t) 0 (usage_of s)
  flavour : ∀ m, s.mngdev = some m → m.ref.ref_ptr = true → m.hw.evr_type_data = t
  inForce : ∀ m, s.mngdev = some m → m.ref.ref_ptr = true → MapRamInForce m.hw

/-- All pulse generators of a card have room in the list of a VIRT_DEV. -/
theorem pulsegens_fit (t : evr_type_data) : TypeFits (hw_res_defs t) 0 := by
  intro d hd
  obtain rfl := Option.some.inj hd
  exact Nat.le_trans t.pulsegen_count_le (by decide)

theorem CardInv.owners {t : evr_type_data} {s : modac_state (evr_hw_data P)} (h : CardInv t s) :
    OwnersInv (usage_of s) := h.res.owners

theorem CardInv.rm {t : evr_type_data} {s : modac_state (evr_hw_data P)} (h : CardInv t s)
    {m : mngdev_data (evr_hw_data P)} (hm : s.mngdev = some m) :
    RmInv (hw_res_defs t) m.rm_data := h.res.rm _ (usage_of_device hm)

theorem CardInv.step (hirq : ∀ f ∈ irq_set, IrqSetOk f) {t : evr_type_data}
    {s s' : modac_state (evr_hw_data P)} (h : CardInv t s) {a : op evr_ioctl_arg}
    (hstep : step (hw_support_evr mmap_p_final_size irq_set) s a = some s') : CardInv t s' := by
  refine ⟨h.res.step (pulsegens_fit t) (usage_effect_of_step h.owners.ptrs hstep), ?_, ?_⟩
  · intro m' hm' hvalid'
    obtain ⟨m, hm, hvalid, heffect⟩ := device_effect_of_step h.owners.ptrs hstep hm' hvalid'
    rw [(cardKept_of_effect hirq heffect).flavour, h.flavour m hm hvalid]
  · intro m' hm' hvalid'
    obtain ⟨m, hm, hvalid, heffect⟩ := device_effect_of_step h.owners.ptrs hstep hm' hvalid'
    exact (cardKept_of_effect hirq heffect).inForce (h.inForce m hm hvalid)

theorem cardInv_of_create (hirq : ∀ f ∈ irq_set, IrqSetOk f) {des : modac_mngdev_des}
    {hw : evr_hw_data P} {s : modac_state (evr_hw_data P)}
    (hcreate : evr_mngdev_create mmap_p_final_size irq_set des hw = .ok s) :
    CardInv hw.evr_type_data s := by
  have hres := typeInv_of_create hcreate 0
  unfold evr_mngdev_create modac_mngdev_create at hcreate
  cases hinit : modac_rm_init (hw_res_defs hw.evr_type_data) true with
  | error err =>
    rw [hinit] at hcreate
    cases hcreate
  | ok rm_data =>
    rw [hinit, Except.ok.injEq] at hcreate
    subst hcreate
    have hkept := subscribe_cardKept hirq (evr_ram_map_init hw) event_list_clear
    refine ⟨hres, ?_, ?_⟩
    · intro m hm _
      obtain rfl := Option.some.inj hm
      exact hkept.flavour
    · intro m hm _
      obtain rfl := Option.some.inj hm
      exact hkept.inForce (flush_inForce _)

theorem cardInv_of_run (hirq : ∀ f ∈ irq_set, IrqSetOk f) {des : modac_mngdev_des}
    {hw : evr_hw_data P} {s₀ s : modac_state (evr_hw_data P)} {ops : List (op evr_ioctl_arg)}
    (hcreate : evr_mngdev_create mmap_p_final_size irq_set des hw = .ok s₀)
    (hrun : run (step (hw_support_evr mmap_p_final_size irq_set)) s₀ ops = some s) :
    CardInv hw.evr_type_data s :=
  run_invariant (fun _ _ _ h hstep => h.step hirq hstep) hrun (cardInv_of_create hirq hcreate)

section

variable {t : evr_type_data} {rm_data : res_data} (h : RmInv (hw_res_defs t) rm_data) {o : Int}
include h

/-- A pulse generator that has an entry in the table is one of the card. -/
theorem pulsegen_lt_of_owns {index : Nat} (howns : rm_data.owns o 0 index) :
    index < t.pulsegen_count := by
  obtain ⟨d, hd, hlt⟩ := (h.has_iff 0 index).mp (res_data.has_of_owns howns)
  obtain rfl := Option.some.inj hd
  exact hlt

theorem output_lt_of_owns {output : Nat} (howns : rm_data.owns o 1 output) :
    output < t.out_res_count := by
  obtain ⟨d, hd, hlt⟩ := (h.has_iff 1 output).mp (res_data.has_of_owns howns)
  obtain rfl := Option.some.inj hd
  exact hlt

end

/-- A header that names no VIRT_DEV and no resource. -/
def no_res : mngdev_ioctl_hw_header := ⟨0, ⟨MODAC_RES_TYPE_NONE, 0⟩, ⟨MODAC_RES_TYPE_NONE, 0⟩⟩

/-- It gets through, as the id 0 is no VIRT_DEV's. -/
theorem no_res_named {m : mngdev_data (evr_hw_data P)} (hids : IdsOwn (mngdev_usage_of m))
    (stack : hw_resources) :
    mngdev_hw_resources m (some no_res) stack = .ok (modac_rm_vres_none, modac_rm_vres_none) := by
  have hzero : list_find_vdev m (BitVec.ofInt 8 no_res.vdev_id) = none := by
    rw [list_find_vdev_eq_none]
    intro v hv hid
    have hrange := (hids.range (vdev_usage_of v) (List.mem_map_of_mem hv)).1
    rw [show (vdev_usage_of v).id = v.id from rfl, hid] at hrange
    exact absurd hrange (by decide)
  unfold mngdev_hw_resources
  dsimp only
  rw [hzero]
  rfl

end evrma.evr
