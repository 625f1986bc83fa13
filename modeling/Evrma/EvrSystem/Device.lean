import Evrma.Evr.Frame
import Evrma.EvrSystem.Start
import Evrma.System.DeviceEffect

namespace evrma.evr

open evrma.event_list evrma.ioctl evrma.mng_dev evrma.system

variable {P : Type} {mmap_p_final_size : Nat} {irq_set : Option (evr_irq_set P)}

/-- For debugging the registers are only read. -/
theorem dbg_calls_eq {hw hw' : evr_hw_data P}
    (h : dbg_calls (hw_support_evr mmap_p_final_size irq_set) hw hw') :
    ∃ io, hw' = { hw with io } ∧ SameRegs hw.io io := by
  induction h with
  | refl => exact ⟨hw.io, rfl, .refl hw.io⟩
  | @tail hw₁ hw₂ _ hcall ih =>
    obtain ⟨io, rfl, hregs⟩ := ih
    cases hcall with
    | show_dbg f hf =>
      obtain rfl := Option.some.inj hf
      exact ⟨_, rfl, hregs.trans (read_all_sameRegs io _)⟩
    | store_dbg f hf =>
      obtain rfl := Option.some.inj hf
      exact ⟨io, rfl, hregs⟩
    | dbg_res f hf res_type res_index =>
      obtain rfl := Option.some.inj hf
      obtain ⟨io', heq, hregs'⟩ := dbg_res_eq { hw with io } PAGE_SIZE res_type res_index
      exact ⟨io', heq, hregs.trans hregs'⟩
    | dbg_regs f hf io_size regs_offset regs_length =>
      obtain rfl := Option.some.inj hf
      exact ⟨_, rfl, hregs.trans (read_all_sameRegs io _)⟩
    | dbg_info f hf =>
      obtain rfl := Option.some.inj hf
      exact ⟨_, rfl, hregs.trans (read_all_sameRegs io _)⟩

/-- A step that leaves a device with a valid reference keeps its flavour, and a map RAM in force. -/
theorem cardKept_of_effect (hirq : ∀ f ∈ irq_set, IrqSetOk f) {s : modac_state (evr_hw_data P)}
    {m m' : mngdev_data (evr_hw_data P)} {a : op evr_ioctl_arg}
    (h : device_effect (hw_support_evr mmap_p_final_size irq_set) s m a m') :
    CardKept m.hw m'.hw := by
  have hinit_res : ∀ count v hw,
      CardKept hw (init_res_hw (hw_support_evr mmap_p_final_size irq_set) count v hw) :=
    fun count v hw => init_res_hw_of_calls .refl (fun _ _ _ h h' => h.trans h')
      (fun hw t index _ => init_res_cardKept hw t index) count hw
  cases h with
  | quiet a m' hhw huse => exact hhw ▸ .refl m.hw
  | dbg a m' hhw huse =>
    obtain ⟨io, heq, hregs⟩ := dbg_calls_eq hhw
    rw [heq]
    exact .of_reg32 fun reg _ => congrFun hregs.reg32 reg
  | create => exact .refl m.hw
  | alloc => exact .refl m.hw
  | destroy v i cmd arg args m' hfor hhw huse =>
    rw [hhw]
    exact subscribe_cardKept hirq m.hw _
  | mngdev_hw i cmd arg ioctl res hioctl htype haccess hnr hres =>
    obtain rfl := Option.some.inj hioctl
    exact (evr_ioctl_effect_of m.hw res cmd arg.hw).cardKept
  | vdev_open v i kmalloc m' hhw huse => exact hhw ▸ .refl m.hw
  | close v i m' hv hfile hlast hhw huse => exact hhw ▸ .refl m.hw
  | last_close v i m' hv hfile hlast hhw huse =>
    rw [hhw]
    split_ifs
    · exact (hinit_res _ v m.hw).trans (subscribe_cardKept hirq _ _)
    · exact subscribe_cardKept hirq m.hw _
  | vdev_hw v i cmd arg ioctl header res hv hfile hioctl htype hheader hres =>
    obtain rfl := Option.some.inj hioctl
    exact (evr_ioctl_effect_of m.hw (res, arg.stack.2) cmd arg.hw).cardKept
  | direct v i cmd arg direct_ioctl hioctl =>
    obtain rfl := Option.some.inj hioctl
    exact direct_ioctl_cardKept m.hw cmd arg.hw.copy_to_user
  | subscribe v i cmd arg event action m' hhw huse =>
    rw [hhw]
    exact subscribe_cardKept hirq m.hw _
  | hw_reset v hv => exact hinit_res _ v m.hw

end evrma.evr
