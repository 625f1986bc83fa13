import Evrma.EvrSystem.Resources
import Evrma.EvrSystem.Start

namespace evrma.evr

open evrma.event_list evrma.ioctl evrma.lib evrma.mng_dev evrma.rm evrma.system evrma.virt_dev

variable {P : Type} {mmap_p_final_size : Nat} {irq_set : Option (evr_irq_set P)}

/-- The registers of the pulse generator and its bits of the map RAM are the same, in memory and in
the device. -/
structure PulseUntouched (index : Nat) (hw hw' : evr_hw_data P) : Prop
    extends PulseKept index hw hw' where
  selected : ∀ event, get_pulse_actions (selected_item hw'.io event) index =
    get_pulse_actions (selected_item hw.io event) index

/-- A VIRT_DEV with open files owns the resource. -/
def owned_by_open (m : mngdev_data (evr_hw_data P)) (vres_desc : modac_rm_vres_desc) : Prop :=
  ∃ v ∈ m.vdev_list, 0 < v.usage_counter ∧ modac_rm_get_owner m.rm_data vres_desc = v.id.toNat

/-- The pulse generators and the outputs of the VIRT_DEVs with open files are the same. -/
structure OpenResKept (m : mngdev_data (evr_hw_data P)) (hw' : evr_hw_data P) : Prop where
  pulsegen : ∀ index : Nat, owned_by_open m ⟨EVR_RES_TYPE_PULSEGEN, index⟩ →
    PulseUntouched index m.hw hw'
  output : ∀ output : Nat, owned_by_open m ⟨EVR_RES_TYPE_OUTPUT, output⟩ →
    output_source hw' output = output_source m.hw output

/-- `MNG_DEV_EVR_IOC_INIT` gets through while a VIRT_DEV with open files has a pulse generator that
is not idle, or an output that is not forced low. -/
def InitWhileInUse (m : mngdev_data (evr_hw_data P)) (cmd : ioctl_cmd)
    (arg : mngdev_ioctl_arg evr_ioctl_arg) : Prop :=
  cmd = MNG_DEV_EVR_IOC_INIT ∧ (∃ res, HwIoctlFor m cmd arg res) ∧
    ((∃ index : Nat, owned_by_open m ⟨EVR_RES_TYPE_PULSEGEN, index⟩ ∧ ¬ PulseIdle m.hw index) ∨
      ∃ output : Nat, owned_by_open m ⟨EVR_RES_TYPE_OUTPUT, output⟩ ∧
        output_source m.hw output ≠ some OUTPUT_REG_MAPPING_FORCE_LOW)

theorem PulseUntouched.refl (index : Nat) (hw : evr_hw_data P) : PulseUntouched index hw hw :=
  ⟨.refl index hw, fun _ => rfl⟩

/-- What is kept in memory is kept in the device. -/
theorem PulseUntouched.of_kept {index : Nat} {hw hw' : evr_hw_data P} (h : PulseKept index hw hw')
    (hforce : MapRamInForce hw) (hforce' : MapRamInForce hw') : PulseUntouched index hw hw' := by
  refine ⟨h, fun event => ?_⟩
  rw [selected_item_eq hforce, selected_item_eq hforce', h.actions]

theorem PulseIdle.kept {index : Nat} {hw hw' : evr_hw_data P} (h : PulseIdle hw index)
    (h' : PulseIdle hw' index) : PulseKept index hw hw' := by
  constructor
  · intro reg hreg
    rw [h'.regs reg hreg, h.regs reg hreg]
  · intro event
    rw [h'.actions event, h.actions event]

theorem OpenResKept.refl (m : mngdev_data (evr_hw_data P)) : OpenResKept m m.hw :=
  ⟨fun index _ => .refl index m.hw, fun _ _ => rfl⟩

/-- What an ioctl of the hardware range does to the card. -/
theorem hw_range_effect (mmap_p_final_size : Nat) (irq_set : Option (evr_irq_set P))
    (m : mngdev_data (evr_hw_data P)) (slots : vdev_slots) (ptr : Nat) {cmd : ioctl_cmd}
    (hnr : MNG_DEV_HW_IOC_MIN ≤ cmd.nr ∧ cmd.nr ≤ MNG_DEV_HW_IOC_MAX)
    (arg : mngdev_ioctl_arg evr_ioctl_arg) :
    let result := mngdev_unlocked_ioctl (hw_support_evr mmap_p_final_size irq_set) m slots ptr cmd
      arg
    result.mngdev.hw = m.hw ∨
      ∃ res, HwIoctlFor m cmd arg res ∧
        result.mngdev.hw = (hw_support_evr_ioctl m.hw res cmd arg.hw).1 := by
  by_cases hfor : ∃ res, HwIoctlFor m cmd arg res
  · obtain ⟨res, hfor⟩ := hfor
    refine .inr ⟨res, hfor, ?_⟩
    rw [hfor.ioctl_eq (by rfl)]
    rfl
  · left
    rw [mngdev_hw_range hnr]
    split_ifs with hvalid htype haccess
    · rfl
    · rfl
    · rfl
    · unfold mngdev_hw_ioctl
      cases hres : mngdev_hw_resources m arg.header arg.stack with
      | error err => rfl
      | ok res =>
        exact absurd ⟨res, by simpa using hvalid, not_not.mp htype, by simpa using haccess, hnr,
          hres⟩ hfor

section

variable {t : evr_type_data} {s : modac_state (evr_hw_data P)} (h : CardInv t s)
  {m : mngdev_data (evr_hw_data P)} (hm : s.mngdev = some m)
include h hm

/-- A resource that has an owner is one of the card. -/
theorem CardInv.owned_lt {index : Nat} :
    (owned_by_open m ⟨EVR_RES_TYPE_PULSEGEN, index⟩ → index < t.pulsegen_count) ∧
      (owned_by_open m ⟨EVR_RES_TYPE_OUTPUT, index⟩ → index < t.out_res_count) := by
  have hentry : ∀ type : Nat, owned_by_open m ⟨type, index⟩ → ∃ o, m.rm_data.owns o type index := by
    rintro type ⟨v, -, -, howner⟩
    obtain ⟨t', i, heq, howns⟩ := (modac_rm_get_owner_eq_iff (Int.natCast_nonneg _)).mp howner
    obtain ⟨htype, hindex⟩ := modac_rm_vres_desc.mk.inj heq
    obtain rfl := Int.ofNat.inj htype
    obtain rfl := Int.ofNat.inj hindex
    exact ⟨_, howns⟩
  constructor
  · intro howned
    obtain ⟨o, howns⟩ := hentry 0 howned
    exact pulsegen_lt_of_owns (h.rm hm) howns
  · intro howned
    obtain ⟨o, howns⟩ := hentry 1 howned
    exact output_lt_of_owns (h.rm hm) howns

/-- An output that is passed on to the hardware is none of a VIRT_DEV with open files. -/
theorem CardInv.not_passed_on {cmd : ioctl_cmd} {arg : mngdev_ioctl_arg evr_ioctl_arg}
    {res : hw_resources} (hfor : HwIoctlFor m cmd arg res) {output : Nat}
    (howned : owned_by_open m ⟨EVR_RES_TYPE_OUTPUT, output⟩) :
    res.1 ≠ ⟨EVR_RES_TYPE_OUTPUT, output⟩ := by
  intro hres
  have hids := h.owners.ids _ (usage_of_device hm)
  have hrecorded := h.owners.recorded _ (usage_of_device hm)
  obtain ⟨header_args, -, hclosed, hfirst, -⟩ := mngdev_hw_resources_ok hfor.resources
  have hsome : (EVR_RES_TYPE_OUTPUT : Int) ≠ MODAC_RES_TYPE_NONE := by decide
  by_cases hid : header_args.vdev_id = -EINVAL
  · rw [hid, mngdev_vres_desc_einval hids, Option.some.injEq] at hfirst
    rw [← hfirst] at hres
    exact hsome (congrArg modac_rm_vres_desc.type hres).symm
  · have hpassed := passedOn_of_mngdev_vres_desc hrecorded hclosed (.inr hid) hfirst
    rw [hres] at hpassed
    unfold PassedOn at hpassed
    split_ifs at hpassed with hnone
    · exact hsome hpassed
    · obtain ⟨-, howner, v, hv, husage, hvid⟩ := hpassed
      obtain ⟨w, hw, hopen, howner'⟩ := howned
      have hsame : vdev_usage_of v = vdev_usage_of w := by
        apply hids.unique (List.mem_map_of_mem hv) (List.mem_map_of_mem hw)
        exact Int.ofNat.inj (hvid.trans (howner.symm.trans howner'))
      have hcounter : v.usage_counter = w.usage_counter :=
        congrArg vdev_usage.usage_counter hsame
      omega

end

/-- A `MNG_DEV_EVR_IOC_INIT` that gets through makes everything idle. -/
theorem InitWhileInUse.not_kept {t : evr_type_data} {s : modac_state (evr_hw_data P)}
    (h : CardInv t s) {m : mngdev_data (evr_hw_data P)} (hm : s.mngdev = some m) {cmd : ioctl_cmd}
    {arg : mngdev_ioctl_arg evr_ioctl_arg} (huse : InitWhileInUse m cmd arg) :
    ¬ OpenResKept m (mngdev_unlocked_ioctl (hw_support_evr mmap_p_final_size irq_set) m
      s.vdev_slots s.next_ptr cmd arg).mngdev.hw := by
  obtain ⟨rfl, ⟨res, hfor⟩, huse⟩ := huse
  have hflavour := h.flavour m hm hfor.valid
  rw [hfor.ioctl_eq (by rfl), ioctl_init]
  change ¬ OpenResKept m (evr_init m.hw).1
  intro hkept
  obtain ⟨index, howned, hnot⟩ | ⟨output, howned, hnot⟩ := huse
  · have hlt : index < m.hw.evr_pulsegen_count := by
      rw [evr_hw_data.evr_pulsegen_count, hflavour]
      exact (h.owned_lt hm).1 howned
    have hidle := init_pulseIdle m.hw hlt
    have hsame := hkept.pulsegen index howned
    apply hnot
    constructor
    · intro reg hreg
      rw [← hsame.regs reg hreg, hidle.regs reg hreg]
    · intro event
      rw [← hsame.actions event, hidle.actions event]
  · have hlt : output < m.hw.evr_type_data.out_res_count := by
      rw [hflavour]
      exact (h.owned_lt hm).2 howned
    apply hnot
    rw [← hkept.output output howned, init_output_source m.hw hlt]

/-- An ioctl of the MNG_DEV in the hardware range leaves what the VIRT_DEVs with open files own,
exactly when it is no `MNG_DEV_EVR_IOC_INIT` that gets through while some of it is in use. -/
theorem open_res_kept_iff (hirq : ∀ f ∈ irq_set, IrqSetOk f) {des : modac_mngdev_des}
    {hw : evr_hw_data P} {s₀ s : modac_state (evr_hw_data P)} {ops : List (op evr_ioctl_arg)}
    (hcreate : evr_mngdev_create mmap_p_final_size irq_set des hw = .ok s₀)
    (hrun : run (step (hw_support_evr mmap_p_final_size irq_set)) s₀ ops = some s)
    {m : mngdev_data (evr_hw_data P)} (hm : s.mngdev = some m) {cmd : ioctl_cmd}
    (hnr : MNG_DEV_HW_IOC_MIN ≤ cmd.nr ∧ cmd.nr ≤ MNG_DEV_HW_IOC_MAX)
    (arg : mngdev_ioctl_arg evr_ioctl_arg) :
    OpenResKept m (mngdev_unlocked_ioctl (hw_support_evr mmap_p_final_size irq_set) m
        s.vdev_slots s.next_ptr cmd arg).mngdev.hw ↔
      ¬ InitWhileInUse m cmd arg := by
  have h := cardInv_of_run hirq hcreate hrun
  constructor
  · intro hkept huse
    exact huse.not_kept h hm hkept
  · intro huse
    obtain hsame | ⟨res, hfor, heq⟩ :=
      hw_range_effect mmap_p_final_size irq_set m s.vdev_slots s.next_ptr hnr arg
    · rw [hsame]
      exact .refl m
    · have hflavour := h.flavour m hm hfor.valid
      have hforce := h.inForce m hm hfor.valid
      have heffect := evr_ioctl_effect_of m.hw res cmd arg.hw
      have hforce' := heffect.cardKept.inForce hforce
      rw [heq]
      by_cases hcmd : cmd = MNG_DEV_EVR_IOC_INIT
      · subst hcmd
        rw [ioctl_init] at hforce' ⊢
        change MapRamInForce (evr_init m.hw).1 at hforce'
        change OpenResKept m (evr_init m.hw).1
        constructor
        · intro index howned
          have hidle : PulseIdle m.hw index := by
            by_contra hnot
            exact huse ⟨rfl, ⟨res, hfor⟩, .inl ⟨index, howned, hnot⟩⟩
          have hlt : index < m.hw.evr_pulsegen_count := by
            rw [evr_hw_data.evr_pulsegen_count, hflavour]
            exact (h.owned_lt hm).1 howned
          exact .of_kept (hidle.kept (init_pulseIdle m.hw hlt)) hforce hforce'
        · intro output howned
          have hlow : output_source m.hw output = some OUTPUT_REG_MAPPING_FORCE_LOW := by
            by_contra hnot
            exact huse ⟨rfl, ⟨res, hfor⟩, .inr ⟨output, howned, hnot⟩⟩
          have hlt : output < m.hw.evr_type_data.out_res_count := by
            rw [hflavour]
            exact (h.owned_lt hm).2 howned
          rw [hlow, init_output_source m.hw hlt]
      · have hmagic : cmd.type ≠ VIRT_DEV_IOC_MAGIC := by
          rw [hfor.type]
          decide
        constructor
        · intro index howned
          have hlt : index < EVR_MAX_PULSEGEN_COUNT :=
            Nat.lt_of_lt_of_le ((h.owned_lt hm).1 howned) hw.evr_type_data.pulsegen_count_le
          exact .of_kept (heffect.pulseKept hcmd hlt fun h => absurd h hmagic) hforce hforce'
        · intro output howned
          apply heffect.output_kept hcmd
          · rw [hflavour]
            exact (h.owned_lt hm).2 howned
          · exact fun _ => h.not_passed_on hm hfor howned

/-- The first pulse generator is an open VIRT_DEV's and has a width. -/
def width_in_use (s : modac_state (evr_hw_data P)) : Bool :=
  s.mngdev.any fun m => m.ref.ref_ptr &&
    decide (m.hw.io.reg32 (pulse_start_reg 0 + EVR_REG_PULSE_WIDTH_OFFSET) ≠ 0) &&
      m.vdev_list.any fun v => decide (0 < v.usage_counter) &&
        decide (modac_rm_get_owner m.rm_data ⟨EVR_RES_TYPE_PULSEGEN, (0 : Nat)⟩ = v.id.toNat)

/-- The first VIRT_DEV is open with a pulse generator in use, the second one is closed and has an
output. -/
def open_and_closed : List (op evr_ioctl_arg) :=
  open_first ++ [evr_create_vdev [0x61], alloc_first_pulsegen 1, .vdev_open vdev_inode true,
    set_width 0 5, evr_create_vdev [0x62], evr_alloc_res 2 OUTPUT_NAME 2]

/-- The output of the second VIRT_DEV is forced high. -/
def force_high : mngdev_ioctl_arg evr_ioctl_arg :=
  { mngdev_request with
    header := some ⟨2, ⟨EVR_RES_TYPE_OUTPUT, 0⟩, ⟨MODAC_RES_TYPE_NONE, 0⟩⟩
    hw := { no_request with
      output_set := some ⟨⟨2, ⟨EVR_RES_TYPE_OUTPUT, 0⟩, ⟨MODAC_RES_TYPE_NONE, 0⟩⟩, 62⟩ } }

/-- The source of the output is set while the pulse generator is in use. -/
theorem open_res_kept_force_high :
    ∃ s₀ s m, evr_mngdev_create PAGE_SIZE none first_mngdev slac_card = .ok s₀ ∧
      run (step (hw_support_evr PAGE_SIZE none)) s₀ open_and_closed = some s ∧ s.mngdev = some m ∧
      width_in_use s = true ∧
      let result := mngdev_unlocked_ioctl (hw_support_evr PAGE_SIZE none) m s.vdev_slots s.next_ptr
        MNG_DEV_EVR_IOC_OUTSET force_high
      result.ret = 0 ∧ output_source result.mngdev.hw (2 : Nat) = some 62 ∧
        OpenResKept m result.mngdev.hw := by
  have hrun : ∃ s₀, evr_mngdev_create PAGE_SIZE none first_mngdev slac_card = .ok s₀ ∧
      ((run (step (hw_support_evr PAGE_SIZE none)) s₀ open_and_closed).any fun s =>
        width_in_use s && s.mngdev.any fun m =>
          let result := mngdev_unlocked_ioctl (hw_support_evr PAGE_SIZE none) m s.vdev_slots
            s.next_ptr MNG_DEV_EVR_IOC_OUTSET force_high
          decide (result.ret = 0) &&
            decide (output_source result.mngdev.hw (2 : Nat) = some 62)) = true :=
    ⟨_, rfl, by decide +kernel⟩
  simp only [Option.any_eq_true, Bool.and_eq_true, decide_eq_true_eq] at hrun
  obtain ⟨s₀, hcreate, s, hrun, hwidth, m, hm, hret, hsource⟩ := hrun
  refine ⟨s₀, s, m, hcreate, hrun, hm, hwidth, hret, hsource, ?_⟩
  apply (open_res_kept_iff (by simp) hcreate hrun hm (by decide) _).mpr
  rintro ⟨hcmd, -⟩
  exact absurd hcmd (by decide)

/-- The card is initialized while a pulse generator is in use. -/
theorem init_while_in_use :
    ∃ s₀ s m, evr_mngdev_create PAGE_SIZE none first_mngdev slac_card = .ok s₀ ∧
      run (step (hw_support_evr PAGE_SIZE none)) s₀
        (open_first ++ [evr_create_vdev [0x61], alloc_first_pulsegen 1,
          .vdev_open vdev_inode true, set_width 0 5]) = some s ∧ s.mngdev = some m ∧
      ¬ OpenResKept m (mngdev_unlocked_ioctl (hw_support_evr PAGE_SIZE none) m s.vdev_slots
        s.next_ptr MNG_DEV_EVR_IOC_INIT
        { mngdev_request with header := some no_res }).mngdev.hw := by
  have hrun : ∃ s₀, evr_mngdev_create PAGE_SIZE none first_mngdev slac_card = .ok s₀ ∧
      ((run (step (hw_support_evr PAGE_SIZE none)) s₀
        (open_first ++ [evr_create_vdev [0x61], alloc_first_pulsegen 1,
          .vdev_open vdev_inode true, set_width 0 5])).any width_in_use) = true :=
    ⟨_, rfl, by decide +kernel⟩
  simp only [width_in_use, Option.any_eq_true, Bool.and_eq_true, List.any_eq_true,
    decide_eq_true_eq] at hrun
  obtain ⟨s₀, hcreate, s, hrun, m, hm, ⟨hvalid, hwidth⟩, v, hv, hopen, howner⟩ := hrun
  refine ⟨s₀, s, m, hcreate, hrun, hm, ?_⟩
  have h := cardInv_of_run (by simp) hcreate hrun
  apply InitWhileInUse.not_kept h hm
  have hnone := no_res_named (h.owners.ids _ (usage_of_device hm)) mngdev_request.stack
  refine ⟨rfl, ⟨_, hvalid, rfl, rfl, by decide, hnone⟩, .inl ⟨0, ⟨v, hv, hopen, howner⟩, ?_⟩⟩
  intro hidle
  exact hwidth (hidle.regs _ (.inr (.inr (.inr rfl))))

end evrma.evr
