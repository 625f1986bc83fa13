import Evrma.EvrSystem.Start
import Evrma.System.HwAfter

namespace evrma.evr

open evrma.ioctl evrma.lib evrma.mng_dev evrma.system evrma.virt_dev

variable {P : Type}

/-- A direct command that accesses the device or succeeds: the latched timestamp, or one of the
temperatures, which are only read on a SLAC card. -/
def direct_answered (fw_version : BitVec 32) (cmd : ioctl_cmd) (copy_to_user : Bool) : Prop :=
  cmd = VEVR_IOC_LATCHED_TIMESTAMP_GET ∨
    ((cmd = VEVR_IOC_AXIXADC_TEMPERATURE_GET ∨ cmd = VEVR_IOC_AXIXADC_MAXTEMPERATURE_GET) ∧
      (evr_card_is_slac fw_version = true ∨ copy_to_user = true))

/-- Such a command on an open file of a VIRT_DEV that does not deny direct accesses. -/
def DirectGetsThrough (s : modac_state (evr_hw_data P)) (a : op evr_ioctl_arg) : Prop :=
  ∃ i ptr cmd arg m v, a = .vdev_ioctl i ptr cmd arg ∧ ⟨i, .vdev ptr⟩ ∈ s.files ∧
    s.mngdev = some m ∧ vdev_at m ptr = some v ∧ v.direct_access_denied = false ∧
    arg.access_ok = true ∧ direct_answered m.hw.fw_version cmd arg.hw.copy_to_user

theorem put_u32_eq (hw : evr_hw_data P) (val : BitVec 32) (copy_to_user : Bool) :
    (put_u32 hw val copy_to_user).1 = hw ∧
      ((put_u32 hw val copy_to_user).2.1 < 0 ↔ copy_to_user = false) := by
  unfold put_u32
  cases copy_to_user
  · exact ⟨rfl, by simp [EFAULT]⟩
  · exact ⟨rfl, by simp⟩

/-- An access to the device shows. -/
theorem hw_ne_of_log {hw hw' : evr_hw_data P} (accesses : List io_access)
    (hlog : hw'.io.log = hw.io.log ++ accesses) (hne : accesses ≠ []) : hw' ≠ hw := by
  rintro rfl
  exact hne (List.self_eq_append_right.mp hlog)

/-- The latched timestamp takes accesses to the device. -/
theorem direct_timestamp (hw : evr_hw_data P) (copy_to_user : Bool) :
    (hw_support_evr_direct_ioctl hw VEVR_IOC_LATCHED_TIMESTAMP_GET copy_to_user).1 ≠ hw := by
  rw [hw_support_evr_direct_ioctl, if_pos rfl]
  dsimp only
  rw [(put_u32_eq _ _ _).1]
  apply hw_ne_of_log [.read32 EVR_REG_CTRL,
    .write32 EVR_REG_CTRL (latch_timestamp_ctrl (hw.io.reg32 EVR_REG_CTRL)),
    .read32 EVR_REG_TIMESTAMP_LATCH]
  · simp [evr_read32, evr_write32]
  · exact List.cons_ne_nil _ _

/-- A temperature of a SLAC card takes an access to the device, of another card it is 0. -/
theorem axixadc_quiet_iff (hw : evr_hw_data P) (reg : Nat) (copy_to_user : Bool) :
    (put_u32 (axixadc_get hw reg).1 (axixadc_get hw reg).2 copy_to_user).1 = hw ∧
        (put_u32 (axixadc_get hw reg).1 (axixadc_get hw reg).2 copy_to_user).2.1 < 0 ↔
      ¬ (evr_card_is_slac hw.fw_version = true ∨ copy_to_user = true) := by
  obtain ⟨hsame, hret⟩ := put_u32_eq (axixadc_get hw reg).1 (axixadc_get hw reg).2 copy_to_user
  rw [hsame, hret, not_or, Bool.not_eq_true, Bool.not_eq_true]
  refine and_congr_left fun _ => ?_
  unfold axixadc_get
  cases hslac : evr_card_is_slac hw.fw_version with
  | true =>
    refine iff_of_false ?_ (by decide)
    exact hw_ne_of_log [.read32 reg] rfl (List.cons_ne_nil _ _)
  | false => exact iff_of_true rfl rfl

/-- Of the direct commands these are the ones that are not refused without an access. -/
theorem direct_quiet_iff (hw : evr_hw_data P) (cmd : ioctl_cmd) (copy_to_user : Bool) :
    (hw_support_evr_direct_ioctl hw cmd copy_to_user).1 = hw ∧
        (hw_support_evr_direct_ioctl hw cmd copy_to_user).2.1 < 0 ↔
      ¬ direct_answered hw.fw_version cmd copy_to_user := by
  by_cases htimestamp : cmd = VEVR_IOC_LATCHED_TIMESTAMP_GET
  · subst htimestamp
    exact iff_of_false (fun h => direct_timestamp hw copy_to_user h.1) (not_not.mpr (.inl rfl))
  by_cases htemperature : cmd = VEVR_IOC_AXIXADC_TEMPERATURE_GET
  · have hanswered : direct_answered hw.fw_version cmd copy_to_user ↔
        (evr_card_is_slac hw.fw_version = true ∨ copy_to_user = true) :=
      ⟨fun h => (h.resolve_left htimestamp).2, fun h => .inr ⟨.inl htemperature, h⟩⟩
    rw [hanswered, hw_support_evr_direct_ioctl, if_neg htimestamp, if_pos htemperature]
    exact axixadc_quiet_iff hw _ copy_to_user
  by_cases hmaxtemperature : cmd = VEVR_IOC_AXIXADC_MAXTEMPERATURE_GET
  · have hanswered : direct_answered hw.fw_version cmd copy_to_user ↔
        (evr_card_is_slac hw.fw_version = true ∨ copy_to_user = true) :=
      ⟨fun h => (h.resolve_left htimestamp).2, fun h => .inr ⟨.inr hmaxtemperature, h⟩⟩
    rw [hanswered, hw_support_evr_direct_ioctl, if_neg htimestamp, if_neg htemperature,
      if_pos hmaxtemperature]
    exact axixadc_quiet_iff hw _ copy_to_user
  · rw [hw_support_evr_direct_ioctl, if_neg htimestamp, if_neg htemperature,
      if_neg hmaxtemperature]
    refine iff_of_true ⟨rfl, show (-ENOSYS : Int) < 0 by decide⟩ ?_
    rintro (h | ⟨h | h, -⟩)
    · exact htimestamp h
    · exact htemperature h
    · exact hmaxtemperature h

/-- The commands of `direct_answered` are direct ones, whose argument is checked. -/
theorem direct_answered_cmd {fw_version : BitVec 32} {cmd : ioctl_cmd} {copy_to_user : Bool}
    (h : direct_answered fw_version cmd copy_to_user) :
    cmd.type = VIRT_DEV_IOC_MAGIC ∧ cmd.checks_access = true ∧
      VIRT_DEV_HW_DIRECT_IOC_MIN ≤ cmd.nr ∧ cmd.nr ≤ VIRT_DEV_HW_DIRECT_IOC_MAX := by
  obtain rfl | ⟨rfl | rfl, -⟩ := h
  · decide
  · decide
  · decide

/-- A direct ioctl that is let through is up to the support code. -/
theorem direct_for_ioctl_eq (mmap_p_final_size : Nat) (irq_set : Option (evr_irq_set P))
    (m : mngdev_data (evr_hw_data P)) {v : modac_vdev_des} {cmd : ioctl_cmd}
    {arg : vdev_ioctl_arg evr_ioctl_arg} (h : DirectFor v cmd arg) :
    let result := vdev_unlocked_ioctl (hw_support_evr mmap_p_final_size irq_set) m v cmd arg
    let direct := hw_support_evr_direct_ioctl m.hw cmd arg.hw.copy_to_user
    result.1 = { m with hw := direct.1 } ∧ result.2.1 = direct.2.1 := by
  rw [vdev_unlocked_ioctl, if_neg (not_not.mpr h.type), if_neg (by simp [h.access]), if_pos h.nr,
    if_neg (by simp [h.allowed])]
  exact ⟨rfl, rfl⟩

section

variable (mmap_p_final_size : Nat) (irq_set : Option (evr_irq_set P))
  {s : modac_state (evr_hw_data P)}

/-- What a direct ioctl on an open file does. -/
theorem exec_direct {i : inode} {ptr : Nat} {cmd : ioctl_cmd} {arg : vdev_ioctl_arg evr_ioctl_arg}
    {m : mngdev_data (evr_hw_data P)} {v : modac_vdev_des} (hfile : ⟨i, .vdev ptr⟩ ∈ s.files)
    (hm : s.mngdev = some m) (hv : vdev_at m ptr = some v) (hfor : DirectFor v cmd arg) :
    ∃ r, exec (hw_support_evr mmap_p_final_size irq_set) s (.vdev_ioctl i ptr cmd arg) = some r ∧
      hw_after (hw_support_evr mmap_p_final_size irq_set) s m (.vdev_ioctl i ptr cmd arg) =
        (hw_support_evr_direct_ioctl m.hw cmd arg.hw.copy_to_user).1 ∧
      r.2.1 = (hw_support_evr_direct_ioctl m.hw cmd arg.hw.copy_to_user).2.1 := by
  obtain ⟨hmngdev, hret⟩ := direct_for_ioctl_eq mmap_p_final_size irq_set m hfor
  have hexec : exec (hw_support_evr mmap_p_final_size irq_set) s (.vdev_ioctl i ptr cmd arg) =
      some ({ s with
        mngdev := some (vdev_unlocked_ioctl (hw_support_evr mmap_p_final_size irq_set) m v cmd
          arg).1 },
        (vdev_unlocked_ioctl (hw_support_evr mmap_p_final_size irq_set) m v cmd arg).2) := by
    simp only [exec, on_vdev_file, if_pos hfile, hm, hv, Option.bind_some]
  refine ⟨_, hexec, ?_, hret⟩
  rw [hw_after_eq (by rw [step, hexec, Option.map_some]) hm rfl, hmngdev]

/-- After the unplug a direct command that gets through is not quiet. -/
theorem DirectGetsThrough.not_quiet {a : op evr_ioctl_arg} (h : DirectGetsThrough s a)
    (hdone : s.unplug = .done) :
    (step (hw_support_evr mmap_p_final_size irq_set) s a).isSome = true ∧
      ¬ UnpluggedQuiet (hw_support_evr mmap_p_final_size irq_set) s a := by
  obtain ⟨i, ptr, cmd, arg, m, v, rfl, hfile, hm, hv, hallowed, haccess, hanswered⟩ := h
  obtain ⟨htype, -, hnr⟩ := direct_answered_cmd hanswered
  have hfor : DirectFor v cmd arg := ⟨htype, by simp [haccess], hnr, hallowed⟩
  obtain ⟨r, hexec, hhw, hret⟩ := exec_direct mmap_p_final_size irq_set hfile hm hv
    hfor
  refine ⟨by rw [step, hexec, Option.map_some, Option.isSome_some], ?_⟩
  intro hquiet
  obtain ⟨hsame, hfails⟩ := hquiet hdone m r hm hexec
  exact (direct_quiet_iff m.hw cmd arg.hw.copy_to_user).mp ⟨hhw ▸ hsame, hret ▸ hfails trivial⟩
    hanswered

/-- After the unplug an operation is quiet unless it is a direct command that gets through. -/
theorem unpluggedQuiet_iff (hrefs : ∃ leaked, RefInv (usage_of s) leaked) (a : op evr_ioctl_arg) :
    UnpluggedQuiet (hw_support_evr mmap_p_final_size irq_set) s a ↔
      (s.unplug = .done → ¬ DirectGetsThrough s a) := by
  constructor
  · intro hquiet hdone hgets
    exact (hgets.not_quiet mmap_p_final_size irq_set hdone).2 hquiet
  · intro hnot hdone m r hm hexec
    obtain ⟨leaked, hrefs⟩ := hrefs
    have hvalid := invalid_of_done hrefs hdone hm
    by_cases hfor : ∃ i ptr cmd arg v, a = .vdev_ioctl i ptr cmd arg ∧ vdev_at m ptr = some v ∧
        DirectFor v cmd arg
    · obtain ⟨i, ptr, cmd, arg, v, rfl, hv, hfor⟩ := hfor
      obtain ⟨m₀, v₀, hm₀, -, rfl, hfile, -⟩ := on_vdev_file_eq_some hexec
      obtain ⟨r', hexec', hhw, hret⟩ := exec_direct mmap_p_final_size irq_set hfile hm hv hfor
      obtain rfl := Option.some.inj (hexec.symm.trans hexec')
      rw [hhw, hret]
      have hanswered : ¬ direct_answered m.hw.fw_version cmd arg.hw.copy_to_user := by
        intro hanswered
        obtain ⟨-, hchecks, -⟩ := direct_answered_cmd hanswered
        exact hnot hdone ⟨i, _, cmd, arg, m, v, rfl, hfile, hm, hv, hfor.allowed,
          access_ok_of_checked hchecks hfor.access, hanswered⟩
      obtain ⟨hsame, hfails⟩ := (direct_quiet_iff m.hw cmd arg.hw.copy_to_user).mpr hanswered
      exact ⟨hsame, fun _ => hfails⟩
    · apply hw_after_of_invalid _ hvalid hm hexec
      intro i ptr cmd arg v hop hv hdirect
      exact hfor ⟨i, ptr, cmd, arg, v, hop, hv, hdirect⟩

end

/-- Once `modac_mngdev_destroy` has completed, the operations of a run on the files that are still
open do not reach the device, and the ioctls and mappings fail, exactly when no direct command
gets through. -/
theorem unplugged_quiet_iff {mmap_p_final_size : Nat} {irq_set : Option (evr_irq_set P)}
    {des : modac_mngdev_des} {hw : evr_hw_data P} {hw_res_defs : List modac_hw_res_def}
    {s : modac_state (evr_hw_data P)}
    (hcreate : modac_mngdev_create (hw_support_evr mmap_p_final_size irq_set) des hw hw_res_defs =
      .ok s) (ops : List (op evr_ioctl_arg)) :
    StepsMeet (step (hw_support_evr mmap_p_final_size irq_set))
        (UnpluggedQuiet (hw_support_evr mmap_p_final_size irq_set)) s ops ↔
      StepsMeet (step (hw_support_evr mmap_p_final_size irq_set))
        (fun s a => s.unplug = .done → ¬ DirectGetsThrough s a) s ops := by
  have hstart : PtrsGiven (usage_of s) ∧ ∃ leaked, RefInv (usage_of s) leaked :=
    ⟨ptrsGiven_of_create hcreate, 0, refInv_of_create hcreate⟩
  constructor
  · intro hmeet
    apply hmeet.mono_of_invariant
      (I := fun s => PtrsGiven (usage_of s) ∧ ∃ leaked, RefInv (usage_of s) leaked) ?_ ?_ hstart
    · exact fun s a t hinv _ hstep => refInv_kept hinv hstep
    · exact fun s a hinv hquiet => (unpluggedQuiet_iff _ _ hinv.2 a).mp hquiet
  · intro hmeet
    apply hmeet.mono_of_invariant
      (I := fun s => PtrsGiven (usage_of s) ∧ ∃ leaked, RefInv (usage_of s) leaked) ?_ ?_ hstart
    · exact fun s a t hinv _ hstep => refInv_kept hinv hstep
    · exact fun s a hinv hnot => (unpluggedQuiet_iff _ _ hinv.2 a).mpr hnot

def no_vdev_ioctl (_ : modac_state (evr_hw_data P)) : op evr_ioctl_arg → Bool
  | .vdev_ioctl _ _ _ _ => false
  | _ => true

/-- The MNG_DEV is unplugged while a VIRT_DEV is open, which is closed later. -/
theorem unplugged_quiet_closed :
    ∃ s, evr_mngdev_create PAGE_SIZE none first_mngdev slac_card = .ok s ∧
      StepsMeet (step (hw_support_evr PAGE_SIZE none))
        (UnpluggedQuiet (hw_support_evr PAGE_SIZE none)) s
        (open_vdev ++ [.destroy_unlist, .destroy_finish, .vdev_poll vdev_inode 0,
          .vdev_release vdev_inode 0, .mngdev_release first_inode]) := by
  have hcreate : evr_mngdev_create PAGE_SIZE none first_mngdev slac_card = .ok _ := rfl
  refine ⟨_, hcreate, (unplugged_quiet_iff hcreate _).mpr ?_⟩
  apply stepsMeet_of_check (fun s a hcheck => ?_)
    (by decide +kernel : steps_check _ no_vdev_ioctl _ _ = true)
  rintro - ⟨i, ptr, cmd, arg, m, v, rfl, -⟩
  cases hcheck

/-- The MNG_DEV is unplugged, and the latched timestamp can be asked for. -/
def timestamp_reachable (s : modac_state (evr_hw_data Unit)) : Bool :=
  decide (s.unplug = .done) && decide (⟨vdev_inode, .vdev 0⟩ ∈ s.files) &&
    s.mngdev.any fun m => (vdev_at m 0).any fun v => !v.direct_access_denied

/-- The latched timestamp is read from a card that is unplugged. -/
theorem timestamp_after_unplug :
    ∃ s, evr_mngdev_create PAGE_SIZE none first_mngdev slac_card = .ok s ∧
      ¬ StepsMeet (step (hw_support_evr PAGE_SIZE none))
        (UnpluggedQuiet (hw_support_evr PAGE_SIZE none)) s
        ((open_vdev ++ [.destroy_unlist, .destroy_finish]) ++
          [.vdev_ioctl vdev_inode 0 VEVR_IOC_LATCHED_TIMESTAMP_GET (vdev_request none)]) := by
  refine ⟨_, rfl, not_stepsMeet_of_last (fun u hbad => ?_)
    (by decide +kernel : (run _ _ _).any timestamp_reachable = true)⟩
  simp only [timestamp_reachable, Bool.and_eq_true, decide_eq_true_eq, Option.any_eq_true,
    Bool.not_eq_true'] at hbad
  obtain ⟨⟨hdone, hfile⟩, m, hm, v, hv, hallowed⟩ := hbad
  apply DirectGetsThrough.not_quiet _ _ ?_ hdone
  exact ⟨vdev_inode, 0, _, _, m, v, rfl, hfile, hm, hv, hallowed, rfl, .inl rfl⟩

end evrma.evr
