import Evrma.System.RefCount

namespace evrma.system

open evrma.event_list evrma.ioctl evrma.mng_dev evrma.virt_dev

variable {H A O : Type}

/-- The hardware after a reference is given back. The last one ends all subscriptions. -/
def drvdat_put_hw (hs : modac_hw_support_def H A O) (m : mngdev_data H) (slots : vdev_slots)
    (i : Option inode) (vdev_des : Option Nat) : H :=
  let (ref, count) := devref_put m.ref i
  let m := { m with ref }
  if count = 0 then
    let m := vdev_des.elim m fun ptr =>
      update_vdev m ptr fun v => { v with direct_access_denied := true }
    (list_stop_and_destroy_vdevs hs m slots).1.hw
  else m.hw

/-- Only three operations can take the MNG_DEV along. -/
def hw_after (hs : modac_hw_support_def H A O) (s : modac_state H) (m : mngdev_data H) : op A → H
  | .mngdev_release i => drvdat_put_hw hs { m with pid := NO_PID } s.vdev_slots (some i) none
  | .vdev_release i ptr =>
    (vdev_at m ptr).elim m.hw fun v =>
      drvdat_put_hw hs (vdev_leave hs m v) s.vdev_slots (some i) (some ptr)
  | .destroy_finish =>
    drvdat_put_hw hs { m with ref := devref_invalidate m.ref } s.vdev_slots none none
  | a => ((step hs s a).bind modac_state.mngdev).elim m.hw mngdev_data.hw

def is_ioctl_or_mmap : op A → Prop
  | .mngdev_ioctl _ _ _ => True
  | .mngdev_mmap _ _ _ _ => True
  | .vdev_ioctl _ _ _ _ => True
  | .vdev_mmap _ _ _ _ _ _ => True
  | _ => False

/-- Once `modac_mngdev_destroy` has completed, the operation does not reach the hardware; an ioctl
or a mapping fails. -/
def UnpluggedQuiet (hs : modac_hw_support_def H A O) (s : modac_state H) (a : op A) : Prop :=
  s.unplug = .done → ∀ m r, s.mngdev = some m → exec hs s a = some r →
    hw_after hs s m a = m.hw ∧ (is_ioctl_or_mmap a → r.2.1 < 0)

/-- The ioctl goes to the hardware without the mutex. -/
structure DirectFor (v : modac_vdev_des) (cmd : ioctl_cmd) (arg : vdev_ioctl_arg A) : Prop where
  type : cmd.type = VIRT_DEV_IOC_MAGIC
  access : (cmd.checks_access && !arg.access_ok) = false
  nr : VIRT_DEV_HW_DIRECT_IOC_MIN ≤ cmd.nr ∧ cmd.nr ≤ VIRT_DEV_HW_DIRECT_IOC_MAX
  allowed : v.direct_access_denied = false

theorem drvdat_put_hw_eq {hs : modac_hw_support_def H A O} {m m' : mngdev_data H}
    {slots : vdev_slots} {i : Option inode} {vdev_des : Option Nat}
    (h : (drvdat_put hs m slots i vdev_des).1 = some m') :
    drvdat_put_hw hs m slots i vdev_des = m'.hw := by
  unfold drvdat_put at h
  unfold drvdat_put_hw
  dsimp only at h ⊢
  split_ifs at h ⊢
  · obtain rfl := Option.some.inj h
    rfl

/-- Where the MNG_DEV stays, the hardware afterwards is the one that it has. -/
theorem hw_after_eq {hs : modac_hw_support_def H A O} {s t : modac_state H} {a : op A}
    {m m' : mngdev_data H} (hstep : step hs s a = some t) (hm : s.mngdev = some m)
    (hm' : t.mngdev = some m') : hw_after hs s m a = m'.hw := by
  have hother : ((step hs s a).bind modac_state.mngdev).elim m.hw mngdev_data.hw = m'.hw := by
    rw [hstep, Option.bind_some, hm', Option.elim_some]
  cases a with
  | mngdev_release i =>
    obtain ⟨r, hexec, rfl⟩ := Option.map_eq_some_iff.mp hstep
    obtain ⟨m₀, hm₀, -, rfl⟩ := on_mngdev_file_eq_some hexec
    obtain rfl := Option.some.inj (hm.symm.trans hm₀)
    exact drvdat_put_hw_eq hm'
  | vdev_release i ptr =>
    obtain ⟨r, hexec, rfl⟩ := Option.map_eq_some_iff.mp hstep
    obtain ⟨m₀, v, hm₀, hv, rfl, -, hr⟩ := on_vdev_file_eq_some hexec
    obtain rfl := Option.some.inj (hm.symm.trans hm₀)
    obtain rfl := Option.some.inj hr
    rw [hw_after, hv]
    exact drvdat_put_hw_eq hm'
  | destroy_finish =>
    obtain ⟨r, hexec, rfl⟩ := Option.map_eq_some_iff.mp hstep
    simp only [exec] at hexec
    split_ifs at hexec
    rw [hm, Option.map_some, Option.some.injEq] at hexec
    rw [← hexec] at hm'
    exact drvdat_put_hw_eq hm'
  | _ => exact hother

section

variable (hs : modac_hw_support_def H A O) {m : mngdev_data H} (hvalid : m.ref.ref_ptr = false)
include hvalid

theorem remove_all_of_invalid (ptr : Nat) :
    mngdev_event_dispatch_list_remove_all hs m ptr =
      { m with
        event_dispatch_list := event_dispatch_list_remove_all m.event_dispatch_list ptr } := by
  rw [mngdev_event_dispatch_list_remove_all, on_subscribe_change, if_neg (by simp [hvalid])]

theorem list_destroy_vdev_of_invalid (slots : vdev_slots) (v : modac_vdev_des) :
    (list_destroy_vdev hs m slots v true).1.hw = m.hw ∧
      (list_destroy_vdev hs m slots v true).1.ref.ref_ptr = false := by
  rw [list_destroy_vdev, if_pos rfl, remove_all_of_invalid hs hvalid]
  exact ⟨rfl, hvalid⟩

theorem list_stop_and_destroy_of_invalid (slots : vdev_slots) :
    (list_stop_and_destroy_vdevs hs m slots).1.hw = m.hw := by
  have hfold : ∀ (vs : List modac_vdev_des) (m : mngdev_data H) (slots : vdev_slots),
      m.ref.ref_ptr = false →
      (vs.foldl (fun s v => list_destroy_vdev hs s.1 s.2 v true) (m, slots)).1.hw = m.hw := by
    intro vs
    induction vs with
    | nil => exact fun _ _ _ => rfl
    | cons v vs ih =>
      intro m slots hvalid
      obtain ⟨hhw, hvalid'⟩ := list_destroy_vdev_of_invalid hs hvalid slots v
      rw [List.foldl_cons, ← hhw]
      exact ih _ _ hvalid'
  exact hfold m.vdev_list m slots hvalid

theorem drvdat_put_hw_of_invalid (slots : vdev_slots) (i : Option inode) (vdev_des : Option Nat) :
    drvdat_put_hw hs m slots i vdev_des = m.hw := by
  unfold drvdat_put_hw
  dsimp only
  split_ifs
  · cases vdev_des with
    | none => exact list_stop_and_destroy_of_invalid hs (by exact hvalid) slots
    | some ptr => exact list_stop_and_destroy_of_invalid hs (by exact hvalid) slots
  · rfl

theorem vdev_leave_of_invalid (v : modac_vdev_des) :
    (vdev_leave hs m v).hw = m.hw ∧ (vdev_leave hs m v).ref.ref_ptr = false := by
  have hflag : ¬ (v.leave_res_set_on_last_close = 0 ∧ m.ref.ref_ptr = true) := by
    rw [hvalid]
    exact fun h => absurd h.2 (by decide)
  unfold vdev_leave
  dsimp only
  split_ifs with hlast hreset
  · exact absurd hreset hflag
  · rw [remove_all_of_invalid hs (by exact hvalid)]
    exact ⟨rfl, hvalid⟩
  · exact ⟨rfl, hvalid⟩

theorem mngdev_ioctl_of_invalid (s : modac_state H) (cmd : ioctl_cmd) (arg : mngdev_ioctl_arg A) :
    (mngdev_ioctl hs s m cmd arg : op_result H O).1.mngdev = some m ∧
      (mngdev_ioctl hs s m cmd arg : op_result H O).2.1 < 0 := by
  rw [mngdev_ioctl, mngdev_unlocked_ioctl, if_pos hvalid]
  exact ⟨rfl, show (-ENODEV : Int) < 0 by decide⟩

theorem vdev_ioctl_of_invalid {v : modac_vdev_des} {cmd : ioctl_cmd} {arg : vdev_ioctl_arg A}
    (hdirect : ¬ DirectFor v cmd arg) :
    (vdev_unlocked_ioctl hs m v cmd arg).1 = m ∧ (vdev_unlocked_ioctl hs m v cmd arg).2.1 < 0 := by
  unfold vdev_unlocked_ioctl
  split_ifs with htype haccess hnr hdenied
  · exact ⟨rfl, show (-ENOTTY : Int) < 0 by decide⟩
  · exact ⟨rfl, show (-EFAULT : Int) < 0 by decide⟩
  · exact ⟨rfl, show (-ENODEV : Int) < 0 by decide⟩
  · exact absurd ⟨not_not.mp htype, by simpa using haccess, hnr, by simpa using hdenied⟩ hdirect
  · exact ⟨rfl, show (-ENODEV : Int) < 0 by decide⟩

/-- With an invalid reference only a direct ioctl gets to the hardware. -/
theorem hw_kept_of_invalid {s t : modac_state H} {a : op A} (hm : s.mngdev = some m)
    (hstep : step hs s a = some t)
    (hdirect : ∀ i ptr cmd arg v, a = .vdev_ioctl i ptr cmd arg → vdev_at m ptr = some v →
      ¬ DirectFor v cmd arg) {m' : mngdev_data H} (hm' : t.mngdev = some m') : m'.hw = m.hw := by
  cases effect_of_step hstep with
  | none =>
    obtain rfl := Option.some.inj (hm.symm.trans hm')
    rfl
  | mngdev_open m₀ i kmalloc hm₀ =>
    obtain rfl := Option.some.inj (hm.symm.trans hm₀)
    obtain rfl := Option.some.inj hm'
    rfl
  | mngdev_open_busy =>
    obtain rfl := Option.some.inj (hm.symm.trans hm')
    rfl
  | mngdev_open_finish m₀ i pid hm₀ =>
    obtain rfl := Option.some.inj (hm.symm.trans hm₀)
    obtain rfl := Option.some.inj hm'
    rfl
  | mngdev_release m₀ i hm₀ =>
    obtain rfl := Option.some.inj (hm.symm.trans hm₀)
    rw [← drvdat_put_hw_eq hm', drvdat_put_hw_of_invalid hs (by exact hvalid)]
  | mngdev_ioctl m₀ i cmd arg hm₀ =>
    obtain rfl := Option.some.inj (hm.symm.trans hm₀)
    obtain ⟨hsame, -⟩ := mngdev_ioctl_of_invalid hs hvalid s cmd arg
    rw [Option.some.inj (hm'.symm.trans hsame)]
  | mngdev_sysfs m₀ sysfs hm₀ =>
    obtain rfl := Option.some.inj (hm.symm.trans hm₀)
    obtain rfl := Option.some.inj hm'
    unfold mngdev_sysfs_op
    rw [if_pos hvalid]
  | vdev_open m₀ i kmalloc imngdev ivdev v hm₀ =>
    obtain rfl := Option.some.inj (hm.symm.trans hm₀)
    obtain rfl := Option.some.inj hm'
    rfl
  | vdev_release m₀ i v hm₀ =>
    obtain rfl := Option.some.inj (hm.symm.trans hm₀)
    obtain ⟨hhw, hvalid'⟩ := vdev_leave_of_invalid hs hvalid v
    rw [← drvdat_put_hw_eq hm', drvdat_put_hw_of_invalid hs hvalid', hhw]
  | vdev_ioctl m₀ i v cmd arg hm₀ hv =>
    obtain rfl := Option.some.inj (hm.symm.trans hm₀)
    obtain rfl := Option.some.inj hm'
    rw [(vdev_ioctl_of_invalid hs hvalid (hdirect i v.ptr cmd arg v rfl hv)).1]
  | vdev_read m₀ i v v' buf_len nonblock copy_to_user ret events hm₀ =>
    obtain rfl := Option.some.inj (hm.symm.trans hm₀)
    obtain rfl := Option.some.inj hm'
    rfl
  | vdev_sysfs m₀ v sysfs hm₀ =>
    obtain rfl := Option.some.inj (hm.symm.trans hm₀)
    obtain rfl := Option.some.inj hm'
    unfold vdev_sysfs_op
    rw [if_pos hvalid]
  | put_event m₀ event data hm₀ =>
    obtain rfl := Option.some.inj (hm.symm.trans hm₀)
    obtain rfl := Option.some.inj hm'
    exact process_event_hw m event _
  | notify m₀ event hm₀ =>
    obtain rfl := Option.some.inj (hm.symm.trans hm₀)
    obtain rfl := Option.some.inj hm'
    exact process_event_hw m event _
  | destroy_unlist =>
    obtain rfl := Option.some.inj (hm.symm.trans hm')
    rfl
  | destroy_finish m₀ hm₀ =>
    obtain rfl := Option.some.inj (hm.symm.trans hm₀)
    rw [← drvdat_put_hw_eq hm', drvdat_put_hw_of_invalid hs rfl]

/-- An operation that is no direct ioctl does not reach the hardware, also where it takes the
MNG_DEV along, and the other ioctls and the mappings fail. -/
theorem hw_after_of_invalid {s : modac_state H} {a : op A} {r : op_result H O}
    (hm : s.mngdev = some m) (hexec : exec hs s a = some r)
    (hdirect : ∀ i ptr cmd arg v, a = .vdev_ioctl i ptr cmd arg → vdev_at m ptr = some v →
      ¬ DirectFor v cmd arg) :
    hw_after hs s m a = m.hw ∧ (is_ioctl_or_mmap a → r.2.1 < 0) := by
  have hstep : step hs s a = some r.1 := by rw [step, hexec, Option.map_some]
  have hkept : ((step hs s a).bind modac_state.mngdev).elim m.hw mngdev_data.hw = m.hw := by
    rw [hstep, Option.bind_some]
    cases hm' : r.1.mngdev with
    | none => rfl
    | some m' => exact hw_kept_of_invalid hs hvalid hm hstep hdirect hm'
  cases a with
  | mngdev_release i => exact ⟨drvdat_put_hw_of_invalid hs (by exact hvalid) _ _ _, False.elim⟩
  | vdev_release i ptr =>
    refine ⟨?_, False.elim⟩
    rw [hw_after]
    cases vdev_at m ptr with
    | none => rfl
    | some v =>
      obtain ⟨hhw, hvalid'⟩ := vdev_leave_of_invalid hs hvalid v
      rw [Option.elim_some, drvdat_put_hw_of_invalid hs hvalid', hhw]
  | destroy_finish => exact ⟨drvdat_put_hw_of_invalid hs (by rfl) _ _ _, False.elim⟩
  | mngdev_ioctl i cmd arg =>
    obtain ⟨m₀, hm₀, -, rfl⟩ := on_mngdev_file_eq_some hexec
    obtain rfl := Option.some.inj (hm.symm.trans hm₀)
    exact ⟨hkept, fun _ => (mngdev_ioctl_of_invalid hs hvalid s cmd arg).2⟩
  | mngdev_mmap i offset vsize remap =>
    obtain ⟨m₀, hm₀, -, rfl⟩ := on_mngdev_file_eq_some hexec
    obtain rfl := Option.some.inj (hm.symm.trans hm₀)
    refine ⟨hkept, fun _ => ?_⟩
    rw [mngdev_mmap, if_pos hvalid]
    exact show (-ENODEV : Int) < 0 by decide
  | vdev_ioctl i ptr cmd arg =>
    obtain ⟨m₀, v, hm₀, hv, rfl, -, hr⟩ := on_vdev_file_eq_some hexec
    obtain rfl := Option.some.inj (hm.symm.trans hm₀)
    obtain rfl := Option.some.inj hr
    exact ⟨hkept, fun _ =>
      (vdev_ioctl_of_invalid hs hvalid (hdirect i v.ptr cmd arg v rfl hv)).2⟩
  | vdev_mmap i ptr offset vsize readonly remap =>
    obtain ⟨m₀, v, hm₀, hv, rfl, -, hr⟩ := on_vdev_file_eq_some hexec
    obtain rfl := Option.some.inj (hm.symm.trans hm₀)
    obtain rfl := Option.some.inj hr
    refine ⟨hkept, fun _ => ?_⟩
    rw [vdev_mmap_ro, if_pos hvalid]
    exact show (-ENODEV : Int) < 0 by decide
  | _ => exact ⟨hkept, False.elim⟩

end

/-- The reference is invalid once `modac_mngdev_destroy` has completed. -/
theorem invalid_of_done {s : modac_state H} {leaked : Multiset inode}
    (hrefs : RefInv (usage_of s) leaked) (hdone : s.unplug = .done) {m : mngdev_data H}
    (hm : s.mngdev = some m) : m.ref.ref_ptr = false := by
  have hiff := hrefs.valid _ (usage_of_device hm)
  rw [Bool.eq_false_iff]
  intro hvalid
  exact hiff.mp hvalid hdone

/-- The references are counted in every state of every run. -/
theorem refInv_kept {hs : modac_hw_support_def H A O} {s t : modac_state H} {a : op A}
    (h : PtrsGiven (usage_of s) ∧ ∃ leaked, RefInv (usage_of s) leaked)
    (hstep : step hs s a = some t) :
    PtrsGiven (usage_of t) ∧ ∃ leaked, RefInv (usage_of t) leaked := by
  have heffect := usage_effect_of_step h.1 hstep
  exact ⟨h.1.step heffect, RefInv.exists_step h.2 heffect⟩

end evrma.system
