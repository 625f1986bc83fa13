import Evrma.MngDev.Effect
import Evrma.System.Step

namespace evrma.system

open evrma.ioctl evrma.mng_dev evrma.rm evrma.virt_dev

variable {H A O : Type}

/-- What a step can do, with the reasons for which it does it. An operation that
fails, or only looks at the device, has no effect. -/
inductive step_effect (hs : modac_hw_support_def H A O) (s : modac_state H) :
    op A → modac_state H → Prop where
  | none (a : op A) : step_effect hs s a s
  | mngdev_open (m : mngdev_data H) (i : inode) (kmalloc : Bool) (hm : s.mngdev = some m)
      (hslot : s.mngdev_slot = true) (hret : (devref_get m.ref (some i) kmalloc).2 = 0) :
      step_effect hs s (.mngdev_open i kmalloc)
        { s with
          mngdev := some { m with ref := (devref_get m.ref (some i) kmalloc).1 }
          opening := i :: s.opening }
  | mngdev_open_busy (m : mngdev_data H) (i : inode) (pid : {pid : Int // pid ≠ NO_PID})
      (hm : s.mngdev = some m) (hi : i ∈ s.opening) (hpid : m.pid ≠ NO_PID) :
      step_effect hs s (.mngdev_open_finish i pid) { s with opening := s.opening.erase i }
  | mngdev_open_finish (m : mngdev_data H) (i : inode) (pid : {pid : Int // pid ≠ NO_PID})
      (hm : s.mngdev = some m) (hi : i ∈ s.opening) (hpid : m.pid = NO_PID) :
      step_effect hs s (.mngdev_open_finish i pid)
        { s with
          mngdev := some { m with pid := pid }
          opening := s.opening.erase i
          files := ⟨i, .mngdev⟩ :: s.files }
  | mngdev_release (m : mngdev_data H) (i : inode) (hm : s.mngdev = some m)
      (hfile : ⟨i, .mngdev⟩ ∈ s.files) :
      step_effect hs s (.mngdev_release i)
        (put_reference { s with files := s.files.erase ⟨i, .mngdev⟩ }
          (drvdat_put hs { m with pid := NO_PID } s.vdev_slots (some i) none))
  | mngdev_ioctl (m : mngdev_data H) (i : inode) (cmd : ioctl_cmd) (arg : mngdev_ioctl_arg A)
      (hm : s.mngdev = some m) (hfile : ⟨i, .mngdev⟩ ∈ s.files) :
      step_effect hs s (.mngdev_ioctl i cmd arg) (mngdev_ioctl hs s m cmd arg).1
  | mngdev_sysfs (m : mngdev_data H) (sysfs : mngdev_sysfs) (hm : s.mngdev = some m) :
      step_effect hs s (.mngdev_sysfs sysfs)
        { s with mngdev := some (mngdev_sysfs_op hs m sysfs).1 }
  | vdev_open (m : mngdev_data H) (i : inode) (kmalloc : Bool) (imngdev : Nat)
      (ivdev : Fin MAX_VIRT_DEVS_PER_MNG_DEV) (v : modac_vdev_des) (hm : s.mngdev = some m)
      (hindices : calc_table_indices s.des i.iminor = some (imngdev, ivdev))
      (hslot : s.vdev_slots ivdev = some v.ptr) (hv : vdev_at m v.ptr = some v)
      (hret : (devref_get m.ref (some i) kmalloc).2 = 0) :
      step_effect hs s (.vdev_open i kmalloc)
        { s with
          mngdev := some (update_vdev
            { m with ref := (devref_get m.ref (some i) kmalloc).1 } v.ptr
            fun v => { v with usage_counter := v.usage_counter + 1 })
          files := ⟨i, .vdev v.ptr⟩ :: s.files }
  | vdev_release (m : mngdev_data H) (i : inode) (v : modac_vdev_des) (hm : s.mngdev = some m)
      (hv : vdev_at m v.ptr = some v) (hfile : ⟨i, .vdev v.ptr⟩ ∈ s.files) :
      step_effect hs s (.vdev_release i v.ptr)
        (put_reference { s with files := s.files.erase ⟨i, .vdev v.ptr⟩ }
          (modac_c_vdev_on_close hs m s.vdev_slots v i))
  | vdev_ioctl (m : mngdev_data H) (i : inode) (v : modac_vdev_des) (cmd : ioctl_cmd)
      (arg : vdev_ioctl_arg A) (hm : s.mngdev = some m) (hv : vdev_at m v.ptr = some v)
      (hfile : ⟨i, .vdev v.ptr⟩ ∈ s.files) :
      step_effect hs s (.vdev_ioctl i v.ptr cmd arg)
        { s with mngdev := some (vdev_unlocked_ioctl hs m v cmd arg).1 }
  | vdev_read (m : mngdev_data H) (i : inode) (v v' : modac_vdev_des) (buf_len : Nat)
      (nonblock : Bool) (copy_to_user : Nat → Bool) (ret : Int)
      (events : List packet_queue.cb_read) (hm : s.mngdev = some m)
      (hv : vdev_at m v.ptr = some v) (hfile : ⟨i, .vdev v.ptr⟩ ∈ s.files)
      (hread : vdev_read v buf_len nonblock copy_to_user = some (v', ret, events)) :
      step_effect hs s (.vdev_read i v.ptr buf_len nonblock copy_to_user)
        { s with mngdev := some (update_vdev m v.ptr fun _ => v') }
  | vdev_sysfs (m : mngdev_data H) (v : modac_vdev_des) (sysfs : vdev_sysfs)
      (hm : s.mngdev = some m) (hv : vdev_at m v.ptr = some v) :
      step_effect hs s (.vdev_sysfs v.ptr sysfs)
        { s with mngdev := some (vdev_sysfs_op hs m v sysfs).1 }
  | put_event (m : mngdev_data H) (event : Int) (data : List (BitVec 8))
      (hm : s.mngdev = some m) :
      step_effect hs s (.put_event event data)
        { s with mngdev := some (modac_mngdev_put_event m event data) }
  | notify (m : mngdev_data H) (event : Int) (hm : s.mngdev = some m) :
      step_effect hs s (.notify event) { s with mngdev := some (modac_mngdev_notify m event) }
  | destroy_unlist (hunplug : s.unplug = .bound) :
      step_effect hs s .destroy_unlist
        { s with
          mngdev_slot := false
          vdev_slots := modac_vdev_table_reset
          unplug := .unlisted }
  | destroy_finish (m : mngdev_data H) (hm : s.mngdev = some m) (hunplug : s.unplug = .unlisted) :
      step_effect hs s .destroy_finish
        (put_reference { s with unplug := .done }
          (drvdat_put hs { m with ref := devref_invalidate m.ref } s.vdev_slots none none))

theorem vdev_at_mem {m : mngdev_data H} {ptr : Nat} {v : modac_vdev_des}
    (h : vdev_at m ptr = some v) : v ∈ m.vdev_list ∧ v.ptr = ptr := by
  unfold vdev_at at h
  exact ⟨List.mem_of_find?_eq_some h, by simpa using List.find?_some h⟩

theorem on_mngdev_file_eq_some {s : modac_state H} {i : inode}
    {f : mngdev_data H → op_result H O} {r : op_result H O}
    (h : on_mngdev_file s i f = some r) :
    ∃ m, s.mngdev = some m ∧ ⟨i, .mngdev⟩ ∈ s.files ∧ r = f m := by
  unfold on_mngdev_file at h
  split_ifs at h with hfile
  obtain ⟨m, hm, rfl⟩ := Option.map_eq_some_iff.mp h
  exact ⟨m, hm, hfile, rfl⟩

theorem on_vdev_file_eq_some {s : modac_state H} {i : inode} {ptr : Nat}
    {f : mngdev_data H → modac_vdev_des → Option (op_result H O)} {r : op_result H O}
    (h : on_vdev_file s i ptr f = some r) :
    ∃ m v, s.mngdev = some m ∧ vdev_at m v.ptr = some v ∧ v.ptr = ptr ∧
      ⟨i, .vdev v.ptr⟩ ∈ s.files ∧ f m v = some r := by
  unfold on_vdev_file at h
  split_ifs at h with hfile
  obtain ⟨m, hm, hbind⟩ := Option.bind_eq_some_iff.mp h
  obtain ⟨v, hv, hf⟩ := Option.bind_eq_some_iff.mp hbind
  obtain ⟨-, rfl⟩ := vdev_at_mem hv
  exact ⟨m, v, hm, hv, rfl, hfile, hf⟩

theorem step_mngdev_ioctl {hs : modac_hw_support_def H A O} {s t : modac_state H} {i : inode}
    {cmd : ioctl_cmd} {arg : mngdev_ioctl_arg A}
    (h : step hs s (.mngdev_ioctl i cmd arg) = some t) :
    ∃ m, s.mngdev = some m ∧ ⟨i, .mngdev⟩ ∈ s.files ∧ t = (mngdev_ioctl hs s m cmd arg).1 := by
  obtain ⟨r, hexec, rfl⟩ := Option.map_eq_some_iff.mp h
  obtain ⟨m, hm, hfile, rfl⟩ := on_mngdev_file_eq_some hexec
  exact ⟨m, hm, hfile, rfl⟩

theorem set_mngdev_self {s : modac_state H} {m : mngdev_data H} (hm : s.mngdev = some m) :
    { s with mngdev := some m } = s := by
  cases s
  cases hm
  rfl

/-- Every step has one of these effects. -/
theorem effect_of_step {hs : modac_hw_support_def H A O} {s t : modac_state H} {a : op A}
    (h : step hs s a = some t) : step_effect hs s a t := by
  obtain ⟨r, hexec, rfl⟩ := Option.map_eq_some_iff.mp h
  cases a with
  | mngdev_open i kmalloc =>
    simp only [exec] at hexec
    cases hrow : mngdev_minor_row s.des i.iminor with
    | none =>
      rw [hrow, Option.some.injEq] at hexec
      rw [← hexec]
      exact .none _
    | some imngdev =>
      rw [hrow] at hexec
      dsimp only at hexec
      split_ifs at hexec with hdevice hslot
      · rw [Option.some.injEq] at hexec
        rw [← hexec]
        exact .none _
      · obtain ⟨m, hm, rfl⟩ := Option.map_eq_some_iff.mp hexec
        simp only [mngdev_open]
        split_ifs with hret
        · rw [devref_get_of_ne_zero hret, set_mngdev_self hm]
          exact .none _
        · exact .mngdev_open m i kmalloc hm (by simpa using hslot) (not_not.mp hret)
  | mngdev_open_finish i pid =>
    simp only [exec] at hexec
    split_ifs at hexec with hi
    obtain ⟨m, hm, rfl⟩ := Option.map_eq_some_iff.mp hexec
    simp only [mngdev_open_finish]
    split_ifs with hpid
    · exact .mngdev_open_busy m i pid hm hi hpid
    · exact .mngdev_open_finish m i pid hm hi (not_not.mp hpid)
  | mngdev_release i =>
    obtain ⟨m, hm, hfile, rfl⟩ := on_mngdev_file_eq_some hexec
    exact .mngdev_release m i hm hfile
  | mngdev_ioctl i cmd arg =>
    obtain ⟨m, hm, hfile, rfl⟩ := on_mngdev_file_eq_some hexec
    exact .mngdev_ioctl m i cmd arg hm hfile
  | mngdev_mmap i offset vsize remap =>
    obtain ⟨m, hm, hfile, rfl⟩ := on_mngdev_file_eq_some hexec
    exact .none _
  | mngdev_sysfs sysfs =>
    obtain ⟨m, hm, rfl⟩ := Option.map_eq_some_iff.mp hexec
    exact .mngdev_sysfs m sysfs hm
  | vdev_open i kmalloc =>
    simp only [exec] at hexec
    cases hindices : calc_table_indices s.des i.iminor with
    | none =>
      rw [hindices, Option.some.injEq] at hexec
      rw [← hexec]
      exact .none _
    | some indices =>
      obtain ⟨imngdev, ivdev⟩ := indices
      rw [hindices] at hexec
      dsimp only at hexec
      split_ifs at hexec with hdevice
      cases hslot : s.vdev_slots ivdev with
      | none =>
        rw [hslot, Option.some.injEq] at hexec
        rw [← hexec]
        exact .none _
      | some ptr =>
        rw [hslot] at hexec
        obtain ⟨m, hm, hexec⟩ := Option.bind_eq_some_iff.mp hexec
        obtain ⟨v, hv, rfl⟩ := Option.map_eq_some_iff.mp hexec
        obtain ⟨-, rfl⟩ := vdev_at_mem hv
        by_cases hret : (devref_get m.ref (some i) kmalloc).2 = 0
        · simp only [vdev_open, modac_c_vdev_on_open, hret, ne_eq, not_true_eq_false, if_false]
          exact .vdev_open m i kmalloc imngdev ivdev v hm hindices hslot hv hret
        · simp only [vdev_open, modac_c_vdev_on_open, if_pos hret]
          rw [devref_get_of_ne_zero hret, set_mngdev_self hm]
          exact .none _
  | vdev_release i ptr =>
    obtain ⟨m, v, hm, hv, rfl, hfile, hexec⟩ := on_vdev_file_eq_some hexec
    simp only [Option.some.injEq] at hexec
    rw [← hexec]
    exact .vdev_release m i v hm hv hfile
  | vdev_ioctl i ptr cmd arg =>
    obtain ⟨m, v, hm, hv, rfl, hfile, hexec⟩ := on_vdev_file_eq_some hexec
    simp only [Option.some.injEq] at hexec
    rw [← hexec]
    exact .vdev_ioctl m i v cmd arg hm hv hfile
  | vdev_read i ptr buf_len nonblock copy_to_user =>
    obtain ⟨m, v, hm, hv, rfl, hfile, hexec⟩ := on_vdev_file_eq_some hexec
    obtain ⟨⟨v', ret, events⟩, hread, rfl⟩ := Option.map_eq_some_iff.mp hexec
    exact .vdev_read m i v v' buf_len nonblock copy_to_user ret events hm hv hfile hread
  | vdev_poll i ptr =>
    obtain ⟨m, v, hm, hv, rfl, hfile, hexec⟩ := on_vdev_file_eq_some hexec
    simp only [Option.some.injEq] at hexec
    rw [← hexec]
    exact .none _
  | vdev_mmap i ptr offset vsize readonly remap =>
    obtain ⟨m, v, hm, hv, rfl, hfile, hexec⟩ := on_vdev_file_eq_some hexec
    simp only [Option.some.injEq] at hexec
    rw [← hexec]
    exact .none _
  | vdev_sysfs ptr sysfs =>
    obtain ⟨m, hm, hexec⟩ := Option.bind_eq_some_iff.mp hexec
    obtain ⟨v, hv, rfl⟩ := Option.map_eq_some_iff.mp hexec
    obtain ⟨-, rfl⟩ := vdev_at_mem hv
    exact .vdev_sysfs m v sysfs hm hv
  | put_event event data =>
    obtain ⟨m, hm, rfl⟩ := Option.map_eq_some_iff.mp hexec
    exact .put_event m event data hm
  | notify event =>
    obtain ⟨m, hm, rfl⟩ := Option.map_eq_some_iff.mp hexec
    exact .notify m event hm
  | destroy_unlist =>
    simp only [exec] at hexec
    split_ifs at hexec with hunplug
    rw [Option.some.injEq] at hexec
    rw [← hexec]
    exact .destroy_unlist hunplug
  | destroy_finish =>
    simp only [exec] at hexec
    split_ifs at hexec with hunplug
    obtain ⟨m, hm, rfl⟩ := Option.map_eq_some_iff.mp hexec
    exact .destroy_finish m hm hunplug

end evrma.system
