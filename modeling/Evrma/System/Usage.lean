import Evrma.MngDev.Usage
import Evrma.System.Effect

namespace evrma.system

open evrma.event_list evrma.ioctl evrma.mng_dev evrma.rm evrma.virt_dev

variable {H A O : Type}

structure usage_state where
  des : modac_mngdev_des
  device : Option mngdev_usage
  vdev_slots : vdev_slots
  files : List file
  opening : List inode
  unplug : unplug_progress
  destroyed : Nat
  next_ptr : Nat

def usage_of (s : modac_state H) : usage_state where
  des := s.des
  device := s.mngdev.map mngdev_usage_of
  vdev_slots := s.vdev_slots
  files := s.files
  opening := s.opening
  unplug := s.unplug
  destroyed := s.destroyed
  next_ptr := s.next_ptr

/-- A reference is given back; the last one takes the device along. -/
def usage_state.put (u : usage_state) (d : mngdev_usage) (i : Option inode) : usage_state :=
  if (devref_put d.ref i).2 = 0 then
    { u with
      device := none
      vdev_slots := (d.vdevs.map vdev_usage.minor).foldl (column_reset d.des) u.vdev_slots
      destroyed := u.destroyed + 1 }
  else { u with device := some { d with ref := (devref_put d.ref i).1 } }

/-- What a step does to the usage, with the reasons for which it does it. -/
inductive usage_effect (u : usage_state) : op A → usage_state → Prop where
  | none (a : op A) (n : Nat) (hn : u.next_ptr ≤ n) : usage_effect u a { u with next_ptr := n }
  | mngdev_open (d : mngdev_usage) (i : inode) (kmalloc : Bool) (hd : u.device = some d)
      (hret : (devref_get d.ref (some i) kmalloc).2 = 0) :
      usage_effect u (.mngdev_open i kmalloc)
        { u with
          device := some { d with ref := (devref_get d.ref (some i) kmalloc).1 }
          opening := i :: u.opening }
  | mngdev_open_busy (d : mngdev_usage) (i : inode) (pid : {pid : Int // pid ≠ NO_PID})
      (hd : u.device = some d) (hi : i ∈ u.opening) (hpid : d.pid ≠ NO_PID) :
      usage_effect u (.mngdev_open_finish i pid) { u with opening := u.opening.erase i }
  | mngdev_open_finish (d : mngdev_usage) (i : inode) (pid : {pid : Int // pid ≠ NO_PID})
      (hd : u.device = some d) (hi : i ∈ u.opening) (hpid : d.pid = NO_PID) :
      usage_effect u (.mngdev_open_finish i pid)
        { u with
          device := some { d with pid := pid }
          opening := u.opening.erase i
          files := ⟨i, .mngdev⟩ :: u.files }
  | mngdev_release (d : mngdev_usage) (i : inode) (hd : u.device = some d)
      (hfile : ⟨i, .mngdev⟩ ∈ u.files) :
      usage_effect u (.mngdev_release i)
        ({ u with files := u.files.erase ⟨i, .mngdev⟩ }.put { d with pid := NO_PID } (some i))
  | create (d : mngdev_usage) (r : vdev_usage) (i : inode) (cmd : ioctl_cmd)
      (arg : mngdev_ioctl_arg A) (imngdev : Nat) (ivdev : Fin MAX_VIRT_DEVS_PER_MNG_DEV)
      (hd : u.device = some d) (hptr : r.ptr = u.next_ptr)
      (hid : 1 ≤ r.id.toNat ∧ r.id.toNat ≤ MAX_VIRT_DEVS_PER_MNG_DEV)
      (hnew : ∀ r' ∈ d.vdevs, r'.id ≠ r.id) (husage : r.usage_counter = 0)
      (hres : ∀ t, (r.res_type_data t).res_alloc_index = [])
      (hcolumn : calc_table_indices d.des r.minor = some (imngdev, ivdev))
      (hfree : u.vdev_slots ivdev = Option.none) :
      usage_effect u (.mngdev_ioctl i cmd arg)
        { u with
          device := some { d with vdevs := r :: d.vdevs }
          vdev_slots := Function.update u.vdev_slots ivdev (some u.next_ptr)
          next_ptr := u.next_ptr + 1 }
  | destroy (d : mngdev_usage) (r : vdev_usage) (i : inode) (cmd : ioctl_cmd)
      (arg : mngdev_ioctl_arg A) (args : mngdev_ioctl_destroy) (hd : u.device = some d)
      (hvalid : d.ref.ref_ptr = true) (hcmd : cmd = MNG_DEV_IOC_DESTROY)
      (haccess : arg.access_ok = true) (hargs : arg.destroy = some args)
      (hfind : d.vdevs.find? (fun r => r.id = args.id) = some r) :
      usage_effect u (.mngdev_ioctl i cmd arg)
        { u with
          device := some (d.destroy r)
          vdev_slots := column_reset d.des u.vdev_slots r.minor
          next_ptr := u.next_ptr + 1 }
  | alloc (d : mngdev_usage) (r : vdev_usage) (i : inode) (cmd : ioctl_cmd)
      (arg : mngdev_ioctl_arg A) (args : mngdev_ioctl_res) (rm_data : res_data) (index t k : Nat)
      (hd : u.device = some d) (hvalid : d.ref.ref_ptr = true) (hcmd : cmd = MNG_DEV_IOC_ALLOC)
      (haccess : arg.access_ok = true) (hargs : arg.res = some args)
      (hfind : d.vdevs.find? (fun r => r.id = args.id_vdev) = some r)
      (husage : r.usage_counter ≤ 0)
      (halloc : modac_rm_alloc d.rm_data args.id_vdev.toNat args.resource_id.toList
        args.resource_real_index args.arg_filter = (rm_data, .ok (index, ⟨t, k⟩))) :
      usage_effect u (.mngdev_ioctl i cmd arg)
        { u with
          device := some ({ d with rm_data }.update r.ptr fun r => r.add_res t k)
          next_ptr := u.next_ptr + 1 }
  | vdev_open (d : mngdev_usage) (r : vdev_usage) (i : inode) (kmalloc : Bool) (imngdev : Nat)
      (ivdev : Fin MAX_VIRT_DEVS_PER_MNG_DEV) (hd : u.device = some d) (hr : r ∈ d.vdevs)
      (hslot : u.vdev_slots ivdev = some r.ptr)
      (hret : (devref_get d.ref (some i) kmalloc).2 = 0) :
      usage_effect u (.vdev_open i kmalloc)
        { u with
          device := some ({ d with ref := (devref_get d.ref (some i) kmalloc).1 }.update r.ptr
            fun r => { r with usage_counter := r.usage_counter + 1 })
          files := ⟨i, .vdev r.ptr⟩ :: u.files }
  | vdev_release (d : mngdev_usage) (r : vdev_usage) (i : inode) (hd : u.device = some d)
      (hr : r ∈ d.vdevs) (hfile : ⟨i, .vdev r.ptr⟩ ∈ u.files) :
      usage_effect u (.vdev_release i r.ptr)
        ({ u with files := u.files.erase ⟨i, .vdev r.ptr⟩ }.put (d.leave r) (some i))
  | subscribe (d : mngdev_usage) (r : vdev_usage) (i : inode) (cmd : ioctl_cmd)
      (arg : vdev_ioctl_arg A) (event : Int) (action : BitVec 8) (hd : u.device = some d)
      (hr : r ∈ d.vdevs) (hfile : ⟨i, .vdev r.ptr⟩ ∈ u.files) :
      usage_effect u (.vdev_ioctl i r.ptr cmd arg)
        { u with
          device := some { d with
            event_dispatch_list :=
              subscriptions_after d.event_dispatch_list r.ptr event action } }
  | destroy_unlist (hunplug : u.unplug = .bound) :
      usage_effect u .destroy_unlist
        { u with vdev_slots := modac_vdev_table_reset, unplug := .unlisted }
  | destroy_finish (d : mngdev_usage) (hd : u.device = some d) (hunplug : u.unplug = .unlisted) :
      usage_effect u .destroy_finish
        ({ u with unplug := .done }.put { d with ref := devref_invalidate d.ref } Option.none)

/-- The VIRT_DEVs are at addresses of their own, that were given out before. -/
structure PtrsGiven (u : usage_state) : Prop where
  nodup : ∀ d, u.device = some d → (d.vdevs.map vdev_usage.ptr).Nodup
  lt : ∀ d, u.device = some d → ∀ r ∈ d.vdevs, r.ptr < u.next_ptr

theorem usage_of_device {s : modac_state H} {m : mngdev_data H} (hm : s.mngdev = some m) :
    (usage_of s).device = some (mngdev_usage_of m) := by
  rw [usage_of, hm, Option.map_some]

/-- Nothing but the MNG_DEV changes. -/
theorem usage_of_set_mngdev (s : modac_state H) (m : mngdev_data H) :
    usage_of { s with mngdev := some m } =
      { usage_of s with device := some (mngdev_usage_of m) } := rfl

theorem usage_of_set_mngdev_same {s : modac_state H} {m m' : mngdev_data H}
    (hm : s.mngdev = some m) (hsame : mngdev_usage_of m' = mngdev_usage_of m) :
    usage_of { s with mngdev := some m' } = usage_of s := by
  rw [usage_of_set_mngdev, hsame, ← usage_of_device hm]

/-- The reference that is given back, as the usage shows it. -/
theorem usage_of_put_reference (hs : modac_hw_support_def H A O) (s : modac_state H)
    (m : mngdev_data H) (i : Option inode) (ptr : Option Nat) :
    usage_of (put_reference s (drvdat_put hs m s.vdev_slots i ptr)) =
      (usage_of s).put (mngdev_usage_of m) i := by
  unfold drvdat_put usage_state.put
  have href : (mngdev_usage_of m).ref = m.ref := rfl
  rw [href]
  dsimp only
  by_cases hcount : (devref_put m.ref i).2 = 0
  · rw [if_pos hcount, if_pos hcount]
    have hdenied : mngdev_usage_of (ptr.elim { m with ref := (devref_put m.ref i).1 } fun ptr =>
        update_vdev { m with ref := (devref_put m.ref i).1 } ptr fun v =>
          { v with direct_access_denied := true }) =
        mngdev_usage_of { m with ref := (devref_put m.ref i).1 } := by
      cases ptr with
      | none => rfl
      | some ptr => exact mngdev_usage_of_update_same fun _ _ _ => rfl
    simp only [put_reference, usage_of, Option.map_none, Option.isNone_none, if_true,
      list_stop_and_destroy_vdevs_slots, hdenied]
    rfl
  · rw [if_neg hcount, if_neg hcount]
    rfl

theorem vdev_at_usage {m : mngdev_data H} {v : modac_vdev_des} (hv : vdev_at m v.ptr = some v) :
    vdev_usage_of v ∈ (mngdev_usage_of m).vdevs :=
  List.mem_map_of_mem (vdev_at_mem hv).1

theorem find_vdev_usage {m : mngdev_data H} {id : BitVec 8} {v : modac_vdev_des}
    (hfind : list_find_vdev m id = some v) :
    (mngdev_usage_of m).vdevs.find? (fun r => r.id = id) = some (vdev_usage_of v) := by
  unfold list_find_vdev at hfind
  rw [mngdev_usage_of, List.find?_map]
  exact congrArg (Option.map vdev_usage_of) hfind

theorem find_vdev_of_usage {m : mngdev_data H} {id : BitVec 8} {r : vdev_usage}
    (hfind : (mngdev_usage_of m).vdevs.find? (fun r => r.id = id) = some r) :
    ∃ v, list_find_vdev m id = some v ∧ vdev_usage_of v = r := by
  rw [mngdev_usage_of, List.find?_map] at hfind
  exact Option.map_eq_some_iff.mp hfind

theorem usage_of_next_ptr {s : modac_state H} {m m' : mngdev_data H} (hm : s.mngdev = some m)
    (hsame : mngdev_usage_of m' = mngdev_usage_of m) :
    usage_of { s with mngdev := some m', vdev_slots := s.vdev_slots, next_ptr := s.next_ptr + 1 } =
      { usage_of s with next_ptr := s.next_ptr + 1 } := by
  have hd := usage_of_device hm
  unfold usage_of at hd ⊢
  simp only at hd
  simp only [Option.map_some, hsame, hd]

/-- An ioctl of the MNG_DEV, as the usage shows it. -/
theorem mngdev_ioctl_usage (hs : modac_hw_support_def H A O) {s : modac_state H}
    (hptrs : PtrsGiven (usage_of s)) {m : mngdev_data H} (hm : s.mngdev = some m) (i : inode)
    (cmd : ioctl_cmd) (arg : mngdev_ioctl_arg A) :
    usage_effect (usage_of s) (.mngdev_ioctl i cmd arg)
      (usage_of (mngdev_ioctl hs s m cmd arg).1) := by
  have hd := usage_of_device hm
  have hnew : ∀ w ∈ m.vdev_list, w.ptr ≠ s.next_ptr := by
    intro w hw
    have hlt := hptrs.lt _ hd (vdev_usage_of w) (List.mem_map_of_mem hw)
    exact Nat.ne_of_lt hlt
  have heffect : mngdev_ioctl_effect hs m s.vdev_slots s.next_ptr cmd arg _ _ :=
    mngdev_unlocked_ioctl_effect hnew
  simp only [mngdev_ioctl]
  generalize (mngdev_unlocked_ioctl hs m s.vdev_slots s.next_ptr cmd arg).mngdev = m' at heffect
  generalize (mngdev_unlocked_ioctl hs m s.vdev_slots s.next_ptr cmd arg).vdev_slots = slots'
    at heffect
  cases heffect with
  | none =>
    rw [usage_of_next_ptr hm rfl]
    exact .none _ _ (Nat.le_succ _)
  | hw_ioctl =>
    rw [usage_of_next_ptr hm (mngdev_usage_of_hw m _)]
    exact .none _ _ (Nat.le_succ _)
  | create v imngdev ivdev hptr hid hnew husage hres hcolumn hfree =>
    refine .create _ (vdev_usage_of v) i cmd arg imngdev ivdev hd hptr hid ?_ husage hres hcolumn
      hfree
    intro r hr
    obtain ⟨w, hw, rfl⟩ := List.mem_map.mp hr
    exact hnew w hw
  | destroy v args hvalid hcmd haccess hargs hfind =>
    have heq : usage_of { s with
          mngdev := some (list_destroy_vdev hs m s.vdev_slots v true).1
          vdev_slots := (list_destroy_vdev hs m s.vdev_slots v true).2
          next_ptr := s.next_ptr + 1 } =
        { usage_of s with
          device := some ((mngdev_usage_of m).destroy (vdev_usage_of v))
          vdev_slots := column_reset m.des s.vdev_slots v.minor
          next_ptr := s.next_ptr + 1 } := by
      simp only [usage_of, Option.map_some, mngdev_usage_of_destroy, list_destroy_vdev_slots]
    rw [heq]
    exact .destroy _ (vdev_usage_of v) i cmd arg args hd hvalid hcmd haccess hargs
      (find_vdev_usage hfind)
  | alloc v args rm_data index t k hvalid hcmd haccess hargs hfind husage halloc =>
    have hhas : rm_data.has t k := by
      obtain ⟨err, -, hfail⟩ | ⟨rm', index', t', k', hok, -, -, -, howns⟩ :=
        modac_rm_alloc_cases m.rm_data args.id_vdev.toNat args.resource_id.toList
          args.resource_real_index args.arg_filter
      · rw [hfail] at halloc
        cases halloc
      · rw [hok] at halloc
        obtain ⟨rfl, hindex⟩ := Prod.mk.inj halloc
        obtain ⟨rfl, hdesc⟩ := Prod.mk.inj (Except.ok.inj hindex)
        obtain ⟨ht, hk⟩ := modac_rm_vres_desc.mk.inj hdesc
        obtain rfl := Int.ofNat.inj ht
        obtain rfl := Int.ofNat.inj hk
        have howned := howns args.id_vdev.toNat t' k'
        rw [if_pos ⟨rfl, rfl⟩] at howned
        exact res_data.has_of_owns (howned.mpr rfl)
    have heq : usage_of { s with
          mngdev := some (update_vdev { m with rm_data } v.ptr fun w =>
            (vdev_on_res_add { m with rm_data } w ⟨t, k⟩).1)
          vdev_slots := s.vdev_slots
          next_ptr := s.next_ptr + 1 } =
        { usage_of s with
          device := some ({ mngdev_usage_of m with rm_data }.update v.ptr fun r => r.add_res t k)
          next_ptr := s.next_ptr + 1 } := by
      have hupdate : mngdev_usage_of (update_vdev { m with rm_data } v.ptr fun w =>
            (vdev_on_res_add { m with rm_data } w ⟨t, k⟩).1) =
          (mngdev_usage_of { m with rm_data }).update v.ptr fun r => r.add_res t k :=
        mngdev_usage_of_update fun w _ _ => vdev_on_res_add_usage hhas
      simp only [usage_of, Option.map_some, hupdate]
      rfl
    rw [heq]
    exact .alloc _ (vdev_usage_of v) i cmd arg args rm_data index t k hd hvalid hcmd haccess hargs
      (find_vdev_usage hfind) husage halloc

/-- The addresses of the VIRT_DEVs differ. -/
theorem PtrsGiven.eq_of_ptr {s : modac_state H} (h : PtrsGiven (usage_of s)) {m : mngdev_data H}
    (hm : s.mngdev = some m) {v w : modac_vdev_des} (hv : v ∈ m.vdev_list) (hw : w ∈ m.vdev_list)
    (hptr : v.ptr = w.ptr) : v = w := by
  have hnodup := h.nodup _ (usage_of_device hm)
  rw [mngdev_usage_of, List.map_map] at hnodup
  exact List.inj_on_of_nodup_map hnodup hv hw hptr

theorem PtrsGiven.vdev_at_of_mem {s : modac_state H} (h : PtrsGiven (usage_of s))
    {m : mngdev_data H} (hm : s.mngdev = some m) {v : modac_vdev_des} (hv : v ∈ m.vdev_list) :
    vdev_at m v.ptr = some v := by
  obtain ⟨w, hw⟩ : ∃ w, vdev_at m v.ptr = some w := by
    rw [← Option.isSome_iff_exists, vdev_at, List.find?_isSome]
    exact ⟨v, hv, decide_eq_true rfl⟩
  obtain ⟨hmem, hptr⟩ := vdev_at_mem hw
  rw [hw, h.eq_of_ptr hm hmem hv hptr]

/-- A read only takes events. -/
theorem vdev_read_mngdev_usage {s : modac_state H} (hptrs : PtrsGiven (usage_of s))
    {m : mngdev_data H} (hm : s.mngdev = some m) {v v' : modac_vdev_des}
    (hv : vdev_at m v.ptr = some v) {buf_len : Nat} {nonblock : Bool} {copy_to_user : Nat → Bool}
    {ret : Int} {events : List packet_queue.cb_read}
    (hread : vdev_read v buf_len nonblock copy_to_user = some (v', ret, events)) :
    mngdev_usage_of (update_vdev m v.ptr fun _ => v') = mngdev_usage_of m := by
  apply mngdev_usage_of_update_same
  intro w hw hptr
  obtain rfl := hptrs.eq_of_ptr hm hw (vdev_at_mem hv).1 hptr
  exact vdev_read_usage hread

/-- Every step has one of these effects on the usage. -/
theorem usage_effect_of_step {hs : modac_hw_support_def H A O} {s t : modac_state H} {a : op A}
    (hptrs : PtrsGiven (usage_of s)) (h : step hs s a = some t) :
    usage_effect (usage_of s) a (usage_of t) := by
  have heffect := effect_of_step h
  cases heffect with
  | none => exact .none _ _ (Nat.le_refl _)
  | mngdev_open m i kmalloc hm hslot hret =>
    exact .mngdev_open _ i kmalloc (usage_of_device hm) hret
  | mngdev_open_busy m i pid hm hi hpid =>
    exact .mngdev_open_busy _ i pid (usage_of_device hm) hi hpid
  | mngdev_open_finish m i pid hm hi hpid =>
    exact .mngdev_open_finish _ i pid (usage_of_device hm) hi hpid
  | mngdev_release m i hm hfile =>
    have hput := usage_of_put_reference hs { s with files := s.files.erase ⟨i, .mngdev⟩ }
      { m with pid := NO_PID } (some i) none
    rw [hput]
    exact .mngdev_release _ i (usage_of_device hm) hfile
  | mngdev_ioctl m i cmd arg hm hfile => exact mngdev_ioctl_usage hs hptrs hm i cmd arg
  | mngdev_sysfs m sysfs hm =>
    rw [usage_of_set_mngdev_same hm (mngdev_usage_of_mngdev_sysfs hs m sysfs)]
    exact .none _ _ (Nat.le_refl _)
  | vdev_open m i kmalloc imngdev ivdev v hm hindices hslot hv hret =>
    have hupdate : mngdev_usage_of (update_vdev
          { m with ref := (devref_get m.ref (some i) kmalloc).1 } v.ptr
          fun v => { v with usage_counter := v.usage_counter + 1 }) =
        (mngdev_usage_of { m with ref := (devref_get m.ref (some i) kmalloc).1 }).update v.ptr
          fun r => { r with usage_counter := r.usage_counter + 1 } :=
      mngdev_usage_of_update fun _ _ _ => rfl
    have heq := usage_of_set_mngdev { s with files := ⟨i, .vdev v.ptr⟩ :: s.files }
      (update_vdev { m with ref := (devref_get m.ref (some i) kmalloc).1 } v.ptr
          fun v => { v with usage_counter := v.usage_counter + 1 })
    rw [hupdate] at heq
    rw [heq]
    exact .vdev_open _ (vdev_usage_of v) i kmalloc imngdev ivdev (usage_of_device hm)
      (vdev_at_usage hv) hslot hret
  | vdev_release m i v hm hv hfile =>
    have hput := usage_of_put_reference hs { s with files := s.files.erase ⟨i, .vdev v.ptr⟩ }
      (vdev_leave hs m v) (some i) (some v.ptr)
    rw [modac_c_vdev_on_close, hput, mngdev_usage_of_leave]
    exact .vdev_release _ (vdev_usage_of v) i (usage_of_device hm) (vdev_at_usage hv) hfile
  | vdev_ioctl m i v cmd arg hm hv hfile =>
    have hioctl := vdev_unlocked_ioctl_effect hs m v cmd arg
    generalize (vdev_unlocked_ioctl hs m v cmd arg).1 = m' at hioctl
    cases hioctl with
    | none =>
      rw [usage_of_set_mngdev_same hm rfl]
      exact .none _ _ (Nat.le_refl _)
    | direct_ioctl =>
      rw [usage_of_set_mngdev_same hm (mngdev_usage_of_hw m _)]
      exact .none _ _ (Nat.le_refl _)
    | hw_ioctl =>
      rw [usage_of_set_mngdev_same hm (mngdev_usage_of_hw m _)]
      exact .none _ _ (Nat.le_refl _)
    | subscribe args =>
      rw [usage_of_set_mngdev, mngdev_usage_of_subscribe_change,
        mngdev_usage_of_change_subscriptions]
      exact .subscribe _ (vdev_usage_of v) i cmd arg args.event args.action (usage_of_device hm)
        (vdev_at_usage hv) hfile
  | vdev_read m i v v' buf_len nonblock copy_to_user ret events hm hv hfile hread =>
    rw [usage_of_set_mngdev_same hm (vdev_read_mngdev_usage hptrs hm hv hread)]
    exact .none _ _ (Nat.le_refl _)
  | vdev_sysfs m v sysfs hm hv =>
    rw [usage_of_set_mngdev_same hm (mngdev_usage_of_vdev_sysfs hs m v sysfs)]
    exact .none _ _ (Nat.le_refl _)
  | put_event m event data hm =>
    rw [usage_of_set_mngdev_same hm (mngdev_usage_of_put_event m event data)]
    exact .none _ _ (Nat.le_refl _)
  | notify m event hm =>
    rw [usage_of_set_mngdev_same hm (mngdev_usage_of_notify m event)]
    exact .none _ _ (Nat.le_refl _)
  | destroy_unlist hunplug => exact .destroy_unlist hunplug
  | destroy_finish m hm hunplug =>
    have hput := usage_of_put_reference hs { s with unplug := .done }
      { m with ref := devref_invalidate m.ref } none none
    rw [hput]
    exact .destroy_finish _ (usage_of_device hm) hunplug

/-- A field that an update leaves alone. -/
theorem update_field {β : Type*} (d : mngdev_usage) (ptr : Nat) {f : vdev_usage → vdev_usage}
    (field : vdev_usage → β) (hf : ∀ r, field (f r) = field r) :
    (d.update ptr f).vdevs.map field = d.vdevs.map field := by
  simp only [mngdev_usage.update, List.map_map]
  refine List.map_congr_left fun r _ => ?_
  simp only [Function.comp_apply]
  split_ifs
  · exact hf r
  · rfl

theorem update_ptrs_sublist (d : mngdev_usage) (ptr : Nat) {f : vdev_usage → vdev_usage}
    (hf : ∀ r, (f r).ptr = r.ptr) :
    ((d.update ptr f).vdevs.map vdev_usage.ptr).Sublist (d.vdevs.map vdev_usage.ptr) := by
  rw [update_field d ptr vdev_usage.ptr hf]

theorem add_res_ptr (r : vdev_usage) (t k : Nat) : (r.add_res t k).ptr = r.ptr := by
  unfold vdev_usage.add_res
  split_ifs <;> rfl

theorem put_next_ptr (u : usage_state) (d : mngdev_usage) (i : Option inode) :
    (u.put d i).next_ptr = u.next_ptr := by
  unfold usage_state.put
  split_ifs <;> rfl

theorem put_files (u : usage_state) (d : mngdev_usage) (i : Option inode) :
    (u.put d i).files = u.files := by
  unfold usage_state.put
  split_ifs <;> rfl

/-- What is left of the device after a reference is given back. -/
theorem put_device {u : usage_state} {d d' : mngdev_usage} {i : Option inode}
    (h : (u.put d i).device = some d') : d' = { d with ref := (devref_put d.ref i).1 } := by
  unfold usage_state.put at h
  split_ifs at h
  · exact (Option.some.inj h).symm

/-- VIRT_DEVs only leave. -/
theorem PtrsGiven.of_sublist {u u' : usage_state} (h : PtrsGiven u)
    (hnext : u.next_ptr ≤ u'.next_ptr)
    (hvdevs : ∀ d', u'.device = some d' → ∃ d, u.device = some d ∧
      (d'.vdevs.map vdev_usage.ptr).Sublist (d.vdevs.map vdev_usage.ptr)) : PtrsGiven u' where
  nodup d' hd' := by
    obtain ⟨d, hd, hsub⟩ := hvdevs d' hd'
    exact (h.nodup d hd).sublist hsub
  lt d' hd' r hr := by
    obtain ⟨d, hd, hsub⟩ := hvdevs d' hd'
    obtain ⟨r', hr', hptr⟩ := List.mem_map.mp (hsub.subset (List.mem_map_of_mem hr))
    have hlt := h.lt d hd r' hr'
    omega

theorem PtrsGiven.step {u u' : usage_state} {a : op A} (h : PtrsGiven u)
    (heffect : usage_effect u a u') : PtrsGiven u' := by
  cases heffect with
  | none _ n hn => exact ⟨h.nodup, fun d hd r hr => Nat.lt_of_lt_of_le (h.lt d hd r hr) hn⟩
  | mngdev_open d i kmalloc hd hret =>
    refine h.of_sublist (Nat.le_refl _) fun d' hd' => ⟨d, hd, ?_⟩
    cases hd'
    exact List.Sublist.refl _
  | mngdev_open_busy d i pid hd hi hpid => exact ⟨h.nodup, h.lt⟩
  | mngdev_open_finish d i pid hd hi hpid =>
    refine h.of_sublist (Nat.le_refl _) fun d' hd' => ⟨d, hd, ?_⟩
    cases hd'
    exact List.Sublist.refl _
  | mngdev_release d i hd hfile =>
    refine h.of_sublist (by rw [put_next_ptr]) fun d' hd' => ⟨d, hd, ?_⟩
    rw [put_device hd']
  | create d r i cmd arg imngdev ivdev hd hptr hid hnew husage hres hcolumn hfree =>
    constructor
    · intro d' hd'
      cases hd'
      rw [List.map_cons, List.nodup_cons]
      refine ⟨?_, h.nodup d hd⟩
      intro hmem
      obtain ⟨r', hr', hptr'⟩ := List.mem_map.mp hmem
      have hlt := h.lt d hd r' hr'
      omega
    · intro d' hd' r' hr'
      cases hd'
      obtain rfl | hr' := List.mem_cons.mp hr'
      · exact Nat.lt_succ_of_le (Nat.le_of_eq hptr)
      · exact Nat.lt_succ_of_lt (h.lt d hd r' hr')
  | destroy d r i cmd arg args hd =>
    refine h.of_sublist (Nat.le_succ _) fun d' hd' => ⟨d, hd, ?_⟩
    cases hd'
    exact List.filter_sublist.map _
  | alloc d r i cmd arg args rm_data index t k hd =>
    refine h.of_sublist (Nat.le_succ _) fun d' hd' => ⟨d, hd, ?_⟩
    cases hd'
    exact update_ptrs_sublist _ _ fun r => add_res_ptr r t k
  | vdev_open d r i kmalloc imngdev ivdev hd hr hslot hret =>
    refine h.of_sublist (Nat.le_refl _) fun d' hd' => ⟨d, hd, ?_⟩
    cases hd'
    exact update_ptrs_sublist _ _ fun _ => rfl
  | vdev_release d r i hd hr hfile =>
    refine h.of_sublist (by rw [put_next_ptr]) fun d' hd' => ⟨d, hd, ?_⟩
    rw [put_device hd']
    exact update_ptrs_sublist d r.ptr fun _ => rfl
  | subscribe d r i cmd arg event action hd hr hfile =>
    refine h.of_sublist (Nat.le_refl _) fun d' hd' => ⟨d, hd, ?_⟩
    cases hd'
    exact List.Sublist.refl _
  | destroy_unlist hunplug => exact ⟨h.nodup, h.lt⟩
  | destroy_finish d hd hunplug =>
    refine h.of_sublist (by rw [put_next_ptr]) fun d' hd' => ⟨d, hd, ?_⟩
    rw [put_device hd']

/-- A new MNG_DEV, as the usage shows it. -/
theorem usage_of_create {hs : modac_hw_support_def H A O} {des : modac_mngdev_des} {hw : H}
    {hw_res_defs : List modac_hw_res_def} {s : modac_state H}
    (h : modac_mngdev_create hs des hw hw_res_defs = .ok s) :
    ∃ rm_data, modac_rm_init hw_res_defs true = .ok rm_data ∧
      usage_of s =
        { des := des
          device := some
            { des := des, pid := NO_PID, ref := devref_init, rm_data := rm_data, vdevs := []
              event_dispatch_list := event_dispatch_list_init }
          vdev_slots := fun _ => none
          files := []
          opening := []
          unplug := .bound
          destroyed := 0
          next_ptr := 0 } := by
  unfold modac_mngdev_create at h
  cases hinit : modac_rm_init hw_res_defs true with
  | error err =>
    rw [hinit] at h
    cases h
  | ok rm_data =>
    rw [hinit, Except.ok.injEq] at h
    rw [← h]
    exact ⟨rm_data, rfl, rfl⟩

theorem ptrsGiven_of_create {hs : modac_hw_support_def H A O} {des : modac_mngdev_des} {hw : H}
    {hw_res_defs : List modac_hw_res_def} {s : modac_state H}
    (h : modac_mngdev_create hs des hw hw_res_defs = .ok s) : PtrsGiven (usage_of s) := by
  obtain ⟨rm_data, -, heq⟩ := usage_of_create h
  rw [heq]
  constructor
  · intro d hd
    cases hd
    exact List.nodup_nil
  · intro d hd r hr
    cases hd
    cases hr

end evrma.system
