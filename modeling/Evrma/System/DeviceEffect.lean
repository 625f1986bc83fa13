import Mathlib.Logic.Relation
import Evrma.System.Vdevs

namespace evrma.system

open evrma.event_list evrma.ioctl evrma.mng_dev evrma.rm evrma.virt_dev

variable {H A O : Type}

/-- The VIRT_DEVs, the owners of the resources and the subscriptions are the same. -/
structure SameUse (d d' : mngdev_usage) : Prop extends SameVdevs d d' where
  event_dispatch_list : d'.event_dispatch_list = d.event_dispatch_list

/-- All events that a VIRT_DEV is subscribed to. -/
def all_subscriptions (list : event_dispatch_list Nat) : event_list_type :=
  event_dispatch_list_add_subscribed_events list event_list_clear

/-- The hardware after `modac_c_vdev_init_res`. -/
def init_res_hw (hs : modac_hw_support_def H A O) (hw_res_def_count : Nat) (v : modac_vdev_des)
    (hw : H) : H :=
  (List.range hw_res_def_count).foldl (fun hw (i : Nat) =>
    (v.res_type_data i).res_alloc_index.foldl (fun hw j => (hs.init_res hw i j).1) hw) hw

/-- One call for debugging. -/
inductive dbg_call (hs : modac_hw_support_def H A O) (hw : H) : H → Prop where
  | show_dbg (f : H → H) (hf : hs.show_dbg = some f) : dbg_call hs hw (f hw)
  | store_dbg (f : H → H) (hf : hs.store_dbg = some f) : dbg_call hs hw (f hw)
  | dbg_res (f : H → Int → Int → H) (hf : hs.dbg_res = some f) (res_type res_index : Int) :
      dbg_call hs hw (f hw res_type res_index)
  | dbg_regs (f : H → Nat → BitVec 32 → BitVec 32 → H) (hf : hs.dbg_regs = some f) (io_size : Nat)
      (regs_offset regs_length : BitVec 32) : dbg_call hs hw (f hw io_size regs_offset regs_length)
  | dbg_info (f : H → H) (hf : hs.dbg_info = some f) : dbg_call hs hw (f hw)

abbrev dbg_calls (hs : modac_hw_support_def H A O) : H → H → Prop :=
  Relation.ReflTransGen (dbg_call hs)

/-- What a step does to a device with a valid reference, with the reasons for which it does it. -/
inductive device_effect (hs : modac_hw_support_def H A O) (s : modac_state H) (m : mngdev_data H) :
    op A → mngdev_data H → Prop where
  | quiet (a : op A) (m' : mngdev_data H) (hhw : m'.hw = m.hw)
      (huse : SameUse (mngdev_usage_of m) (mngdev_usage_of m')) : device_effect hs s m a m'
  | dbg (a : op A) (m' : mngdev_data H) (hhw : dbg_calls hs m.hw m'.hw)
      (huse : SameUse (mngdev_usage_of m) (mngdev_usage_of m')) : device_effect hs s m a m'
  | create (v : modac_vdev_des) (i : inode) (cmd : ioctl_cmd) (arg : mngdev_ioctl_arg A)
      (hres : ∀ t, (v.res_type_data t).res_alloc_index = []) (husage : v.usage_counter = 0) :
      device_effect hs s m (.mngdev_ioctl i cmd arg) { m with vdev_list := v :: m.vdev_list }
  | alloc (v : modac_vdev_des) (i : inode) (cmd : ioctl_cmd) (arg : mngdev_ioctl_arg A)
      (args : mngdev_ioctl_res) (rm_data : res_data) (index t k : Nat)
      (hfind : list_find_vdev m args.id_vdev = some v) (husage : v.usage_counter ≤ 0)
      (halloc : modac_rm_alloc m.rm_data args.id_vdev.toNat args.resource_id.toList
        args.resource_real_index args.arg_filter = (rm_data, .ok (index, ⟨t, k⟩))) :
      device_effect hs s m (.mngdev_ioctl i cmd arg)
        (update_vdev { m with rm_data } v.ptr fun w =>
          (vdev_on_res_add { m with rm_data } w ⟨t, k⟩).1)
  | destroy (v : modac_vdev_des) (i : inode) (cmd : ioctl_cmd) (arg : mngdev_ioctl_arg A)
      (args : mngdev_ioctl_destroy) (m' : mngdev_data H) (hfor : DestroyFor m cmd arg args v)
      (hhw : m'.hw =
        (hs.on_subscribe_change m.hw (all_subscriptions m'.event_dispatch_list)).1)
      (huse : SameUse ((mngdev_usage_of m).destroy (vdev_usage_of v)) (mngdev_usage_of m')) :
      device_effect hs s m (.mngdev_ioctl i cmd arg) m'
  | mngdev_hw (i : inode) (cmd : ioctl_cmd) (arg : mngdev_ioctl_arg A)
      (ioctl : H → hw_resources → ioctl_cmd → A → H × Int × Option O) (res : hw_resources)
      (hioctl : hs.ioctl = some ioctl) (htype : cmd.type = MNG_DEV_IOC_MAGIC)
      (haccess : (cmd.checks_access && !arg.access_ok) = false)
      (hnr : MNG_DEV_HW_IOC_MIN ≤ cmd.nr ∧ cmd.nr ≤ MNG_DEV_HW_IOC_MAX)
      (hres : mngdev_hw_resources m arg.header arg.stack = .ok res) :
      device_effect hs s m (.mngdev_ioctl i cmd arg)
        { m with hw := (ioctl m.hw res cmd arg.hw).1 }
  | vdev_open (v : modac_vdev_des) (i : inode) (kmalloc : Bool) (m' : mngdev_data H)
      (hhw : m'.hw = m.hw)
      (huse : SameUse ((mngdev_usage_of m).update v.ptr fun r =>
        { r with usage_counter := r.usage_counter + 1 }) (mngdev_usage_of m')) :
      device_effect hs s m (.vdev_open i kmalloc) m'
  | close (v : modac_vdev_des) (i : inode) (m' : mngdev_data H) (hv : vdev_at m v.ptr = some v)
      (hfile : ⟨i, .vdev v.ptr⟩ ∈ s.files) (hlast : ¬ v.usage_counter - 1 < 1)
      (hhw : m'.hw = m.hw)
      (huse : SameUse ((mngdev_usage_of m).leave (vdev_usage_of v)) (mngdev_usage_of m')) :
      device_effect hs s m (.vdev_release i v.ptr) m'
  | last_close (v : modac_vdev_des) (i : inode) (m' : mngdev_data H)
      (hv : vdev_at m v.ptr = some v) (hfile : ⟨i, .vdev v.ptr⟩ ∈ s.files)
      (hlast : v.usage_counter - 1 < 1)
      (hhw : m'.hw = (hs.on_subscribe_change
        (if v.leave_res_set_on_last_close = 0 then
          init_res_hw hs m.rm_data.hw_res_def_count v m.hw
        else m.hw) (all_subscriptions m'.event_dispatch_list)).1)
      (huse : SameUse ((mngdev_usage_of m).leave (vdev_usage_of v)) (mngdev_usage_of m')) :
      device_effect hs s m (.vdev_release i v.ptr) m'
  | vdev_hw (v : modac_vdev_des) (i : inode) (cmd : ioctl_cmd) (arg : vdev_ioctl_arg A)
      (ioctl : H → hw_resources → ioctl_cmd → A → H × Int × Option O)
      (header : vdev_ioctl_hw_header) (res : modac_rm_vres_desc) (hv : vdev_at m v.ptr = some v)
      (hfile : ⟨i, .vdev v.ptr⟩ ∈ s.files) (hioctl : hs.ioctl = some ioctl)
      (htype : cmd.type = VIRT_DEV_IOC_MAGIC) (hheader : arg.header = some header)
      (hres : vdev_res_desc m v header.vres arg.stack.1 = some res) :
      device_effect hs s m (.vdev_ioctl i v.ptr cmd arg)
        { m with hw := (ioctl m.hw (res, arg.stack.2) cmd arg.hw).1 }
  | direct (v : modac_vdev_des) (i : inode) (cmd : ioctl_cmd) (arg : vdev_ioctl_arg A)
      (direct_ioctl : H → ioctl_cmd → A → H × Int × Option O)
      (hioctl : hs.direct_ioctl = some direct_ioctl) :
      device_effect hs s m (.vdev_ioctl i v.ptr cmd arg)
        { m with hw := (direct_ioctl m.hw cmd arg.hw).1 }
  | subscribe (v : modac_vdev_des) (i : inode) (cmd : ioctl_cmd) (arg : vdev_ioctl_arg A)
      (event : Int) (action : BitVec 8) (m' : mngdev_data H)
      (hhw : m'.hw =
        (hs.on_subscribe_change m.hw (all_subscriptions m'.event_dispatch_list)).1)
      (huse : SameUse { mngdev_usage_of m with
        event_dispatch_list := subscriptions_after m.event_dispatch_list v.ptr event action }
        (mngdev_usage_of m')) :
      device_effect hs s m (.vdev_ioctl i v.ptr cmd arg) m'
  | hw_reset (v : modac_vdev_des) (hv : vdev_at m v.ptr = some v) :
      device_effect hs s m (.vdev_sysfs v.ptr .store_hw_reset)
        { m with hw := init_res_hw hs m.rm_data.hw_res_def_count v m.hw }

theorem SameUse.refl (d : mngdev_usage) : SameUse d d := ⟨.refl d, rfl⟩

theorem SameUse.of_eq {d d' : mngdev_usage} (h : d' = d) : SameUse d d' := by
  rw [h]
  exact .refl d

theorem on_subscribe_change_of_valid {hs : modac_hw_support_def H A O} {m : mngdev_data H}
    (hvalid : m.ref.ref_ptr = true) :
    (on_subscribe_change hs m).1 =
      { m with
        hw := (hs.on_subscribe_change m.hw (all_subscriptions m.event_dispatch_list)).1 } := by
  rw [on_subscribe_change, if_pos hvalid]
  rfl

theorem remove_all_of_valid (hs : modac_hw_support_def H A O) {m : mngdev_data H}
    (hvalid : m.ref.ref_ptr = true) (ptr : Nat) :
    mngdev_event_dispatch_list_remove_all hs m ptr =
      { m with
        event_dispatch_list := event_dispatch_list_remove_all m.event_dispatch_list ptr
        hw := (hs.on_subscribe_change m.hw
          (all_subscriptions (event_dispatch_list_remove_all m.event_dispatch_list ptr))).1 } := by
  rw [mngdev_event_dispatch_list_remove_all, on_subscribe_change_of_valid (by exact hvalid)]

theorem drvdat_put_eq_some {hs : modac_hw_support_def H A O} {m m' : mngdev_data H}
    {slots : vdev_slots} {i : Option inode} {vdev_des : Option Nat}
    (h : (drvdat_put hs m slots i vdev_des).1 = some m') :
    m' = { m with ref := (devref_put m.ref i).1 } := by
  unfold drvdat_put at h
  dsimp only at h
  split_ifs at h
  exact (Option.some.inj h).symm

/-- What all calls of `init_res` for the resources of the VIRT_DEV do, `modac_c_vdev_init_res`
does. -/
theorem init_res_hw_of_calls {hs : modac_hw_support_def H A O} {v : modac_vdev_des}
    {R : H → H → Prop} (hrefl : ∀ hw, R hw hw)
    (htrans : ∀ hw hw' hw'', R hw hw' → R hw' hw'' → R hw hw'')
    (hcall : ∀ hw (t : Nat) (index : Int), index ∈ (v.res_type_data t).res_alloc_index →
      R hw (hs.init_res hw t index).1) (hw_res_def_count : Nat) (hw : H) :
    R hw (init_res_hw hs hw_res_def_count v hw) := by
  have htype : ∀ (t : Nat) (indexes : List Int),
      (∀ index ∈ indexes, index ∈ (v.res_type_data t).res_alloc_index) → ∀ hw,
        R hw (indexes.foldl (fun hw j => (hs.init_res hw t j).1) hw) := by
    intro t indexes
    induction indexes with
    | nil => exact fun _ hw => hrefl hw
    | cons index indexes ih =>
      intro hmem hw
      exact htrans _ _ _ (hcall hw t index (hmem index List.mem_cons_self))
        (ih (fun i hi => hmem i (List.mem_cons_of_mem index hi)) _)
  unfold init_res_hw
  generalize List.range hw_res_def_count = types
  induction types generalizing hw with
  | nil => exact hrefl hw
  | cons t types ih => exact htrans _ _ _ (htype t _ (fun _ h => h) hw) (ih _)

/-- A loop of calls for debugging. -/
theorem dbg_calls_foldl {hs : modac_hw_support_def H A O} {β : Type*} {f : H → β → H}
    (hf : ∀ hw x, dbg_calls hs hw (f hw x)) (xs : List β) (hw : H) :
    dbg_calls hs hw (xs.foldl f hw) := by
  induction xs generalizing hw with
  | nil => exact .refl
  | cons x xs ih => exact (hf hw x).trans (ih (f hw x))

theorem dbg_all_res_calls (hs : modac_hw_support_def H A O) (rm : res_data) (hw : H) :
    dbg_calls hs hw (dbg_all_res hs rm hw) := by
  unfold dbg_all_res
  cases hdbg : hs.dbg_res with
  | none => exact .refl
  | some dbg_res =>
    apply dbg_calls_foldl
    intro hw i
    apply dbg_calls_foldl
    exact fun hw j => .single (.dbg_res dbg_res hdbg i j)

/-- What is printed of the MNG_DEV is read by calls for debugging. -/
theorem mngdev_sysfs_effect (hs : modac_hw_support_def H A O) (s : modac_state H)
    (m : mngdev_data H) (sysfs : mngdev_sysfs) :
    device_effect hs s m (.mngdev_sysfs sysfs) (mngdev_sysfs_op hs m sysfs).1 := by
  refine .dbg _ _ ?_ (.of_eq (mngdev_usage_of_mngdev_sysfs hs m sysfs))
  unfold mngdev_sysfs_op
  split_ifs
  · exact .refl
  · cases sysfs with
    | show_alloc => exact .refl
    | show_dbg =>
      cases hdbg : hs.show_dbg with
      | none => exact .refl
      | some show_dbg => exact .single (.show_dbg show_dbg hdbg)
    | store_dbg =>
      cases hdbg : hs.store_dbg with
      | none => exact .refl
      | some store_dbg => exact .single (.store_dbg store_dbg hdbg)
    | show_hw_regs =>
      cases hdbg : hs.dbg_regs with
      | none => exact .refl
      | some dbg_regs => exact .single (.dbg_regs dbg_regs hdbg _ _ _)
    | store_hw_regs regs_offset regs_length => exact .refl
    | show_hw_info =>
      cases hdbg : hs.dbg_info with
      | none => exact dbg_all_res_calls hs m.rm_data m.hw
      | some dbg_info =>
        exact (Relation.ReflTransGen.single (dbg_call.dbg_info dbg_info hdbg)).trans
          (dbg_all_res_calls hs m.rm_data (dbg_info m.hw))
    | show_events => exact .refl

theorem vdev_sysfs_effect (hs : modac_hw_support_def H A O) (s : modac_state H)
    {m : mngdev_data H} {v : modac_vdev_des} (hv : vdev_at m v.ptr = some v) (sysfs : vdev_sysfs)
    (hvalid : m.ref.ref_ptr = true) :
    device_effect hs s m (.vdev_sysfs v.ptr sysfs) (vdev_sysfs_op hs m v sysfs).1 := by
  have huse := SameUse.of_eq (mngdev_usage_of_vdev_sysfs hs m v sysfs)
  unfold vdev_sysfs_op at huse ⊢
  rw [if_neg (by simp [hvalid])] at huse ⊢
  cases sysfs with
  | show_config =>
    refine .dbg _ _ ?_ huse
    cases hdbg : hs.dbg_res with
    | none => exact .refl
    | some dbg_res =>
      apply dbg_calls_foldl
      intro hw i
      apply dbg_calls_foldl
      exact fun hw j => .single (.dbg_res dbg_res hdbg i j)
  | store_hw_reset => exact .hw_reset v hv
  | store_config val =>
    refine .quiet _ _ ?_ huse
    cases val <;> rfl

/-- The ioctls of the MNG_DEV. -/
theorem mngdev_ioctl_device_effect {hs : modac_hw_support_def H A O} {s : modac_state H}
    {m : mngdev_data H} (hnew : ∀ w ∈ m.vdev_list, w.ptr ≠ s.next_ptr) (i : inode)
    (cmd : ioctl_cmd) (arg : mngdev_ioctl_arg A) :
    device_effect hs s m (.mngdev_ioctl i cmd arg)
      (mngdev_unlocked_ioctl hs m s.vdev_slots s.next_ptr cmd arg).mngdev := by
  have heffect : mngdev_ioctl_effect hs m s.vdev_slots s.next_ptr cmd arg _ _ :=
    mngdev_unlocked_ioctl_effect hnew
  generalize (mngdev_unlocked_ioctl hs m s.vdev_slots s.next_ptr cmd arg).mngdev = m' at heffect ⊢
  generalize (mngdev_unlocked_ioctl hs m s.vdev_slots s.next_ptr cmd arg).vdev_slots = slots'
    at heffect
  cases heffect with
  | none => exact .quiet _ _ rfl (.refl _)
  | hw_ioctl ioctl res hvalid hioctl htype haccess hnr hres =>
    exact .mngdev_hw i cmd arg ioctl res hioctl htype haccess hnr hres
  | create v imngdev ivdev hptr hid hnew husage hres hcolumn hfree =>
    exact .create v i cmd arg hres husage
  | destroy v args hvalid hcmd haccess hargs hfind =>
    refine .destroy v i cmd arg args _ ⟨hvalid, hcmd, haccess, hargs, hfind⟩ ?_
      (.of_eq (mngdev_usage_of_destroy hs m s.vdev_slots v))
    simp only [list_destroy_vdev, if_true, remove_all_of_valid hs hvalid]
  | alloc v args rm_data index t k hvalid hcmd haccess hargs hfind husage halloc =>
    exact .alloc v i cmd arg args rm_data index t k hfind husage halloc

/-- The ioctls of a VIRT_DEV. -/
theorem vdev_ioctl_device_effect (hs : modac_hw_support_def H A O) {s : modac_state H}
    {m : mngdev_data H} {v : modac_vdev_des} {i : inode} (hv : vdev_at m v.ptr = some v)
    (hfile : ⟨i, .vdev v.ptr⟩ ∈ s.files) (cmd : ioctl_cmd) (arg : vdev_ioctl_arg A) :
    device_effect hs s m (.vdev_ioctl i v.ptr cmd arg) (vdev_unlocked_ioctl hs m v cmd arg).1 := by
  have hioctl := vdev_unlocked_ioctl_effect hs m v cmd arg
  generalize (vdev_unlocked_ioctl hs m v cmd arg).1 = m' at hioctl
  cases hioctl with
  | none => exact .quiet _ _ rfl (.refl _)
  | direct_ioctl direct_ioctl haccess hdenied hioctl htype =>
    exact .direct v i cmd arg direct_ioctl hioctl
  | hw_ioctl ioctl header res hvalid hioctl htype hheader hres =>
    exact .vdev_hw v i cmd arg ioctl header res hv hfile hioctl htype hheader hres
  | subscribe args hvalid hcmd haccess hargs hret =>
    have hvalid' : (change_subscriptions m v.ptr args.event args.action).1.ref.ref_ptr = true := by
      have href := congrArg mngdev_usage.ref
        (mngdev_usage_of_change_subscriptions m v.ptr args.event args.action)
      exact (congrArg devref.ref_ptr href).trans hvalid
    have hhw : (change_subscriptions m v.ptr args.event args.action).1.hw = m.hw := by
      unfold change_subscriptions
      split_ifs <;> rfl
    refine .subscribe v i cmd arg args.event args.action _ ?_ (.of_eq ?_)
    · rw [on_subscribe_change_of_valid hvalid', hhw]
    · rw [mngdev_usage_of_subscribe_change, mngdev_usage_of_change_subscriptions]

/-- The close of a VIRT_DEV, up to the release of the reference. -/
theorem vdev_leave_hw (hs : modac_hw_support_def H A O) {m : mngdev_data H} (v : modac_vdev_des)
    (hvalid : m.ref.ref_ptr = true) :
    (vdev_leave hs m v).hw =
      if v.usage_counter - 1 < 1 then
        (hs.on_subscribe_change
          (if v.leave_res_set_on_last_close = 0 then
            init_res_hw hs m.rm_data.hw_res_def_count v m.hw
          else m.hw) (all_subscriptions (vdev_leave hs m v).event_dispatch_list)).1
      else m.hw := by
  unfold vdev_leave
  dsimp only
  by_cases hlast : v.usage_counter - 1 < 1
  · rw [if_pos hlast, if_pos hlast]
    by_cases hflag : v.leave_res_set_on_last_close = 0
    · rw [if_pos ⟨hflag, hvalid⟩, if_pos hflag, remove_all_of_valid hs (by exact hvalid)]
      rfl
    · rw [if_neg fun h => hflag h.1, if_neg hflag, remove_all_of_valid hs (by exact hvalid)]
      rfl
  · rw [if_neg hlast, if_neg hlast]
    rfl

theorem vdev_release_effect (hs : modac_hw_support_def H A O) {s : modac_state H}
    {m m' : mngdev_data H} {v : modac_vdev_des} {i : inode} (hv : vdev_at m v.ptr = some v)
    (hfile : ⟨i, .vdev v.ptr⟩ ∈ s.files) (hvalid : m.ref.ref_ptr = true)
    (hm' : m' = { vdev_leave hs m v with ref := (devref_put (vdev_leave hs m v).ref (some i)).1 }) :
    device_effect hs s m (.vdev_release i v.ptr) m' := by
  have hhw := vdev_leave_hw hs v hvalid
  have huse : SameUse ((mngdev_usage_of m).leave (vdev_usage_of v)) (mngdev_usage_of m') := by
    rw [← mngdev_usage_of_leave hs, hm']
    exact ⟨⟨rfl, rfl, rfl⟩, rfl⟩
  have hlist : (vdev_leave hs m v).event_dispatch_list = m'.event_dispatch_list := by rw [hm']
  have hsame : m'.hw = (vdev_leave hs m v).hw := by rw [hm']
  rw [hlist, ← hsame] at hhw
  by_cases hlast : v.usage_counter - 1 < 1
  · rw [if_pos hlast] at hhw
    exact .last_close v i m' hv hfile hlast hhw huse
  · rw [if_neg hlast] at hhw
    exact .close v i m' hv hfile hlast hhw huse

/-- A reference that is valid after a step was valid before. -/
theorem valid_before {u u' : usage_state} {a : op A} (heffect : usage_effect u a u')
    {d' : mngdev_usage} (hd' : u'.device = some d') (hvalid : d'.ref.ref_ptr = true) :
    ∀ d, u.device = some d → d.ref.ref_ptr = true := by
  intro d₀ hd₀
  cases heffect with
  | none _ n hn =>
    obtain rfl := Option.some.inj (hd₀.symm.trans hd')
    exact hvalid
  | mngdev_open d i kmalloc hd hret =>
    obtain rfl := Option.some.inj (hd₀.symm.trans hd)
    cases hd'
    exact (devref_get_count d₀.ref (some i) kmalloc).1.symm.trans hvalid
  | mngdev_open_busy d i pid hd hi hpid =>
    obtain rfl := Option.some.inj (hd₀.symm.trans hd')
    exact hvalid
  | mngdev_open_finish d i pid hd hi hpid =>
    obtain rfl := Option.some.inj (hd₀.symm.trans hd)
    cases hd'
    exact hvalid
  | mngdev_release d i hd hfile =>
    obtain rfl := Option.some.inj (hd₀.symm.trans hd)
    rw [put_device hd'] at hvalid
    exact hvalid
  | create d r i cmd arg imngdev ivdev hd =>
    obtain rfl := Option.some.inj (hd₀.symm.trans hd)
    cases hd'
    exact hvalid
  | destroy d r i cmd arg args hd hvalid₀ =>
    obtain rfl := Option.some.inj (hd₀.symm.trans hd)
    exact hvalid₀
  | alloc d r i cmd arg args rm_data index t k hd hvalid₀ =>
    obtain rfl := Option.some.inj (hd₀.symm.trans hd)
    exact hvalid₀
  | vdev_open d r i kmalloc imngdev ivdev hd hr hslot hret =>
    obtain rfl := Option.some.inj (hd₀.symm.trans hd)
    cases hd'
    exact (devref_get_count d₀.ref (some i) kmalloc).1.symm.trans hvalid
  | vdev_release d r i hd hr hfile =>
    obtain rfl := Option.some.inj (hd₀.symm.trans hd)
    rw [put_device hd'] at hvalid
    exact hvalid
  | subscribe d r i cmd arg event action hd hr hfile =>
    obtain rfl := Option.some.inj (hd₀.symm.trans hd)
    cases hd'
    exact hvalid
  | destroy_unlist hunplug =>
    obtain rfl := Option.some.inj (hd₀.symm.trans hd')
    exact hvalid
  | destroy_finish d hd hunplug =>
    rw [put_device hd'] at hvalid
    cases hvalid

/-- Every step that leaves a device with a valid reference has one of these effects. -/
theorem device_effect_of_step {hs : modac_hw_support_def H A O} {s t : modac_state H} {a : op A}
    (hptrs : PtrsGiven (usage_of s)) (hstep : step hs s a = some t) {m' : mngdev_data H}
    (hm' : t.mngdev = some m') (hvalid : m'.ref.ref_ptr = true) :
    ∃ m, s.mngdev = some m ∧ m.ref.ref_ptr = true ∧ device_effect hs s m a m' := by
  have hbefore : ∀ m, s.mngdev = some m → m.ref.ref_ptr = true := fun m hm =>
    valid_before (usage_effect_of_step hptrs hstep) (usage_of_device hm') hvalid _
      (usage_of_device hm)
  cases effect_of_step hstep with
  | none => exact ⟨m', hm', hvalid, .quiet _ _ rfl (.refl _)⟩
  | mngdev_open m i kmalloc hm =>
    obtain rfl := Option.some.inj hm'
    exact ⟨m, hm, hbefore m hm, .quiet _ _ rfl ⟨⟨rfl, rfl, rfl⟩, rfl⟩⟩
  | mngdev_open_busy => exact ⟨m', hm', hvalid, .quiet _ _ rfl (.refl _)⟩
  | mngdev_open_finish m i pid hm =>
    obtain rfl := Option.some.inj hm'
    exact ⟨m, hm, hvalid, .quiet _ _ rfl ⟨⟨rfl, rfl, rfl⟩, rfl⟩⟩
  | mngdev_release m i hm =>
    obtain rfl := drvdat_put_eq_some hm'
    exact ⟨m, hm, hvalid, .quiet _ _ rfl ⟨⟨rfl, rfl, rfl⟩, rfl⟩⟩
  | mngdev_ioctl m i cmd arg hm =>
    obtain rfl := Option.some.inj hm'
    have hnew : ∀ w ∈ m.vdev_list, w.ptr ≠ s.next_ptr := fun w hw =>
      Nat.ne_of_lt (hptrs.lt _ (usage_of_device hm) (vdev_usage_of w) (List.mem_map_of_mem hw))
    exact ⟨m, hm, hbefore m hm, mngdev_ioctl_device_effect hnew i cmd arg⟩
  | mngdev_sysfs m sysfs hm =>
    obtain rfl := Option.some.inj hm'
    exact ⟨m, hm, hbefore m hm, mngdev_sysfs_effect hs s m sysfs⟩
  | vdev_open m i kmalloc imngdev ivdev v hm =>
    obtain rfl := Option.some.inj hm'
    have hupdate : mngdev_usage_of (update_vdev
          { m with ref := (devref_get m.ref (some i) kmalloc).1 } v.ptr
          fun v => { v with usage_counter := v.usage_counter + 1 }) =
        (mngdev_usage_of { m with ref := (devref_get m.ref (some i) kmalloc).1 }).update v.ptr
          fun r => { r with usage_counter := r.usage_counter + 1 } :=
      mngdev_usage_of_update fun _ _ _ => rfl
    refine ⟨m, hm, hbefore m hm, .vdev_open v i kmalloc _ rfl ?_⟩
    rw [hupdate]
    exact ⟨⟨rfl, rfl, rfl⟩, rfl⟩
  | vdev_release m i v hm hv hfile =>
    exact ⟨m, hm, hbefore m hm,
      vdev_release_effect hs hv hfile (hbefore m hm) (drvdat_put_eq_some hm')⟩
  | vdev_ioctl m i v cmd arg hm hv hfile =>
    obtain rfl := Option.some.inj hm'
    exact ⟨m, hm, hbefore m hm, vdev_ioctl_device_effect hs hv hfile cmd arg⟩
  | vdev_read m i v v' buf_len nonblock copy_to_user ret events hm hv hfile hread =>
    obtain rfl := Option.some.inj hm'
    exact ⟨m, hm, hbefore m hm, .quiet _ _ rfl (.of_eq (vdev_read_mngdev_usage hptrs hm hv hread))⟩
  | vdev_sysfs m v sysfs hm hv =>
    obtain rfl := Option.some.inj hm'
    exact ⟨m, hm, hbefore m hm, vdev_sysfs_effect hs s hv sysfs (hbefore m hm)⟩
  | put_event m event data hm =>
    obtain rfl := Option.some.inj hm'
    exact ⟨m, hm, hbefore m hm,
      .quiet _ _ (process_event_hw m event _) (.of_eq (mngdev_usage_of_put_event m event data))⟩
  | notify m event hm =>
    obtain rfl := Option.some.inj hm'
    exact ⟨m, hm, hbefore m hm,
      .quiet _ _ (process_event_hw m event _) (.of_eq (mngdev_usage_of_notify m event))⟩
  | destroy_unlist => exact ⟨m', hm', hvalid, .quiet _ _ rfl (.refl _)⟩
  | destroy_finish m hm =>
    obtain rfl := drvdat_put_eq_some hm'
    cases hvalid

end evrma.system
