import Evrma.System.Isolation

namespace evrma.system

open evrma.ioctl evrma.lib evrma.mng_dev evrma.rm evrma.virt_dev

variable {H A O : Type}

/-- The resource is the one that the request names, by its place in the VIRT_DEV's list. -/
structure NamesRes (v : modac_vdev_des) (vres : mngdev_ioctl_hw_header_vres) (t index : Nat) :
    Prop where
  type : vres.type = t
  nonneg : 0 ≤ vres.index
  place : (v.res_type_data t).res_alloc_index[vres.index.toNat]? = some (index : Int)

/-- The command is one of those that go to the hardware under the mutex. -/
structure HwRange (cmd : ioctl_cmd) : Prop where
  type : cmd.type = VIRT_DEV_IOC_MAGIC
  direct : ¬ (VIRT_DEV_HW_DIRECT_IOC_MIN ≤ cmd.nr ∧ cmd.nr ≤ VIRT_DEV_HW_DIRECT_IOC_MAX)
  general : ¬ cmd.nr ≤ VIRT_DEV_IOC_MAX
  nr : VIRT_DEV_HW_IOC_MIN ≤ cmd.nr ∧ cmd.nr ≤ VIRT_DEV_HW_IOC_MAX

instance (cmd : ioctl_cmd) : Decidable (HwRange cmd) :=
  decidable_of_iff (cmd.type = VIRT_DEV_IOC_MAGIC ∧
      ¬ (VIRT_DEV_HW_DIRECT_IOC_MIN ≤ cmd.nr ∧ cmd.nr ≤ VIRT_DEV_HW_DIRECT_IOC_MAX) ∧
      ¬ cmd.nr ≤ VIRT_DEV_IOC_MAX ∧ VIRT_DEV_HW_IOC_MIN ≤ cmd.nr ∧ cmd.nr ≤ VIRT_DEV_HW_IOC_MAX)
    ⟨fun h => ⟨h.1, h.2.1, h.2.2.1, h.2.2.2⟩, fun h => ⟨h.1, h.2, h.3, h.4⟩⟩

/-- What the user gets from an ioctl of the hardware. -/
def user_reply (reply : Int × Option O) : Int × user_out O :=
  (reply.1, reply.2.elim .nothing .hw)

section

variable {hs : modac_hw_support_def H A O} {s t : modac_state H} {m m' : mngdev_data H}
  {v w : modac_vdev_des} {type index : Nat} {vres : mngdev_ioctl_hw_header_vres}

theorem NamesRes.holds (h : NamesRes v vres type index) : holds v type index :=
  List.mem_of_getElem? h.place

/-- Resources keep their places in the lists. -/
theorem NamesRes.of_begins (h : NamesRes v vres type index)
    (hbegins : (v.res_type_data type).res_alloc_index <+: (w.res_type_data type).res_alloc_index) :
    NamesRes w vres type index := by
  refine ⟨h.type, h.nonneg, ?_⟩
  obtain ⟨rest, hrest⟩ := hbegins
  obtain ⟨hlt, -⟩ := List.getElem?_eq_some_iff.mp h.place
  rw [← hrest, List.getElem?_append_left hlt]
  exact h.place

/-- The request gets through to the resource. -/
theorem NamesRes.res_desc (h : NamesRes v vres type index) (howners : OwnersInv (usage_of s))
    (hm : s.mngdev = some m) (hv : v ∈ m.vdev_list) (stack : modac_rm_vres_desc) :
    vdev_res_desc m v vres stack = some ⟨type, index⟩ := by
  have howns := howners.owns_of_holds hm hv h.holds
  have hcount := res_data.has_type_lt (res_data.has_of_owns howns)
  have hnone : vres.type ≠ MODAC_RES_TYPE_NONE := by
    have hneg : (MODAC_RES_TYPE_NONE : Int) = -1 := rfl
    rw [h.type]
    omega
  have htype : ¬ (vres.type < 0 ∨ (m.rm_data.hw_res_def_count : Int) ≤ vres.type) := by
    rw [h.type]
    omega
  have hget : mngdev_vdev_get_vres_desc m v vres stack = ⟨type, index⟩ := by
    have hnat : vres.type.toNat = type := by rw [h.type, Int.toNat_natCast]
    rw [mngdev_vdev_get_vres_desc, if_neg htype, if_neg (Int.not_lt.mpr h.nonneg), hnat, h.place,
      h.type]
  have howner : modac_rm_get_owner m.rm_data ⟨type, index⟩ = v.id.toNat :=
    (modac_rm_get_owner_eq_iff (Int.natCast_nonneg _)).mpr ⟨type, index, rfl, howns⟩
  rw [vdev_res_desc, if_pos hnone, hget, if_neg (not_not_intro howner)]

/-- What the state and the reply of the request are. -/
theorem NamesRes.outcome (h : NamesRes v vres type index) (howners : OwnersInv (usage_of s))
    (hm : s.mngdev = some m) (hvalid : m.ref.ref_ptr = true) (hv : v ∈ m.vdev_list) {i : inode}
    {cmd : ioctl_cmd} (hcmd : HwRange cmd) {arg : vdev_ioctl_arg A}
    {header : vdev_ioctl_hw_header} (hheader : arg.header = some header)
    (hvres : header.vres = vres) {ioctl : H → hw_resources → ioctl_cmd → A → H × Int × Option O}
    (hioctl : hs.ioctl = some ioctl) {r : op_result H O}
    (hexec : exec hs s (.vdev_ioctl i v.ptr cmd arg) = some r) :
    let result := ioctl m.hw (⟨type, index⟩, arg.stack.2) cmd arg.hw
    (cmd.checks_access && !arg.access_ok) = true ∧ r.2 = (-EFAULT, .nothing) ∨
      (cmd.checks_access && !arg.access_ok) = false ∧
        r = ({ s with mngdev := some { m with hw := result.1 } }, user_reply result.2) := by
  intro result
  obtain ⟨u, v₀, hu, hat, hptr, -, hr⟩ := on_vdev_file_eq_some hexec
  obtain rfl := Option.some.inj (hm.symm.trans hu)
  obtain rfl := howners.ptrs.eq_of_ptr hm (vdev_at_mem hat).1 hv hptr
  have htype : ¬ cmd.type ≠ VIRT_DEV_IOC_MAGIC := not_not_intro hcmd.type
  dsimp only at hr
  by_cases haccess : (cmd.checks_access && !arg.access_ok) = true
  · left
    rw [vdev_unlocked_ioctl, if_neg htype, if_pos haccess] at hr
    obtain rfl := Option.some.inj hr
    exact ⟨haccess, rfl⟩
  · right
    have href : ¬ m.ref.ref_ptr = false := by simp [hvalid]
    rw [vdev_unlocked_ioctl, if_neg htype, if_neg haccess, if_neg hcmd.direct, if_neg href,
      if_neg hcmd.general, if_pos hcmd.nr, hheader] at hr
    dsimp only at hr
    rw [modac_c_vdev_do_ioctl, hvres, h.res_desc howners hm hv, hioctl] at hr
    obtain rfl := Option.some.inj hr
    exact ⟨Bool.eq_false_of_not_eq_true haccess, rfl⟩

/-- A device that is valid at the end was so before. -/
theorem valid_of_run (howners : OwnersInv (usage_of s)) {ops : List (op A)}
    (hrun : run (step hs) s ops = some t) (hm' : t.mngdev = some m')
    (hvalid' : m'.ref.ref_ptr = true) : ∃ m, s.mngdev = some m ∧ m.ref.ref_ptr = true := by
  induction ops generalizing s with
  | nil =>
    obtain rfl := Option.some.inj hrun
    exact ⟨m', hm', hvalid'⟩
  | cons a ops ih =>
    obtain ⟨u, hstep, hrest⟩ := run_cons_eq_some.mp hrun
    obtain ⟨m₁, hm₁, hvalid₁⟩ :=
      ih (howners.step (usage_effect_of_step howners.ptrs hstep)) hrest
    obtain ⟨m, hm, hvalid, -⟩ := device_effect_of_step howners.ptrs hstep hm₁ hvalid₁
    exact ⟨m, hm, hvalid⟩

variable {Kept : H → H → Prop} {resets writes : ioctl_cmd → Prop}

/-- A request that is made after another one, and after whatever the others did in between, finds
the resource as the first one has left it. -/
theorem NamesRes.later_reply (hframe : ResFrame hs type index Kept resets writes)
    {ioctl : H → hw_resources → ioctl_cmd → A → H × Int × Option O}
    (hioctl : hs.ioctl = some ioctl) (howners : OwnersInv (usage_of s)) (hm : s.mngdev = some m)
    (hv : v ∈ m.vdev_list) {header : vdev_ioctl_hw_header}
    (hnames : NamesRes v header.vres type index) {i j : inode} {cmd cmd' : ioctl_cmd}
    (hcmd : HwRange cmd) (hcmd' : HwRange cmd') {arg arg' : vdev_ioctl_arg A}
    (hheader : arg.header = some header) (hheader' : arg'.header = some header)
    (haccess' : arg'.access_ok = true) {s₁ : modac_state H} {ret : Int} {out : user_out O}
    (hexec : exec hs s (.vdev_ioctl i v.ptr cmd arg) = some (s₁, ret, out))
    (hret : ret ≠ -EFAULT) {ops : List (op A)}
    (hleaves : ∀ a ∈ ops, LeavesRes type resets writes v a)
    (hrun : run (step hs) s₁ ops = some t) (hm' : t.mngdev = some m')
    (hvalid' : m'.ref.ref_ptr = true) {r : op_result H O}
    (hexec' : exec hs t (.vdev_ioctl j v.ptr cmd' arg') = some r) :
    let result := ioctl m.hw (⟨type, index⟩, arg.stack.2) cmd arg.hw
    (ret, out) = user_reply result.2 ∧ ∃ hw', Kept result.1 hw' ∧
      r.2 = user_reply (ioctl hw' (⟨type, index⟩, arg'.stack.2) cmd' arg'.hw).2 := by
  intro result
  have hstep : step hs s (.vdev_ioctl i v.ptr cmd arg) = some s₁ := by
    rw [step, hexec]
    rfl
  have howners₁ := howners.step (usage_effect_of_step howners.ptrs hstep)
  obtain ⟨m₁, hm₁, hvalid₁⟩ := valid_of_run howners₁ hrun hm' hvalid'
  obtain ⟨u, hu, hvalid, -⟩ := device_effect_of_step howners.ptrs hstep hm₁ hvalid₁
  obtain rfl := Option.some.inj (hm.symm.trans hu)
  obtain ⟨-, hfault⟩ | ⟨-, hr⟩ :=
    hnames.outcome howners hm hvalid hv hcmd hheader rfl hioctl hexec
  · exact absurd (congrArg Prod.fst hfault) hret
  · obtain ⟨rfl, hreply⟩ := Prod.mk.inj hr
    obtain rfl := Option.some.inj hm₁
    obtain ⟨howners', hstill⟩ :=
      stillHeld_of_run hframe howners₁ rfl hv hnames.holds hleaves hrun
    obtain ⟨⟨w, hw, hptr, -, hbegins⟩, -, hkept⟩ := hstill m' hm' hvalid'
    refine ⟨hreply, m'.hw, hkept, ?_⟩
    rw [← hptr] at hexec'
    obtain ⟨haccess, -⟩ | ⟨-, rfl⟩ :=
      (hnames.of_begins (hbegins type)).outcome howners' hm' hvalid' hw hcmd' hheader' rfl hioctl
        hexec'
    · rw [haccess', Bool.not_true, Bool.and_false] at haccess
      cases haccess
    · rfl

end

end evrma.system
