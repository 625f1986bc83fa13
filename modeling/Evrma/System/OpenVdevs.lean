import Evrma.System.Owners

namespace evrma.system

open evrma.event_list evrma.ioctl evrma.lib evrma.mng_dev evrma.rm evrma.virt_dev

variable {H A O : Type}

/-- The file is open on the VIRT_DEV at this address. -/
def opens (ptr : Nat) (f : file) : Bool := f.private_data = .vdev ptr

/-- Every open file of a VIRT_DEV refers to one that is in the list of the MNG_DEV, and
whose resources are its own. -/
def OpenVdevsLive (s : modac_state H) : Prop :=
  ∀ f ∈ s.files, ∀ ptr, opens ptr f = true →
    ∃ m v, s.mngdev = some m ∧ v ∈ m.vdev_list ∧ v.ptr = ptr ∧
      ∀ (t : Nat), ∀ index ∈ (v.res_type_data t).res_alloc_index,
        modac_rm_get_owner m.rm_data ⟨t, index⟩ = v.id.toNat

/-- A VIRT_DEV with users stays in the list, and so do the owners of its resources. -/
def OpenVdevsKept (hs : modac_hw_support_def H A O) (s : modac_state H) (a : op A) : Prop :=
  ∀ u m m' v, step hs s a = some u → s.mngdev = some m → u.mngdev = some m' →
    v ∈ m.vdev_list → 0 < v.usage_counter →
    (∃ w ∈ m'.vdev_list, w.ptr = v.ptr) ∧
      ∀ vres_desc, modac_rm_get_owner m.rm_data vres_desc = v.id.toNat →
        modac_rm_get_owner m'.rm_data vres_desc = v.id.toNat

/-- The VIRT_DEV that a DESTROY names has no users. -/
def DestroysClosed (s : modac_state H) (a : op A) : Prop :=
  ∀ i cmd arg m args v, a = .mngdev_ioctl i cmd arg → s.mngdev = some m →
    DestroyFor m cmd arg args v → v.usage_counter ≤ 0

/-- The users of a VIRT_DEV are the files that are open on it. -/
structure UsersCounted (u : usage_state) : Prop where
  given : ∀ f ∈ u.files, ∀ ptr, opens ptr f = true → ptr < u.next_ptr
  counted : ∀ d, u.device = some d → ∀ r ∈ d.vdevs,
    r.usage_counter = u.files.countP (opens r.ptr)

/-- The files and the counters of the VIRT_DEVs stay. -/
theorem UsersCounted.of_same {u u' : usage_state} (h : UsersCounted u)
    (hfiles : u'.files = u.files) (hnext : u.next_ptr ≤ u'.next_ptr)
    (hvdevs : ∀ d', u'.device = some d' → ∀ r' ∈ d'.vdevs, ∃ d r, u.device = some d ∧
      r ∈ d.vdevs ∧ r'.ptr = r.ptr ∧ r'.usage_counter = r.usage_counter) : UsersCounted u' where
  given f hf ptr hopens := by
    rw [hfiles] at hf
    exact Nat.lt_of_lt_of_le (h.given f hf ptr hopens) hnext
  counted d' hd' r' hr' := by
    obtain ⟨d, r, hd, hr, hptr, husage⟩ := hvdevs d' hd' r' hr'
    rw [hptr, husage, hfiles]
    exact h.counted d hd r hr

/-- The files on the VIRT_DEVs are the same, one on the MNG_DEV may be opened or closed. -/
theorem UsersCounted.of_files {u : usage_state} (h : UsersCounted u) {files : List file}
    (hsub : ∀ f ∈ files, f ∈ u.files ∨ f.private_data = .mngdev)
    (hcount : ∀ ptr, files.countP (opens ptr) = u.files.countP (opens ptr)) :
    UsersCounted { u with files := files } where
  given f hf ptr hopens := by
    obtain hf | hmngdev := hsub f hf
    · exact h.given f hf ptr hopens
    · rw [opens, hmngdev] at hopens
      cases hopens
  counted d hd r hr := by
    rw [hcount]
    exact h.counted d hd r hr

theorem countP_erase {f : file} {files : List file} (hf : f ∈ files) (ptr : Nat) :
    files.countP (opens ptr) = (files.erase f).countP (opens ptr) + if opens ptr f then 1 else 0 := by
  rw [(List.perm_cons_erase hf).countP_eq, List.countP_cons]

theorem UsersCounted.put {u : usage_state} {d : mngdev_usage} {i : Option inode}
    (h : UsersCounted { u with device := some d }) : UsersCounted (u.put d i) := by
  refine UsersCounted.of_same h (put_files _ _ _) (Nat.le_of_eq (put_next_ptr _ _ _).symm) ?_
  intro d' hd' r hr
  rw [put_device hd'] at hr
  exact ⟨d, r, rfl, hr, rfl, rfl⟩

theorem UsersCounted.step {u u' : usage_state} {a : op A} (h : UsersCounted u)
    (hptrs : PtrsGiven u) (heffect : usage_effect u a u') : UsersCounted u' := by
  cases heffect with
  | none _ n hn => exact h.of_same rfl hn fun d hd r hr => ⟨d, r, hd, hr, rfl, rfl⟩
  | mngdev_open d i kmalloc hd hret =>
    refine h.of_same rfl (Nat.le_refl _) fun d' hd' r hr => ?_
    cases hd'
    exact ⟨d, r, hd, hr, rfl, rfl⟩
  | mngdev_open_busy d i pid hd hi hpid =>
    exact h.of_same rfl (Nat.le_refl _) fun d hd r hr => ⟨d, r, hd, hr, rfl, rfl⟩
  | mngdev_open_finish d i pid hd hi hpid =>
    have hfiles : UsersCounted { u with files := ⟨i, .mngdev⟩ :: u.files } := by
      apply h.of_files
      · intro f hf
        obtain rfl | hf := List.mem_cons.mp hf
        · exact .inr rfl
        · exact .inl hf
      · intro ptr
        exact List.countP_cons_of_neg (by simp [opens])
    refine hfiles.of_same rfl (Nat.le_refl _) fun d' hd' r hr => ?_
    cases hd'
    exact ⟨d, r, hd, hr, rfl, rfl⟩
  | mngdev_release d i hd hfile =>
    apply UsersCounted.put
    have hfiles : UsersCounted { u with files := u.files.erase ⟨i, .mngdev⟩ } := by
      apply h.of_files
      · intro f hf
        exact .inl (List.mem_of_mem_erase hf)
      · intro ptr
        rw [countP_erase hfile]
        simp [opens]
    refine hfiles.of_same rfl (Nat.le_refl _) fun d' hd' r hr => ?_
    cases hd'
    exact ⟨d, r, hd, hr, rfl, rfl⟩
  | create d r i cmd arg imngdev ivdev hd hptr hid hnew husage hres hcolumn hfree =>
    constructor
    · intro f hf ptr hopens
      exact Nat.lt_succ_of_lt (h.given f hf ptr hopens)
    · intro d' hd' r' hr'
      cases hd'
      obtain rfl | hr' := List.mem_cons.mp hr'
      · -- no file can be open on an address that was not given out yet
        have hnone : u.files.countP (opens r'.ptr) = 0 := by
          rw [List.countP_eq_zero]
          intro f hf hopens
          have hlt := h.given f hf _ hopens
          omega
        rw [husage, hnone]
        rfl
      · exact h.counted d hd r' hr'
  | destroy d r i cmd arg args hd =>
    refine h.of_same rfl (Nat.le_succ _) fun d' hd' r' hr' => ?_
    cases hd'
    exact ⟨d, r', hd, (mem_destroy.mp hr').1, rfl, rfl⟩
  | alloc d r i cmd arg args rm_data index t k hd =>
    refine h.of_same rfl (Nat.le_succ _) fun d' hd' r' hr' => ?_
    cases hd'
    obtain ⟨r₀, hr₀, rfl⟩ := mem_update.mp hr'
    refine ⟨d, r₀, hd, hr₀, ?_, ?_⟩
    · split_ifs
      · exact add_res_ptr _ _ _
      · rfl
    · split_ifs
      · exact add_res_usage_counter _ _ _
      · rfl
  | vdev_open d r i kmalloc imngdev ivdev hd hr hslot hret =>
    constructor
    · intro f hf ptr hopens
      obtain rfl | hf := List.mem_cons.mp hf
      · have hptr : r.ptr = ptr := by simpa [opens] using hopens
        rw [← hptr]
        exact hptrs.lt d hd r hr
      · exact h.given f hf ptr hopens
    · intro d' hd' r' hr'
      cases hd'
      obtain ⟨r₀, hr₀, rfl⟩ := mem_update.mp hr'
      have hcount := h.counted d hd r₀ hr₀
      rw [List.countP_cons]
      split_ifs with hptr hopens hopens
      · dsimp only
        omega
      · exact absurd (by simp [opens, hptr]) hopens
      · exact absurd (by simpa [opens, eq_comm] using hopens) hptr
      · simpa using hcount
  | vdev_release d r i hd hr hfile =>
    apply UsersCounted.put
    constructor
    · intro f hf ptr hopens
      exact h.given f (List.mem_of_mem_erase hf) ptr hopens
    · intro d' hd' r' hr'
      cases hd'
      obtain ⟨r₀, hr₀, rfl⟩ := mem_update.mp hr'
      have hcount := h.counted d hd r₀ hr₀
      rw [countP_erase hfile] at hcount
      split_ifs at hcount ⊢ with hptr hopens hopens
      · dsimp only
        omega
      · exact absurd (by simp [opens, hptr]) hopens
      · exact absurd (by simpa [opens, eq_comm] using hopens) hptr
      · simpa using hcount
  | subscribe d r i cmd arg event action hd hr hfile =>
    refine h.of_same rfl (Nat.le_refl _) fun d' hd' r' hr' => ?_
    cases hd'
    exact ⟨d, r', hd, hr', rfl, rfl⟩
  | destroy_unlist hunplug =>
    exact h.of_same rfl (Nat.le_refl _) fun d hd r hr => ⟨d, r, hd, hr, rfl, rfl⟩
  | destroy_finish d hd hunplug =>
    apply UsersCounted.put
    refine h.of_same rfl (Nat.le_refl _) fun d' hd' r hr => ?_
    cases hd'
    exact ⟨d, r, hd, hr, rfl, rfl⟩

/-- Every open file of a VIRT_DEV refers to one that is alive. -/
def FilesLive (u : usage_state) : Prop :=
  ∀ f ∈ u.files, ∀ ptr, opens ptr f = true →
    ∃ d r, u.device = some d ∧ r ∈ d.vdevs ∧ r.ptr = ptr

/-- What a DESTROY finds has no users. -/
def UsageDestroysClosed (u : usage_state) (a : op A) : Prop :=
  ∀ i cmd arg args d r, a = .mngdev_ioctl i cmd arg → u.device = some d → d.ref.ref_ptr = true →
    cmd = MNG_DEV_IOC_DESTROY → arg.access_ok = true → arg.destroy = some args →
    d.vdevs.find? (fun r => r.id = args.id) = some r → r.usage_counter ≤ 0

theorem usageDestroysClosed_of {s : modac_state H} {a : op A} (h : DestroysClosed s a) :
    UsageDestroysClosed (usage_of s) a := by
  intro i cmd arg args d r hop hd hvalid hcmd haccess hargs hfind
  obtain ⟨m, hm, rfl⟩ := Option.map_eq_some_iff.mp hd
  obtain ⟨v, hv, rfl⟩ := find_vdev_of_usage hfind
  exact h i cmd arg m args v hop hm ⟨hvalid, hcmd, haccess, hargs, hv⟩

/-- How a VIRT_DEV fares in a step that destroys no VIRT_DEV with users. -/
theorem vdevs_change_keeps {a : op A} {d d' : mngdev_usage} {u : usage_state}
    (hd : u.device = some d) (hinv : OwnersInv u) (hchange : vdevs_change a d d')
    (hclosed : UsageDestroysClosed u a) {r : vdev_usage} (hr : r ∈ d.vdevs)
    (husers : 0 < r.usage_counter) :
    (∃ r' ∈ d'.vdevs, r'.ptr = r.ptr) ∧
      ∀ t k, d.rm_data.owns r.id.toNat t k → d'.rm_data.owns r.id.toNat t k := by
  have hmem_update : ∀ {d : mngdev_usage} {ptr : Nat} {f : vdev_usage → vdev_usage},
      r ∈ d.vdevs → (∀ r, (f r).ptr = r.ptr) → ∃ r' ∈ (d.update ptr f).vdevs, r'.ptr = r.ptr := by
    intro d ptr f hr hf
    refine ⟨_, mem_update.mpr ⟨r, hr, rfl⟩, ?_⟩
    split_ifs
    · exact hf r
    · rfl
  cases hchange with
  | same _ hsame =>
    rw [hsame.vdevs, hsame.rm_data]
    exact ⟨⟨r, hr, rfl⟩, fun _ _ h => h⟩
  | create r₀ _ hsame hid hnew hres =>
    rw [hsame.vdevs, hsame.rm_data]
    exact ⟨⟨r, List.mem_cons_of_mem _ hr, rfl⟩, fun _ _ h => h⟩
  | destroy r₀ i cmd arg args _ hsame hop hvalid hcmd haccess hargs hfind =>
    have hr₀ := List.mem_of_find?_eq_some hfind
    have hnone := hclosed i cmd arg args d r₀ hop hd hvalid hcmd haccess hargs hfind
    have hne : r ≠ r₀ := by
      rintro rfl
      omega
    rw [hsame.vdevs, hsame.rm_data]
    refine ⟨⟨r, mem_destroy.mpr ⟨hr, fun hptr => hne ?_⟩, rfl⟩, fun t k howns => ?_⟩
    · exact List.inj_on_of_nodup_map (hinv.ptrs.nodup d hd) hr hr₀ hptr
    · refine (modac_rm_free_owner_owns (toNat_ne_no_owner r.id)).mpr ⟨howns, fun hid => hne ?_⟩
      exact (hinv.ids d hd).unique hr hr₀ (Int.ofNat.inj hid)
  | alloc r₀ i cmd arg args rm_data index t k _ hsame hop hvalid hcmd haccess hargs hfind husage
      halloc =>
    rw [hsame.vdevs, hsame.rm_data]
    refine ⟨hmem_update hr fun r => add_res_ptr r t k, fun t' k' howns => ?_⟩
    exact (alloc_keeps_owned hfind halloc (toNat_ne_no_owner r.id) howns).2
  | count ptr n _ hsame =>
    rw [hsame.vdevs, hsame.rm_data]
    exact ⟨hmem_update hr fun _ => rfl, fun _ _ h => h⟩

/-- Where the files come from after a step. -/
theorem files_of_effect {u u' : usage_state} {a : op A} (heffect : usage_effect u a u') {f : file}
    (hf : f ∈ u'.files) :
    f ∈ u.files ∨ f.private_data = .mngdev ∨
      ∃ d', u'.device = some d' ∧ ∃ r' ∈ d'.vdevs, f.private_data = .vdev r'.ptr := by
  cases heffect with
  | none => exact .inl hf
  | mngdev_open => exact .inl hf
  | mngdev_open_busy => exact .inl hf
  | mngdev_open_finish =>
    obtain rfl | hf := List.mem_cons.mp hf
    · exact .inr (.inl rfl)
    · exact .inl hf
  | mngdev_release =>
    rw [put_files] at hf
    exact .inl (List.mem_of_mem_erase hf)
  | create => exact .inl hf
  | destroy => exact .inl hf
  | alloc => exact .inl hf
  | vdev_open d r i kmalloc imngdev ivdev hd hr hslot hret =>
    obtain rfl | hf := List.mem_cons.mp hf
    · exact .inr (.inr ⟨_, rfl, _, mem_update.mpr ⟨r, hr, if_pos rfl⟩, rfl⟩)
    · exact .inl hf
  | vdev_release =>
    rw [put_files] at hf
    exact .inl (List.mem_of_mem_erase hf)
  | subscribe => exact .inl hf
  | destroy_unlist => exact .inl hf
  | destroy_finish =>
    rw [put_files] at hf
    exact .inl hf

/-- The usage while no VIRT_DEV with users is destroyed. -/
structure OpenInv (u : usage_state) : Prop where
  owners : OwnersInv u
  users : UsersCounted u
  refs : ∃ leaked, RefInv u leaked
  live : FilesLive u

theorem OpenInv.step {u u' : usage_state} {a : op A} (h : OpenInv u)
    (hclosed : UsageDestroysClosed u a) (heffect : usage_effect u a u') : OpenInv u' := by
  have hrefs' := RefInv.exists_step h.refs heffect
  refine ⟨h.owners.step heffect, h.users.step h.owners.ptrs heffect, hrefs', ?_⟩
  intro f hf ptr hopens
  obtain hold | hmngdev | ⟨d', hd', r', hr', hvdev⟩ := files_of_effect heffect hf
  · cases hd' : u'.device with
    | none =>
      obtain ⟨leaked, hrefs⟩ := hrefs'
      rw [(hrefs.gone hd').2.1] at hf
      cases hf
    | some d' =>
      obtain ⟨d, hd, hchange⟩ := vdevs_change_of_effect heffect hd'
      obtain ⟨d₀, r, hd₀, hr, rfl⟩ := h.live f hold ptr hopens
      obtain rfl := Option.some.inj (hd.symm.trans hd₀)
      have hcount := h.users.counted d hd r hr
      have hpos : 0 < u.files.countP (opens r.ptr) := List.countP_pos_iff.mpr ⟨f, hold, hopens⟩
      obtain ⟨⟨r', hr', hptr⟩, -⟩ :=
        vdevs_change_keeps hd h.owners hchange hclosed hr (by omega)
      exact ⟨d', r', rfl, hr', hptr⟩
  · rw [opens, hmngdev] at hopens
    cases hopens
  · have hptr : r'.ptr = ptr := by simpa [opens, hvdev] using hopens
    exact ⟨d', r', hd', hr', hptr⟩

theorem openInv_of_create {hs : modac_hw_support_def H A O} {des : modac_mngdev_des} {hw : H}
    {hw_res_defs : List modac_hw_res_def} {s : modac_state H}
    (h : modac_mngdev_create hs des hw hw_res_defs = .ok s) : OpenInv (usage_of s) := by
  refine ⟨ownersInv_of_create h, ?_, ⟨0, refInv_of_create h⟩, ?_⟩
  · obtain ⟨rm_data, -, heq⟩ := usage_of_create h
    rw [heq]
    constructor
    · intro f hf
      cases hf
    · intro d hd r hr
      cases hd
      cases hr
  · obtain ⟨rm_data, -, heq⟩ := usage_of_create h
    rw [heq]
    intro f hf
    cases hf

theorem OpenInv.openVdevsLive {s : modac_state H} (h : OpenInv (usage_of s)) : OpenVdevsLive s := by
  intro f hf ptr hopens
  obtain ⟨d, r, hd, hr, hptr⟩ := h.live f hf ptr hopens
  obtain ⟨m, hm, rfl⟩ := Option.map_eq_some_iff.mp hd
  obtain ⟨v, hv, rfl⟩ := List.mem_map.mp hr
  refine ⟨m, v, hm, hv, hptr, ?_⟩
  intro t index hindex
  obtain ⟨k, rfl, howns⟩ := (h.owners.recorded _ hd).owned _ hr t index hindex
  exact (modac_rm_get_owner_eq_iff (Int.natCast_nonneg _)).mpr ⟨t, k, rfl, howns⟩

theorem OpenInv.openVdevsKept {hs : modac_hw_support_def H A O} {s : modac_state H} {a : op A}
    (h : OpenInv (usage_of s)) (hclosed : DestroysClosed s a) : OpenVdevsKept hs s a := by
  intro u m m' v hstep hm hm' hv husers
  have hd := usage_of_device hm
  have heffect := usage_effect_of_step h.owners.ptrs hstep
  obtain ⟨d, hd', hchange⟩ := vdevs_change_of_effect heffect (usage_of_device hm')
  obtain rfl := Option.some.inj (hd.symm.trans hd')
  obtain ⟨⟨r', hr', hptr⟩, howns⟩ := vdevs_change_keeps hd h.owners hchange
    (usageDestroysClosed_of hclosed) (List.mem_map_of_mem hv) husers
  obtain ⟨w, hw, rfl⟩ := List.mem_map.mp hr'
  refine ⟨⟨w, hw, hptr⟩, ?_⟩
  intro vres_desc howner
  obtain ⟨t, k, rfl, howned⟩ := (modac_rm_get_owner_eq_iff (Int.natCast_nonneg _)).mp howner
  exact (modac_rm_get_owner_eq_iff (Int.natCast_nonneg _)).mpr ⟨t, k, rfl, howns t k howned⟩

/-- After a DESTROY of a VIRT_DEV with users, a file is open on something that is gone. -/
theorem destroy_of_open {hs : modac_hw_support_def H A O} {s u : modac_state H} {a : op A}
    (h : OpenInv (usage_of s)) (hclosed : ¬ DestroysClosed s a) (hstep : step hs s a = some u) :
    ¬ OpenVdevsLive u := by
  intro hlive
  simp only [DestroysClosed, not_forall] at hclosed
  obtain ⟨i, cmd, arg, m, args, v, rfl, hm, hfor, husers⟩ := hclosed
  obtain ⟨m', hm', -, rfl⟩ := step_mngdev_ioctl hstep
  obtain rfl := Option.some.inj (hm.symm.trans hm')
  have hv := (list_find_vdev_mem hfor.find).1
  have hcount := h.users.counted _ (usage_of_device hm) _ (List.mem_map_of_mem hv)
  have hpos : 0 < s.files.countP (opens v.ptr) := by
    have hcount' : v.usage_counter = s.files.countP (opens v.ptr) := hcount
    omega
  obtain ⟨f, hf, hopens⟩ := List.countP_pos_iff.mp hpos
  have hmngdev : (mngdev_ioctl hs s m cmd arg).1.mngdev =
      some (list_destroy_vdev hs m s.vdev_slots v true).1 := by
    rw [mngdev_ioctl, hfor.ioctl_eq hs s.vdev_slots s.next_ptr]
    rfl
  obtain ⟨m', w, hm', hw, hptr, -⟩ := hlive f hf v.ptr hopens
  obtain rfl := Option.some.inj (hmngdev.symm.trans hm')
  have hw' : vdev_usage_of w ∈ ((mngdev_usage_of m).destroy (vdev_usage_of v)).vdevs := by
    rw [← mngdev_usage_of_destroy hs m s.vdev_slots v]
    exact List.mem_map_of_mem hw
  exact (mem_destroy.mp hw').2 hptr

/-- All through a run the open files of VIRT_DEVs refer to living ones, which keep their
resources, exactly when no DESTROY names a VIRT_DEV that is open. -/
theorem open_vdevs_live_iff {hs : modac_hw_support_def H A O} {des : modac_mngdev_des} {hw : H}
    {hw_res_defs : List modac_hw_res_def} {s : modac_state H}
    (hcreate : modac_mngdev_create hs des hw hw_res_defs = .ok s) (ops : List (op A)) :
    StatesMeet (step hs) OpenVdevsLive s ops ∧ StepsMeet (step hs) (OpenVdevsKept hs) s ops ↔
      StepsMeet (step hs) DestroysClosed s ops := by
  have hkeep : ∀ (s : modac_state H) (a : op A) u, OpenInv (usage_of s) → DestroysClosed s a →
      step hs s a = some u → OpenInv (usage_of u) := by
    intro s a u hinv hclosed hstep
    exact hinv.step (usageDestroysClosed_of hclosed)
      (usage_effect_of_step hinv.owners.ptrs hstep)
  have hiff : StatesMeet (step hs) OpenVdevsLive s ops ↔
      StepsMeet (step hs) DestroysClosed s ops := by
    apply statesMeet_iff_stepsMeet (I := fun s => OpenInv (usage_of s))
    · intro s hinv
      exact hinv.openVdevsLive
    · exact hkeep
    · intro s a u hinv hclosed hstep
      exact destroy_of_open hinv hclosed hstep
    · exact openInv_of_create hcreate
  constructor
  · rintro ⟨hmeet, -⟩
    exact hiff.mp hmeet
  · intro hclosed
    refine ⟨hiff.mpr hclosed, ?_⟩
    exact hclosed.mono_of_invariant (I := fun s => OpenInv (usage_of s)) hkeep
      (fun s a hinv h => hinv.openVdevsKept h) (openInv_of_create hcreate)

/-- The VIRT_DEV that an ioctl could destroy has no users. -/
def destroys_closed (s : modac_state H) : op A → Bool
  | .mngdev_ioctl _ cmd arg =>
    decide (cmd ≠ MNG_DEV_IOC_DESTROY) || arg.destroy.all fun args => s.mngdev.all fun m =>
      (list_find_vdev m args.id).all fun v => decide (v.usage_counter ≤ 0)
  | _ => true

theorem destroysClosed_of_check (s : modac_state H) (a : op A)
    (hcheck : destroys_closed s a = true) : DestroysClosed s a := by
  rintro i cmd arg m args v rfl hm hfor
  simpa [destroys_closed, hm, hfor.cmd_eq, hfor.args_eq, hfor.find] using hcheck

/-- Two VIRT_DEVs are opened, the first one is closed and destroyed. -/
def close_and_destroy : List (op Unit) :=
  open_first ++ [create_vdev [0x61], create_vdev [0x62], .vdev_open ⟨2, 1⟩ true,
    .vdev_open ⟨3, 2⟩ true, .vdev_release ⟨2, 1⟩ 0, destroy_vdev 1]

theorem open_vdevs_live_close_and_destroy :
    ∃ s u, modac_mngdev_create recording_hw_support first_mngdev [] [] = .ok s ∧
      run (step recording_hw_support) s close_and_destroy = some u ∧
      (⟨⟨3, 2⟩, .vdev 1⟩ ∈ u.files ∧ ∀ m, u.mngdev = some m → vdev_at m 0 = none) ∧
      StatesMeet (step recording_hw_support) OpenVdevsLive s close_and_destroy ∧
      StepsMeet (step recording_hw_support) (OpenVdevsKept recording_hw_support) s
        close_and_destroy := by
  have hrun : ∃ s, modac_mngdev_create recording_hw_support first_mngdev [] [] = .ok s ∧
      steps_check (step recording_hw_support) destroys_closed s close_and_destroy = true ∧
      ((run (step recording_hw_support) s close_and_destroy).any fun u =>
        decide (⟨⟨3, 2⟩, .vdev 1⟩ ∈ u.files) && u.mngdev.all fun m => (vdev_at m 0).isNone) =
        true := ⟨_, rfl, by decide +kernel, by decide +kernel⟩
  simp only [Option.any_eq_true, Bool.and_eq_true, decide_eq_true_eq, Option.all_eq_true,
    Option.isNone_iff_eq_none] at hrun
  obtain ⟨s, hcreate, hcheck, u, hrun, hfile, hgone⟩ := hrun
  exact ⟨s, u, hcreate, hrun, ⟨hfile, hgone⟩, (open_vdevs_live_iff hcreate _).mpr
    (stepsMeet_of_check destroysClosed_of_check hcheck)⟩

/-- A file is open on an address where no VIRT_DEV is. -/
def dangling (s : modac_state H) : Bool :=
  s.files.any fun f =>
    match f.private_data with
    | .mngdev => false
    | .vdev ptr => s.mngdev.all fun m => m.vdev_list.all fun v => v.ptr ≠ ptr

theorem not_live_of_dangling {s : modac_state H} (h : dangling s = true) : ¬ OpenVdevsLive s := by
  intro hlive
  obtain ⟨f, hf, hall⟩ := List.any_eq_true.mp h
  obtain ⟨i, data⟩ := f
  cases data with
  | mngdev => cases hall
  | vdev ptr =>
    obtain ⟨m, v, hm, hv, hptr, -⟩ := hlive _ hf ptr (by simp [opens])
    simp only [hm, Option.all_some, List.all_eq_true] at hall
    simpa [hptr] using hall v hv

/-- A VIRT_DEV is destroyed while it is open. -/
theorem destroy_of_open_dangles :
    ∃ s, modac_mngdev_create recording_hw_support first_mngdev [] [] = .ok s ∧
      ¬ StatesMeet (step recording_hw_support) OpenVdevsLive s
        (open_first ++ [create_vdev [0x61], .vdev_open ⟨2, 1⟩ true, destroy_vdev 1]) :=
  ⟨_, rfl, not_statesMeet_of_last (fun _ => not_live_of_dangling) (by decide +kernel)⟩

end evrma.system
