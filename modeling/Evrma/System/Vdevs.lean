import Evrma.System.Usage

namespace evrma.system

open evrma.event_list evrma.ioctl evrma.mng_dev evrma.rm evrma.virt_dev

variable {H A O : Type}

/-- The VIRT_DEVs and the owners of the resources are the same. -/
structure SameVdevs (d d' : mngdev_usage) : Prop where
  des : d'.des = d.des
  vdevs : d'.vdevs = d.vdevs
  rm_data : d'.rm_data = d.rm_data

/-- How a step changes the VIRT_DEVs and their resources. -/
inductive vdevs_change (a : op A) (d : mngdev_usage) : mngdev_usage → Prop where
  | same (d' : mngdev_usage) (hsame : SameVdevs d d') : vdevs_change a d d'
  | create (r : vdev_usage) (d' : mngdev_usage) (hsame : SameVdevs { d with vdevs := r :: d.vdevs } d')
      (hid : 1 ≤ r.id.toNat ∧ r.id.toNat ≤ MAX_VIRT_DEVS_PER_MNG_DEV)
      (hnew : ∀ r' ∈ d.vdevs, r'.id ≠ r.id)
      (hres : ∀ t, (r.res_type_data t).res_alloc_index = []) : vdevs_change a d d'
  | destroy (r : vdev_usage) (i : inode) (cmd : ioctl_cmd) (arg : mngdev_ioctl_arg A)
      (args : mngdev_ioctl_destroy) (d' : mngdev_usage) (hsame : SameVdevs (d.destroy r) d')
      (hop : a = .mngdev_ioctl i cmd arg) (hvalid : d.ref.ref_ptr = true)
      (hcmd : cmd = MNG_DEV_IOC_DESTROY) (haccess : arg.access_ok = true)
      (hargs : arg.destroy = some args)
      (hfind : d.vdevs.find? (fun r => r.id = args.id) = some r) : vdevs_change a d d'
  | alloc (r : vdev_usage) (i : inode) (cmd : ioctl_cmd) (arg : mngdev_ioctl_arg A)
      (args : mngdev_ioctl_res) (rm_data : res_data) (index t k : Nat) (d' : mngdev_usage)
      (hsame : SameVdevs ({ d with rm_data }.update r.ptr fun r => r.add_res t k) d')
      (hop : a = .mngdev_ioctl i cmd arg) (hvalid : d.ref.ref_ptr = true)
      (hcmd : cmd = MNG_DEV_IOC_ALLOC) (haccess : arg.access_ok = true)
      (hargs : arg.res = some args)
      (hfind : d.vdevs.find? (fun r => r.id = args.id_vdev) = some r)
      (husage : r.usage_counter ≤ 0)
      (halloc : modac_rm_alloc d.rm_data args.id_vdev.toNat args.resource_id.toList
        args.resource_real_index args.arg_filter = (rm_data, .ok (index, ⟨t, k⟩))) :
      vdevs_change a d d'
  | count (ptr : Nat) (n : Int) (d' : mngdev_usage)
      (hsame : SameVdevs
        (d.update ptr fun r => { r with usage_counter := r.usage_counter + n }) d') :
      vdevs_change a d d'

theorem SameVdevs.refl (d : mngdev_usage) : SameVdevs d d := ⟨rfl, rfl, rfl⟩

theorem vdevs_change_of_effect {u u' : usage_state} {a : op A} (heffect : usage_effect u a u')
    {d' : mngdev_usage} (hd' : u'.device = some d') :
    ∃ d, u.device = some d ∧ vdevs_change a d d' := by
  cases heffect with
  | none _ n hn => exact ⟨d', hd', .same d' (.refl d')⟩
  | mngdev_open d i kmalloc hd hret =>
    cases hd'
    exact ⟨d, hd, .same _ ⟨rfl, rfl, rfl⟩⟩
  | mngdev_open_busy d i pid hd hi hpid => exact ⟨d', hd', .same d' (.refl d')⟩
  | mngdev_open_finish d i pid hd hi hpid =>
    cases hd'
    exact ⟨d, hd, .same _ ⟨rfl, rfl, rfl⟩⟩
  | mngdev_release d i hd hfile =>
    rw [put_device hd']
    exact ⟨d, hd, .same _ ⟨rfl, rfl, rfl⟩⟩
  | create d r i cmd arg imngdev ivdev hd hptr hid hnew husage hres hcolumn hfree =>
    cases hd'
    exact ⟨d, hd, .create r _ (.refl _) hid hnew hres⟩
  | destroy d r i cmd arg args hd hvalid hcmd haccess hargs hfind =>
    cases hd'
    exact ⟨d, hd, .destroy r i cmd arg args _ (.refl _) rfl hvalid hcmd haccess hargs hfind⟩
  | alloc d r i cmd arg args rm_data index t k hd hvalid hcmd haccess hargs hfind husage halloc =>
    cases hd'
    exact ⟨d, hd, .alloc r i cmd arg args rm_data index t k _ (.refl _) rfl hvalid hcmd haccess hargs
      hfind husage halloc⟩
  | vdev_open d r i kmalloc imngdev ivdev hd hr hslot hret =>
    cases hd'
    exact ⟨d, hd, .count r.ptr 1 _ ⟨rfl, rfl, rfl⟩⟩
  | vdev_release d r i hd hr hfile =>
    rw [put_device hd']
    exact ⟨d, hd, .count r.ptr (-1) _ ⟨rfl, rfl, rfl⟩⟩
  | subscribe d r i cmd arg event action hd hr hfile =>
    cases hd'
    exact ⟨d, hd, .same _ ⟨rfl, rfl, rfl⟩⟩
  | destroy_unlist hunplug => exact ⟨d', hd', .same d' (.refl d')⟩
  | destroy_finish d hd hunplug =>
    rw [put_device hd']
    exact ⟨d, hd, .same _ ⟨rfl, rfl, rfl⟩⟩

/-- A VIRT_DEV of an updated list is one of the list, maybe updated. -/
theorem mem_update {d : mngdev_usage} {ptr : Nat} {f : vdev_usage → vdev_usage} {r' : vdev_usage} :
    r' ∈ (d.update ptr f).vdevs ↔ ∃ r ∈ d.vdevs, (if r.ptr = ptr then f r else r) = r' :=
  List.mem_map

theorem mem_destroy {d : mngdev_usage} {r r' : vdev_usage} :
    r' ∈ (d.destroy r).vdevs ↔ r' ∈ d.vdevs ∧ r'.ptr ≠ r.ptr := by
  simp [mngdev_usage.destroy]

theorem add_res_id (r : vdev_usage) (t k : Nat) : (r.add_res t k).id = r.id := by
  unfold vdev_usage.add_res
  split_ifs <;> rfl

theorem add_res_minor (r : vdev_usage) (t k : Nat) : (r.add_res t k).minor = r.minor := by
  unfold vdev_usage.add_res
  split_ifs <;> rfl

theorem add_res_usage_counter (r : vdev_usage) (t k : Nat) :
    (r.add_res t k).usage_counter = r.usage_counter := by
  unfold vdev_usage.add_res
  split_ifs <;> rfl

/-- Every VIRT_DEV has an id of its own, from 1 to 31. -/
structure IdsOwn (d : mngdev_usage) : Prop where
  nodup : (d.vdevs.map vdev_usage.id).Nodup
  range : ∀ r ∈ d.vdevs, 1 ≤ r.id.toNat ∧ r.id.toNat ≤ MAX_VIRT_DEVS_PER_MNG_DEV

theorem IdsOwn.of_sublist {d d' : mngdev_usage} (h : IdsOwn d)
    (hsub : (d'.vdevs.map vdev_usage.id).Sublist (d.vdevs.map vdev_usage.id)) : IdsOwn d' where
  nodup := h.nodup.sublist hsub
  range r hr := by
    obtain ⟨r', hr', hid⟩ := List.mem_map.mp (hsub.subset (List.mem_map_of_mem hr))
    rw [← hid]
    exact h.range r' hr'

theorem IdsOwn.step {a : op A} {d d' : mngdev_usage} (h : IdsOwn d) (hchange : vdevs_change a d d') :
    IdsOwn d' := by
  cases hchange with
  | same _ hsame =>
    apply h.of_sublist
    rw [hsame.vdevs]
  | create r _ hsame hid hnew hres =>
    constructor
    · rw [hsame.vdevs, List.map_cons, List.nodup_cons]
      refine ⟨?_, h.nodup⟩
      intro hmem
      obtain ⟨r', hr', heq⟩ := List.mem_map.mp hmem
      exact hnew r' hr' heq
    · intro r' hr'
      rw [hsame.vdevs] at hr'
      obtain rfl | hr' := List.mem_cons.mp hr'
      · exact hid
      · exact h.range r' hr'
  | destroy r i cmd arg args _ hsame =>
    apply h.of_sublist
    rw [hsame.vdevs]
    exact List.filter_sublist.map _
  | alloc r i cmd arg args rm_data index t k _ hsame =>
    apply h.of_sublist
    rw [hsame.vdevs, update_field _ _ _ fun r => add_res_id r t k]
  | count ptr n _ hsame =>
    apply h.of_sublist
    have hids := update_field d ptr vdev_usage.id
      (f := fun r => { r with usage_counter := r.usage_counter + n }) fun _ => rfl
    rw [hsame.vdevs, hids]

theorem IdsOwn.unique {d : mngdev_usage} (h : IdsOwn d) {r r' : vdev_usage} (hr : r ∈ d.vdevs)
    (hr' : r' ∈ d.vdevs) (hid : r.id.toNat = r'.id.toNat) : r = r' :=
  List.inj_on_of_nodup_map h.nodup hr hr' (BitVec.eq_of_toNat_eq hid)

/-- There are at most 31 VIRT_DEVs. -/
theorem IdsOwn.length_le {d : mngdev_usage} (h : IdsOwn d) :
    d.vdevs.length ≤ MAX_VIRT_DEVS_PER_MNG_DEV := by
  have hnodup : (d.vdevs.map fun r => r.id.toNat).Nodup := by
    have hmap := h.nodup.map (f := BitVec.toNat) fun _ _ => BitVec.eq_of_toNat_eq
    rw [List.map_map] at hmap
    exact hmap
  have hsubset : (d.vdevs.map fun r => r.id.toNat) ⊆
      (List.range MAX_VIRT_DEVS_PER_MNG_DEV).map (· + 1) := by
    intro n hn
    obtain ⟨r, hr, rfl⟩ := List.mem_map.mp hn
    obtain ⟨hpos, hle⟩ := h.range r hr
    exact List.mem_map.mpr ⟨r.id.toNat - 1, List.mem_range.mpr (by omega), by omega⟩
  have hle := (hnodup.subperm hsubset).length_le
  simpa using hle

/-- The column of the table that belongs to a VIRT_DEV. -/
def column_of (des : modac_mngdev_des) (minor : Int) : Option (Fin MAX_VIRT_DEVS_PER_MNG_DEV) :=
  (calc_table_indices des minor).map Prod.snd

theorem column_reset_eq (des : modac_mngdev_des) (slots : vdev_slots) (minor : Int)
    (ivdev : Fin MAX_VIRT_DEVS_PER_MNG_DEV) :
    column_reset des slots minor ivdev =
      if column_of des minor = some ivdev then none else slots ivdev := by
  unfold column_reset column_of
  cases calc_table_indices des minor with
  | none => simp
  | some indices =>
    obtain ⟨imngdev, ivdev'⟩ := indices
    simp only [Option.map_some, Option.some.injEq]
    by_cases heq : ivdev' = ivdev
    · rw [if_pos heq, heq, Function.update_self]
    · rw [if_neg heq, Function.update_of_ne (Ne.symm heq)]

theorem columns_reset_eq_some {des : modac_mngdev_des} {minors : List Int} {slots : vdev_slots}
    {ivdev : Fin MAX_VIRT_DEVS_PER_MNG_DEV} {ptr : Nat}
    (h : minors.foldl (column_reset des) slots ivdev = some ptr) :
    slots ivdev = some ptr ∧ ∀ minor ∈ minors, column_of des minor ≠ some ivdev := by
  induction minors generalizing slots with
  | nil => exact ⟨h, by simp⟩
  | cons minor minors ih =>
    rw [List.foldl_cons] at h
    obtain ⟨hslot, hrest⟩ := ih h
    rw [column_reset_eq] at hslot
    split_ifs at hslot with hcolumn
    refine ⟨hslot, ?_⟩
    intro minor' hmem
    obtain rfl | hmem := List.mem_cons.mp hmem
    · exact hcolumn
    · exact hrest minor' hmem

/-- What the table leads to is a VIRT_DEV, in its own column. -/
def SlotsLive (u : usage_state) : Prop :=
  ∀ ivdev ptr, u.vdev_slots ivdev = some ptr →
    ∃ d r, u.device = some d ∧ r ∈ d.vdevs ∧ r.ptr = ptr ∧ column_of d.des r.minor = some ivdev

/-- The table stays, and the addresses and minors of the VIRT_DEVs. -/
theorem SlotsLive.of_same {u u' : usage_state} (h : SlotsLive u) {d d' : mngdev_usage}
    (hd : u.device = some d) (hd' : u'.device = some d') (hslots : u'.vdev_slots = u.vdev_slots)
    (hdes : d'.des = d.des)
    (hvdevs : d'.vdevs.map (fun r => (r.ptr, r.minor)) = d.vdevs.map fun r => (r.ptr, r.minor)) :
    SlotsLive u' := by
  intro ivdev ptr hslot
  rw [hslots] at hslot
  obtain ⟨d'', r, hd'', hr, hptr, hcolumn⟩ := h ivdev ptr hslot
  obtain rfl := Option.some.inj (hd.symm.trans hd'')
  have hmem : (r.ptr, r.minor) ∈ d'.vdevs.map fun r => (r.ptr, r.minor) := by
    rw [hvdevs]
    exact List.mem_map_of_mem hr
  obtain ⟨r', hr', heq⟩ := List.mem_map.mp hmem
  obtain ⟨hptr', hminor'⟩ := Prod.mk.inj heq
  exact ⟨d', r', hd', hr', hptr'.trans hptr, by rw [hdes, hminor', hcolumn]⟩

/-- With the device the table is emptied. -/
theorem SlotsLive.put {u : usage_state} (h : SlotsLive u) {d d' : mngdev_usage}
    (hd : u.device = some d) (hdes : d'.des = d.des)
    (hvdevs : d'.vdevs.map (fun r => (r.ptr, r.minor)) = d.vdevs.map fun r => (r.ptr, r.minor))
    (files : List file) (unplug : unplug_progress) (i : Option inode) :
    SlotsLive ({ u with files := files, unplug := unplug }.put d' i) := by
  unfold usage_state.put
  split_ifs
  · intro ivdev ptr hslot
    obtain ⟨hslot, hcolumns⟩ := columns_reset_eq_some hslot
    obtain ⟨d'', r, hd'', hr, hptr, hcolumn⟩ := h ivdev ptr hslot
    obtain rfl := Option.some.inj (hd.symm.trans hd'')
    have hminors : d'.vdevs.map vdev_usage.minor = d.vdevs.map vdev_usage.minor := by
      have hsnd := congrArg (List.map Prod.snd) hvdevs
      rw [List.map_map, List.map_map] at hsnd
      exact hsnd
    rw [hdes, hminors] at hcolumns
    exact absurd hcolumn (hcolumns r.minor (List.mem_map_of_mem hr))
  · exact h.of_same hd rfl rfl hdes hvdevs

theorem SlotsLive.step {u u' : usage_state} {a : op A} (h : SlotsLive u) (hptrs : PtrsGiven u)
    (heffect : usage_effect u a u') : SlotsLive u' := by
  cases heffect with
  | none _ n hn => exact h
  | mngdev_open d i kmalloc hd hret => exact h.of_same hd rfl rfl rfl rfl
  | mngdev_open_busy d i pid hd hi hpid => exact h
  | mngdev_open_finish d i pid hd hi hpid => exact h.of_same hd rfl rfl rfl rfl
  | mngdev_release d i hd hfile => exact h.put hd (by rfl) (by rfl) _ _ _
  | create d r i cmd arg imngdev ivdev hd hptr hid hnew husage hres hcolumn hfree =>
    intro ivdev' ptr hslot
    dsimp only at hslot
    by_cases heq : ivdev' = ivdev
    · rw [heq, Function.update_self, Option.some.injEq] at hslot
      refine ⟨_, r, rfl, List.mem_cons_self, hptr.trans hslot, ?_⟩
      rw [column_of, hcolumn, heq]
      rfl
    · rw [Function.update_of_ne heq] at hslot
      obtain ⟨d', r', hd', hr', hrest⟩ := h ivdev' ptr hslot
      obtain rfl := Option.some.inj (hd.symm.trans hd')
      exact ⟨_, r', rfl, List.mem_cons_of_mem _ hr', hrest⟩
  | destroy d r i cmd arg args hd hvalid hcmd haccess hargs hfind =>
    intro ivdev ptr hslot
    dsimp only at hslot
    rw [column_reset_eq] at hslot
    split_ifs at hslot with hcolumn
    obtain ⟨d', r', hd', hr', hptr', hcolumn'⟩ := h ivdev ptr hslot
    obtain rfl := Option.some.inj (hd.symm.trans hd')
    refine ⟨_, r', rfl, mem_destroy.mpr ⟨hr', ?_⟩, hptr', hcolumn'⟩
    intro hsame
    have hr := List.mem_of_find?_eq_some hfind
    obtain rfl := List.inj_on_of_nodup_map (hptrs.nodup d hd) hr' hr hsame
    exact hcolumn hcolumn'
  | alloc d r i cmd arg args rm_data index t k hd =>
    refine h.of_same hd rfl rfl rfl (update_field _ _ _ fun r => ?_)
    rw [add_res_ptr, add_res_minor]
  | vdev_open d r i kmalloc imngdev ivdev hd hr hslot hret =>
    exact h.of_same hd rfl rfl rfl (update_field _ _ _ fun _ => rfl)
  | vdev_release d r i hd hr hfile =>
    exact h.put hd (by rfl) (by exact update_field d r.ptr _ fun _ => rfl) _ _ _
  | subscribe d r i cmd arg event action hd => exact h.of_same hd rfl rfl rfl rfl
  | destroy_unlist hunplug =>
    intro ivdev ptr hslot
    cases hslot
  | destroy_finish d hd hunplug => exact h.put hd (by rfl) (by rfl) _ _ _

end evrma.system
