import Evrma.Lib.Run
import Evrma.MngDev.Names

namespace evrma.mng_dev

open evrma.ioctl evrma.lib evrma.packet_queue evrma.rm evrma.virt_dev

variable {H A O : Type}

inductive identity_cmd where
  | create
  | destroy
  | find

def identity_cmd.ioctl : identity_cmd → ioctl_cmd
  | .create => MNG_DEV_IOC_CREATE
  | .destroy => MNG_DEV_IOC_DESTROY
  | .find => MNG_DEV_IOC_VIRT_DEV_FIND

/-- One of the ioctls, the memory that `kmalloc` would give to a new VIRT_DEV, and whatever is
behind the argument. -/
structure identity_op (A : Type) where
  cmd : identity_cmd
  ptr : Nat
  arg : mngdev_ioctl_arg A

/-- The name of the request is terminated in its field. -/
def Terminated (op : identity_op A) : Prop :=
  ∀ ids, op.arg.vdev_ids = some ids → 0 ∈ ids.name.toList

abbrev named_op (A : Type) := { op : identity_op A // Terminated op }

structure identity_state (H : Type) where
  mngdev : mngdev_data H
  vdev_slots : vdev_slots

def identity_init (des : modac_mngdev_des) (hw : H) (rm_data : res_data) : identity_state H :=
  ⟨init_dev des hw rm_data, modac_vdev_table_reset⟩

def identity_ioctl (hs : modac_hw_support_def H A O) (s : identity_state H) (op : identity_op A) :
    ioctl_result H O :=
  mngdev_unlocked_ioctl hs s.mngdev s.vdev_slots op.ptr op.cmd.ioctl op.arg

/-- Memory that a VIRT_DEV has is not given to another one. -/
def identity_step (hs : modac_hw_support_def H A O) (s : identity_state H) (op : identity_op A) :
    Option (identity_state H) :=
  if (vdev_at s.mngdev op.ptr).isSome then none
  else some ⟨(identity_ioctl hs s op).mngdev, (identity_ioctl hs s op).vdev_slots⟩

def named_step (hs : modac_hw_support_def H A O) (s : identity_state H) (op : named_op A) :
    Option (identity_state H) :=
  identity_step hs s op.val

/-- An id from 1 to 31 that no VIRT_DEV has. -/
def FreeId (m : mngdev_data H) (id : BitVec 8) : Prop :=
  (1 ≤ id.toNat ∧ id.toNat ≤ MAX_VIRT_DEVS_PER_MNG_DEV) ∧ ∀ v ∈ m.vdev_list, v.id ≠ id

def AllUsed (m : mngdev_data H) : Prop :=
  ∀ id : BitVec 8, 1 ≤ id.toNat → id.toNat ≤ MAX_VIRT_DEVS_PER_MNG_DEV →
    ∃ v ∈ m.vdev_list, v.id = id

/-- What is known of the VIRT_DEVs at any time. The slot of an id holds the VIRT_DEV with
that id, and there is none for it otherwise. -/
structure Identified (s : identity_state H) : Prop where
  ref : s.mngdev.ref.ref_ptr = true
  ptrs : (s.mngdev.vdev_list.map (·.ptr)).Nodup
  minors : ∀ v ∈ s.mngdev.vdev_list, v.minor = s.mngdev.des.minor + v.id.toNat
  range : ∀ v ∈ s.mngdev.vdev_list, 1 ≤ v.id.toNat ∧ v.id.toNat ≤ MAX_VIRT_DEVS_PER_MNG_DEV
  ids : (s.mngdev.vdev_list.map (·.id)).Nodup
  terminated : ∀ v ∈ s.mngdev.vdev_list, 0 ∈ v.name.toList
  names : (s.mngdev.vdev_list.map vdev_name).Nodup
  slots : ∀ i p, s.vdev_slots i = some p ↔
    ∃ v ∈ s.mngdev.vdev_list, v.id.toNat = i.val + 1 ∧ v.ptr = p

/-- MNG_DEV_IOC_VIRT_DEV_FIND changes nothing. Where the argument can be copied in and out, it
returns the id of the VIRT_DEV with the name, and 0 where no VIRT_DEV has it. -/
def FindExact (hs : modac_hw_support_def H A O) (s : identity_state H) (op : identity_op A) :
    Prop :=
  op.cmd = .find →
    (identity_ioctl hs s op).mngdev = s.mngdev ∧
    (identity_ioctl hs s op).vdev_slots = s.vdev_slots ∧
    ∀ ids, op.arg.access_ok = true → op.arg.vdev_ids = some ids → op.arg.copy_to_user = true →
      (identity_ioctl hs s op).ret = 0 ∧
      ∃ id, (identity_ioctl hs s op).out = .vdev_id id ∧
        ((∃ v ∈ s.mngdev.vdev_list, vdev_name v = c_string ids.name.toList ∧ v.id = id) ∨
          (∀ v ∈ s.mngdev.vdev_list, vdev_name v ≠ c_string ids.name.toList) ∧ id = 0)

/-- The VIRT_DEV `v` was added for the request `ids`, whose id is 0, under the smallest one that was
free. Nothing else has changed. -/
structure Created (s : identity_state H) (ids : mngdev_ioctl_vdev_ids) (v : modac_vdev_des)
    (r : ioctl_result H O) : Prop where
  free : FreeId s.mngdev v.id
  asked : ids.id = 0
  smallest : ∀ id, FreeId s.mngdev id → v.id.toNat ≤ id.toNat
  name : vdev_name v = c_string ids.name.toList
  fresh : ∀ w ∈ s.mngdev.vdev_list, vdev_name w ≠ c_string ids.name.toList
  mngdev : r.mngdev = { s.mngdev with vdev_list := v :: s.mngdev.vdev_list }
  vdev_slots : ∀ i, r.vdev_slots i =
    if v.id.toNat = i.val + 1 then some v.ptr else s.vdev_slots i

/-- MNG_DEV_IOC_CREATE adds the VIRT_DEV or changes nothing. With a name that is not in use, the id 0
gives -EMFILE exactly where all ids are used (the other source of that error would be
`device_create`), and any other id is refused, free or not. -/
def CreateExact (hs : modac_hw_support_def H A O) (s : identity_state H) (op : identity_op A) :
    Prop :=
  op.cmd = .create →
    ((identity_ioctl hs s op).ret ≠ 0 →
      (identity_ioctl hs s op).mngdev = s.mngdev ∧
      (identity_ioctl hs s op).vdev_slots = s.vdev_slots) ∧
    ((identity_ioctl hs s op).ret = 0 →
      ∃ ids v, op.arg.vdev_ids = some ids ∧ Created s ids v (identity_ioctl hs s op)) ∧
    ∀ ids, op.arg.access_ok = true → op.arg.vdev_ids = some ids →
      (∀ w ∈ s.mngdev.vdev_list, vdev_name w ≠ c_string ids.name.toList) →
      (ids.id = 0 →
        (∀ err, op.arg.create.device_create = .error err → err.val ≠ -EMFILE) →
        ((identity_ioctl hs s op).ret = -EMFILE ↔ AllUsed s.mngdev)) ∧
      (1 ≤ ids.id.toNat → ids.id.toNat ≤ MAX_VIRT_DEVS_PER_MNG_DEV →
        (identity_ioctl hs s op).ret = -ENOSYS)

section

variable {m : mngdev_data H} {id : BitVec 8}

theorem allUsed_iff : AllUsed m ↔ ∀ id, ¬ FreeId m id := by
  constructor
  · rintro hall id ⟨⟨hge, hle⟩, hfree⟩
    obtain ⟨v, hv, hid⟩ := hall id hge hle
    exact hfree v hv hid
  · intro hnone id hge hle
    by_contra hfree
    exact hnone id ⟨⟨hge, hle⟩, fun v hv hid => hfree ⟨v, hv, hid⟩⟩

/-- The loop over the ids ends with the smallest one that is free. -/
theorem first_free_id_smallest (h : first_free_id m = some id) :
    ∀ id', FreeId m id' → id.toNat ≤ id'.toNat := by
  rintro id' ⟨⟨hge, hle⟩, hfree⟩
  unfold first_free_id at h
  obtain ⟨-, i, hi, hid, hbefore⟩ := List.find?_eq_some_iff_getElem.mp h
  simp only [List.length_map, List.length_range, MAX_VIRT_DEVS_PER_MNG_DEV] at hi
  simp only [List.getElem_map, List.getElem_range] at hid
  by_contra hlt
  have hidNat : id.toNat = i + 1 := by
    rw [← hid, BitVec.toNat_ofNat, Nat.mod_eq_of_lt (by omega)]
  have hused := hbefore (id'.toNat - 1) (by omega)
  simp only [List.getElem_map, List.getElem_range, Bool.not_eq_true', Option.isNone_eq_false_iff,
    Option.isSome_iff_ne_none, ne_eq] at hused
  apply hused
  rw [Nat.sub_add_cancel hge, BitVec.ofNat_toNat, BitVec.setWidth_eq]
  exact list_find_vdev_eq_none.mpr hfree

theorem first_free_id_eq_none : first_free_id m = none ↔ AllUsed m := by
  rw [allUsed_iff]
  unfold first_free_id
  constructor
  · rintro hnone id ⟨⟨hge, hle⟩, hfree⟩
    have hused := List.find?_eq_none.mp hnone id
      (List.mem_map.mpr ⟨id.toNat - 1, List.mem_range.mpr (by omega), by
        rw [Nat.sub_add_cancel hge, BitVec.ofNat_toNat, BitVec.setWidth_eq]⟩)
    rw [list_find_vdev_eq_none.mpr hfree] at hused
    exact hused rfl
  · intro hall
    rw [List.find?_eq_none]
    intro id hmem hnone
    rw [Option.isNone_iff_eq_none, list_find_vdev_eq_none] at hnone
    obtain ⟨i, hi, rfl⟩ := List.mem_map.mp hmem
    simp only [List.mem_range, MAX_VIRT_DEVS_PER_MNG_DEV] at hi
    refine hall _ ⟨?_, hnone⟩
    rw [BitVec.toNat_ofNat, Nat.mod_eq_of_lt (by omega), MAX_VIRT_DEVS_PER_MNG_DEV]
    omega

/-- The id 0 lets the driver choose. -/
theorem choose_id_zero : choose_id m 0 = .error (-EMFILE) ↔ AllUsed m := by
  rw [← first_free_id_eq_none, choose_id, if_pos rfl]
  cases first_free_id m with
  | none => simp
  | some id => simp

theorem choose_id_zero_smallest (h : choose_id m 0 = .ok id) :
    ∀ id', FreeId m id' → id.toNat ≤ id'.toNat := by
  rw [choose_id, if_pos rfl] at h
  cases hfirst : first_free_id m with
  | none =>
    rw [hfirst] at h
    cases h
  | some first =>
    rw [hfirst] at h
    cases h
    exact first_free_id_smallest hfirst

theorem choose_id_of_ne_zero (hid : id ≠ 0) : choose_id m id = .error (-ENOSYS) := if_neg hid

/-- Only the id 0 leads to a VIRT_DEV. -/
theorem eq_zero_of_choose_id {vdev_id : BitVec 8} (h : choose_id m id = .ok vdev_id) : id = 0 := by
  by_contra hid
  rw [choose_id_of_ne_zero hid] at h
  cases h

theorem choose_id_zero_of_free (h : FreeId m id) : ∃ vdev_id, choose_id m 0 = .ok vdev_id := by
  cases hchoose : choose_id m 0 with
  | ok vdev_id => exact ⟨vdev_id, rfl⟩
  | error err =>
    rw [choose_id, if_pos rfl] at hchoose
    cases hfirst : first_free_id m with
    | none => exact absurd h (allUsed_iff.mp (first_free_id_eq_none.mp hfirst) id)
    | some first =>
      rw [hfirst] at hchoose
      cases hchoose

/-- The minors of the VIRT_DEVs follow the one of the MNG_DEV, id after id. -/
theorem calc_table_indices_vdev (des : modac_mngdev_des) {id : Nat} (hge : 1 ≤ id)
    (hle : id ≤ MAX_VIRT_DEVS_PER_MNG_DEV) :
    calc_table_indices des (des.minor + id) = some (des.imngdev, ⟨id - 1, by omega⟩) := by
  have hfirst := des.first_minor
  have hminor := des.minor_eq
  have hrow := des.imngdev_lt
  simp only [MAX_VIRT_DEVS_PER_MNG_DEV, MINOR_MULTIPLICATOR] at hfirst hminor hle
  have hmod : (des.minor + id).tmod MINOR_MULTIPLICATOR ≠ 0 := by
    rw [MINOR_MULTIPLICATOR, Int.tmod_eq_emod_of_nonneg (by omega)]
    omega
  have hdiv : (des.minor + id - des.mngdev_first_minor).tdiv MINOR_MULTIPLICATOR =
      des.imngdev := by
    rw [MINOR_MULTIPLICATOR, Int.tdiv_eq_ediv_of_nonneg (by omega)]
    omega
  have hcolumn : (des.minor + id - des.mngdev_first_minor).tmod MINOR_MULTIPLICATOR - 1 =
      ((id - 1 : Nat) : Int) := by
    rw [MINOR_MULTIPLICATOR, Int.tmod_eq_emod_of_nonneg (by omega)]
    omega
  unfold calc_table_indices
  simp only [if_neg hmod, hdiv, hcolumn]
  rw [if_neg (by omega), dif_neg (by simp only [MAX_VIRT_DEVS_PER_MNG_DEV]; omega)]
  simp

end

section

variable {hs : modac_hw_support_def H A O} {s : identity_state H} {op : identity_op A}

theorem Identified.find_eq {v : modac_vdev_des} (h : Identified s) (hv : v ∈ s.mngdev.vdev_list)
    {w : modac_vdev_des} (hw : w ∈ s.mngdev.vdev_list) (hid : v.id.toNat = w.id.toNat) : v = w :=
  List.inj_on_of_nodup_map h.ids hv hw (BitVec.eq_of_toNat_eq hid)

/-- With a valid reference the ioctl only looks at the access to its argument first. -/
theorem identity_ioctl_eq (href : s.mngdev.ref.ref_ptr = true) :
    identity_ioctl hs s op =
      if op.arg.access_ok then
        match op.cmd with
        | .create => mngdev_create hs s.mngdev s.vdev_slots op.ptr op.arg
        | .destroy => mngdev_destroy hs s.mngdev s.vdev_slots op.arg
        | .find => mngdev_virt_dev_find s.mngdev s.vdev_slots op.arg
      else unchanged s.mngdev s.vdev_slots (-EFAULT) := by
  unfold identity_ioctl mngdev_unlocked_ioctl
  rw [if_neg (by simp [href])]
  cases hcmd : op.cmd with
  | create =>
    cases op.arg.access_ok with
    | false => rfl
    | true => rfl
  | destroy =>
    cases op.arg.access_ok with
    | false => rfl
    | true => rfl
  | find =>
    cases op.arg.access_ok with
    | false => rfl
    | true => rfl

variable (hs) in
theorem find_exact (href : s.mngdev.ref.ref_ptr = true) : FindExact hs s op := by
  intro hcmd
  rw [identity_ioctl_eq href, hcmd]
  cases haccess : op.arg.access_ok with
  | false => exact ⟨rfl, rfl, fun _ hok => absurd hok Bool.false_ne_true⟩
  | true =>
    simp only [if_true, mngdev_virt_dev_find]
    cases hids : op.arg.vdev_ids with
    | none => exact ⟨rfl, rfl, fun _ _ hsome => by cases hsome⟩
    | some find_args =>
      simp only [copied]
      cases hcopy : op.arg.copy_to_user with
      | false => exact ⟨rfl, rfl, fun _ _ _ hok => absurd hok Bool.false_ne_true⟩
      | true =>
        refine ⟨rfl, rfl, fun ids _ hsome _ => ⟨rfl, _, rfl, ?_⟩⟩
        obtain rfl := Option.some.inj hsome
        cases hfind : list_find_vdev_by_name s.mngdev find_args.name with
        | none => exact .inr ⟨list_find_vdev_by_name_eq_none.mp hfind, rfl⟩
        | some v =>
          obtain ⟨hv, hname⟩ := list_find_vdev_by_name_mem hfind
          exact .inl ⟨v, hv, hname, rfl⟩

variable (hs) in
/-- The VIRT_DEV of MNG_DEV_IOC_CREATE, or the error that leaves everything as it was. -/
theorem create_cases (href : s.mngdev.ref.ref_ptr = true)
    (hnew : ∀ w ∈ s.mngdev.vdev_list, w.ptr ≠ op.ptr)
    (hcmd : op.cmd = .create) :
    (∃ err, err ≠ 0 ∧ identity_ioctl hs s op = unchanged s.mngdev s.vdev_slots err) ∨
    ∃ ids v, op.arg.vdev_ids = some ids ∧ (identity_ioctl hs s op).ret = 0 ∧
      Created s ids v (identity_ioctl hs s op) ∧ v.ptr = op.ptr ∧
      v.minor = s.mngdev.des.minor + v.id.toNat ∧ v.name = strncpy ids.name := by
  rw [identity_ioctl_eq href, hcmd]
  cases haccess : op.arg.access_ok with
  | false => exact .inl ⟨-EFAULT, by decide, rfl⟩
  | true =>
    simp only [if_true]
    obtain ⟨err, herr, heq⟩ | ⟨ids, vdev_id, imngdev, ivdev, hids, hle, hname, hchoose, hindices,
      -, heq⟩ := mngdev_create_cases hs s.vdev_slots op.arg hnew
    · exact .inl ⟨err, herr, heq⟩
    · right
      obtain ⟨⟨hge, hle31⟩, hfree⟩ := choose_id_ok hchoose
      rw [calc_table_indices_vdev s.mngdev.des hge hle31] at hindices
      cases hindices
      refine ⟨ids, virt_dev.init_dev (new_vdev s.mngdev op.ptr vdev_id ids.name
        op.arg.create.cb_events) op.arg.create.cb_events, hids, by rw [heq]; rfl, ?_, rfl, rfl, rfl⟩
      exact {
          free := ⟨⟨hge, hle31⟩, hfree⟩
          asked := eq_zero_of_choose_id hchoose
          smallest := choose_id_zero_smallest (eq_zero_of_choose_id hchoose ▸ hchoose)
          name := c_string_strncpy ids.name
          fresh := list_find_vdev_by_name_eq_none.mp hname
          mngdev := by rw [heq]; rfl
          vdev_slots := by
            intro i
            rw [heq]
            change Function.update s.vdev_slots _ _ i = if vdev_id.toNat = i.val + 1 then _ else _
            rw [Function.update_apply]
            congr 1
            rw [Fin.ext_iff]
            simp only [eq_iff_iff]
            omega }

/-- Only the exhausted ids give -EMFILE, where `device_create` does not. -/
theorem modac_vdev_create_ret {des : modac_mngdev_des} {slots : vdev_slots} {v : modac_vdev_des}
    {outcome : create_outcome}
    (hdevice : ∀ err, outcome.device_create = .error err → err.val ≠ -EMFILE) :
    (modac_vdev_create des slots v outcome).2.1 ≠ -EMFILE := by
  unfold modac_vdev_create
  cases calc_table_indices des v.minor with
  | none => exact (by decide : (-ENODEV : Int) ≠ -EMFILE)
  | some indices =>
    dsimp only
    by_cases hkmalloc : outcome.kmalloc_vdev = false
    · rw [if_pos hkmalloc]
      exact (by decide : (-ENOMEM : Int) ≠ -EMFILE)
    rw [if_neg hkmalloc]
    by_cases hexists : outcome.dev_exists_for_vdev_class = true
    · rw [if_pos hexists]
      exact (by decide : (-EEXIST : Int) ≠ -EMFILE)
    rw [if_neg hexists]
    cases hcreate : outcome.device_create with
    | error err => exact hdevice err hcreate
    | ok _ =>
      dsimp only
      by_cases hslot : slots indices.2 = none
      · rw [if_neg (not_not_intro hslot)]
        exact (by decide : (0 : Int) ≠ -EMFILE)
      · rw [if_pos hslot]
        exact (by decide : (-EEXIST : Int) ≠ -EMFILE)

theorem create_ret_emfile (href : s.mngdev.ref.ref_ptr = true) (hcmd : op.cmd = .create)
    {ids : mngdev_ioctl_vdev_ids} (haccess : op.arg.access_ok = true)
    (hids : op.arg.vdev_ids = some ids) (hzero : ids.id = 0)
    (hname : ∀ w ∈ s.mngdev.vdev_list, vdev_name w ≠ c_string ids.name.toList)
    (hdevice : ∀ err, op.arg.create.device_create = .error err → err.val ≠ -EMFILE) :
    (identity_ioctl hs s op).ret = -EMFILE ↔ AllUsed s.mngdev := by
  rw [identity_ioctl_eq href, hcmd, if_pos haccess]
  simp only [mngdev_create, hids]
  rw [if_neg (by rw [hzero]; decide), list_find_vdev_by_name_eq_none.mpr hname,
    if_neg (by simp), hzero, ← choose_id_zero]
  cases hchoose : choose_id s.mngdev 0 with
  | error err => simp [unchanged]
  | ok vdev_id =>
    dsimp only
    split_ifs with hkmalloc hret
    · simp [unchanged, ENOMEM, EMFILE]
    · simp only [unchanged, iff_false]
      exact modac_vdev_create_ret hdevice
    · simp [unchanged, EMFILE]

theorem create_ret_enosys (href : s.mngdev.ref.ref_ptr = true) (hcmd : op.cmd = .create)
    {ids : mngdev_ioctl_vdev_ids} (haccess : op.arg.access_ok = true)
    (hids : op.arg.vdev_ids = some ids) (hge : 1 ≤ ids.id.toNat)
    (hle : ids.id.toNat ≤ MAX_VIRT_DEVS_PER_MNG_DEV)
    (hname : ∀ w ∈ s.mngdev.vdev_list, vdev_name w ≠ c_string ids.name.toList) :
    (identity_ioctl hs s op).ret = -ENOSYS := by
  have hid : ids.id ≠ 0 := by
    intro hzero
    rw [hzero] at hge
    exact absurd hge (by decide)
  rw [identity_ioctl_eq href, hcmd, if_pos haccess]
  simp only [mngdev_create, hids]
  rw [if_neg (Nat.not_lt.mpr hle), list_find_vdev_by_name_eq_none.mpr hname, if_neg (by simp),
    choose_id_of_ne_zero hid]
  rfl

theorem create_exact (href : s.mngdev.ref.ref_ptr = true)
    (hnew : ∀ w ∈ s.mngdev.vdev_list, w.ptr ≠ op.ptr) : CreateExact hs s op := by
  intro hcmd
  refine ⟨?_, ?_, fun ids haccess hids hname =>
    ⟨fun hzero hdevice => create_ret_emfile href hcmd haccess hids hzero hname hdevice,
      fun hge hle => create_ret_enosys href hcmd haccess hids hge hle hname⟩⟩
  · intro hret
    obtain ⟨err, -, heq⟩ | ⟨ids, v, hids, hzero, -⟩ := create_cases hs href hnew hcmd
    · rw [heq]
      exact ⟨rfl, rfl⟩
    · exact absurd hzero hret
  · intro hret
    obtain ⟨err, herr, heq⟩ | ⟨ids, v, hids, -, hcreated, -⟩ := create_cases hs href hnew hcmd
    · rw [heq] at hret
      exact absurd hret herr
    · exact ⟨ids, v, hids, hcreated⟩

variable (hs) in
/-- The VIRT_DEV that MNG_DEV_IOC_DESTROY takes out, or the error. -/
theorem destroy_cases (href : s.mngdev.ref.ref_ptr = true) (hcmd : op.cmd = .destroy) :
    (∃ err, err ≠ 0 ∧ identity_ioctl hs s op = unchanged s.mngdev s.vdev_slots err) ∨
    ∃ args v, op.arg.destroy = some args ∧ list_find_vdev s.mngdev args.id = some v ∧
      identity_ioctl hs s op =
        unchanged (list_destroy_vdev hs s.mngdev s.vdev_slots v true).1
          (list_destroy_vdev hs s.mngdev s.vdev_slots v true).2 0 := by
  rw [identity_ioctl_eq href, hcmd]
  cases op.arg.access_ok with
  | false => exact .inl ⟨-EFAULT, by decide, rfl⟩
  | true =>
    simp only [if_true, mngdev_destroy]
    cases op.arg.destroy with
    | none => exact .inl ⟨-EFAULT, by decide, rfl⟩
    | some destroy_args =>
      dsimp only
      cases hfind : list_find_vdev s.mngdev destroy_args.id with
      | none => exact .inl ⟨-ENODEV, by decide, rfl⟩
      | some v => exact .inr ⟨destroy_args, v, rfl, hfind, rfl⟩

theorem identified_init (des : modac_mngdev_des) (hw : H) (rm_data : res_data) :
    Identified (identity_init des hw rm_data) := {
  ref := rfl
  ptrs := List.nodup_nil
  minors := nofun
  range := nofun
  ids := List.nodup_nil
  terminated := nofun
  names := List.nodup_nil
  slots := by simp [identity_init, init_dev, modac_vdev_table_reset] }

/-- The VIRT_DEV that comes in has an id and a name of its own. -/
theorem Identified.create (h : Identified s) {ids : mngdev_ioctl_vdev_ids} {v : modac_vdev_des}
    {r : ioctl_result H O} (hcreated : Created s ids v r)
    (hnew : ∀ w ∈ s.mngdev.vdev_list, w.ptr ≠ v.ptr)
    (hminor : v.minor = s.mngdev.des.minor + v.id.toNat) (hterminated : 0 ∈ v.name.toList) :
    Identified ⟨r.mngdev, r.vdev_slots⟩ := by
  obtain ⟨hrange, hfree⟩ := hcreated.free
  have hlist : r.mngdev.vdev_list = v :: s.mngdev.vdev_list := by rw [hcreated.mngdev]
  have hdes : r.mngdev.des = s.mngdev.des := by rw [hcreated.mngdev]
  exact {
    ref := by
      change r.mngdev.ref.ref_ptr = true
      rw [hcreated.mngdev]
      exact h.ref
    ptrs := by
      change (r.mngdev.vdev_list.map _).Nodup
      rw [hlist, List.map_cons, List.nodup_cons]
      refine ⟨fun hmem => ?_, h.ptrs⟩
      obtain ⟨w, hw, hptr⟩ := List.mem_map.mp hmem
      exact hnew w hw hptr
    minors := by
      intro w hw
      rw [hdes]
      rw [hlist] at hw
      obtain rfl | hw := List.mem_cons.mp hw
      · exact hminor
      · exact h.minors w hw
    range := by
      intro w hw
      rw [hlist] at hw
      obtain rfl | hw := List.mem_cons.mp hw
      · exact hrange
      · exact h.range w hw
    ids := by
      change (r.mngdev.vdev_list.map _).Nodup
      rw [hlist, List.map_cons, List.nodup_cons]
      refine ⟨fun hmem => ?_, h.ids⟩
      obtain ⟨w, hw, hid⟩ := List.mem_map.mp hmem
      exact hfree w hw hid
    terminated := by
      intro w hw
      rw [hlist] at hw
      obtain rfl | hw := List.mem_cons.mp hw
      · exact hterminated
      · exact h.terminated w hw
    names := by
      change (r.mngdev.vdev_list.map _).Nodup
      rw [hlist, List.map_cons, List.nodup_cons]
      refine ⟨fun hmem => ?_, h.names⟩
      obtain ⟨w, hw, hname⟩ := List.mem_map.mp hmem
      exact hcreated.fresh w hw (hname.trans hcreated.name)
    slots := by
      intro i p
      change r.vdev_slots i = some p ↔ _
      rw [hcreated.vdev_slots, hlist]
      by_cases hi : v.id.toNat = i.val + 1
      · rw [if_pos hi, Option.some_inj]
        constructor
        · rintro rfl
          exact ⟨v, List.mem_cons_self, hi, rfl⟩
        · rintro ⟨w, hw, hid, rfl⟩
          obtain rfl | hw := List.mem_cons.mp hw
          · rfl
          · exact absurd (BitVec.eq_of_toNat_eq (hid.trans hi.symm)) (hfree w hw)
      · rw [if_neg hi, h.slots]
        constructor
        · rintro ⟨w, hw, hid, hptr⟩
          exact ⟨w, List.mem_cons_of_mem v hw, hid, hptr⟩
        · rintro ⟨w, hw, hid, hptr⟩
          obtain rfl | hw := List.mem_cons.mp hw
          · exact absurd hid hi
          · exact ⟨w, hw, hid, hptr⟩ }

section

variable (hs s) (v : modac_vdev_des)

theorem list_destroy_vdev_vdev_list :
    (list_destroy_vdev hs s.mngdev s.vdev_slots v true).1.vdev_list =
      list_del s.mngdev.vdev_list v.ptr := by
  simp [list_destroy_vdev, mngdev_event_dispatch_list_remove_all]

@[simp]
theorem list_destroy_vdev_des :
    (list_destroy_vdev hs s.mngdev s.vdev_slots v true).1.des = s.mngdev.des := by
  simp [list_destroy_vdev, mngdev_event_dispatch_list_remove_all]

@[simp]
theorem list_destroy_vdev_ref :
    (list_destroy_vdev hs s.mngdev s.vdev_slots v true).1.ref = s.mngdev.ref := by
  simp [list_destroy_vdev, mngdev_event_dispatch_list_remove_all]

end

theorem Identified.mem_list_del (h : Identified s) {v : modac_vdev_des}
    (hv : v ∈ s.mngdev.vdev_list) (w : modac_vdev_des) :
    w ∈ list_del s.mngdev.vdev_list v.ptr ↔ w ∈ s.mngdev.vdev_list ∧ w ≠ v := by
  rw [list_del, List.mem_filter, decide_eq_true_eq]
  constructor
  · rintro ⟨hw, hptr⟩
    exact ⟨hw, fun heq => hptr (heq ▸ rfl)⟩
  · rintro ⟨hw, hne⟩
    exact ⟨hw, fun hptr => hne (List.inj_on_of_nodup_map h.ptrs hw hv hptr)⟩

/-- The VIRT_DEV that goes out takes its own slot along. -/
theorem Identified.destroy (h : Identified s) {v : modac_vdev_des}
    (hv : v ∈ s.mngdev.vdev_list) :
    Identified ⟨(list_destroy_vdev hs s.mngdev s.vdev_slots v true).1,
      (list_destroy_vdev hs s.mngdev s.vdev_slots v true).2⟩ := by
  obtain ⟨hge, hle⟩ := h.range v hv
  have hlist := list_destroy_vdev_vdev_list hs s v
  have hslots : (list_destroy_vdev hs s.mngdev s.vdev_slots v true).2 =
      Function.update s.vdev_slots ⟨v.id.toNat - 1, by omega⟩ none := by
    simp only [list_destroy_vdev, if_true, mngdev_event_dispatch_list_remove_all,
      on_subscribe_change_des, modac_vdev_destroy]
    rw [h.minors v hv, calc_table_indices_vdev s.mngdev.des hge hle]
  have hsub : (list_del s.mngdev.vdev_list v.ptr).Sublist s.mngdev.vdev_list :=
    List.filter_sublist
  have hmem := h.mem_list_del hv
  exact {
    ref := by
      change (list_destroy_vdev hs s.mngdev s.vdev_slots v true).1.ref.ref_ptr = true
      rw [list_destroy_vdev_ref]
      exact h.ref
    ptrs := by
      change (List.map _ (list_destroy_vdev hs s.mngdev s.vdev_slots v true).1.vdev_list).Nodup
      rw [hlist]
      exact h.ptrs.sublist (hsub.map _)
    minors := by
      intro w hw
      rw [list_destroy_vdev_des]
      rw [hlist] at hw
      exact h.minors w (hsub.subset hw)
    range := by
      intro w hw
      rw [hlist] at hw
      exact h.range w (hsub.subset hw)
    ids := by
      change (List.map _ (list_destroy_vdev hs s.mngdev s.vdev_slots v true).1.vdev_list).Nodup
      rw [hlist]
      exact h.ids.sublist (hsub.map _)
    terminated := by
      intro w hw
      rw [hlist] at hw
      exact h.terminated w (hsub.subset hw)
    names := by
      change (List.map _ (list_destroy_vdev hs s.mngdev s.vdev_slots v true).1.vdev_list).Nodup
      rw [hlist]
      exact h.names.sublist (hsub.map _)
    slots := by
      intro i p
      change (list_destroy_vdev hs s.mngdev s.vdev_slots v true).2 i = some p ↔ _
      rw [hslots, hlist, Function.update_apply]
      by_cases hi : v.id.toNat = i.val + 1
      · rw [if_pos (Fin.ext (by simp only; omega))]
        constructor
        · intro hnone
          exact absurd hnone (Option.some_ne_none p).symm
        · rintro ⟨w, hw, hid, -⟩
          obtain ⟨hw, hne⟩ := (hmem w).mp hw
          exact absurd (h.find_eq hw hv (hid.trans hi.symm)) hne
      · rw [if_neg (by rw [Fin.ext_iff]; simp only; omega), h.slots]
        constructor
        · rintro ⟨w, hw, hid, hptr⟩
          exact ⟨w, (hmem w).mpr ⟨hw, fun heq => hi (heq ▸ hid)⟩, hid, hptr⟩
        · rintro ⟨w, hw, hid, hptr⟩
          exact ⟨w, hsub.subset hw, hid, hptr⟩ }

theorem identity_step_eq_some {t : identity_state H} :
    identity_step hs s op = some t ↔
      (∀ w ∈ s.mngdev.vdev_list, w.ptr ≠ op.ptr) ∧
      t = ⟨(identity_ioctl hs s op).mngdev, (identity_ioctl hs s op).vdev_slots⟩ := by
  unfold identity_step
  by_cases hused : (vdev_at s.mngdev op.ptr).isSome = true
  · rw [if_pos hused]
    simp only [vdev_at, List.find?_isSome, decide_eq_true_eq] at hused
    obtain ⟨w, hw, hptr⟩ := hused
    exact ⟨nofun, fun h => absurd hptr (h.1 w hw)⟩
  · rw [if_neg hused, Option.some_inj]
    simp only [vdev_at, List.find?_isSome, decide_eq_true_eq, not_exists, not_and] at hused
    exact ⟨fun h => ⟨hused, h.symm⟩, fun h => h.2.symm⟩

theorem Identified.step {t : identity_state H} (h : Identified s)
    (hterminated : op.cmd = .create → (identity_ioctl hs s op).ret = 0 → Terminated op)
    (hstep : identity_step hs s op = some t) : Identified t := by
  obtain ⟨hnew, rfl⟩ := identity_step_eq_some.mp hstep
  cases hcmd : op.cmd with
  | create =>
    obtain ⟨err, -, heq⟩ | ⟨ids, v, hids, hret, hcreated, hptr, hminor, hname⟩ :=
      create_cases hs h.ref hnew hcmd
    · rw [heq]
      exact h
    · apply h.create hcreated (hptr ▸ hnew) hminor
      rw [hname, zero_mem_strncpy]
      exact hterminated hcmd hret ids hids
  | destroy =>
    obtain ⟨err, -, heq⟩ | ⟨args, v, -, hfind, heq⟩ := destroy_cases hs h.ref hcmd
    · rw [heq]
      exact h
    · rw [heq]
      exact h.destroy (list_find_vdev_mem hfind).1
  | find =>
    obtain ⟨hm, hslots, -⟩ := find_exact hs h.ref hcmd
    rw [hm, hslots]
    exact h

/-- None of these ioctls touches the reference. -/
theorem identity_step_ref {t : identity_state H} (href : s.mngdev.ref.ref_ptr = true)
    (hstep : identity_step hs s op = some t) : t.mngdev.ref.ref_ptr = true := by
  obtain ⟨hnew, rfl⟩ := identity_step_eq_some.mp hstep
  cases hcmd : op.cmd with
  | create =>
    obtain ⟨err, -, heq⟩ | ⟨ids, v, -, -, hcreated, -⟩ := create_cases hs href hnew hcmd
    · rw [heq]
      exact href
    · change (identity_ioctl hs s op).mngdev.ref.ref_ptr = true
      rw [hcreated.mngdev]
      exact href
  | destroy =>
    obtain ⟨err, -, heq⟩ | ⟨args, v, -, -, heq⟩ := destroy_cases hs href hcmd
    · rw [heq]
      exact href
    · rw [heq]
      change (list_destroy_vdev hs s.mngdev s.vdev_slots v true).1.ref.ref_ptr = true
      rw [list_destroy_vdev_ref]
      exact href
  | find =>
    obtain ⟨hm, -⟩ := find_exact hs href hcmd
    change (identity_ioctl hs s op).mngdev.ref.ref_ptr = true
    rw [hm]
    exact href

end

/-- In any sequence of these ioctls, whatever fails on the way: the ids, the names and the slots
agree, MNG_DEV_IOC_VIRT_DEV_FIND finds the id of a name, and MNG_DEV_IOC_CREATE takes the
smallest free id for 0, refuses any other id, and leaves everything as it was where it fails. -/
theorem vdev_identity (hs : modac_hw_support_def H A O) (des : modac_mngdev_des) (hw : H)
    (rm_data : res_data) (ops : List (named_op A)) :
    StatesMeet (named_step hs) Identified (identity_init des hw rm_data) ops ∧
    StepsMeet (named_step hs) (fun s op => FindExact hs s op.val)
      (identity_init des hw rm_data) ops ∧
    StepsMeet (named_step hs) (fun s op => CreateExact hs s op.val)
      (identity_init des hw rm_data) ops := by
  have hinit := identified_init des hw rm_data
  have hkeep : ∀ s op t, Identified s → named_step hs s op = some t → Identified t :=
    fun s op t h hstep => h.step (fun _ _ => op.property) hstep
  refine ⟨?_, ?_, ?_⟩
  · exact statesMeet_of_invariant (fun _ h => h) hkeep hinit ops
  · exact stepsMeet_of_invariant hkeep (fun _ _ _ h _ => find_exact hs h.ref) hinit ops
  · exact stepsMeet_of_invariant hkeep
      (fun _ _ _ h hstep => create_exact h.ref (identity_step_eq_some.mp hstep).1) hinit ops

end evrma.mng_dev
