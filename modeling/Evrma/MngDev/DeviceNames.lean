import Evrma.MngDev.Identity

namespace evrma.mng_dev

open evrma.ioctl evrma.lib evrma.packet_queue evrma.rm evrma.virt_dev

variable {H A O : Type}

/-- A device of `modac_vdev_class`; its number is the one of the MNG_DEV and the id. -/
structure vdev_device where
  imngdev : Nat
  id : BitVec 8
  dev_name : List (BitVec 8)

structure class_state (H : Type) where
  devs : Nat → identity_state H
  devices : List vdev_device

structure class_op (A : Type) where
  imngdev : Nat
  op : identity_op A

/-- `strcmp` ends before it leaves one of the two arrays. -/
def strcmp_stops : List (BitVec 8) → List (BitVec 8) → Bool
  | c1 :: s1, c2 :: s2 => c1 ≠ c2 || c1 = 0 || strcmp_stops s1 s2
  | _, _ => false

def dev_exists_for_vdev_class (devices : List vdev_device) (name : name_field) : Bool :=
  devices.any fun dev => STRINGS_EQUAL name.toList dev.dev_name

/-- The check of the class is no longer at will. -/
def class_arg (devices : List vdev_device) (arg : mngdev_ioctl_arg A) : mngdev_ioctl_arg A :=
  { arg with
    create := { arg.create with
      dev_exists_for_vdev_class := arg.vdev_ids.elim false fun ids =>
        dev_exists_for_vdev_class devices (strncpy ids.name) } }

def checked_op (s : class_state H) (op : class_op A) : identity_op A :=
  { op.op with arg := class_arg s.devices op.op.arg }

def class_ioctl (hs : modac_hw_support_def H A O) (s : class_state H) (op : class_op A) :
    ioctl_result H O :=
  identity_ioctl hs (s.devs op.imngdev) (checked_op s op)

variable (device_name : name_field → List (BitVec 8))

/-- The name of a device is what `device_create` makes of the name of the VIRT_DEV as a format. -/
def class_devices (s : class_state H) (op : class_op A) (r : ioctl_result H O) :
    List vdev_device :=
  if r.ret ≠ 0 then s.devices
  else
    match op.op.cmd with
    | .find => s.devices
    | .create => r.mngdev.vdev_list.head?.elim s.devices fun v =>
        ⟨op.imngdev, v.id, device_name v.name⟩ :: s.devices
    | .destroy => s.devices.filter fun dev =>
        !(dev.imngdev = op.imngdev ∧ op.op.arg.destroy.any fun args => dev.id = args.id)

def class_step (hs : modac_hw_support_def H A O) (s : class_state H) (op : class_op A) :
    Option (class_state H) :=
  (identity_step hs (s.devs op.imngdev) (checked_op s op)).map fun dev =>
    { devs := Function.update s.devs op.imngdev dev
      devices := class_devices device_name s op (class_ioctl hs s op) }

def class_init (des : Nat → modac_mngdev_des) (hw : Nat → H) (rm_data : Nat → res_data) :
    class_state H where
  devs i := identity_init (des i) (hw i) (rm_data i)
  devices := []

def device_of (devices : List vdev_device) (imngdev : Nat) (id : BitVec 8) :
    Option vdev_device :=
  devices.find? fun dev => dev.imngdev = imngdev ∧ dev.id = id

/-- The four uses of the name of a VIRT_DEV agree, and stay in the field. A field that is copied
to the same name finds the VIRT_DEV, and no second one is created from it: its own MNG_DEV knows the
name whatever the id, another one looks at the class once it has an id and the memory. -/
structure NameIntegrity (hs : modac_hw_support_def H A O) (s : class_state H) (imngdev : Nat)
    (v : modac_vdev_des) : Prop where
  terminated : 0 ∈ v.name.toList
  device : (device_of s.devices imngdev v.id).map (·.dev_name) = some (c_string v.name.toList)
  compare : ∀ name, v.name.toList.length ≤ name.length ∨ 0 ∈ name →
    strcmp_stops v.name.toList name = true
  status : c_string (strncpy v.name).toList = c_string v.name.toList ∧
    0 ∈ (strncpy v.name).toList
  find : ∀ op ids, op.imngdev = imngdev → op.op.cmd = .find → op.op.arg.access_ok = true →
    op.op.arg.vdev_ids = some ids → strncpy ids.name = v.name →
    op.op.arg.copy_to_user = true →
    (class_ioctl hs s op).ret = 0 ∧ (class_ioctl hs s op).out = .vdev_id v.id
  again : ∀ op ids, op.op.cmd = .create → op.op.arg.access_ok = true →
    op.op.arg.vdev_ids = some ids → strncpy ids.name = v.name →
    (class_ioctl hs s op).ret ≠ 0 ∧
    (ids.id.toNat ≤ MAX_VIRT_DEVS_PER_MNG_DEV →
      op.imngdev = imngdev ∨
        (ids.id = 0 ∧ ∃ id, FreeId (s.devs op.imngdev).mngdev id) ∧
        op.op.arg.create.kmalloc_des = true ∧ op.op.arg.create.kmalloc_vdev = true →
      (class_ioctl hs s op).ret = -EEXIST)

/-- The field has a terminating zero and `device_create` takes the name as it stands. -/
def GoodName (name : name_field) : Prop :=
  0 ∈ name.toList ∧ device_name (strncpy name) = c_string name.toList

instance (name : name_field) : Decidable (GoodName device_name name) :=
  inferInstanceAs (Decidable (_ ∧ _))

/-- The VIRT_DEV that a step creates keeps its name intact exactly where the name is good. -/
def IntactWhereGood (hs : modac_hw_support_def H A O) (s : class_state H) (op : class_op A) :
    Prop :=
  op.op.cmd = .create → (class_ioctl hs s op).ret = 0 →
    ∀ t, class_step device_name hs s op = some t →
      ∃ ids v, op.op.arg.vdev_ids = some ids ∧ v.name = strncpy ids.name ∧
        (t.devs op.imngdev).mngdev.vdev_list = v :: (s.devs op.imngdev).mngdev.vdev_list ∧
        (NameIntegrity hs t op.imngdev v ↔ GoodName device_name ids.name)

def CreatesGood (hs : modac_hw_support_def H A O) (s : class_state H) (op : class_op A) : Prop :=
  op.op.cmd = .create → (class_ioctl hs s op).ret = 0 →
    ∀ ids, op.op.arg.vdev_ids = some ids → GoodName device_name ids.name

def AllIntact (hs : modac_hw_support_def H A O) (s : class_state H) : Prop :=
  ∀ i, ∀ v ∈ (s.devs i).mngdev.vdev_list, NameIntegrity hs s i v

theorem strcmp_stops_of_terminated {s1 s2 : List (BitVec 8)} (hs1 : 0 ∈ s1)
    (hs2 : s1.length ≤ s2.length ∨ 0 ∈ s2) : strcmp_stops s1 s2 = true := by
  induction s1 generalizing s2 with
  | nil => cases hs1
  | cons c1 s1 ih =>
    cases s2 with
    | nil =>
      obtain hlen | hzero := hs2
      · cases hlen
      · cases hzero
    | cons c2 s2 =>
      rw [strcmp_stops]
      by_cases hne : c1 = c2
      · subst hne
        by_cases hzero : c1 = 0
        · simp [hzero]
        · simp only [List.mem_cons, Ne.symm hzero, false_or] at hs1 hs2
          rw [ih hs1 (by simpa using hs2), Bool.or_true]
      · simp [hne]

theorem c_string_c_string (s : List (BitVec 8)) : c_string (c_string s) = c_string s :=
  List.takeWhile_idem

/-- A second field with the same copy has the same string. -/
theorem c_string_eq_of_strncpy {src : name_field} {name : name_field} (h : strncpy src = name) :
    c_string src.toList = c_string name.toList := by
  rw [← h, c_string_strncpy]

section

variable {hs : modac_hw_support_def H A O} {s t : class_state H} {op : class_op A} {i : Nat}
  {v : modac_vdev_des}

def RefsValid (s : class_state H) : Prop := ∀ i, (s.devs i).mngdev.ref.ref_ptr = true

theorem class_step_eq_some :
    class_step device_name hs s op = some t ↔
      ∃ dev, identity_step hs (s.devs op.imngdev) (checked_op s op) = some dev ∧
        { devs := Function.update s.devs op.imngdev dev
          devices := class_devices device_name s op (class_ioctl hs s op) } = t :=
  Option.map_eq_some_iff

theorem dev_exists_of_device {name : name_field}
    (hdevice : (device_of s.devices i v.id).map (·.dev_name) = some (c_string v.name.toList))
    (hname : strncpy name = v.name) : dev_exists_for_vdev_class s.devices (strncpy name) = true := by
  obtain ⟨dev, hdev, hdev_name⟩ := Option.map_eq_some_iff.mp hdevice
  rw [dev_exists_for_vdev_class, List.any_eq_true]
  refine ⟨dev, List.mem_of_find?_eq_some hdev, ?_⟩
  rw [strings_equal_iff, hname, hdev_name, c_string_c_string]

/-- With the name in the class, nothing is created. -/
theorem modac_vdev_create_exists (des : modac_mngdev_des) (slots : vdev_slots)
    (v : modac_vdev_des) {outcome : create_outcome}
    (hexists : outcome.dev_exists_for_vdev_class = true) :
    (modac_vdev_create des slots v outcome).2.1 ≠ 0 ∧
    (∀ indices, calc_table_indices des v.minor = some indices → outcome.kmalloc_vdev = true →
      (modac_vdev_create des slots v outcome).2.1 = -EEXIST) := by
  unfold modac_vdev_create
  cases calc_table_indices des v.minor with
  | none => exact ⟨(by decide : (-ENODEV : Int) ≠ 0), nofun⟩
  | some indices =>
    dsimp only
    rw [if_pos hexists]
    by_cases hkmalloc : outcome.kmalloc_vdev = false
    · rw [if_pos hkmalloc, hkmalloc]
      exact ⟨(by decide : (-ENOMEM : Int) ≠ 0), fun _ _ h => absurd h Bool.false_ne_true⟩
    · rw [if_neg hkmalloc]
      exact ⟨(by decide : (-EEXIST : Int) ≠ 0), fun _ _ _ => rfl⟩

theorem mngdev_create_exists (hs : modac_hw_support_def H A O) (m : mngdev_data H)
    (slots : vdev_slots) (ptr : Nat) {arg : mngdev_ioctl_arg A} {ids : mngdev_ioctl_vdev_ids}
    (hids : arg.vdev_ids = some ids)
    (hexists : arg.create.dev_exists_for_vdev_class = true) :
    (mngdev_create hs m slots ptr arg).ret ≠ 0 ∧
    (ids.id.toNat ≤ MAX_VIRT_DEVS_PER_MNG_DEV → ∀ id, choose_id m ids.id = .ok id →
      arg.create.kmalloc_des = true → arg.create.kmalloc_vdev = true →
      (mngdev_create hs m slots ptr arg).ret = -EEXIST) := by
  unfold mngdev_create
  rw [hids]
  dsimp only
  by_cases hid : MAX_VIRT_DEVS_PER_MNG_DEV < ids.id.toNat
  · rw [if_pos hid]
    exact ⟨(by decide : (-EINVAL : Int) ≠ 0), fun hle => absurd hle (Nat.not_le.mpr hid)⟩
  rw [if_neg hid]
  by_cases hname : (list_find_vdev_by_name m ids.name).isSome = true
  · rw [if_pos hname]
    exact ⟨(by decide : (-EEXIST : Int) ≠ 0), fun _ _ _ _ _ => rfl⟩
  rw [if_neg hname]
  cases hchoose : choose_id m ids.id with
  | error err => exact ⟨choose_id_error hchoose, fun _ _ h => nomatch h⟩
  | ok id =>
    obtain ⟨⟨hge, hle⟩, -⟩ := choose_id_ok hchoose
    dsimp only
    by_cases hkmalloc : arg.create.kmalloc_des = false
    · rw [if_pos hkmalloc, hkmalloc]
      exact ⟨(by decide : (-ENOMEM : Int) ≠ 0), fun _ _ _ h => absurd h Bool.false_ne_true⟩
    rw [if_neg hkmalloc]
    obtain ⟨hret, hret_exists⟩ := modac_vdev_create_exists m.des slots
      (new_vdev m ptr id ids.name arg.create.cb_events) hexists
    rw [if_pos hret]
    exact ⟨hret, fun _ _ _ _ hkmalloc => hret_exists _ (calc_table_indices_vdev m.des hge hle)
      hkmalloc⟩

/-- A VIRT_DEV that is found by its own name, with a device of that name. -/
theorem nameIntegrity_of_found (hrefs : RefsValid s) (hterminated : 0 ∈ v.name.toList)
    (hdevice : (device_of s.devices i v.id).map (·.dev_name) = some (c_string v.name.toList))
    (hfound : list_find_vdev_by_name (s.devs i).mngdev v.name = some v) :
    NameIntegrity hs s i v := {
  terminated := hterminated
  device := hdevice
  compare := fun _ hname => strcmp_stops_of_terminated hterminated hname
  status := ⟨c_string_strncpy v.name, zero_mem_strncpy.mpr hterminated⟩
  find := by
    rintro op ids rfl hcmd haccess hids hcopied hcopy
    rw [class_ioctl, identity_ioctl_eq (hrefs _)]
    simp only [checked_op, class_arg, hcmd, haccess, if_true, mngdev_virt_dev_find, hids]
    rw [list_find_vdev_by_name_congr (c_string_eq_of_strncpy hcopied), hfound, copied,
      if_pos hcopy]
    exact ⟨rfl, rfl⟩
  again := by
    intro op ids hcmd haccess hids hcopied
    have hchecked_cmd : (checked_op s op).cmd = .create := hcmd
    have hchecked_access : (checked_op s op).arg.access_ok = true := haccess
    have hchecked_ids : (checked_op s op).arg.vdev_ids = some ids := hids
    have hexists : (checked_op s op).arg.create.dev_exists_for_vdev_class = true := by
      simp only [checked_op, class_arg, hids, Option.elim_some]
      exact dev_exists_of_device hdevice hcopied
    rw [class_ioctl, identity_ioctl_eq (hrefs _), hchecked_cmd, if_pos hchecked_access]
    obtain ⟨hret, hret_exists⟩ := mngdev_create_exists hs (s.devs op.imngdev).mngdev
      (s.devs op.imngdev).vdev_slots (checked_op s op).ptr hchecked_ids hexists
    refine ⟨hret, fun hle h => ?_⟩
    obtain rfl | ⟨⟨hzero, id, hfree⟩, hkmalloc_des, hkmalloc_vdev⟩ := h
    · unfold mngdev_create
      simp only [hchecked_ids]
      rw [if_neg (Nat.not_lt.mpr hle),
        list_find_vdev_by_name_congr (c_string_eq_of_strncpy hcopied), hfound]
      rfl
    · obtain ⟨vdev_id, hchoose⟩ := choose_id_zero_of_free hfree
      exact hret_exists hle vdev_id (hzero ▸ hchoose) hkmalloc_des hkmalloc_vdev }

theorem refsValid_step (hrefs : RefsValid s)
    (hstep : class_step device_name hs s op = some t) : RefsValid t := by
  obtain ⟨dev, hdev, rfl⟩ := (class_step_eq_some device_name).mp hstep
  intro i
  by_cases hi : i = op.imngdev
  · subst hi
    simpa using identity_step_ref (hrefs op.imngdev) hdev
  · simpa [hi] using hrefs i

/-- What a successful MNG_DEV_IOC_CREATE adds, in the list and in the class. -/
theorem class_create_ok (hrefs : RefsValid s) (hcmd : op.op.cmd = .create)
    (hret : (class_ioctl hs s op).ret = 0) (hstep : class_step device_name hs s op = some t) :
    ∃ ids v, op.op.arg.vdev_ids = some ids ∧ v.name = strncpy ids.name ∧
      (∀ w ∈ (s.devs op.imngdev).mngdev.vdev_list, w.id ≠ v.id) ∧
      (t.devs op.imngdev).mngdev.vdev_list = v :: (s.devs op.imngdev).mngdev.vdev_list ∧
      t.devices = ⟨op.imngdev, v.id, device_name v.name⟩ :: s.devices := by
  obtain ⟨dev, hdev, rfl⟩ := (class_step_eq_some device_name).mp hstep
  obtain ⟨hnew, rfl⟩ := identity_step_eq_some.mp hdev
  obtain ⟨err, herr, heq⟩ | ⟨ids, v, hids, -, hcreated, -, -, hname⟩ :=
    create_cases hs (hrefs op.imngdev) hnew hcmd
  · rw [class_ioctl, heq] at hret
    exact absurd hret herr
  · have hlist : (class_ioctl hs s op).mngdev.vdev_list =
        v :: (s.devs op.imngdev).mngdev.vdev_list := by
      rw [class_ioctl, hcreated.mngdev]
    refine ⟨ids, v, hids, hname, hcreated.free.2, ?_, ?_⟩
    · dsimp only
      rw [Function.update_self]
      exact hlist
    · simp only [class_devices, hret, hcmd, hlist, ne_eq, not_true_eq_false, if_false,
        List.head?_cons, Option.elim_some]

theorem device_of_cons_self {devices : List vdev_device} {dev : vdev_device} :
    device_of (dev :: devices) dev.imngdev dev.id = some dev := by
  simp [device_of]

theorem device_of_cons_of_ne {devices : List vdev_device} {dev : vdev_device} {id : BitVec 8}
    (hne : dev.imngdev = i → dev.id ≠ id) :
    device_of (dev :: devices) i id = device_of devices i id := by
  rw [device_of, List.find?_cons_of_neg (by simpa using hne)]
  rfl

theorem intactWhereGood_of_refsValid (hrefs : RefsValid s) :
    IntactWhereGood device_name hs s op := by
  intro hcmd hret t hstep
  obtain ⟨ids, v, hids, hname, -, hlist, hdevices⟩ :=
    class_create_ok device_name hrefs hcmd hret hstep
  have hstring : c_string v.name.toList = c_string ids.name.toList := by
    rw [hname, c_string_strncpy]
  have hdevice : device_of t.devices op.imngdev v.id =
      some ⟨op.imngdev, v.id, device_name v.name⟩ := by
    rw [hdevices]
    exact device_of_cons_self
  refine ⟨ids, v, hids, hname, hlist, ?_⟩
  constructor
  · intro hintact
    refine ⟨zero_mem_strncpy.mp (hname ▸ hintact.terminated), ?_⟩
    have hsame := hintact.device
    rw [hdevice, Option.map_some, Option.some_inj] at hsame
    rw [← hname, ← hstring]
    exact hsame
  · rintro ⟨hterminated, hverbatim⟩
    apply nameIntegrity_of_found (refsValid_step device_name hrefs hstep)
    · rw [hname]
      exact zero_mem_strncpy.mpr hterminated
    · rw [hdevice, Option.map_some, hname, hverbatim, ← hname, hstring]
    · rw [list_find_vdev_by_name, hlist, List.find?_cons_of_pos]
      exact strings_equal_iff.mpr rfl

/-- Every VIRT_DEV has its device, under the same name. -/
structure ClassInv (s : class_state H) : Prop where
  identified : ∀ i, Identified (s.devs i)
  devices : ∀ i, ∀ v ∈ (s.devs i).mngdev.vdev_list,
    device_of s.devices i v.id = some ⟨i, v.id, c_string v.name.toList⟩

theorem ClassInv.refsValid (h : ClassInv s) : RefsValid s := fun i => (h.identified i).ref

/-- A VIRT_DEV is found by its own name, as no other one has it. -/
theorem Identified.found {dev : identity_state H} (h : Identified dev)
    (hv : v ∈ dev.mngdev.vdev_list) : list_find_vdev_by_name dev.mngdev v.name = some v := by
  cases hfind : list_find_vdev_by_name dev.mngdev v.name with
  | none => exact absurd rfl (list_find_vdev_by_name_eq_none.mp hfind v hv)
  | some w =>
    obtain ⟨hw, hname⟩ := list_find_vdev_by_name_mem hfind
    rw [List.inj_on_of_nodup_map h.names hw hv hname]

theorem ClassInv.allIntact (h : ClassInv s) : AllIntact hs s := by
  intro i v hv
  apply nameIntegrity_of_found h.refsValid ((h.identified i).terminated v hv)
  · rw [h.devices i v hv, Option.map_some]
  · exact (h.identified i).found hv

theorem classInv_init (des : Nat → modac_mngdev_des) (hw : Nat → H) (rm_data : Nat → res_data) :
    ClassInv (class_init des hw rm_data) := {
  identified := fun i => identified_init (des i) (hw i) (rm_data i)
  devices := nofun }

theorem device_of_filter {devices : List vdev_device} {p : vdev_device → Bool} {id : BitVec 8}
    (hkept : ∀ dev : vdev_device, dev.imngdev = i → dev.id = id → p dev = true) :
    device_of (devices.filter p) i id = device_of devices i id := by
  induction devices with
  | nil => rfl
  | cons dev devices ih =>
    by_cases hkey : dev.imngdev = i ∧ dev.id = id
    · obtain ⟨rfl, rfl⟩ := hkey
      rw [List.filter_cons_of_pos (hkept dev rfl rfl), device_of_cons_self, device_of_cons_self]
    · have hne : dev.imngdev = i → dev.id ≠ id := fun hi hid => hkey ⟨hi, hid⟩
      rw [device_of_cons_of_ne hne, ← ih, List.filter_cons]
      split_ifs
      · exact device_of_cons_of_ne hne
      · rfl

/-- The devices of the VIRT_DEVs that stay are the ones they had. -/
theorem class_step_devices_kept (h : ClassInv s)
    (hstep : class_step device_name hs s op = some t) (hv : v ∈ (t.devs i).mngdev.vdev_list)
    (hold : v ∈ (s.devs i).mngdev.vdev_list) :
    device_of t.devices i v.id = device_of s.devices i v.id := by
  obtain ⟨dev, hdev, rfl⟩ := (class_step_eq_some device_name).mp hstep
  obtain ⟨hnew, rfl⟩ := identity_step_eq_some.mp hdev
  by_cases hret : (class_ioctl hs s op).ret = 0
  · cases hcmd : op.op.cmd with
    | create =>
      obtain ⟨ids, w, -, -, hfree, -, hdevices⟩ :=
        class_create_ok device_name h.refsValid hcmd hret hstep
      rw [hdevices]
      apply device_of_cons_of_ne
      rintro rfl hid
      exact hfree v hold hid.symm
    | destroy =>
      have hdestroyed := destroy_cases hs (h.refsValid op.imngdev)
        (show (checked_op s op).cmd = .destroy from hcmd)
      obtain ⟨err, herr, heq⟩ | ⟨args, w, hargs, hfind, heq⟩ := hdestroyed
      · rw [class_ioctl, heq] at hret
        exact absurd hret herr
      · obtain ⟨hw, hid⟩ := list_find_vdev_mem hfind
        have hargs : op.op.arg.destroy = some args := hargs
        simp only [class_devices, hret, hcmd, ne_eq, not_true_eq_false, if_false, hargs]
        apply device_of_filter
        rintro dev rfl hdev_id
        simp only [Option.any_some, Bool.not_eq_true', decide_eq_false_iff_not, not_and,
          decide_eq_true_eq]
        intro hi hdestroy
        simp only [hi, Function.update_self] at hv
        rw [heq] at hv
        change v ∈ (list_destroy_vdev hs (s.devs op.imngdev).mngdev
          (s.devs op.imngdev).vdev_slots w true).1.vdev_list at hv
        rw [list_destroy_vdev_vdev_list,
          (h.identified op.imngdev).mem_list_del hw] at hv
        apply hv.2
        apply (h.identified op.imngdev).find_eq hv.1 hw
        rw [← hdev_id, hdestroy, hid]
    | find => simp only [class_devices, hret, hcmd, ne_eq, not_true_eq_false, if_false]
  · simp only [class_devices, hret, ne_eq, not_false_eq_true, if_true]

/-- Only a successful MNG_DEV_IOC_CREATE brings a VIRT_DEV in. -/
theorem class_step_created (hrefs : RefsValid s) (hstep : class_step device_name hs s op = some t)
    (hv : v ∈ (t.devs i).mngdev.vdev_list) (hnot : v ∉ (s.devs i).mngdev.vdev_list) :
    i = op.imngdev ∧ op.op.cmd = .create ∧ (class_ioctl hs s op).ret = 0 := by
  obtain ⟨dev, hdev, rfl⟩ := (class_step_eq_some device_name).mp hstep
  obtain ⟨hnew, rfl⟩ := identity_step_eq_some.mp hdev
  by_cases hi : i = op.imngdev
  · subst hi
    simp only [Function.update_self] at hv
    refine ⟨rfl, ?_⟩
    cases hcmd : op.op.cmd with
    | create =>
      refine ⟨rfl, ?_⟩
      obtain ⟨err, -, heq⟩ | ⟨ids, w, -, hret, -⟩ :=
        create_cases hs (hrefs op.imngdev) hnew (show (checked_op s op).cmd = .create from hcmd)
      · rw [heq] at hv
        exact absurd hv hnot
      · exact hret
    | destroy =>
      obtain ⟨err, -, heq⟩ | ⟨args, w, -, -, heq⟩ :=
        destroy_cases hs (hrefs op.imngdev) (show (checked_op s op).cmd = .destroy from hcmd)
      · rw [heq] at hv
        exact absurd hv hnot
      · rw [heq] at hv
        change v ∈ (list_destroy_vdev hs (s.devs op.imngdev).mngdev
          (s.devs op.imngdev).vdev_slots w true).1.vdev_list at hv
        rw [list_destroy_vdev_vdev_list] at hv
        exact absurd (List.mem_of_mem_filter hv) hnot
    | find =>
      obtain ⟨hm, -⟩ :=
        find_exact hs (hrefs op.imngdev) (show (checked_op s op).cmd = .find from hcmd)
      rw [hm] at hv
      exact absurd hv hnot
  · simp only [Function.update_of_ne hi] at hv
    exact absurd hv hnot

/-- Where a VIRT_DEV is only created from a good name, its device has the same one. -/
theorem ClassInv.step (h : ClassInv s) (hgood : CreatesGood device_name hs s op)
    (hstep : class_step device_name hs s op = some t) : ClassInv t := by
  refine ⟨fun i => ?_, fun i v hv => ?_⟩
  · obtain ⟨dev, hdev, rfl⟩ := (class_step_eq_some device_name).mp hstep
    by_cases hi : i = op.imngdev
    · subst hi
      simp only [Function.update_self]
      apply (h.identified op.imngdev).step ?_ hdev
      intro hcmd hret ids hids
      exact (hgood hcmd hret ids hids).1
    · simp only [Function.update_of_ne hi]
      exact h.identified i
  · by_cases hold : v ∈ (s.devs i).mngdev.vdev_list
    · rw [class_step_devices_kept device_name h hstep hv hold]
      exact h.devices i v hold
    · obtain ⟨rfl, hcmd, hret⟩ := class_step_created device_name h.refsValid hstep hv hold
      obtain ⟨ids, w, hids, hname, -, hlist, hdevices⟩ :=
        class_create_ok device_name h.refsValid hcmd hret hstep
      rw [hlist] at hv
      obtain rfl | hv := List.mem_cons.mp hv
      · rw [hdevices, device_of_cons_self, hname, (hgood hcmd hret ids hids).2, c_string_strncpy]
      · exact absurd hv hold

end

/-- The names along any run of the three ioctls on any MNG_DEVs. -/
theorem name_integrity (hs : modac_hw_support_def H A O) (des : Nat → modac_mngdev_des)
    (hw : Nat → H) (rm_data : Nat → res_data) (ops : List (class_op A)) :
    StepsMeet (class_step device_name hs) (IntactWhereGood device_name hs)
      (class_init des hw rm_data) ops ∧
    (StepsMeet (class_step device_name hs) (CreatesGood device_name hs)
        (class_init des hw rm_data) ops →
      StatesMeet (class_step device_name hs) (AllIntact hs) (class_init des hw rm_data) ops) := by
  have hinit := classInv_init des hw rm_data
  constructor
  · exact stepsMeet_of_invariant (fun _ _ _ h hstep => refsValid_step device_name h hstep)
      (fun _ _ _ h _ => intactWhereGood_of_refsValid device_name h) hinit.refsValid ops
  · exact statesMeet_of_stepsMeet (fun _ h => h.allIntact)
      (fun _ _ _ h hgood hstep => h.step device_name hgood hstep) hinit

def class_init_0 : class_state (List hw_call) :=
  class_init (fun _ => first_mngdev) (fun _ => []) (fun _ => no_resources)

def create_field (name : name_field) : class_op Unit :=
  ⟨0, .create, 0, { empty_arg with vdev_ids := some ⟨0, name⟩ }⟩

/-- `device_create` takes a name without conversions as it stands. -/
def verbatim (name : name_field) : List (BitVec 8) := c_string name.toList

/-- A VIRT_DEV is created under a name of three characters. -/
theorem name_integrity_created :
    StatesMeet (class_step verbatim recording_hw_support) (AllIntact recording_hw_support)
      class_init_0 [create_field (to_field [0x65, 0x76, 0x72])] :=
  (name_integrity verbatim recording_hw_support _ _ _ _).2 fun _ _ =>
    ⟨fun _ _ ids hids => by
      obtain rfl := Option.some.inj hids
      decide +kernel, trivial⟩

def unterminated (s : class_state H) : Bool :=
  (s.devs 0).mngdev.vdev_list.any fun v => !v.name.toList.contains 0

theorem not_allIntact_of_unterminated {hs : modac_hw_support_def H A O} (s : class_state H)
    (hbad : unterminated s = true) : ¬ AllIntact hs s := by
  intro hintact
  obtain ⟨v, hv, hzero⟩ := List.any_eq_true.mp hbad
  rw [List.contains_iff_mem.mpr (hintact 0 v hv).terminated] at hzero
  cases hzero

/-- With 32 characters that are not zero, nothing terminates the name. -/
theorem name_integrity_unterminated :
    ¬ StatesMeet (class_step verbatim recording_hw_support) (AllIntact recording_hw_support)
      class_init_0 [create_field (Vector.replicate _ 0x61)] :=
  not_statesMeet_of_last not_allIntact_of_unterminated (by decide +kernel)

end evrma.mng_dev
