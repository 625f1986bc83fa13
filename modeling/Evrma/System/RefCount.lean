import Evrma.System.Usage

namespace evrma.system

open evrma.event_list evrma.ioctl evrma.lib evrma.mng_dev evrma.rm evrma.virt_dev

variable {H A O : Type}

/-- The reference of the creator, until `modac_mngdev_destroy` gives it back. -/
def own_reference (unplug : unplug_progress) : Int := if unplug = .done then 0 else 1

/-- The inodes of the files that are open or being opened, as often as they are. -/
def holders (files : List file) (opening : List inode) : Multiset inode :=
  (files.map file.inode : Multiset inode) + (opening : Multiset inode)

/-- The count of the reference is its own one and one for each file; every inode is
listed once, with the number of its files. The MNG_DEV is gone, by one call of
`mngdev_destroy_now`, exactly when it is unplugged and no file is open. -/
structure RefsCounted (s : modac_state H) : Prop where
  ref_cnt : ∀ m, s.mngdev = some m →
    m.ref.ref_cnt = own_reference s.unplug + (s.files.length + s.opening.length)
  inodes : ∀ m, s.mngdev = some m → InodesHold m.ref (holders s.files s.opening)
  gone : s.mngdev = none ↔ s.unplug = .done ∧ s.files = [] ∧ s.opening = []
  destroyed : s.destroyed = if s.mngdev.isNone then 1 else 0

/-- No open of the MNG_DEV comes to the check of the process while it is open. -/
def OpenedOnce (s : modac_state H) (a : op A) : Prop :=
  ∀ i pid m, a = .mngdev_open_finish i pid → s.mngdev = some m → m.pid = NO_PID

theorem holders_cons_file (f : file) (files : List file) (opening : List inode) :
    holders (f :: files) opening = f.inode ::ₘ holders files opening := by
  rw [holders, List.map_cons, ← Multiset.cons_coe, Multiset.cons_add, ← holders]

theorem holders_cons_opening (i : inode) (files : List file) (opening : List inode) :
    holders files (i :: opening) = i ::ₘ holders files opening := by
  rw [holders, ← Multiset.cons_coe, Multiset.add_cons, ← holders]

theorem holders_of_mem_files {f : file} {files : List file} (hf : f ∈ files)
    (opening : List inode) :
    holders files opening = f.inode ::ₘ holders (files.erase f) opening := by
  have hperm : (files.map file.inode : Multiset inode) =
      ((f :: files.erase f).map file.inode : Multiset inode) :=
    Multiset.coe_eq_coe.mpr ((List.perm_cons_erase hf).map file.inode)
  rw [← holders_cons_file, holders, hperm, ← holders]

theorem holders_of_mem_opening {i : inode} {opening : List inode} (hi : i ∈ opening)
    (files : List file) :
    holders files opening = i ::ₘ holders files (opening.erase i) := by
  have hperm : (opening : Multiset inode) = ((i :: opening.erase i : List inode) : Multiset inode) :=
    Multiset.coe_eq_coe.mpr (List.perm_cons_erase hi)
  rw [← holders_cons_opening, holders, hperm, ← holders]

theorem holders_card (files : List file) (opening : List inode) :
    (holders files opening).card = files.length + opening.length := by
  simp [holders]

/-- The references are counted, with those of the inodes `leaked` that nobody will
give back. -/
structure RefInv (u : usage_state) (leaked : Multiset inode) : Prop where
  ref_cnt : ∀ d, u.device = some d →
    d.ref.ref_cnt = own_reference u.unplug + (holders u.files u.opening + leaked).card
  inodes : ∀ d, u.device = some d → InodesHold d.ref (holders u.files u.opening + leaked)
  valid : ∀ d, u.device = some d → (d.ref.ref_ptr = true ↔ u.unplug ≠ .done)
  used : ∀ d, u.device = some d → d.ref.ref_cnt ≠ 0
  alive : ∀ d, u.device = some d → u.destroyed = 0
  gone : u.device = none →
    u.unplug = .done ∧ u.files = [] ∧ u.opening = [] ∧ u.destroyed = 1

/-- One reference is given back that the count still has. -/
theorem RefInv.put {u : usage_state} {d : mngdev_usage} {i : Option inode}
    {leaked : Multiset inode}
    (hcnt : d.ref.ref_cnt =
      own_reference u.unplug + (holders u.files u.opening + leaked).card + 1)
    (hinodes : InodesHold (devref_put d.ref i).1 (holders u.files u.opening + leaked))
    (hvalid : d.ref.ref_ptr = true ↔ u.unplug ≠ .done) (halive : u.destroyed = 0) :
    RefInv (u.put d i) leaked := by
  unfold usage_state.put
  rw [devref_put_ret]
  have hown : 0 ≤ own_reference u.unplug := by
    unfold own_reference
    split_ifs <;> omega
  split_ifs with hlast
  · constructor
    · intro d' hd'
      cases hd'
    · intro d' hd'
      cases hd'
    · intro d' hd'
      cases hd'
    · intro d' hd'
      cases hd'
    · intro d' hd'
      cases hd'
    · intro _
      have hnone : own_reference u.unplug = 0 := by omega
      have hcard : (holders u.files u.opening + leaked).card = 0 := by omega
      rw [Multiset.card_add, holders_card] at hcard
      dsimp only
      refine ⟨?_, List.length_eq_zero_iff.mp (by omega), List.length_eq_zero_iff.mp (by omega), ?_⟩
      · by_contra hdone
        rw [own_reference, if_neg hdone] at hnone
        omega
      · omega
  · constructor
    · intro d' hd'
      cases hd'
      rw [devref_put_ref_cnt]
      dsimp only
      omega
    · intro d' hd'
      cases hd'
      exact hinodes
    · intro d' hd'
      cases hd'
      rw [devref_put_ref_ptr]
      exact hvalid
    · intro d' hd'
      cases hd'
      exact hlast
    · intro d' hd'
      exact halive
    · intro hnone
      cases hnone

/-- Steps that leave the reference and the files alone. -/
theorem RefInv.of_same {u u' : usage_state} {leaked : Multiset inode} (h : RefInv u leaked)
    {d d' : mngdev_usage} (hd : u.device = some d) (hd' : u'.device = some d')
    (href : d'.ref = d.ref) (hfiles : u'.files = u.files) (hopening : u'.opening = u.opening)
    (hunplug : u'.unplug = u.unplug) (hdestroyed : u'.destroyed = u.destroyed) :
    RefInv u' leaked where
  ref_cnt d'' hd'' := by
    rw [hd', Option.some.injEq] at hd''
    rw [← hd'', href, hfiles, hopening, hunplug]
    exact h.ref_cnt d hd
  inodes d'' hd'' := by
    rw [hd', Option.some.injEq] at hd''
    rw [← hd'', href, hfiles, hopening]
    exact h.inodes d hd
  valid d'' hd'' := by
    rw [hd', Option.some.injEq] at hd''
    rw [← hd'', href, hunplug]
    exact h.valid d hd
  used d'' hd'' := by
    rw [hd', Option.some.injEq] at hd''
    rw [← hd'', href]
    exact h.used d hd
  alive _ _ := hdestroyed.trans (h.alive d hd)
  gone hnone := by
    rw [hd'] at hnone
    cases hnone

/-- A file takes the reference; where it does is up to the caller. -/
theorem RefInv.get {u : usage_state} {leaked : Multiset inode} (h : RefInv u leaked)
    {d d' : mngdev_usage} (hd : u.device = some d) {i : inode} {kmalloc : Bool}
    (hret : (devref_get d.ref (some i) kmalloc).2 = 0)
    (href : d'.ref = (devref_get d.ref (some i) kmalloc).1) {files : List file}
    {opening : List inode}
    (hholders : holders files opening = i ::ₘ holders u.files u.opening) :
    RefInv { u with device := some d', files := files, opening := opening } leaked := by
  obtain ⟨-, hinodes, hcnt, hptr, hvalid⟩ | ⟨hneg, -⟩ :=
    devref_get_inode (h.inodes d hd) i kmalloc
  · have hcount := h.ref_cnt d hd
    have hown : 0 ≤ own_reference u.unplug := by
      unfold own_reference
      split_ifs <;> omega
    constructor
    · intro d'' hd''
      cases hd''
      rw [href, hcnt, hholders, Multiset.cons_add, Multiset.card_cons, hcount]
      dsimp only
      omega
    · intro d'' hd''
      cases hd''
      rw [href, hholders, Multiset.cons_add]
      exact hinodes
    · intro d'' hd''
      cases hd''
      rw [href, hptr]
      exact h.valid d hd
    · intro d'' hd''
      cases hd''
      rw [href, hcnt]
      omega
    · intro _ _
      exact h.alive d hd
    · intro hnone
      cases hnone
  · omega

/-- A file gives the reference back. -/
theorem RefInv.put_file {u : usage_state} {leaked : Multiset inode} (h : RefInv u leaked)
    {d d' : mngdev_usage} (hd : u.device = some d) (href : d'.ref = d.ref) {f : file}
    (hf : f ∈ u.files) :
    RefInv ({ u with files := u.files.erase f }.put d' (some f.inode)) leaked := by
  have hholders := holders_of_mem_files hf u.opening
  have hcount := h.ref_cnt d hd
  have hinodes := h.inodes d hd
  rw [hholders, Multiset.cons_add] at hcount hinodes
  rw [Multiset.card_cons] at hcount
  have hput := devref_put_inode hinodes (Multiset.mem_cons_self f.inode _)
  rw [Multiset.erase_cons_head, ← href] at hput
  apply RefInv.put
  · rw [href, hcount]
    dsimp only
    omega
  · exact hput
  · rw [href]
    exact h.valid d hd
  · exact h.alive d hd

/-- A step keeps the count, or is the open that is turned down and keeps its
reference. -/
theorem RefInv.step {u u' : usage_state} {leaked : Multiset inode} {a : op A}
    (h : RefInv u leaked) (heffect : usage_effect u a u') :
    RefInv u' leaked ∨
      ∃ i pid d, a = .mngdev_open_finish i pid ∧ u.device = some d ∧ d.pid ≠ NO_PID ∧
        i ∈ u.opening ∧ u' = { u with opening := u.opening.erase i } ∧
        RefInv u' (i ::ₘ leaked) := by
  cases heffect with
  | none _ n hn => exact .inl ⟨h.ref_cnt, h.inodes, h.valid, h.used, h.alive, h.gone⟩
  | mngdev_open d i kmalloc hd hret =>
    exact .inl (h.get hd hret rfl (holders_cons_opening i _ _))
  | mngdev_open_busy d i pid hd hi hpid =>
    refine .inr ⟨i, pid, d, rfl, hd, hpid, hi, rfl, ?_⟩
    have hholders : holders u.files (u.opening.erase i) + (i ::ₘ leaked) =
        holders u.files u.opening + leaked := by
      rw [holders_of_mem_opening hi, Multiset.add_cons, Multiset.cons_add]
    constructor
    · intro d' hd'
      rw [hholders]
      exact h.ref_cnt d' hd'
    · intro d' hd'
      rw [hholders]
      exact h.inodes d' hd'
    · exact h.valid
    · exact h.used
    · exact h.alive
    · intro hnone
      rw [hd] at hnone
      cases hnone
  | mngdev_open_finish d i pid hd hi hpid =>
    have hholders : holders (⟨i, .mngdev⟩ :: u.files) (u.opening.erase i) =
        holders u.files u.opening := by
      rw [holders_cons_file, holders_of_mem_opening hi]
    left
    constructor
    · intro d' hd'
      cases hd'
      rw [hholders]
      exact h.ref_cnt d hd
    · intro d' hd'
      cases hd'
      rw [hholders]
      exact h.inodes d hd
    · intro d' hd'
      cases hd'
      exact h.valid d hd
    · intro d' hd'
      cases hd'
      exact h.used d hd
    · intro _ _
      exact h.alive d hd
    · intro hnone
      cases hnone
  | mngdev_release d i hd hfile => exact .inl (h.put_file hd (by rfl) hfile)
  | create d r i cmd arg imngdev ivdev hd =>
    exact .inl (h.of_same hd rfl rfl rfl rfl rfl rfl)
  | destroy d r i cmd arg args hd => exact .inl (h.of_same hd rfl rfl rfl rfl rfl rfl)
  | alloc d r i cmd arg args rm_data index t k hd =>
    exact .inl (h.of_same hd rfl rfl rfl rfl rfl rfl)
  | vdev_open d r i kmalloc imngdev ivdev hd hr hslot hret =>
    exact .inl (h.get hd hret rfl (holders_cons_file ⟨i, .vdev r.ptr⟩ _ _))
  | vdev_release d r i hd hr hfile => exact .inl (h.put_file hd (by rfl) hfile)
  | subscribe d r i cmd arg event action hd =>
    exact .inl (h.of_same hd rfl rfl rfl rfl rfl rfl)
  | destroy_unlist hunplug =>
    left
    have hown : own_reference .unlisted = own_reference u.unplug := by
      rw [hunplug]
      rfl
    constructor
    · intro d hd
      rw [hown]
      exact h.ref_cnt d hd
    · exact h.inodes
    · intro d hd
      rw [h.valid d hd, hunplug]
      simp
    · exact h.used
    · exact h.alive
    · intro hnone
      rw [(h.gone hnone).1] at hunplug
      cases hunplug
  | destroy_finish d hd hunplug =>
    left
    have hcount := h.ref_cnt d hd
    have hown : own_reference u.unplug = 1 := by
      rw [hunplug]
      rfl
    have hdone : own_reference .done = 0 := rfl
    apply RefInv.put
    · rw [hdone]
      dsimp only [devref_invalidate]
      omega
    · exact h.inodes d hd
    · simp [devref_invalidate]
    · exact h.alive d hd

/-- The references are counted after every step, with those of the inodes whose open came too
late. -/
theorem RefInv.exists_step {u u' : usage_state} {a : op A} (h : ∃ leaked, RefInv u leaked)
    (heffect : usage_effect u a u') : ∃ leaked, RefInv u' leaked := by
  obtain ⟨leaked, hrefs⟩ := h
  obtain hrefs' | ⟨i, -, -, -, -, -, -, -, hrefs'⟩ := hrefs.step heffect
  · exact ⟨leaked, hrefs'⟩
  · exact ⟨i ::ₘ leaked, hrefs'⟩

theorem refInv_of_create {hs : modac_hw_support_def H A O} {des : modac_mngdev_des} {hw : H}
    {hw_res_defs : List modac_hw_res_def} {s : modac_state H}
    (h : modac_mngdev_create hs des hw hw_res_defs = .ok s) : RefInv (usage_of s) 0 := by
  obtain ⟨rm_data, -, heq⟩ := usage_of_create h
  rw [heq]
  constructor
  · intro d hd
    cases hd
    rfl
  · intro d hd
    cases hd
    exact inodesHold_init
  · intro d hd
    cases hd
    simp [devref_init]
  · intro d hd
    cases hd
    simp [devref_init]
  · intro _ _
    rfl
  · intro hnone
    cases hnone

/-- Where no reference is leaked, the count is right. -/
theorem RefInv.counted {s : modac_state H} (h : RefInv (usage_of s) 0) : RefsCounted s := by
  have hgone : s.mngdev = none ↔ s.unplug = .done ∧ s.files = [] ∧ s.opening = [] := by
    constructor
    · intro hnone
      have hdevice : (usage_of s).device = none := by rw [usage_of, hnone, Option.map_none]
      obtain ⟨hdone, hfiles, hopening, -⟩ := h.gone hdevice
      exact ⟨hdone, hfiles, hopening⟩
    · rintro ⟨hdone, hfiles, hopening⟩
      by_contra hsome
      obtain ⟨m, hm⟩ := Option.ne_none_iff_exists'.mp hsome
      have hd := usage_of_device hm
      have hused := h.used _ hd
      have hcount := h.ref_cnt _ hd
      rw [Multiset.add_zero, holders_card] at hcount
      simp only [usage_of, hdone, hfiles, hopening, own_reference, if_true] at hcount
      exact hused hcount
  constructor
  · intro m hm
    have hcount := h.ref_cnt _ (usage_of_device hm)
    rw [Multiset.add_zero, holders_card] at hcount
    exact hcount
  · intro m hm
    have hinodes := h.inodes _ (usage_of_device hm)
    rw [Multiset.add_zero] at hinodes
    exact hinodes
  · exact hgone
  · cases hm : s.mngdev with
    | none =>
      have hdevice : (usage_of s).device = none := by rw [usage_of, hm, Option.map_none]
      obtain ⟨-, -, -, hdestroyed⟩ := h.gone hdevice
      exact hdestroyed
    | some m => exact h.alive _ (usage_of_device hm)

/-- An open that is turned down because the MNG_DEV is open. -/
theorem step_open_busy {hs : modac_hw_support_def H A O} {s t : modac_state H}
    {m : mngdev_data H} {i : inode} {pid : {pid : Int // pid ≠ NO_PID}}
    (hm : s.mngdev = some m) (hpid : m.pid ≠ NO_PID)
    (hstep : step hs s (.mngdev_open_finish i pid) = some t) :
    i ∈ s.opening ∧ t = { s with opening := s.opening.erase i } := by
  simp only [step, exec, hm, Option.map_some, mngdev_open_finish, if_pos hpid] at hstep
  split_ifs at hstep with hi
  · refine ⟨hi, ?_⟩
    rw [← Option.some.inj hstep, hm]
  · cases hstep

/-- The references are counted right in all states of a run exactly when no open of
the MNG_DEV meets an open one: that open fails, but keeps its reference. -/
theorem refs_counted_iff {hs : modac_hw_support_def H A O} {des : modac_mngdev_des} {hw : H}
    {hw_res_defs : List modac_hw_res_def} {s : modac_state H}
    (hcreate : modac_mngdev_create hs des hw hw_res_defs = .ok s) (ops : List (op A)) :
    StatesMeet (step hs) RefsCounted s ops ↔ StepsMeet (step hs) OpenedOnce s ops := by
  apply statesMeet_iff_stepsMeet
    (I := fun s => PtrsGiven (usage_of s) ∧ RefInv (usage_of s) 0)
  · rintro s ⟨-, hinv⟩
    exact hinv.counted
  · rintro s a t ⟨hptrs, hinv⟩ honce hstep
    have heffect := usage_effect_of_step hptrs hstep
    refine ⟨hptrs.step heffect, ?_⟩
    obtain hinv' | ⟨i, pid, d, rfl, hd, hpid, -⟩ := hinv.step heffect
    · exact hinv'
    · obtain ⟨m, hm, rfl⟩ := Option.map_eq_some_iff.mp hd
      exact absurd (honce i pid m rfl hm) hpid
  · rintro s a t ⟨hptrs, hinv⟩ honce hstep hcounted
    simp only [OpenedOnce, not_forall] at honce
    obtain ⟨i, pid, m, rfl, hm, hpid⟩ := honce
    -- the file that is turned down is no holder any more, its reference is still counted
    obtain ⟨hi, rfl⟩ := step_open_busy hm hpid hstep
    have hcount := hinv.counted.ref_cnt m hm
    have hcount' := hcounted.ref_cnt m hm
    have hlength := List.length_erase_of_mem hi
    have hpos := List.length_pos_of_mem hi
    dsimp only at hcount'
    omega
  · exact ⟨ptrsGiven_of_create hcreate, refInv_of_create hcreate⟩

/-- The MNG_DEV is not open when an open comes to the check of the process. -/
def opened_once (s : modac_state H) : op A → Bool
  | .mngdev_open_finish _ _ => s.mngdev.all fun m => decide (m.pid = NO_PID)
  | _ => true

theorem openedOnce_of_check (s : modac_state H) (a : op A) (hcheck : opened_once s a = true) :
    OpenedOnce s a := by
  rintro i pid m rfl hm
  simpa [opened_once, hm] using hcheck

/-- A VIRT_DEV is opened twice and closed once, the MNG_DEV is closed and opened again; then the
device is unplugged, and the last file is closed. -/
def opens_and_unplug : List (op Unit) :=
  open_first ++ [create_vdev [0x61], .vdev_open ⟨2, 1⟩ true, .vdev_open ⟨3, 1⟩ true,
    .vdev_release ⟨2, 1⟩ 0, .mngdev_release first_inode] ++
  open_first ++ [.destroy_unlist, .destroy_finish, .mngdev_release first_inode,
    .vdev_release ⟨3, 1⟩ 0]

theorem refs_counted_opens_and_unplug :
    ∃ s u, modac_mngdev_create recording_hw_support first_mngdev [] [] = .ok s ∧
      run (step recording_hw_support) s opens_and_unplug = some u ∧
      (u.mngdev.isNone = true ∧ u.destroyed = 1) ∧
      StatesMeet (step recording_hw_support) RefsCounted s opens_and_unplug := by
  have hrun : ∃ s, modac_mngdev_create recording_hw_support first_mngdev [] [] = .ok s ∧
      steps_check (step recording_hw_support) opened_once s opens_and_unplug = true ∧
      ((run (step recording_hw_support) s opens_and_unplug).any fun u =>
        u.mngdev.isNone && decide (u.destroyed = 1)) = true :=
    ⟨_, rfl, by decide +kernel, by decide +kernel⟩
  simp only [Option.any_eq_true, Bool.and_eq_true, decide_eq_true_eq] at hrun
  obtain ⟨s, hcreate, hcheck, u, hrun, hend⟩ := hrun
  exact ⟨s, u, hcreate, hrun, hend, (refs_counted_iff hcreate _).mpr
    (stepsMeet_of_check openedOnce_of_check hcheck)⟩

/-- The second open of the MNG_DEV fails with EBUSY and leaks a reference. -/
theorem open_of_open_leaks :
    ∃ s, modac_mngdev_create recording_hw_support first_mngdev [] [] = .ok s ∧
      ¬ StatesMeet (step recording_hw_support) RefsCounted s
        (open_first ++ open_first) := by
  refine ⟨_, rfl, fun hmeet => ?_⟩
  have hlast := hmeet.last rfl
  have hcount := hlast.ref_cnt _ rfl
  exact absurd hcount (by decide)

end evrma.system
