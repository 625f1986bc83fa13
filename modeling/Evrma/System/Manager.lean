import Evrma.System.Usage

namespace evrma.system

open evrma.ioctl evrma.lib evrma.mng_dev

variable {H A O : Type}

/-- The file is one of the MNG_DEV. -/
def opens_mngdev (f : file) : Bool := decide (f.private_data = .mngdev)

/-- Who has the MNG_DEV open is the process that it knows. -/
structure ManagerInv (u : usage_state) : Prop where
  single : u.files.countP opens_mngdev ≤ 1
  known : ∀ d, u.device = some d →
    u.files.countP opens_mngdev = if d.pid = NO_PID then 0 else 1

/-- Neither the process nor the files of the MNG_DEV change. -/
theorem ManagerInv.of_same {u u' : usage_state} (h : ManagerInv u)
    (hfiles : u'.files.countP opens_mngdev = u.files.countP opens_mngdev)
    (hpid : ∀ d', u'.device = some d' → ∃ d, u.device = some d ∧ d'.pid = d.pid) :
    ManagerInv u' := by
  refine ⟨hfiles ▸ h.single, fun d' hd' => ?_⟩
  obtain ⟨d, hd, hsame⟩ := hpid d' hd'
  rw [hfiles, hsame]
  exact h.known d hd

theorem countP_mngdev_erase {f : file} {files : List file} (hf : f ∈ files) :
    files.countP opens_mngdev =
      (files.erase f).countP opens_mngdev + if opens_mngdev f then 1 else 0 := by
  rw [(List.perm_cons_erase hf).countP_eq, List.countP_cons]

theorem ManagerInv.step {u u' : usage_state} {a : op A} (h : ManagerInv u)
    (heffect : usage_effect u a u') : ManagerInv u' := by
  cases heffect with
  | none => exact h.of_same rfl fun d hd => ⟨d, hd, rfl⟩
  | mngdev_open d i kmalloc hd hret =>
    refine h.of_same rfl fun d' hd' => ?_
    cases hd'
    exact ⟨d, hd, rfl⟩
  | mngdev_open_busy => exact h.of_same rfl fun d hd => ⟨d, hd, rfl⟩
  | mngdev_open_finish d i pid hd hi hpid =>
    -- nobody is known, so there is no such file yet
    have hnone := h.known d hd
    have hcount : (⟨i, .mngdev⟩ :: u.files).countP opens_mngdev = 1 := by
      rw [List.countP_cons, hnone, if_pos hpid]
      rfl
    refine ⟨Nat.le_of_eq hcount, fun d' hd' => ?_⟩
    cases hd'
    rw [hcount, if_neg pid.property]
  | mngdev_release d i hd hfile =>
    have hone : (u.files.erase ⟨i, .mngdev⟩).countP opens_mngdev = 0 := by
      have hcount := countP_mngdev_erase hfile
      have hopens : opens_mngdev ⟨i, .mngdev⟩ = true := by simp [opens_mngdev]
      have hsingle := h.single
      rw [if_pos hopens] at hcount
      omega
    constructor
    · rw [put_files, hone]
      omega
    · intro d' hd'
      rw [put_files, hone, put_device hd', if_pos rfl]
  | create d r i cmd arg imngdev ivdev hd =>
    refine h.of_same rfl fun d' hd' => ?_
    cases hd'
    exact ⟨d, hd, rfl⟩
  | destroy d r i cmd arg args hd =>
    refine h.of_same rfl fun d' hd' => ?_
    cases hd'
    exact ⟨d, hd, rfl⟩
  | alloc d r i cmd arg args rm_data index t k hd =>
    refine h.of_same rfl fun d' hd' => ?_
    cases hd'
    exact ⟨d, hd, rfl⟩
  | vdev_open d r i kmalloc imngdev ivdev hd hr hslot hret =>
    refine h.of_same ?_ fun d' hd' => ?_
    · rw [List.countP_cons]
      rfl
    · cases hd'
      exact ⟨d, hd, rfl⟩
  | vdev_release d r i hd hr hfile =>
    refine h.of_same ?_ fun d' hd' => ?_
    · rw [put_files, countP_mngdev_erase hfile]
      rfl
    · rw [put_device hd']
      exact ⟨d, hd, rfl⟩
  | subscribe d r i cmd arg event action hd =>
    refine h.of_same rfl fun d' hd' => ?_
    cases hd'
    exact ⟨d, hd, rfl⟩
  | destroy_unlist => exact h.of_same rfl fun d hd => ⟨d, hd, rfl⟩
  | destroy_finish d hd hunplug =>
    refine h.of_same (by rw [put_files]) fun d' hd' => ?_
    rw [put_device hd']
    exact ⟨d, hd, rfl⟩

theorem managerInv_of_run {hs : modac_hw_support_def H A O} {des : modac_mngdev_des} {hw : H}
    {hw_res_defs : List modac_hw_res_def} {s₀ s : modac_state H} {ops : List (op A)}
    (hcreate : modac_mngdev_create hs des hw hw_res_defs = .ok s₀)
    (hrun : run (step hs) s₀ ops = some s) : ManagerInv (usage_of s) := by
  have hstart : ManagerInv (usage_of s₀) := by
    obtain ⟨rm_data, -, heq⟩ := usage_of_create hcreate
    rw [heq]
    refine ⟨Nat.zero_le 1, fun d hd => ?_⟩
    cases hd
    rfl
  obtain ⟨-, hend⟩ := run_invariant
    (I := fun s => PtrsGiven (usage_of s) ∧ ManagerInv (usage_of s))
    (fun s a t ⟨hptrs, hinv⟩ hstep =>
      have heffect := usage_effect_of_step hptrs hstep
      ⟨hptrs.step heffect, hinv.step heffect⟩)
    hrun ⟨ptrsGiven_of_create hcreate, hstart⟩
  exact hend

/-- At most one file is open on the MNG_DEV at any time, and an open gets through exactly when
there is none, in whatever order the halves of the opens come. -/
theorem mngdev_exclusive {hs : modac_hw_support_def H A O} {des : modac_mngdev_des} {hw : H}
    {hw_res_defs : List modac_hw_res_def} {s₀ s : modac_state H} {ops : List (op A)}
    (hcreate : modac_mngdev_create hs des hw hw_res_defs = .ok s₀)
    (hrun : run (step hs) s₀ ops = some s) :
    s.files.countP opens_mngdev ≤ 1 ∧
      ∀ i pid r, exec hs s (.mngdev_open_finish i pid) = some r →
        (r.2.1 = 0 ↔ ∀ f ∈ s.files, f.private_data ≠ .mngdev) := by
  have hinv := managerInv_of_run hcreate hrun
  refine ⟨hinv.single, fun i pid r hexec => ?_⟩
  have hfiles : (∀ f ∈ s.files, f.private_data ≠ .mngdev) ↔
      s.files.countP opens_mngdev = 0 := by
    simp only [List.countP_eq_zero, opens_mngdev, decide_eq_true_eq, ne_eq]
  simp only [exec] at hexec
  split_ifs at hexec with hi
  obtain ⟨m, hm, rfl⟩ := Option.map_eq_some_iff.mp hexec
  have hknown : s.files.countP opens_mngdev = if m.pid = NO_PID then 0 else 1 :=
    hinv.known _ (usage_of_device hm)
  rw [hfiles, hknown, mngdev_open_finish]
  by_cases hpid : m.pid = NO_PID
  · rw [if_neg (not_not_intro hpid), if_pos hpid]
    exact iff_of_true rfl rfl
  · rw [if_pos hpid, if_neg hpid]
    have hbusy : (-EBUSY : Int) ≠ 0 := by decide
    exact iff_of_false hbusy (by decide)

/-- A second file is on its way to be opened while the first one is open. -/
theorem mngdev_exclusive_second :
    ∃ s₀ s, modac_mngdev_create recording_hw_support first_mngdev [] [] = .ok s₀ ∧
      run (step recording_hw_support) s₀ (open_first ++ [.mngdev_open ⟨9, 0⟩ true]) = some s ∧
      s.opening = [⟨9, 0⟩] ∧ s.files.countP opens_mngdev ≤ 1 ∧
      ∀ i pid r, exec recording_hw_support s (.mngdev_open_finish i pid) = some r →
        (r.2.1 = 0 ↔ ∀ f ∈ s.files, f.private_data ≠ .mngdev) := by
  have hrun : ∃ s₀, modac_mngdev_create recording_hw_support first_mngdev [] [] = .ok s₀ ∧
      ((run (step recording_hw_support) s₀ (open_first ++ [.mngdev_open ⟨9, 0⟩ true])).any fun s =>
        decide (s.opening = [⟨9, 0⟩])) = true := ⟨_, rfl, by decide +kernel⟩
  simp only [Option.any_eq_true, decide_eq_true_eq] at hrun
  obtain ⟨s₀, hcreate, s, hrun, hopening⟩ := hrun
  exact ⟨s₀, s, hcreate, hrun, hopening, mngdev_exclusive hcreate hrun⟩

end evrma.system
