import Evrma.EvrSystem.Interrupts
import Evrma.EvrSystem.Pulsegens
import Evrma.System.Isolation

namespace evrma.evr

open evrma.event_list evrma.ioctl evrma.lib evrma.mng_dev evrma.rm evrma.system evrma.virt_dev

variable {P : Type} {mmap_p_final_size : Nat} {irq_set : Option (evr_irq_set P)}

/-- An operation by which the VIRT_DEV does not write to its pulse generators, reset or lose them,
and which does not initialize the card. -/
abbrev LeavesPulses (v : modac_vdev_des) (a : op evr_ioctl_arg) : Prop :=
  LeavesRes 0 (fun cmd => cmd = MNG_DEV_EVR_IOC_INIT) writes_pulsegen v a

theorem OnlyReads.pulseKept {hw hw' : evr_hw_data P} (h : OnlyReads hw hw') (index : Nat) :
    PulseKept index hw hw' := by
  obtain ⟨io, hregs, rfl⟩ := h
  exact ⟨fun reg _ => congrFun hregs.reg32 reg, fun _ => rfl⟩

/-- The support code of the EVR only changes the pulse generator that it is called for. -/
theorem pulsegen_frame (hirq : ∀ f ∈ irq_set, IrqSetOk f) {index : Nat}
    (hindex : index < EVR_MAX_PULSEGEN_COUNT) :
    ResFrame (hw_support_evr mmap_p_final_size irq_set) 0 index (PulseKept (P := P) index)
      (fun cmd => cmd = MNG_DEV_EVR_IOC_INIT) writes_pulsegen where
  refl := .refl index
  trans _ _ _ h h' := h.trans h'
  subscribe hw subscriptions := subscribe_pulseKept hirq hw subscriptions hindex
  init_res hw t k hother := by
    apply init_res_pulseKept hw _ _ hindex
    intro htype hk
    exact hother ⟨Int.ofNat.inj htype, hk.symm⟩
  mngdev ioctl hioctl hw res cmd arg htype hinit := by
    obtain rfl := Option.some.inj hioctl
    refine (evr_ioctl_effect_of hw res cmd arg).pulseKept hinit hindex fun hmagic => ?_
    rw [htype] at hmagic
    exact absurd hmagic (by decide)
  vdev ioctl hioctl hw res other cmd arg htype hother := by
    obtain rfl := Option.some.inj hioctl
    obtain hother | hwrites := hother
    · refine (evr_ioctl_effect_of hw (res, other) cmd arg).pulseKept ?_ hindex fun _ => hother
      rintro rfl
      exact absurd htype (by decide)
    · exact (reading_ioctl_onlyReads hw (res, other) htype hwrites arg).pulseKept index
  direct direct_ioctl hioctl hw cmd arg := by
    obtain rfl := Option.some.inj hioctl
    exact direct_ioctl_pulseKept hw cmd arg.copy_to_user hindex
  dbg hw hw' hcall := by
    obtain ⟨io, rfl, hregs⟩ := dbg_calls_eq (.single hcall)
    exact OnlyReads.pulseKept ⟨io, hregs, rfl⟩ index

section

variable {type : evr_type_data} {s t : modac_state (evr_hw_data P)}
  {m m' : mngdev_data (evr_hw_data P)} {v : modac_vdev_des} {index : Nat}

/-- A pulse generator that is held is one of the card's. -/
theorem CardInv.index_lt_of_holds (h : CardInv type s) (hm : s.mngdev = some m)
    (hv : v ∈ m.vdev_list) (hheld : holds_pulsegen v index) : index < EVR_MAX_PULSEGEN_COUNT :=
  Nat.lt_of_lt_of_le (pulsegen_lt_of_owns (h.rm hm) (h.owns_of_holds hm hv hheld))
    type.pulsegen_count_le

/-- An interrupt leaves the VIRT_DEVs and their pulse generators alone. -/
theorem stillHeld_isr (hirq : ∀ f ∈ irq_set, IrqSetOk f) (h : CardInv type s)
    (hindex : index < EVR_MAX_PULSEGEN_COUNT) (hheld : holds_pulsegen v index)
    {hw : evr_hw_data P} {mem : mmap_words} {answers : Nat → BitVec 32}
    (hstep : irq_step mmap_p_final_size irq_set s (.isr mem answers) = some t)
    (hm' : t.mngdev = some m') (hvalid' : m'.ref.ref_ptr = true)
    (hstill : ∀ m, s.mngdev = some m → m.ref.ref_ptr = true →
      StillHeld (PulseKept index) v 0 index hw m) :
    StillHeld (PulseKept index) v 0 index hw m' := by
  have hcard := h.irq_step hirq hstep
  obtain ⟨m, io, hm, rfl, -, hhw, hirq_kept⟩ := irq_step_isr hstep
  obtain rfl := Option.some.inj hm'
  have husage := modac_mngdev_isr_usage m mem answers
  have hvalid : m.ref.ref_ptr = true := by
    rw [← show (modac_mngdev_isr m mem answers).ref = m.ref from congrArg mngdev_usage.ref husage]
    exact hvalid'
  obtain ⟨⟨w, hw', hptr, hid, hbegins⟩, -, hkept⟩ := hstill m hm hvalid
  have hmem : vdev_usage_of w ∈ (mngdev_usage_of (modac_mngdev_isr m mem answers)).vdevs := by
    rw [husage]
    exact List.mem_map_of_mem hw'
  obtain ⟨w', hmem', heq⟩ := List.mem_map.mp hmem
  have hlists : w'.res_type_data = w.res_type_data := congrArg vdev_usage.res_type_data heq
  refine hcard.owners.stillHeld_of_there hm' ⟨w', hmem', ?_, ?_, ?_⟩ hheld ?_
  · exact (congrArg vdev_usage.ptr heq).trans hptr
  · exact (congrArg vdev_usage.id heq).trans hid
  · rw [hlists]
    exact hbegins
  · rw [hhw]
    exact hkept.trans (hirq_kept.pulseKept hindex)

/-- A run of such operations and interrupts. -/
theorem CardInv.stillHeld_of_run (hirq : ∀ f ∈ irq_set, IrqSetOk f) (h : CardInv type s)
    (hm : s.mngdev = some m) (hv : v ∈ m.vdev_list) (hheld : holds_pulsegen v index)
    {ops : List irq_system_op} (hleaves : ∀ a, .op a ∈ ops → LeavesPulses v a)
    (hrun : run (evr.irq_step mmap_p_final_size irq_set) s ops = some t) (hm' : t.mngdev = some m')
    (hvalid : m'.ref.ref_ptr = true) :
    CardInv type t ∧ StillHeld (PulseKept index) v 0 index m.hw m' := by
  have hindex := h.index_lt_of_holds hm hv hheld
  have hstart : ∀ u, s.mngdev = some u → u.ref.ref_ptr = true →
      StillHeld (PulseKept index) v 0 index m.hw u := by
    intro u hu _
    obtain rfl := Option.some.inj (hm.symm.trans hu)
    exact h.owners.stillHeld_of_there hm (.self hv) hheld (PulseKept.refl index m.hw)
  have hmeet : StepsMeet (evr.irq_step mmap_p_final_size irq_set)
      (fun _ a => ∀ b, a = .op b → LeavesPulses v b) s ops :=
    stepsMeet_of_mem fun a ha b hb => hleaves b (hb ▸ ha)
  let I : modac_state (evr_hw_data P) → Prop := fun u => CardInv type u ∧
    ∀ m', u.mngdev = some m' → m'.ref.ref_ptr = true → StillHeld (PulseKept index) v 0 index m.hw m'
  have hinv : ∀ u a u', I u → (∀ b, a = .op b → LeavesPulses v b) →
      evr.irq_step mmap_p_final_size irq_set u a = some u' → I u' := by
    intro u a u' hu hb hstep
    refine ⟨hu.1.irq_step hirq hstep, fun m' hm' hvalid' => ?_⟩
    cases a with
    | op a =>
      exact StillHeld.step (pulsegen_frame hirq hindex) hu.1.owners hheld (hb a rfl) hstep hm'
        hvalid' hu.2
    | isr mem answers => exact stillHeld_isr hirq hu.1 hindex hheld hstep hm' hvalid' hu.2
  obtain ⟨hcard, hend⟩ := run_invariant_of_stepsMeet hinv hmeet hrun ⟨h, hstart⟩
  exact ⟨hcard, hend m' hm' hvalid⟩

/-- A reference that is valid was valid before the step. -/
theorem CardInv.valid_of_step (h : CardInv type s) {a : irq_system_op}
    (hstep : evr.irq_step mmap_p_final_size irq_set s a = some t) (hm' : t.mngdev = some m')
    (hvalid' : m'.ref.ref_ptr = true) : ∃ m, s.mngdev = some m ∧ m.ref.ref_ptr = true := by
  cases a with
  | op a =>
    obtain ⟨m, hm, hvalid, -⟩ := device_effect_of_step h.owners.ptrs hstep hm' hvalid'
    exact ⟨m, hm, hvalid⟩
  | isr mem answers =>
    obtain ⟨m, io, hm, rfl, -⟩ := irq_step_isr hstep
    obtain rfl := Option.some.inj hm'
    have hsame := congrArg mngdev_usage.ref (modac_mngdev_isr_usage m mem answers)
    exact ⟨m, hm, (congrArg devref.ref_ptr hsame).symm.trans hvalid'⟩

theorem CardInv.valid_of_run (hirq : ∀ f ∈ irq_set, IrqSetOk f) (h : CardInv type s)
    {ops : List irq_system_op} (hrun : run (evr.irq_step mmap_p_final_size irq_set) s ops = some t)
    (hm' : t.mngdev = some m') (hvalid' : m'.ref.ref_ptr = true) :
    ∃ m, s.mngdev = some m ∧ m.ref.ref_ptr = true := by
  induction ops generalizing s with
  | nil =>
    obtain rfl := Option.some.inj hrun
    exact ⟨m', hm', hvalid'⟩
  | cons a ops ih =>
    obtain ⟨u, hstep, hrest⟩ := run_cons_eq_some.mp hrun
    obtain ⟨m₁, hm₁, hvalid₁⟩ := ih (h.irq_step hirq hstep) hrest
    exact h.valid_of_step hstep hm₁ hvalid₁

end

/-- Over operations in any order that are `LeavesPulses`, with interrupts between them, the pulse
generators that a VIRT_DEV holds stay its own, in their places, and keep their registers and their
actions. -/
theorem pulsegens_isolated (hirq : ∀ f ∈ irq_set, IrqSetOk f) {hw : evr_hw_data P}
    {s t : modac_state (evr_hw_data P)} (hs : Reached mmap_p_final_size irq_set hw s)
    {m m' : mngdev_data (evr_hw_data P)} (hm : s.mngdev = some m) {v : modac_vdev_des}
    (hv : v ∈ m.vdev_list) {index : Nat} (hheld : holds_pulsegen v index)
    {ops : List irq_system_op} (hleaves : ∀ a, .op a ∈ ops → LeavesPulses v a)
    (hrun : run (irq_step mmap_p_final_size irq_set) s ops = some t) (hm' : t.mngdev = some m')
    (hvalid : m'.ref.ref_ptr = true) :
    StillThere v m' ∧ (∀ w ∈ m'.vdev_list, holds_pulsegen w index → w.ptr = v.ptr) ∧
      PulseKept index m.hw m'.hw := by
  obtain ⟨-, hend⟩ :=
    (hs.cardInv hirq).stillHeld_of_run hirq hm hv hheld hleaves hrun hm' hvalid
  exact ⟨hend.there, hend.alone, hend.kept⟩

instance (v : modac_vdev_des) (index : Nat) : Decidable (holds_pulsegen v index) :=
  inferInstanceAs (Decidable (_ ∈ _))

/-- The card is initialized, and the first VIRT_DEV gets the first pulse generator. -/
def hold_first : List irq_system_op :=
  (open_first ++ [evr_init_ioctl, evr_create_vdev [0x61], alloc_first_pulsegen 1]).map .op

/-- An interrupt, and a second VIRT_DEV. -/
def others : List irq_system_op :=
  [.isr ⟨fun _ => 0, []⟩ fun _ => bit C_EVR_IRQFLAG_FIFOFULL, .op (evr_create_vdev [0x62])]

theorem others_leave {v : modac_vdev_des} {a : op evr_ioctl_arg} (ha : .op a ∈ others) :
    LeavesPulses v a := by
  have hop : a = evr_create_vdev [0x62] := by simpa [others] using ha
  exact hop ▸ LeavesRes.of_mngdev_ioctl (by decide) (by decide)

/-- The first VIRT_DEV keeps its pulse generator. -/
theorem pulsegens_isolated_first :
    ∃ s₀ s t m m', evr_mngdev_create PAGE_SIZE none first_mngdev slac_card = .ok s₀ ∧
      run (irq_step PAGE_SIZE none) s₀ hold_first = some s ∧ s.mngdev = some m ∧
      run (irq_step PAGE_SIZE none) s others = some t ∧ t.mngdev = some m' ∧
      ∃ v ∈ m.vdev_list, holds_pulsegen v 0 ∧ StillThere v m' ∧
        (∀ w ∈ m'.vdev_list, holds_pulsegen w 0 → w.ptr = v.ptr) ∧ PulseKept 0 m.hw m'.hw := by
  have hrun : ∃ s₀, evr_mngdev_create PAGE_SIZE none first_mngdev slac_card = .ok s₀ ∧
      ((run (irq_step PAGE_SIZE none) s₀ hold_first).any fun s =>
        (s.mngdev.any fun m => m.vdev_list.any fun v => decide (holds_pulsegen v 0)) &&
          (run (irq_step PAGE_SIZE none) s others).any fun t =>
            t.mngdev.any fun m' => m'.ref.ref_ptr) = true :=
    ⟨_, rfl, by decide +kernel⟩
  simp only [Option.any_eq_true, Bool.and_eq_true, List.any_eq_true, decide_eq_true_eq] at hrun
  obtain ⟨s₀, hcreate, s, hbefore, ⟨m, hm, v, hv, hheld⟩, t, hafter, m', hm', hvalid⟩ := hrun
  exact ⟨s₀, s, t, m, m', hcreate, hbefore, hm, hafter, hm', v, hv, hheld,
    pulsegens_isolated (by simp) ⟨_, s₀, _, hcreate, hbefore⟩ hm hv hheld (fun _ => others_leave)
      hafter hm' hvalid⟩

end evrma.evr
