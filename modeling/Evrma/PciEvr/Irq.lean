import Evrma.Lib.Run

namespace evrma.pci_evr

open evrma.lib

inductive remove_progress where
  | probing
  | bound
  | removing
  | freed
  | removed
deriving DecidableEq

/-- The fields of `pci_mrf_data` that concern the interrupt, where `pcidev` tells a PCI device
from an external one. Then the handler that `request_irq` registers, the bridge, and whether
`free_irq` was ever called with no handler registered. -/
structure irq_state where
  pcidev : Bool
  irq_enabled : Int
  activity : Int
  progress : remove_progress
  handler : Bool
  bridge : Bool
  unregistered_free : Bool
deriving DecidableEq

def bridge_enable (s : irq_state) : irq_state := { s with bridge := true }

def bridge_disable (s : irq_state) : irq_state := { s with bridge := false }

def request_irq (s : irq_state) (ret : Int) : irq_state :=
  if ret = 0 then { s with handler := true } else s

def free_irq (s : irq_state) : irq_state :=
  { s with handler := false, unregistered_free := s.unregistered_free || !s.handler }

/-- `ret` is what `request_irq` returns, if it is called. -/
def evrma_pci_irq_set (s : irq_state) (enabled ret : Int) : irq_state :=
  if s.activity ≥ 2 then
    let s :=
      if enabled ≠ 0 ∧ s.irq_enabled = 0 then
        if s.pcidev then
          let s := request_irq s ret
          if ret ≠ 0 then s else bridge_enable s
        else bridge_enable s
      else if enabled = 0 ∧ s.irq_enabled ≠ 0 then
        let s := bridge_disable s
        if s.pcidev then free_irq s else s
      else s
    { s with irq_enabled := enabled }
  else s

/-- `evrma_pci_remove` and `evrma_core_api_external_remove` find the device under the mutex,
free the interrupt without it, and clean up, each as a step of its own. -/
inductive irq_op where
  | finish_probe
  | evrma_pci_irq_set (enabled ret : Int)
  | evrma_pci_remove
  | evrma_core_api_external_remove
  | remove_free_irq
  | remove_cleanup

def irq_step (s : irq_state) : irq_op → Option irq_state
  | .finish_probe =>
    if s.progress = .probing then some { s with activity := 2, progress := .bound } else none
  | .evrma_pci_irq_set enabled ret => some (evrma_pci_irq_set s enabled ret)
  | .evrma_pci_remove =>
    if s.progress = .bound ∧ s.pcidev = true then
      some { s with activity := s.activity - 2, progress := .removing }
    else none
  | .evrma_core_api_external_remove =>
    if s.progress = .bound ∧ s.pcidev = false then some { s with progress := .removing }
    else none
  | .remove_free_irq =>
    if s.progress = .removing then
      some { (if s.irq_enabled ≠ 0 then free_irq s else s) with progress := .freed }
    else none
  | .remove_cleanup =>
    if s.progress = .freed then some { s with progress := .removed } else none

/-- The slot that was seized for a device. -/
def irq_init (pcidev : Bool) : irq_state where
  pcidev := pcidev
  irq_enabled := 0
  activity := 0
  progress := .probing
  handler := false
  bridge := false
  unregistered_free := false

/-- `irq_enabled` tells whether the interrupt is really set up, only a registered handler was
freed, and no bridge is enabled without the handler of its device. Only PCI devices have a
handler here. -/
structure IrqConsistent (s : irq_state) : Prop where
  enabled_iff : s.irq_enabled ≠ 0 ↔ (s.pcidev = true → s.handler = true) ∧ s.bridge = true
  registered : s.unregistered_free = false
  bridge_off : s.pcidev = true → s.handler = false → s.bridge = false
  external : s.pcidev = false → s.handler = false

/-- `request_irq` does not fail, and no device is removed with its interrupt enabled. -/
def IrqCondition (s : irq_state) : irq_op → Prop
  | .evrma_pci_irq_set enabled ret =>
    2 ≤ s.activity → s.pcidev = true → s.irq_enabled = 0 → enabled ≠ 0 → ret = 0
  | .remove_free_irq => s.irq_enabled = 0
  | _ => True

theorem irqConsistent_init (pcidev : Bool) : IrqConsistent (irq_init pcidev) where
  enabled_iff := by simp [irq_init]
  registered := rfl
  bridge_off _ _ := rfl
  external _ := rfl

/-- Consistency is about these fields only. -/
theorem IrqConsistent.congr {s t : irq_state} (h : IrqConsistent s)
    (hfields : t.pcidev = s.pcidev ∧ t.irq_enabled = s.irq_enabled ∧ t.handler = s.handler ∧
      t.bridge = s.bridge ∧ t.unregistered_free = s.unregistered_free) : IrqConsistent t := by
  obtain ⟨hpcidev, henabled, hhandler, hbridge, hfree⟩ := hfields
  refine ⟨?_, ?_, ?_, ?_⟩
  · rw [hpcidev, henabled, hhandler, hbridge]
    exact h.enabled_iff
  · rw [hfree]
    exact h.registered
  · rw [hpcidev, hhandler, hbridge]
    exact h.bridge_off
  · rw [hpcidev, hhandler]
    exact h.external

section

variable {s : irq_state} (h : IrqConsistent s)
include h

/-- Enabling an interrupt that is not set up, with the handler registered where there is one. -/
theorem IrqConsistent.enable {enabled ret : Int} (hactivity : 2 ≤ s.activity) (henabled : enabled ≠ 0)
    (hprev : s.irq_enabled = 0) (hret : s.pcidev = true → ret = 0) :
    IrqConsistent (evrma_pci_irq_set s enabled ret) := by
  rw [evrma_pci_irq_set, if_pos hactivity, if_pos ⟨henabled, hprev⟩]
  by_cases hpcidev : s.pcidev = true
  · rw [if_pos hpcidev, hret hpcidev]
    exact ⟨by simpa [bridge_enable, request_irq] using henabled, h.registered,
      fun _ hhandler => absurd hhandler (by simp [bridge_enable, request_irq]),
      fun hexternal => absurd (hpcidev.symm.trans hexternal) (by decide)⟩
  · rw [if_neg hpcidev]
    exact ⟨by simpa [bridge_enable, hpcidev] using henabled, h.registered,
      fun h' => absurd h' hpcidev, h.external⟩

/-- After a request that fails the interrupt counts as enabled and has no handler. -/
theorem IrqConsistent.enable_fails {enabled ret : Int} (hactivity : 2 ≤ s.activity)
    (henabled : enabled ≠ 0) (hprev : s.irq_enabled = 0) (hpcidev : s.pcidev = true)
    (hret : ret ≠ 0) : ¬ IrqConsistent (evrma_pci_irq_set s enabled ret) := by
  intro hafter
  have hnot : ¬ ((s.pcidev = true → s.handler = true) ∧ s.bridge = true) := by
    rw [← h.enabled_iff]
    exact not_not_intro hprev
  rw [evrma_pci_irq_set, if_pos hactivity, if_pos ⟨henabled, hprev⟩, if_pos hpcidev, request_irq,
    if_neg hret, if_pos hret] at hafter
  exact hnot (hafter.enabled_iff.mp henabled)

/-- Disabling an interrupt that is set up. -/
theorem IrqConsistent.disable {enabled ret : Int} (hactivity : 2 ≤ s.activity)
    (henabled : enabled = 0) (hprev : s.irq_enabled ≠ 0) :
    IrqConsistent (evrma_pci_irq_set s enabled ret) := by
  obtain ⟨hhandler, -⟩ := h.enabled_iff.mp hprev
  rw [evrma_pci_irq_set, if_pos hactivity, if_neg fun h' => h'.1 henabled,
    if_pos ⟨henabled, hprev⟩]
  by_cases hpcidev : s.pcidev = true
  · have hpcidev' : (bridge_disable s).pcidev = true := hpcidev
    rw [if_pos hpcidev']
    refine ⟨?_, ?_, fun _ _ => rfl, fun _ => rfl⟩
    · simp [free_irq, bridge_disable, henabled]
    · simp [free_irq, bridge_disable, h.registered, hhandler hpcidev]
  · have hpcidev' : ¬ (bridge_disable s).pcidev = true := hpcidev
    rw [if_neg hpcidev']
    refine ⟨?_, h.registered, fun _ _ => rfl, h.external⟩
    simp [bridge_disable, henabled]

/-- Nothing is done where the interrupt is as it shall be. -/
theorem IrqConsistent.keep {enabled ret : Int} (hactivity : 2 ≤ s.activity)
    (hsame : enabled ≠ 0 ↔ s.irq_enabled ≠ 0) :
    IrqConsistent (evrma_pci_irq_set s enabled ret) := by
  have hno : ¬ (enabled ≠ 0 ∧ s.irq_enabled = 0) := fun h' => hsame.mp h'.1 h'.2
  have hno' : ¬ (enabled = 0 ∧ s.irq_enabled ≠ 0) := fun h' => hsame.mpr h'.2 h'.1
  rw [evrma_pci_irq_set, if_pos hactivity, if_neg hno, if_neg hno']
  exact ⟨hsame.trans h.enabled_iff, h.registered, h.bridge_off, h.external⟩

theorem IrqConsistent.irq_set {enabled ret : Int}
    (hcond : IrqCondition s (.evrma_pci_irq_set enabled ret)) :
    IrqConsistent (evrma_pci_irq_set s enabled ret) := by
  by_cases hactivity : 2 ≤ s.activity
  · by_cases henabled : enabled = 0
    · by_cases hprev : s.irq_enabled = 0
      · exact h.keep hactivity (by simp [henabled, hprev])
      · exact h.disable hactivity henabled hprev
    · by_cases hprev : s.irq_enabled = 0
      · exact h.enable hactivity henabled hprev fun hpcidev => hcond hactivity hpcidev hprev henabled
      · exact h.keep hactivity (by simp [henabled, hprev])
  · rw [evrma_pci_irq_set, if_neg hactivity]
    exact h

/-- With the interrupt enabled, a removal frees a handler under an enabled bridge, or one that
an external device does not have. -/
theorem IrqConsistent.remove_enabled (henabled : s.irq_enabled ≠ 0) :
    ¬ IrqConsistent { free_irq s with progress := .freed } := by
  intro hafter
  obtain ⟨-, hbridge⟩ := h.enabled_iff.mp henabled
  by_cases hpcidev : s.pcidev = true
  · have hoff := hafter.bridge_off hpcidev rfl
    exact absurd (hbridge.symm.trans hoff) (by decide)
  · have hregistered := hafter.registered
    simp [free_irq, h.external (Bool.eq_false_iff.mpr hpcidev)] at hregistered

theorem IrqConsistent.step {op : irq_op} {t : irq_state} (hcond : IrqCondition s op)
    (hstep : irq_step s op = some t) : IrqConsistent t := by
  cases op with
  | evrma_pci_irq_set enabled ret =>
    obtain rfl := Option.some.inj hstep
    exact h.irq_set hcond
  | remove_free_irq =>
    have henabled : s.irq_enabled = 0 := hcond
    simp only [irq_step, if_neg (not_not_intro henabled)] at hstep
    split_ifs at hstep
    obtain rfl := Option.some.inj hstep
    exact h.congr ⟨rfl, rfl, rfl, rfl, rfl⟩
  | _ =>
    simp only [irq_step] at hstep
    split_ifs at hstep
    obtain rfl := Option.some.inj hstep
    exact h.congr ⟨rfl, rfl, rfl, rfl, rfl⟩

/-- A step that does not meet the condition ends in an inconsistent state. -/
theorem IrqConsistent.bad_step {op : irq_op} {t : irq_state} (hcond : ¬ IrqCondition s op)
    (hstep : irq_step s op = some t) : ¬ IrqConsistent t := by
  cases op with
  | evrma_pci_irq_set enabled ret =>
    obtain rfl := Option.some.inj hstep
    simp only [IrqCondition] at hcond
    push Not at hcond
    obtain ⟨hactivity, hpcidev, hprev, henabled, hret⟩ := hcond
    exact h.enable_fails hactivity henabled hprev hpcidev hret
  | remove_free_irq =>
    have henabled : s.irq_enabled ≠ 0 := hcond
    simp only [irq_step, if_pos henabled] at hstep
    split_ifs at hstep
    obtain rfl := Option.some.inj hstep
    exact h.remove_enabled henabled
  | _ => exact absurd trivial hcond

end

/-- A request that failed is not made again by the next call that enables the interrupt. -/
theorem failed_request_not_retried {s : irq_state} {enabled ret enabled' ret' : Int}
    (hactivity : 2 ≤ s.activity) (hpcidev : s.pcidev = true) (hprev : s.irq_enabled = 0)
    (henabled : enabled ≠ 0) (hret : ret ≠ 0) (henabled' : enabled' ≠ 0) :
    (evrma_pci_irq_set (evrma_pci_irq_set s enabled ret) enabled' ret').handler = s.handler := by
  have hfailed : evrma_pci_irq_set s enabled ret = { s with irq_enabled := enabled } := by
    rw [evrma_pci_irq_set, if_pos hactivity, if_pos ⟨henabled, hprev⟩, if_pos hpcidev, request_irq,
      if_neg hret, if_pos hret]
  have hno : ¬ (enabled' ≠ 0 ∧ enabled = 0) := fun h => henabled h.2
  have hno' : ¬ (enabled' = 0 ∧ enabled ≠ 0) := fun h => henabled' h.1
  rw [hfailed, evrma_pci_irq_set, if_pos hactivity, if_neg hno, if_neg hno']

/-- `irq_enabled` stands for what is set up in all states of exactly those runs in which no
`request_irq` fails and no device is removed with its interrupt enabled. -/
theorem irq_consistent_iff (pcidev : Bool) (ops : List irq_op) :
    StatesMeet irq_step IrqConsistent (irq_init pcidev) ops ↔
      StepsMeet irq_step IrqCondition (irq_init pcidev) ops :=
  statesMeet_iff_stepsMeet (fun _ hs => hs) (fun _ _ _ hs hcond hstep => hs.step hcond hstep)
    (fun _ _ _ hs hcond hstep => hs.bad_step hcond hstep) (irqConsistent_init pcidev) ops

/-- `request_irq` returns `-EBUSY`. -/
theorem request_fails_inconsistent :
    ¬ ∀ ops, StatesMeet irq_step IrqConsistent (irq_init true) ops := by
  intro hall
  have hbad : ∀ u : irq_state,
      decide (u.irq_enabled ≠ 0 ∧ u.bridge = false) = true → ¬ IrqConsistent u := by
    intro u hu hconsistent
    obtain ⟨henabled, hbridge⟩ := of_decide_eq_true hu
    exact absurd ((hconsistent.enabled_iff.mp henabled).2) (by rw [hbridge]; decide)
  exact not_statesMeet_of_last hbad (by decide)
    (hall [.finish_probe, .evrma_pci_irq_set 1 (-16)])

end evrma.pci_evr
