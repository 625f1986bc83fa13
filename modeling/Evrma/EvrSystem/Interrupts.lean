import Evrma.Evr.Isr
import Evrma.EvrSystem.Enabled
import Evrma.EvrSystem.Resources

namespace evrma.evr

open evrma.event_list evrma.ioctl evrma.lib evrma.mng_dev evrma.rm evrma.system

variable {P : Type} {mmap_p_final_size : Nat} {irq_set : Option (evr_irq_set P)}

/-- The registers of a card together with what it is going to answer. Only the control register
reads back what was written. -/
def answering_card : irq_card (io_state × (Nat → BitVec 32)) where
  read32 d reg :=
    let (val, io) := evr_read32 d.1 reg
    if reg = EVR_REG_CTRL then (val, (io, d.2)) else (d.2 0, (io, fun i => d.2 (i + 1)))
  write32 d reg val := (evr_write32 d.1 reg val, d.2)

/-- What the MODAC core makes of a call of the handler. -/
def isr_call.apply (m : mngdev_data (evr_hw_data P)) : isr_call → mngdev_data (evr_hw_data P)
  | .put_event event data _ => modac_mngdev_put_event m event data
  | .notify event => modac_mngdev_notify m event

/-- `modac_mngdev_isr`, with any answers of the card. -/
def modac_mngdev_isr (m : mngdev_data (evr_hw_data P)) (mem : mmap_words)
    (answers : Nat → BitVec 32) : mngdev_data (evr_hw_data P) :=
  let r := hw_support_evr_isr answering_card (m.hw.io, answers) mem
  r.calls.foldl isr_call.apply { m with hw := { m.hw with io := r.card.1 } }

/-- An operation of the driver, or an interrupt between two of them. -/
inductive irq_system_op where
  | op (a : op evr_ioctl_arg)
  | isr (mem : mmap_words) (answers : Nat → BitVec 32)

def irq_step (mmap_p_final_size : Nat) (irq_set : Option (evr_irq_set P))
    (s : modac_state (evr_hw_data P)) : irq_system_op → Option (modac_state (evr_hw_data P))
  | .op a => step (hw_support_evr mmap_p_final_size irq_set) s a
  | .isr mem answers =>
    s.mngdev.map fun m => { s with mngdev := some (modac_mngdev_isr m mem answers) }

/-- What an interrupt leaves alone of the registers. -/
structure IrqKept (io io' : io_state) : Prop where
  reg32 : ∀ reg, reg ≠ EVR_REG_IRQFLAG → reg ≠ EVR_REG_DATA_BUF_CTRL → reg ≠ EVR_REG_CTRL →
    io'.reg32 reg = io.reg32 reg
  ctrl : ∀ i, i ≠ C_EVR_CTRL_RESET_EVENTFIFO →
    (io'.reg32 EVR_REG_CTRL).getLsbD i = (io.reg32 EVR_REG_CTRL).getLsbD i
  reg16 : io'.reg16 = io.reg16

theorem IrqKept.of_regs {io io' : io_state} (hreg32 : io'.reg32 = io.reg32)
    (hreg16 : io'.reg16 = io.reg16) : IrqKept io io' :=
  ⟨fun _ _ _ _ => by rw [hreg32], fun _ _ => by rw [hreg32], hreg16⟩

theorem IrqKept.trans {io io' io'' : io_state} (h : IrqKept io io') (h' : IrqKept io' io'') :
    IrqKept io io'' where
  reg32 reg hflag hdatabuf hctrl :=
    (h'.reg32 reg hflag hdatabuf hctrl).trans (h.reg32 reg hflag hdatabuf hctrl)
  ctrl i hi := (h'.ctrl i hi).trans (h.ctrl i hi)
  reg16 := h'.reg16.trans h.reg16

theorem answering_card_read (d : io_state × (Nat → BitVec 32)) (reg : Nat) :
    (answering_card.read32 d reg).2.1.reg32 = d.1.reg32 ∧
      (answering_card.read32 d reg).2.1.reg16 = d.1.reg16 := by
  simp only [answering_card]
  split_ifs
  · exact ⟨rfl, rfl⟩
  · exact ⟨rfl, rfl⟩

theorem answering_card_frame : IsrFrame answering_card fun d d' => IrqKept d.1 d'.1 where
  refl d := .of_regs rfl rfl
  trans _ _ _ h h' := h.trans h'
  read d reg := .of_regs (answering_card_read d reg).1 (answering_card_read d reg).2
  write d reg val hreg := by
    have hctrl : EVR_REG_CTRL ≠ reg := by
      rcases hreg with rfl | rfl <;> decide
    refine ⟨fun other hflag hdatabuf _ => ?_, fun i _ => ?_, rfl⟩
    · have hne : other ≠ reg := by
        rcases hreg with rfl | rfl
        · exact hflag
        · exact hdatabuf
      exact Function.update_of_ne hne _ _
    · simp only [answering_card, evr_write32_reg32, Function.update_of_ne hctrl]
  reset d := by
    refine ⟨fun other _ _ hctrl => ?_, fun i hi => ?_, (answering_card_read d _).2⟩
    · exact (Function.update_of_ne hctrl _ _).trans
        (congrFun (answering_card_read d EVR_REG_CTRL).1 other)
    · have hval : (answering_card.read32 d EVR_REG_CTRL).1 = d.1.reg32 EVR_REG_CTRL := rfl
      rw [hval]
      simp only [answering_card, evr_write32_reg32, Function.update_self, BitVec.getLsbD_or,
        getLsbD_bit, hi, and_false, decide_false, Bool.or_false]

section

variable {hw : evr_hw_data P} {io : io_state} (h : IrqKept hw.io io)
include h

theorem IrqKept.cardKept : CardKept hw { hw with io } := by
  refine .of_io (fun reg hreg => ?_) fun i hi => h.ctrl i ?_
  · have hflag : EVR_REG_IRQFLAG = 8 := rfl
    have hdatabuf : EVR_REG_DATA_BUF_CTRL = 32 := rfl
    have hctrl : EVR_REG_CTRL = 4 := rfl
    rw [is_map_ram_iff] at hreg
    exact h.reg32 reg (by omega) (by omega) (by omega)
  · rcases hi with rfl | rfl <;> decide

theorem IrqKept.enableKept : EnableKept hw { hw with io } :=
  ⟨fun _ => rfl, h.reg32 EVR_REG_IRQEN (by decide) (by decide) (by decide)⟩

theorem IrqKept.pulseKept {index : Nat} (hindex : index < EVR_MAX_PULSEGEN_COUNT) :
    PulseKept index hw { hw with io } := by
  refine ⟨fun reg hreg => ?_, fun _ => rfl⟩
  obtain ⟨hge, -, hctrl, -⟩ := is_pulse_reg_range hindex hreg
  have hflag : EVR_REG_IRQFLAG = 8 := rfl
  have hdatabuf : EVR_REG_DATA_BUF_CTRL = 32 := rfl
  exact h.reg32 reg (by omega) (by omega) hctrl

end

section

variable (m : mngdev_data (evr_hw_data P)) (mem : mmap_words) (answers : Nat → BitVec 32)

theorem isr_call.apply_usage (call : isr_call) :
    mngdev_usage_of (call.apply m) = mngdev_usage_of m := by
  cases call with
  | put_event event data hlength => exact mngdev_usage_of_put_event m event data
  | notify event => exact mngdev_usage_of_notify m event

theorem isr_call.apply_hw (call : isr_call) : (call.apply m).hw = m.hw := by
  cases call with
  | put_event event data hlength => exact process_event_hw m event _
  | notify event => exact process_event_hw m event _

theorem isr_calls_usage (calls : List isr_call) :
    mngdev_usage_of (calls.foldl isr_call.apply m) = mngdev_usage_of m := by
  induction calls generalizing m with
  | nil => rfl
  | cons call calls ih => rw [List.foldl_cons, ih, isr_call.apply_usage]

theorem isr_calls_hw (calls : List isr_call) : (calls.foldl isr_call.apply m).hw = m.hw := by
  induction calls generalizing m with
  | nil => rfl
  | cons call calls ih => rw [List.foldl_cons, ih, isr_call.apply_hw]

theorem modac_mngdev_isr_usage :
    mngdev_usage_of (modac_mngdev_isr m mem answers) = mngdev_usage_of m := by
  rw [modac_mngdev_isr, isr_calls_usage, mngdev_usage_of_hw]

/-- An interrupt only does to the card what the handler does to its registers. -/
theorem modac_mngdev_isr_hw :
    ∃ io, (modac_mngdev_isr m mem answers).hw = { m.hw with io } ∧ IrqKept m.hw.io io := by
  rw [modac_mngdev_isr, isr_calls_hw]
  exact ⟨_, rfl, answering_card_frame.isr (m.hw.io, answers) mem⟩

end

theorem irq_step_isr {s t : modac_state (evr_hw_data P)} {mem : mmap_words}
    {answers : Nat → BitVec 32}
    (hstep : irq_step mmap_p_final_size irq_set s (.isr mem answers) = some t) :
    ∃ m io, s.mngdev = some m ∧
      t = { s with mngdev := some (modac_mngdev_isr m mem answers) } ∧
      usage_of t = usage_of s ∧
      (modac_mngdev_isr m mem answers).hw = { m.hw with io } ∧ IrqKept m.hw.io io := by
  obtain ⟨m, hm, rfl⟩ := Option.map_eq_some_iff.mp hstep
  obtain ⟨io, hhw, hkept⟩ := modac_mngdev_isr_hw m mem answers
  exact ⟨m, io, hm, rfl, usage_of_set_mngdev_same hm (modac_mngdev_isr_usage m mem answers), hhw,
    hkept⟩

section

variable {s t : modac_state (evr_hw_data P)}

theorem CardInv.irq_step (hirq : ∀ f ∈ irq_set, IrqSetOk f) {type : evr_type_data}
    (h : CardInv type s) {a : irq_system_op}
    (hstep : irq_step mmap_p_final_size irq_set s a = some t) : CardInv type t := by
  cases a with
  | op a => exact h.step hirq hstep
  | isr mem answers =>
    obtain ⟨m, io, hm, rfl, husage, hhw, hkept⟩ := irq_step_isr hstep
    have hvalid : (modac_mngdev_isr m mem answers).ref = m.ref :=
      congrArg mngdev_usage.ref (modac_mngdev_isr_usage m mem answers)
    refine ⟨husage ▸ h.res, ?_, ?_⟩
    · intro m' hm' hvalid'
      obtain rfl := Option.some.inj hm'
      rw [hhw]
      exact h.flavour m hm (hvalid ▸ hvalid')
    · intro m' hm' hvalid'
      obtain rfl := Option.some.inj hm'
      rw [hhw]
      exact hkept.cardKept.inForce (h.inForce m hm (hvalid ▸ hvalid'))

theorem EnableInv.irq_step (hirq : ∀ f ∈ irq_set, IrqSetOk f) (h : EnableInv s)
    {a : irq_system_op} (hinit : ∀ b, a = .op b → ¬ InitWhileSubscribed s b)
    (hstep : irq_step mmap_p_final_size irq_set s a = some t) : EnableInv t := by
  cases a with
  | op a => exact h.step hirq (hinit a rfl) hstep
  | isr mem answers =>
    obtain ⟨m, io, hm, rfl, husage, hhw, hkept⟩ := irq_step_isr hstep
    have hvalid : (modac_mngdev_isr m mem answers).ref = m.ref :=
      congrArg mngdev_usage.ref (modac_mngdev_isr_usage m mem answers)
    have hlist : (modac_mngdev_isr m mem answers).event_dispatch_list = m.event_dispatch_list :=
      congrArg mngdev_usage.event_dispatch_list (modac_mngdev_isr_usage m mem answers)
    refine ⟨husage ▸ h.subs, ?_, ?_⟩
    · intro m' hm' hvalid'
      obtain rfl := Option.some.inj hm'
      rw [hhw]
      exact hkept.cardKept.inForce (h.inForce m hm (hvalid ▸ hvalid'))
    · intro m' hm' hvalid'
      obtain rfl := Option.some.inj hm'
      rw [hhw, hlist]
      exact (h.exact m hm (hvalid ▸ hvalid')).of_kept hkept.enableKept

end

/-- The driver gets to the state with such a card, in some run. -/
def Reached (mmap_p_final_size : Nat) (irq_set : Option (evr_irq_set P)) (hw : evr_hw_data P)
    (s : modac_state (evr_hw_data P)) : Prop :=
  ∃ des s₀ ops, evr_mngdev_create mmap_p_final_size irq_set des hw = .ok s₀ ∧
    run (irq_step mmap_p_final_size irq_set) s₀ ops = some s

theorem Reached.cardInv (hirq : ∀ f ∈ irq_set, IrqSetOk f) {hw : evr_hw_data P}
    {s : modac_state (evr_hw_data P)} (h : Reached mmap_p_final_size irq_set hw s) :
    CardInv hw.evr_type_data s := by
  obtain ⟨des, s₀, ops, hcreate, hrun⟩ := h
  exact run_invariant (fun _ _ _ h hstep => h.irq_step hirq hstep) hrun
    (cardInv_of_create hirq hcreate)

/-- Whatever the users and the card do, with interrupts between the operations: the card keeps
its flavour, and its selected map RAM holds what the driver means it to. -/
theorem map_ram_in_force_with_interrupts (hirq : ∀ f ∈ irq_set, IrqSetOk f)
    {des : modac_mngdev_des} {hw : evr_hw_data P} {s₀ : modac_state (evr_hw_data P)}
    (hcreate : evr_mngdev_create mmap_p_final_size irq_set des hw = .ok s₀)
    (ops : List irq_system_op) :
    StatesMeet (irq_step mmap_p_final_size irq_set)
      (fun s => ∀ m, s.mngdev = some m → m.ref.ref_ptr = true →
        m.hw.evr_type_data = hw.evr_type_data ∧ MapRamInForce m.hw) s₀ ops := by
  refine statesMeet_of_invariant (I := CardInv hw.evr_type_data) ?_ ?_
    (cardInv_of_create hirq hcreate) ops
  · intro s h m hm hvalid
    exact ⟨h.flavour m hm hvalid, h.inForce m hm hvalid⟩
  · intro s a t h hstep
    exact h.irq_step hirq hstep

/-- A VIRT_DEV subscribes to the event 40 between two interrupts, the first of which is the one
for a full FIFO. -/
def interrupted : List irq_system_op :=
  open_vdev.map .op ++
    [.isr ⟨fun _ => 0, []⟩ fun _ => bit C_EVR_IRQFLAG_FIFOFULL, .op (subscribe_to 40),
      .isr ⟨fun _ => 0, []⟩ fun _ => 0]

theorem map_ram_in_force_interrupted :
    ∃ s, evr_mngdev_create PAGE_SIZE (some lattice_irq_set) first_mngdev lattice_card = .ok s ∧
      (run (irq_step PAGE_SIZE (some lattice_irq_set)) s interrupted).isSome = true ∧
      StatesMeet (irq_step PAGE_SIZE (some lattice_irq_set))
        (fun s => ∀ m, s.mngdev = some m → m.ref.ref_ptr = true →
          m.hw.evr_type_data = lattice_card.evr_type_data ∧ MapRamInForce m.hw) s interrupted := by
  have hirq : ∀ f ∈ some lattice_irq_set, IrqSetOk f := by
    rintro f hf
    obtain rfl := Option.some.inj hf
    exact lattice_irq_set_ok
  have hcreate : evr_mngdev_create PAGE_SIZE (some lattice_irq_set) first_mngdev lattice_card =
    .ok _ := rfl
  exact ⟨_, hcreate, by decide +kernel, map_ram_in_force_with_interrupts hirq hcreate _⟩

/-- Interrupts change nothing of what is saved and enabled: in every state it is what the
VIRT_DEVs are subscribed to, exactly when no `MNG_DEV_EVR_IOC_INIT` gets through meanwhile. -/
theorem enabled_with_interrupts_iff (hirq : ∀ f ∈ irq_set, IrqSetOk f)
    {des : modac_mngdev_des} {hw : evr_hw_data P} {s₀ : modac_state (evr_hw_data P)}
    (hcreate : evr_mngdev_create mmap_p_final_size irq_set des hw = .ok s₀)
    (ops : List irq_system_op) :
    StatesMeet (irq_step mmap_p_final_size irq_set)
        (fun s => ∀ m, s.mngdev = some m → m.ref.ref_ptr = true → EnabledAgrees m) s₀ ops ↔
      StepsMeet (irq_step mmap_p_final_size irq_set)
        (fun s a => ∀ b, a = .op b → ¬ InitWhileSubscribed s b) s₀ ops := by
  apply statesMeet_iff_stepsMeet (I := EnableInv)
  · intro s h m hm hvalid
    exact h.agrees hm hvalid
  · intro s a t h hinit hstep
    exact h.irq_step hirq hinit hstep
  · intro s a t h hinit hstep hagrees
    simp only [not_forall, not_not] at hinit
    obtain ⟨b, rfl, hinit⟩ := hinit
    obtain ⟨m, hm, hvalid, hnot⟩ := hinit.not_agrees hstep
    exact hnot (hagrees m hm hvalid)
  · exact enableInv_of_create hirq hcreate

def init_first_irq (s : modac_state (evr_hw_data P)) : irq_system_op → Bool
  | .op a => init_first s a
  | .isr _ _ => true

theorem enabled_interrupted :
    ∃ s, evr_mngdev_create PAGE_SIZE (some lattice_irq_set) first_mngdev lattice_card = .ok s ∧
      (run (irq_step PAGE_SIZE (some lattice_irq_set)) s interrupted).isSome = true ∧
      StatesMeet (irq_step PAGE_SIZE (some lattice_irq_set))
        (fun s => ∀ m, s.mngdev = some m → m.ref.ref_ptr = true → EnabledAgrees m) s
        interrupted := by
  have hirq : ∀ f ∈ some lattice_irq_set, IrqSetOk f := by
    rintro f hf
    obtain rfl := Option.some.inj hf
    exact lattice_irq_set_ok
  have hcreate : evr_mngdev_create PAGE_SIZE (some lattice_irq_set) first_mngdev lattice_card =
    .ok _ := rfl
  refine ⟨_, hcreate, by decide +kernel, (enabled_with_interrupts_iff hirq hcreate _).mpr ?_⟩
  apply stepsMeet_of_check (fun s a hcheck => ?_)
    (by decide +kernel : steps_check _ init_first_irq _ _ = true)
  rintro b rfl
  exact not_initWhileSubscribed_of_check hcheck

end evrma.evr
