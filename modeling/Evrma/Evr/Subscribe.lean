import Evrma.EventList
import Evrma.Evr.Pulses

namespace evrma.evr

open evrma.event_list

variable {P : Type}

abbrev EVRMA_EVENT_ERROR_TAXI : Int := 0x100
abbrev EVRMA_EVENT_ERROR_LOST : Int := 0x101
abbrev EVRMA_EVENT_ERROR_HEART : Int := 0x102
abbrev EVRMA_EVENT_DELAYED_IRQ : Int := 0x104
abbrev EVRMA_EVENT_DBUF_DATA : Int := 0x105

/-- `irq_set` of the lower level, which keeps its own data and reaches the device. -/
abbrev evr_irq_set (P : Type) := P → io_state → (enabled : Bool) → P × io_state

/-- The lower level is informed about enabled interrupts, if it wants to. -/
def call_irq_set (irq_set : Option (evr_irq_set P)) (hw : evr_hw_data P)
    (interrupts_needed : Bool) : evr_hw_data P :=
  match irq_set with
  | some irq_set =>
    let (irq, io) := irq_set hw.irq hw.io interrupts_needed
    { hw with irq, io }
  | none => hw

/-- Only subscribed events are saved in the Event FIFO. -/
def save_subscribed (subscriptions : event_list_type)
    (map_ram : Fin EVR_MAPRAM_EVENT_CODES → evr_map_ram_item_struct) :
    Fin EVR_MAPRAM_EVENT_CODES → evr_map_ram_item_struct :=
  fun ievent =>
    { map_ram ievent with
      int_event := put_bit (map_ram ievent).int_event
        (EVR_REG_MAPRAM_EVENT_BIT_SAVE_EVENT_IN_FIFO % 32)
        (event_list_test subscriptions (ievent : Nat)) }

/-- At least one Event FIFO event is enabled. -/
def fifo_events_enabled (subscriptions : event_list_type) : Bool :=
  decide (∃ ievent : Fin EVR_MAPRAM_EVENT_CODES,
    event_list_test subscriptions (ievent : Nat) = true)

def enable_flag (irq_enable : BitVec 32) (flag : Nat) (evst : Bool) : BitVec 32 :=
  if evst then irq_enable ||| bit flag else irq_enable

/-- The enabling mask. Of the previous one only the bit of the lower level stays. -/
def combined_irq_enable (irq_enable_prev : BitVec 32) (subscriptions : event_list_type) :
    BitVec 32 :=
  let irq_enable := irq_enable_prev &&& bit C_EVR_IRQ_PCIEE
  let irq_enable := enable_flag irq_enable C_EVR_IRQ_MASTER_ENABLE
    (!event_list_is_empty subscriptions)
  let irq_enable := enable_flag irq_enable C_EVR_IRQFLAG_EVENT (fifo_events_enabled subscriptions)
  let irq_enable := enable_flag irq_enable C_EVR_IRQFLAG_DATABUF
    (event_list_test subscriptions EVRMA_EVENT_DBUF_DATA)
  let irq_enable := enable_flag irq_enable C_EVR_IRQFLAG_VIOLATION
    (event_list_test subscriptions EVRMA_EVENT_ERROR_TAXI)
  let irq_enable := enable_flag irq_enable C_EVR_IRQFLAG_PULSE
    (event_list_test subscriptions EVRMA_EVENT_DELAYED_IRQ)
  let irq_enable := enable_flag irq_enable C_EVR_IRQFLAG_HEARTBEAT
    (event_list_test subscriptions EVRMA_EVENT_ERROR_HEART)
  enable_flag irq_enable C_EVR_IRQFLAG_FIFOFULL
    (event_list_test subscriptions EVRMA_EVENT_ERROR_LOST)

def DATA_BUF_START : BitVec 32 := bit C_EVR_DATABUF_MODE ||| bit C_EVR_DATABUF_LOAD
def DATA_BUF_STOP : BitVec 32 := bit C_EVR_DATABUF_STOP

/-- A running DataBuf isn't touched while it is needed. -/
def set_data_buf (io : io_state) (irq_enable_prev : BitVec 32)
    (subscriptions : event_list_type) : io_state :=
  if event_list_test subscriptions EVRMA_EVENT_DBUF_DATA then
    if irq_enable_prev.getLsbD C_EVR_IRQFLAG_DATABUF then io
    else evr_write32 io EVR_REG_DATA_BUF_CTRL DATA_BUF_START
  else evr_write32 io EVR_REG_DATA_BUF_CTRL DATA_BUF_STOP

def set_irq_enable (io : io_state) (irq_enable_prev irq_enable : BitVec 32) : io_state :=
  if irq_enable_prev ≠ irq_enable then evr_write32 io EVR_REG_IRQEN irq_enable else io

def hw_support_evr_on_subscribe_change (irq_set : Option (evr_irq_set P)) (hw : evr_hw_data P)
    (subscriptions : event_list_type) : evr_hw_data P × Int :=
  let interrupts_needed := !event_list_is_empty subscriptions
  let hw := call_irq_set irq_set hw interrupts_needed
  let (irq_enable_prev, io) := evr_read32 hw.io EVR_REG_IRQEN
  let hw := evr_ram_map_change_flush
    { hw with io, map_ram := save_subscribed subscriptions hw.map_ram }
  let io := set_data_buf hw.io irq_enable_prev subscriptions
  let io := set_irq_enable io irq_enable_prev (combined_irq_enable irq_enable_prev subscriptions)
  ({ hw with io }, 0)

/-- The registers of the lower level: its bit is in the enabling mask, or it has a register
of its own. -/
def is_irq_reg (reg : Nat) : Prop := reg = EVR_REG_IRQEN ∨ reg = EVR_REG_PCIE_INT_SLAC

instance (reg : Nat) : Decidable (is_irq_reg reg) := inferInstanceAs (Decidable (_ ∨ _))

theorem is_irq_reg_iff {reg : Nat} : is_irq_reg reg ↔ reg = 12 ∨ reg = 20 := Iff.rfl

/-- The access writes at most a register of the lower level. -/
def WritesIrqReg : io_access → Prop
  | .write32 reg _ => is_irq_reg reg
  | .write16 _ _ => False
  | _ => True

/-- Of the device the lower level changes at most its own bit of the enabling mask and its own
register, and a second call with the same argument changes nothing. -/
structure IrqSetOk (irq_set : evr_irq_set P) : Prop where
  reg32 : ∀ p io enabled reg, ¬ is_irq_reg reg →
    (irq_set p io enabled).2.reg32 reg = io.reg32 reg
  reg16 : ∀ p io enabled, (irq_set p io enabled).2.reg16 = io.reg16
  irqen : ∀ p io enabled i, i ≠ C_EVR_IRQ_PCIEE →
    ((irq_set p io enabled).2.reg32 EVR_REG_IRQEN).getLsbD i =
      (io.reg32 EVR_REG_IRQEN).getLsbD i
  log : ∀ p io enabled, ∃ accesses, (irq_set p io enabled).2.log = io.log ++ accesses ∧
    ∀ a ∈ accesses, WritesIrqReg a
  again : ∀ p io enabled io',
    (io'.reg32 EVR_REG_IRQEN).getLsbD C_EVR_IRQ_PCIEE =
        ((irq_set p io enabled).2.reg32 EVR_REG_IRQEN).getLsbD C_EVR_IRQ_PCIEE →
      (irq_set (irq_set p io enabled).1 io' enabled).2.reg32 = io'.reg32

/-- The event bits of the enabling mask that the subscriptions require. -/
def IrqRequired (subscriptions : event_list_type) (i : Nat) : Prop :=
  (i = C_EVR_IRQFLAG_FIFOFULL ∧ event_list_test subscriptions EVRMA_EVENT_ERROR_LOST = true) ∨
  (i = C_EVR_IRQFLAG_HEARTBEAT ∧ event_list_test subscriptions EVRMA_EVENT_ERROR_HEART = true) ∨
  (i = C_EVR_IRQFLAG_PULSE ∧ event_list_test subscriptions EVRMA_EVENT_DELAYED_IRQ = true) ∨
  (i = C_EVR_IRQFLAG_VIOLATION ∧ event_list_test subscriptions EVRMA_EVENT_ERROR_TAXI = true) ∨
  (i = C_EVR_IRQFLAG_DATABUF ∧ event_list_test subscriptions EVRMA_EVENT_DBUF_DATA = true) ∨
  (i = C_EVR_IRQFLAG_EVENT ∧ ∃ ievent : Fin EVR_MAPRAM_EVENT_CODES,
    event_list_test subscriptions (ievent : Nat) = true) ∨
  (i = C_EVR_IRQ_MASTER_ENABLE ∧ ∃ event, subscriptions event = true)

theorem getLsbD_enable_flag (irq_enable : BitVec 32) {flag : Nat} (hflag : flag < 32)
    (evst : Bool) (i : Nat) :
    (enable_flag irq_enable flag evst).getLsbD i = true ↔
      (i = flag ∧ evst = true) ∨ irq_enable.getLsbD i = true := by
  unfold enable_flag
  cases evst
  · simp
  · simp only [if_true, BitVec.getLsbD_or, Bool.or_eq_true, getLsbD_bit, decide_eq_true_eq]
    constructor
    · rintro (h | ⟨-, h⟩)
      · exact .inr h
      · exact .inl ⟨h, trivial⟩
    · rintro (⟨rfl, -⟩ | h)
      · exact .inr ⟨hflag, rfl⟩
      · exact .inl h

theorem event_list_not_empty {subscriptions : event_list_type} :
    (!event_list_is_empty subscriptions) = true ↔ ∃ event, subscriptions event = true := by
  rw [Bool.not_eq_true', ← Bool.not_eq_true, event_list_is_empty_eq_true]
  push Not
  exact exists_congr fun event => by simp

/-- The enabling mask has exactly the required bits and the one of the lower level. -/
theorem getLsbD_combined_irq_enable (irq_enable_prev : BitVec 32)
    (subscriptions : event_list_type) (i : Nat) :
    (combined_irq_enable irq_enable_prev subscriptions).getLsbD i = true ↔
      IrqRequired subscriptions i ∨
        (i = C_EVR_IRQ_PCIEE ∧ irq_enable_prev.getLsbD C_EVR_IRQ_PCIEE = true) := by
  have hprev : (irq_enable_prev &&& bit C_EVR_IRQ_PCIEE).getLsbD i = true ↔
      i = C_EVR_IRQ_PCIEE ∧ irq_enable_prev.getLsbD C_EVR_IRQ_PCIEE = true := by
    rw [BitVec.getLsbD_and, Bool.and_eq_true, getLsbD_bit, decide_eq_true_eq]
    constructor
    · rintro ⟨h, -, rfl⟩
      exact ⟨rfl, h⟩
    · rintro ⟨rfl, h⟩
      exact ⟨h, by decide, rfl⟩
  have hfifo : fifo_events_enabled subscriptions = true ↔
      ∃ ievent : Fin EVR_MAPRAM_EVENT_CODES,
        event_list_test subscriptions (ievent : Nat) = true := decide_eq_true_iff
  simp only [combined_irq_enable, getLsbD_enable_flag _ (by decide : C_EVR_IRQ_MASTER_ENABLE < 32),
    getLsbD_enable_flag _ (by decide : C_EVR_IRQFLAG_EVENT < 32),
    getLsbD_enable_flag _ (by decide : C_EVR_IRQFLAG_DATABUF < 32),
    getLsbD_enable_flag _ (by decide : C_EVR_IRQFLAG_VIOLATION < 32),
    getLsbD_enable_flag _ (by decide : C_EVR_IRQFLAG_PULSE < 32),
    getLsbD_enable_flag _ (by decide : C_EVR_IRQFLAG_HEARTBEAT < 32),
    getLsbD_enable_flag _ (by decide : C_EVR_IRQFLAG_FIFOFULL < 32), hprev, hfifo,
    event_list_not_empty, IrqRequired, or_assoc]

theorem not_irqRequired_pciee (subscriptions : event_list_type) :
    ¬ IrqRequired subscriptions C_EVR_IRQ_PCIEE := by
  rintro (⟨h, -⟩ | ⟨h, -⟩ | ⟨h, -⟩ | ⟨h, -⟩ | ⟨h, -⟩ | ⟨h, -⟩ | ⟨h, -⟩) <;>
    exact absurd h (by decide)

/-- The mask only depends on the bit of the lower level, which it keeps. -/
theorem combined_irq_enable_idem (irq_enable_prev : BitVec 32) (subscriptions : event_list_type) :
    combined_irq_enable (combined_irq_enable irq_enable_prev subscriptions) subscriptions =
      combined_irq_enable irq_enable_prev subscriptions := by
  apply BitVec.eq_of_getLsbD_eq
  intro i _
  rw [Bool.eq_iff_iff, getLsbD_combined_irq_enable, getLsbD_combined_irq_enable,
    getLsbD_combined_irq_enable]
  simp only [not_irqRequired_pciee, false_or, true_and]

theorem getLsbD_combined_databuf (irq_enable_prev : BitVec 32) {subscriptions : event_list_type}
    (h : event_list_test subscriptions EVRMA_EVENT_DBUF_DATA = true) :
    (combined_irq_enable irq_enable_prev subscriptions).getLsbD C_EVR_IRQFLAG_DATABUF = true := by
  rw [getLsbD_combined_irq_enable]
  exact .inl (.inr (.inr (.inr (.inr (.inl ⟨rfl, h⟩)))))

theorem save_subscribed_idem (subscriptions : event_list_type)
    (map_ram : Fin EVR_MAPRAM_EVENT_CODES → evr_map_ram_item_struct) :
    save_subscribed subscriptions (save_subscribed subscriptions map_ram) =
      save_subscribed subscriptions map_ram := by
  funext ievent
  simp only [save_subscribed, evr_map_ram_item_struct.mk.injEq, and_true]
  apply BitVec.eq_of_getLsbD_eq
  intro i _
  rw [getLsbD_put_bit _ (by decide), getLsbD_put_bit _ (by decide)]
  split_ifs <;> rfl

theorem getLsbD_save_subscribed (subscriptions : event_list_type)
    (map_ram : Fin EVR_MAPRAM_EVENT_CODES → evr_map_ram_item_struct)
    (e : Fin EVR_MAPRAM_EVENT_CODES) (i : Nat) :
    (save_subscribed subscriptions map_ram e).int_event.getLsbD i =
      if i = 31 then event_list_test subscriptions (e : Nat)
      else (map_ram e).int_event.getLsbD i := by
  have hbit : EVR_REG_MAPRAM_EVENT_BIT_SAVE_EVENT_IN_FIFO % 32 = 31 := rfl
  simp only [save_subscribed, hbit, getLsbD_put_bit _ (by decide : 31 < 32)]

/-- The values written to the control register of the DataBuf. -/
def data_buf_writes (accesses : List io_access) : List (BitVec 32) :=
  accesses.filterMap fun access =>
    match access with
    | .write32 reg val => if reg = EVR_REG_DATA_BUF_CTRL then some val else none
    | _ => none

/-- The accesses of `set_data_buf`. -/
def data_buf_accesses (irq_enable_prev : BitVec 32) (subscriptions : event_list_type) :
    List io_access :=
  if event_list_test subscriptions EVRMA_EVENT_DBUF_DATA then
    if irq_enable_prev.getLsbD C_EVR_IRQFLAG_DATABUF then []
    else [.write32 EVR_REG_DATA_BUF_CTRL DATA_BUF_START]
  else [.write32 EVR_REG_DATA_BUF_CTRL DATA_BUF_STOP]

theorem set_data_buf_log (io : io_state) (irq_enable_prev : BitVec 32)
    (subscriptions : event_list_type) :
    (set_data_buf io irq_enable_prev subscriptions).log =
      io.log ++ data_buf_accesses irq_enable_prev subscriptions := by
  unfold set_data_buf data_buf_accesses
  split_ifs
  · exact (List.append_nil io.log).symm
  · rfl
  · rfl

theorem set_data_buf_of_ne (io : io_state) (irq_enable_prev : BitVec 32)
    (subscriptions : event_list_type) {reg : Nat} (hreg : reg ≠ EVR_REG_DATA_BUF_CTRL) :
    (set_data_buf io irq_enable_prev subscriptions).reg32 reg = io.reg32 reg := by
  unfold set_data_buf
  split_ifs
  · rfl
  · rw [evr_write32_reg32, Function.update_of_ne hreg]
  · rw [evr_write32_reg32, Function.update_of_ne hreg]

/-- The accesses of `set_irq_enable`. -/
def irq_enable_accesses (irq_enable_prev irq_enable : BitVec 32) : List io_access :=
  if irq_enable_prev ≠ irq_enable then [.write32 EVR_REG_IRQEN irq_enable] else []

theorem set_irq_enable_log (io : io_state) (irq_enable_prev irq_enable : BitVec 32) :
    (set_irq_enable io irq_enable_prev irq_enable).log =
      io.log ++ irq_enable_accesses irq_enable_prev irq_enable := by
  unfold set_irq_enable irq_enable_accesses
  split_ifs
  · rfl
  · exact (List.append_nil io.log).symm

theorem set_irq_enable_irqen {io : io_state} {irq_enable_prev : BitVec 32}
    (hprev : io.reg32 EVR_REG_IRQEN = irq_enable_prev) (irq_enable : BitVec 32) :
    (set_irq_enable io irq_enable_prev irq_enable).reg32 EVR_REG_IRQEN = irq_enable := by
  unfold set_irq_enable
  split_ifs with h
  · rw [evr_write32_reg32, Function.update_self]
  · rw [hprev]
    exact not_not.mp h

theorem set_irq_enable_of_ne (io : io_state) (irq_enable_prev irq_enable : BitVec 32) {reg : Nat}
    (hreg : reg ≠ EVR_REG_IRQEN) :
    (set_irq_enable io irq_enable_prev irq_enable).reg32 reg = io.reg32 reg := by
  unfold set_irq_enable
  split_ifs
  · rw [evr_write32_reg32, Function.update_of_ne hreg]
  · rfl

/-- A flush does not touch the DataBuf. -/
theorem data_buf_writes_flush (ctrl : BitVec 32)
    (map_ram : Fin EVR_MAPRAM_EVENT_CODES → evr_map_ram_item_struct) :
    data_buf_writes (flush_accesses ctrl map_ram) = [] := by
  rw [data_buf_writes, List.filterMap_eq_nil_iff]
  intro access haccess
  have hcases := newram_offset_cases ctrl
  simp only [flush_accesses, List.cons_append, List.mem_cons, List.mem_append, List.mem_map,
    List.not_mem_nil, or_false] at haccess
  obtain rfl | ⟨w, hw, rfl⟩ | rfl := haccess
  · rfl
  · have hrange := map_ram_writes_range hw
    have hne : w.1 ≠ 0x20 := by omega
    exact if_neg hne
  · rfl

/-- The accesses of the call once the lower level is informed. -/
def subscribe_accesses (io : io_state)
    (map_ram : Fin EVR_MAPRAM_EVENT_CODES → evr_map_ram_item_struct)
    (subscriptions : event_list_type) : List io_access :=
  .read32 EVR_REG_IRQEN :: flush_accesses (io.reg32 EVR_REG_CTRL) map_ram ++
    data_buf_accesses (io.reg32 EVR_REG_IRQEN) subscriptions ++
    irq_enable_accesses (io.reg32 EVR_REG_IRQEN)
      (combined_irq_enable (io.reg32 EVR_REG_IRQEN) subscriptions)

section

variable (irq_set : Option (evr_irq_set P)) (hw : evr_hw_data P)
  (subscriptions : event_list_type)

@[simp]
theorem call_irq_set_map_ram (interrupts_needed : Bool) :
    (call_irq_set irq_set hw interrupts_needed).map_ram = hw.map_ram := by
  cases irq_set with
  | none => rfl
  | some irq_set => rfl

@[simp]
theorem call_irq_set_type (interrupts_needed : Bool) :
    (call_irq_set irq_set hw interrupts_needed).evr_type_data = hw.evr_type_data := by
  cases irq_set with
  | none => rfl
  | some irq_set => rfl

/-- The card once the lower level is informed. -/
def informed : evr_hw_data P := call_irq_set irq_set hw (!event_list_is_empty subscriptions)

@[simp]
theorem informed_map_ram : (informed irq_set hw subscriptions).map_ram = hw.map_ram :=
  call_irq_set_map_ram irq_set hw _

theorem subscribe_map_ram :
    (hw_support_evr_on_subscribe_change irq_set hw subscriptions).1.map_ram =
      save_subscribed subscriptions hw.map_ram := by
  simp only [hw_support_evr_on_subscribe_change, flush_map_ram, call_irq_set_map_ram]

theorem subscribe_type :
    (hw_support_evr_on_subscribe_change irq_set hw subscriptions).1.evr_type_data =
      hw.evr_type_data := by
  simp only [hw_support_evr_on_subscribe_change, flush_type, call_irq_set_type]

theorem subscribe_irq :
    (hw_support_evr_on_subscribe_change irq_set hw subscriptions).1.irq =
      (informed irq_set hw subscriptions).irq := by
  simp only [hw_support_evr_on_subscribe_change, evr_ram_map_change_flush, informed]

/-- The card after its flush, before the DataBuf and the enabling mask are set. -/
def subscribed_flush : evr_hw_data P :=
  let hw := informed irq_set hw subscriptions
  evr_ram_map_change_flush
    { hw with
      io := (evr_read32 hw.io EVR_REG_IRQEN).2
      map_ram := save_subscribed subscriptions hw.map_ram }

theorem subscribe_io :
    (hw_support_evr_on_subscribe_change irq_set hw subscriptions).1.io =
      set_irq_enable
        (set_data_buf (subscribed_flush irq_set hw subscriptions).io
          ((informed irq_set hw subscriptions).io.reg32 EVR_REG_IRQEN) subscriptions)
        ((informed irq_set hw subscriptions).io.reg32 EVR_REG_IRQEN)
        (combined_irq_enable ((informed irq_set hw subscriptions).io.reg32 EVR_REG_IRQEN)
          subscriptions) := by
  simp only [hw_support_evr_on_subscribe_change, subscribed_flush, informed, evr_read32_val]

/-- No register but those of the map RAM changes until then. -/
theorem subscribed_flush_of_ne {reg : Nat} (hctrl : reg ≠ EVR_REG_CTRL) (hreg : ¬ is_map_ram reg) :
    (subscribed_flush irq_set hw subscriptions).io.reg32 reg =
      (informed irq_set hw subscriptions).io.reg32 reg := by
  rw [subscribed_flush, flush_of_ne _ hctrl hreg, evr_read32_reg32]

theorem subscribe_irqen :
    (hw_support_evr_on_subscribe_change irq_set hw subscriptions).1.io.reg32 EVR_REG_IRQEN =
      combined_irq_enable ((informed irq_set hw subscriptions).io.reg32 EVR_REG_IRQEN)
        subscriptions := by
  rw [subscribe_io]
  apply set_irq_enable_irqen
  rw [set_data_buf_of_ne _ _ _ (by decide), subscribed_flush_of_ne]
  · decide
  · rw [is_map_ram_iff]
    decide

theorem subscribe_log :
    (hw_support_evr_on_subscribe_change irq_set hw subscriptions).1.io.log =
      (informed irq_set hw subscriptions).io.log ++
        subscribe_accesses (informed irq_set hw subscriptions).io
          (save_subscribed subscriptions hw.map_ram) subscriptions := by
  rw [subscribe_io, set_irq_enable_log, set_data_buf_log, subscribed_flush, flush_log]
  simp only [subscribe_accesses, evr_read32_log, evr_read32_reg32, informed_map_ram,
    List.append_assoc, List.cons_append, List.nil_append]

end

section

variable {irq_set : Option (evr_irq_set P)} (hirq : ∀ f ∈ irq_set, IrqSetOk f)
  (hw : evr_hw_data P) (subscriptions : event_list_type)
include hirq

/-- What the lower level does to the device. -/
theorem informed_of_not {reg : Nat} (hreg : ¬ is_irq_reg reg) :
    (informed irq_set hw subscriptions).io.reg32 reg = hw.io.reg32 reg := by
  cases irq_set with
  | none => rfl
  | some irq_set => exact (hirq irq_set rfl).reg32 _ _ _ _ hreg

theorem informed_irqen {i : Nat} (hi : i ≠ C_EVR_IRQ_PCIEE) :
    ((informed irq_set hw subscriptions).io.reg32 EVR_REG_IRQEN).getLsbD i =
      (hw.io.reg32 EVR_REG_IRQEN).getLsbD i := by
  cases irq_set with
  | none => rfl
  | some irq_set => exact (hirq irq_set rfl).irqen _ _ _ _ hi

theorem informed_log :
    ∃ accesses, (informed irq_set hw subscriptions).io.log = hw.io.log ++ accesses ∧
      ∀ a ∈ accesses, WritesIrqReg a := by
  cases irq_set with
  | none =>
    refine ⟨[], (List.append_nil hw.io.log).symm, ?_⟩
    intro a ha
    cases ha
  | some irq_set => exact (hirq irq_set rfl).log _ _ _

/-- The lower level does nothing in a second call. -/
theorem informed_again :
    (informed irq_set (hw_support_evr_on_subscribe_change irq_set hw subscriptions).1
      subscriptions).io.reg32 =
      (hw_support_evr_on_subscribe_change irq_set hw subscriptions).1.io.reg32 := by
  have hbit : ((hw_support_evr_on_subscribe_change irq_set hw subscriptions).1.io.reg32
      EVR_REG_IRQEN).getLsbD C_EVR_IRQ_PCIEE =
        ((informed irq_set hw subscriptions).io.reg32 EVR_REG_IRQEN).getLsbD C_EVR_IRQ_PCIEE := by
    rw [subscribe_irqen, Bool.eq_iff_iff, getLsbD_combined_irq_enable]
    simp only [not_irqRequired_pciee, false_or, true_and]
  have hdata := subscribe_irq irq_set hw subscriptions
  cases irq_set with
  | none => rfl
  | some irq_set =>
    rw [informed, call_irq_set]
    dsimp only
    rw [hdata]
    exact (hirq irq_set rfl).again _ _ _ _ hbit

end

theorem data_buf_writes_append (accesses accesses' : List io_access) :
    data_buf_writes (accesses ++ accesses') =
      data_buf_writes accesses ++ data_buf_writes accesses' :=
  List.filterMap_append

/-- Accesses of the lower level do not touch the DataBuf. -/
theorem data_buf_writes_of_irq_reg {accesses : List io_access} (h : ∀ a ∈ accesses, WritesIrqReg a) :
    data_buf_writes accesses = [] := by
  rw [data_buf_writes, List.filterMap_eq_nil_iff]
  intro access haccess
  cases access with
  | write32 reg val =>
    obtain rfl | rfl : is_irq_reg reg := h _ haccess
    · rfl
    · rfl
  | read32 reg => rfl
  | read16 reg => rfl
  | write16 reg val => rfl

theorem data_buf_writes_subscribe (io : io_state)
    (map_ram : Fin EVR_MAPRAM_EVENT_CODES → evr_map_ram_item_struct)
    (subscriptions : event_list_type) :
    data_buf_writes (subscribe_accesses io map_ram subscriptions) =
      if event_list_test subscriptions EVRMA_EVENT_DBUF_DATA then
        if (io.reg32 EVR_REG_IRQEN).getLsbD C_EVR_IRQFLAG_DATABUF then [] else [DATA_BUF_START]
      else [DATA_BUF_STOP] := by
  have hirqen : data_buf_writes (irq_enable_accesses (io.reg32 EVR_REG_IRQEN)
      (combined_irq_enable (io.reg32 EVR_REG_IRQEN) subscriptions)) = [] := by
    apply data_buf_writes_of_irq_reg
    intro a ha
    unfold irq_enable_accesses at ha
    split_ifs at ha
    · obtain rfl := List.mem_singleton.mp ha
      exact .inl rfl
    · cases ha
  have hread : data_buf_writes [.read32 EVR_REG_IRQEN] = [] := rfl
  rw [subscribe_accesses, ← List.singleton_append, data_buf_writes_append, data_buf_writes_append,
    data_buf_writes_append, hirqen, hread, data_buf_writes_flush, List.nil_append, List.nil_append,
    List.append_nil, data_buf_accesses]
  split_ifs <;> rfl

/-- After the call exactly the subscribed events are saved and exactly the required interrupts
are enabled; a running DataBuf that stays subscribed is not touched. A second call changes
nothing and does not start the DataBuf. -/
theorem subscribe_change_spec {irq_set : Option (evr_irq_set P)}
    (hirq : ∀ f ∈ irq_set, IrqSetOk f) (hw : evr_hw_data P) (subscriptions : event_list_type) :
    let hw₁ := (hw_support_evr_on_subscribe_change irq_set hw subscriptions).1
    let hw₂ := (hw_support_evr_on_subscribe_change irq_set hw₁ subscriptions).1
    (∀ e, (hw₁.map_ram e).pulse_clear = (hw.map_ram e).pulse_clear ∧
      (hw₁.map_ram e).pulse_set = (hw.map_ram e).pulse_set ∧
      (hw₁.map_ram e).pulse_trigger = (hw.map_ram e).pulse_trigger ∧
      ∀ i, (hw₁.map_ram e).int_event.getLsbD i =
        if i = 31 then event_list_test subscriptions (e : Nat)
        else (hw.map_ram e).int_event.getLsbD i) ∧
    (∀ i, (hw₁.io.reg32 EVR_REG_IRQEN).getLsbD i = true ↔
      IrqRequired subscriptions i ∨ (i = C_EVR_IRQ_PCIEE ∧
        ((call_irq_set irq_set hw (!event_list_is_empty subscriptions)).io.reg32
          EVR_REG_IRQEN).getLsbD C_EVR_IRQ_PCIEE = true)) ∧
    (∃ accesses, hw₁.io.log = hw.io.log ++ accesses ∧
      data_buf_writes accesses =
        if event_list_test subscriptions EVRMA_EVENT_DBUF_DATA then
          if (hw.io.reg32 EVR_REG_IRQEN).getLsbD C_EVR_IRQFLAG_DATABUF then []
          else [DATA_BUF_START]
        else [DATA_BUF_STOP]) ∧
    hw₂.io.reg32 EVR_REG_IRQEN = hw₁.io.reg32 EVR_REG_IRQEN ∧ hw₂.map_ram = hw₁.map_ram ∧
    (∃ accesses, hw₂.io.log = hw₁.io.log ++ accesses ∧
      DATA_BUF_START ∉ data_buf_writes accesses) := by
  have hwrites : ∀ hw : evr_hw_data P, ∃ accesses,
      (hw_support_evr_on_subscribe_change irq_set hw subscriptions).1.io.log =
        hw.io.log ++ accesses ∧
      data_buf_writes accesses =
        if event_list_test subscriptions EVRMA_EVENT_DBUF_DATA then
          if (hw.io.reg32 EVR_REG_IRQEN).getLsbD C_EVR_IRQFLAG_DATABUF then []
          else [DATA_BUF_START]
        else [DATA_BUF_STOP] := by
    intro hw
    obtain ⟨accesses, hlog, honly⟩ := informed_log hirq hw subscriptions
    refine ⟨accesses ++ subscribe_accesses (informed irq_set hw subscriptions).io
      (save_subscribed subscriptions hw.map_ram) subscriptions, ?_, ?_⟩
    · rw [subscribe_log, hlog, List.append_assoc]
    · rw [data_buf_writes_append, data_buf_writes_of_irq_reg honly, List.nil_append,
        data_buf_writes_subscribe, informed_irqen hirq _ _ (by decide)]
  intro hw₁ hw₂
  refine ⟨?_, ?_, hwrites hw, ?_, ?_, ?_⟩
  · intro e
    have hmap : hw₁.map_ram e = save_subscribed subscriptions hw.map_ram e :=
      congrFun (subscribe_map_ram irq_set hw subscriptions) e
    rw [hmap]
    refine ⟨?_, ?_, ?_, getLsbD_save_subscribed subscriptions hw.map_ram e⟩
    · rw [save_subscribed]
    · rw [save_subscribed]
    · rw [save_subscribed]
  · intro i
    rw [subscribe_irqen, getLsbD_combined_irq_enable]
    rfl
  · rw [subscribe_irqen, informed_again hirq, subscribe_irqen, combined_irq_enable_idem]
  · rw [subscribe_map_ram, subscribe_map_ram, save_subscribed_idem]
  · obtain ⟨accesses, hlog, hdata⟩ := hwrites hw₁
    refine ⟨accesses, hlog, ?_⟩
    rw [hdata]
    by_cases hdbuf : event_list_test subscriptions EVRMA_EVENT_DBUF_DATA = true
    · rw [if_pos hdbuf, subscribe_irqen, if_pos (getLsbD_combined_databuf _ hdbuf)]
      exact List.not_mem_nil
    · rw [if_neg hdbuf]
      decide

/-- `evrma_pci_irq_set` of a running card with a Lattice bridge whose handler can be registered;
the datum is `irq_enabled`. -/
def lattice_irq_set : evr_irq_set Bool := fun irq_enabled io enabled =>
  if enabled = irq_enabled then (enabled, io)
  else
    let (irqen, io) := evr_read32 io EVR_REG_IRQEN
    let io := evr_write32 io EVR_REG_IRQEN (put_bit irqen C_EVR_IRQ_PCIEE enabled)
    (enabled, (evr_read32 io EVR_REG_IRQEN).2)

theorem lattice_irq_set_ok : IrqSetOk lattice_irq_set where
  reg32 p io enabled reg hreg := by
    unfold lattice_irq_set
    split_ifs
    · rfl
    · have hne : reg ≠ EVR_REG_IRQEN := fun h => hreg (.inl h)
      dsimp only
      rw [evr_read32_reg32, evr_write32_reg32, Function.update_of_ne hne, evr_read32_reg32]
  reg16 p io enabled := by
    unfold lattice_irq_set
    split_ifs <;> rfl
  irqen p io enabled i hi := by
    unfold lattice_irq_set
    split_ifs
    · rfl
    · dsimp only
      rw [evr_read32_reg32, evr_write32_reg32, Function.update_self,
        getLsbD_put_bit _ (by decide), if_neg hi, evr_read32_val]
  log p io enabled := by
    unfold lattice_irq_set
    split_ifs
    · refine ⟨[], (List.append_nil io.log).symm, ?_⟩
      intro a ha
      cases ha
    · refine ⟨[.read32 EVR_REG_IRQEN,
        .write32 EVR_REG_IRQEN (put_bit (io.reg32 EVR_REG_IRQEN) C_EVR_IRQ_PCIEE enabled),
        .read32 EVR_REG_IRQEN], ?_, ?_⟩
      · simp [evr_read32, evr_write32]
      · intro a ha
        simp only [List.mem_cons, List.not_mem_nil, or_false] at ha
        obtain rfl | rfl | rfl := ha
        · trivial
        · exact .inl rfl
        · trivial
  again p io enabled io' _ := by
    have hdatum : (lattice_irq_set p io enabled).1 = enabled := by
      unfold lattice_irq_set
      split_ifs <;> rfl
    rw [hdatum, lattice_irq_set, if_pos rfl]

/-- What `slac_enable` or `slac_disable` writes. -/
def pcie_int_slac (enabled : Bool) : BitVec 32 := if enabled then 1 else 0

/-- `evrma_pci_irq_set` with a SLAC bridge, where the interrupt has a register of its own. -/
def slac_irq_set : evr_irq_set Bool := fun irq_enabled io enabled =>
  if enabled = irq_enabled then (enabled, io)
  else
    let io := evr_write32 io EVR_REG_PCIE_INT_SLAC (pcie_int_slac enabled)
    (enabled, (evr_read32 io EVR_REG_PCIE_INT_SLAC).2)

theorem slac_irq_set_ok : IrqSetOk slac_irq_set where
  reg32 p io enabled reg hreg := by
    unfold slac_irq_set
    split_ifs
    · rfl
    · have hne : reg ≠ EVR_REG_PCIE_INT_SLAC := fun h => hreg (.inr h)
      dsimp only
      rw [evr_read32_reg32, evr_write32_reg32, Function.update_of_ne hne]
  reg16 p io enabled := by
    unfold slac_irq_set
    split_ifs <;> rfl
  irqen p io enabled i _ := by
    have hne : EVR_REG_IRQEN ≠ EVR_REG_PCIE_INT_SLAC := by decide
    unfold slac_irq_set
    split_ifs
    · rfl
    · dsimp only
      rw [evr_read32_reg32, evr_write32_reg32, Function.update_of_ne hne]
  log p io enabled := by
    unfold slac_irq_set
    split_ifs
    · refine ⟨[], (List.append_nil io.log).symm, ?_⟩
      intro a ha
      cases ha
    · refine ⟨[.write32 EVR_REG_PCIE_INT_SLAC (pcie_int_slac enabled),
        .read32 EVR_REG_PCIE_INT_SLAC], ?_, ?_⟩
      · simp [evr_read32, evr_write32]
      · intro a ha
        simp only [List.mem_cons, List.not_mem_nil, or_false] at ha
        obtain rfl | rfl := ha
        · exact .inr rfl
        · trivial
  again p io enabled io' _ := by
    have hdatum : (slac_irq_set p io enabled).1 = enabled := by
      unfold slac_irq_set
      split_ifs <;> rfl
    rw [hdatum, slac_irq_set, if_pos rfl]

/-- A card of which nothing is enabled. -/
def lattice_card : evr_hw_data Bool where
  evr_type_data := adhoc_evr_type_slac_general
  fw_version := EVR_TYPE_ADHOC_SLAC_FW_VERSION
  map_ram _ := ⟨0, 0, 0, 0⟩
  io := ⟨fun _ => 0, fun _ => 0, []⟩
  irq := false

/-- With the first subscription to the DataBuf it is started, once. -/
theorem subscribe_change_spec_databuf :
    data_buf_writes (hw_support_evr_on_subscribe_change (some lattice_irq_set) lattice_card
      (event_list_add event_list_clear EVRMA_EVENT_DBUF_DATA)).1.io.log = [DATA_BUF_START] := by
  have hirq : ∀ f ∈ some lattice_irq_set, IrqSetOk f := by
    rintro f hf
    obtain rfl := Option.some.inj hf
    exact lattice_irq_set_ok
  obtain ⟨-, -, ⟨accesses, hlog, hdata⟩, -⟩ := subscribe_change_spec hirq lattice_card
    (event_list_add event_list_clear EVRMA_EVENT_DBUF_DATA)
  have htest : event_list_test (event_list_add event_list_clear EVRMA_EVENT_DBUF_DATA)
      EVRMA_EVENT_DBUF_DATA = true := by decide
  have hprev : ¬ (lattice_card.io.reg32 EVR_REG_IRQEN).getLsbD C_EVR_IRQFLAG_DATABUF = true := by
    decide
  rw [if_pos htest, if_neg hprev] at hdata
  rw [hlog, data_buf_writes_append, hdata]
  rfl

end evrma.evr
