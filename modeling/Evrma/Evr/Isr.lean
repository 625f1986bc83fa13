import Evrma.Evr.DataBuf
import Evrma.Evr.Subscribe
import Evrma.Lib.Feed
import Evrma.PacketQueue.Buffer

namespace evrma.evr

open evrma.lib evrma.packet_queue

abbrev EVR_REG_FIFO_SECONDS : Nat := 0x0070
abbrev EVR_REG_FIFO_TIMESTAMP : Nat := 0x0074
abbrev EVR_REG_FIFO_EVENT : Nat := 0x0078

abbrev EVR_FIFO_EVENT_LIMIT : Nat := 256

/-- A card in the state `D`. What a read returns and what an access leaves behind is up to
the card: some of its registers change by themselves, and some by being read. -/
structure irq_card (D : Type) where
  read32 : D → (reg : Nat) → BitVec 32 × D
  write32 : D → (reg : Nat) → (val : BitVec 32) → D

/-- A code of the event FIFO with its `evr_data_fifo_event`. -/
structure evr_fifo_event where
  event : BitVec 8
  seconds : BitVec 32
  timestamp : BitVec 32
deriving DecidableEq

/-- The bytes of a word, the low byte first. -/
def u32_bytes (val : BitVec 32) : List (BitVec 8) :=
  [val.setWidth 8, (val >>> 8).setWidth 8, (val >>> 16).setWidth 8, (val >>> 24).setWidth 8]

/-- `evr_data_fifo_event` -/
def evr_fifo_event.et_data (e : evr_fifo_event) : List (BitVec 8) :=
  u32_bytes e.seconds ++ u32_bytes e.timestamp

@[simp]
theorem evr_fifo_event.et_data_length (e : evr_fifo_event) : e.et_data.length = 8 := rfl

/-- What the handler hands to the MODAC core. The data always has room in a queue. -/
inductive isr_call where
  | put_event (event : Int) (data : List (BitVec 8))
      (hlength : data.length ≤ CBUF_EVENT_ENTRY_DATA_LENGTH)
  | notify (event : Int)
deriving DecidableEq

/-- An event of the FIFO is put with its data. -/
def evr_fifo_event.put (e : evr_fifo_event) : isr_call :=
  .put_event e.event.toNat e.et_data (by rw [e.et_data_length]; decide)

variable {D : Type}

/-- The loop over `slot->data`, from a word on. The bound is read from the slot each time. -/
def isr_copy_databuf (card : irq_card D) (d : D) (mem : mmap_words) (i : Nat) : D × mmap_words :=
  if i < (mem.word SLOT_SIZE32).toNat then
    let (val, d) := card.read32 d (EVR_REG_DATA_BUF + i <<< 2)
    isr_copy_databuf card d (mem.store (SLOT_DATA + i) val) (i + 1)
  else (d, mem)
termination_by (mem.word SLOT_SIZE32).toNat - i
decreasing_by
  rw [store_data_size32]
  omega

/-- One message of the data buffer is copied, and the reception is enabled again. -/
def isr_databuf (card : irq_card D) (d : D) (mem : mmap_words) : D × mmap_words :=
  let (databuf_sts, d) := card.read32 d EVR_REG_DATA_BUF_CTRL
  let (d, mem) :=
    if databuf_sts &&& bit C_EVR_DATABUF_CHECKSUM = 0 then
      let (d, mem) := isr_copy_databuf card d (mem.store SLOT_SIZE32 (databuf_size32 databuf_sts)) 0
      (d, mem.store SLOT_STATUS databuf_sts)
    else (d, (mem.store SLOT_SIZE32 0).store SLOT_STATUS databuf_sts)
  let (dbctl, d) := card.read32 d EVR_REG_DATA_BUF_CTRL
  (card.write32 d EVR_REG_DATA_BUF_CTRL (dbctl ||| bit C_EVR_DATABUF_LOAD), mem)

/-- A card without an influence of its own: its registers read back what was last written. -/
def io_card : irq_card io_state := ⟨evr_read32, evr_write32⟩

theorem isr_copy_databuf_io (io : io_state) (mem : mmap_words) (i : Nat) :
    isr_copy_databuf io_card io mem i = copy_databuf io mem i := by
  induction io, mem, i using copy_databuf.induct with
  | case1 io mem i hi val io' hread ih =>
    rw [isr_copy_databuf, copy_databuf, if_pos hi, if_pos hi]
    simp only [io_card, hread]
    exact ih
  | case2 io mem i hi => rw [isr_copy_databuf, copy_databuf, if_neg hi, if_neg hi]

/-- With such a card, the branch is the one whose stores were looked at before. -/
theorem isr_databuf_io (io : io_state) (mem : mmap_words) :
    isr_databuf io_card io mem = evr_isr_databuf io mem := by
  have hread : io_card.read32 = evr_read32 := rfl
  have hwrite : io_card.write32 = evr_write32 := rfl
  simp only [isr_databuf, evr_isr_databuf, grab_databuf, isr_copy_databuf_io, hread, hwrite]

/-- One event is read from the FIFO. -/
def isr_read_fifo (card : irq_card D) (d : D) : evr_fifo_event × D :=
  let (event, d) := card.read32 d EVR_REG_FIFO_EVENT
  let (seconds, d) := card.read32 d EVR_REG_FIFO_SECONDS
  let (timestamp, d) := card.read32 d EVR_REG_FIFO_TIMESTAMP
  (⟨(event &&& 0xFF).setWidth 8, seconds, timestamp⟩, d)

/-- `while(ilim --)`: the events read and, in the end, `ilim`. -/
def isr_fifo_loop (card : irq_card D) : (ilim : Nat) → D → List evr_fifo_event × Int × D
  | 0, d => ([], -1, d)
  | ilim + 1, d =>
    let (e, d) := isr_read_fifo card d
    let (stat, d) := card.read32 d EVR_REG_IRQFLAG
    if stat.getLsbD C_EVR_IRQFLAG_EVENT then
      let (events, left, d) := isr_fifo_loop card ilim d
      (e :: events, left, d)
    else ([e], ilim, d)

/-- What one interrupt does: to the card, to the memory of the data buffer, and to the MODAC
core. The kernel is warned when `max_read` is set. -/
structure isr_result (D : Type) where
  card : D
  mem : mmap_words
  calls : List isr_call
  max_read : Bool

/-- Everything is cleared but what has to be handled first. -/
def irq_flags_clear (irq_flags : BitVec 32) : BitVec 32 :=
  irq_flags &&& ~~~bit C_EVR_IRQFLAG_FIFOFULL &&& ~~~bit C_EVR_IRQFLAG_DATABUF &&&
    ~~~bit C_EVR_IRQFLAG_EVENT

/-- The events that are only notified, by their flags. -/
def isr_notify (irq_flags : BitVec 32) : List isr_call :=
  (if irq_flags.getLsbD C_EVR_IRQFLAG_FIFOFULL then [.notify EVRMA_EVENT_ERROR_LOST] else []) ++
  (if irq_flags.getLsbD C_EVR_IRQFLAG_PULSE then [.notify EVRMA_EVENT_DELAYED_IRQ] else []) ++
  (if irq_flags.getLsbD C_EVR_IRQFLAG_HEARTBEAT then [.notify EVRMA_EVENT_ERROR_HEART] else []) ++
  (if irq_flags.getLsbD C_EVR_IRQFLAG_VIOLATION then [.notify EVRMA_EVENT_ERROR_TAXI] else [])

/-- The flags but the ones that are handled later. -/
def isr_clear_flags (card : irq_card D) (irq_flags : BitVec 32) (d : D) : D :=
  if irq_flags_clear irq_flags ≠ 0 then card.write32 d EVR_REG_IRQFLAG (irq_flags_clear irq_flags)
  else d

/-- The branch for `EVR_IRQFLAG_DATABUF`. -/
def isr_databuf_branch (card : irq_card D) (irq_flags : BitVec 32) (d : D) (mem : mmap_words) :
    List isr_call × D × mmap_words :=
  if irq_flags.getLsbD C_EVR_IRQFLAG_DATABUF then
    let (d, mem) := isr_databuf card d mem
    let d := card.write32 d EVR_REG_IRQFLAG (bit C_EVR_IRQFLAG_DATABUF)
    ([.put_event EVRMA_EVENT_DBUF_DATA [] (by decide)], card.write32 d EVR_REG_IRQFLAG 0, mem)
  else ([], d, mem)

/-- The branch for `EVR_IRQFLAG_EVENT`: the events, and whether the limit was reached. -/
def isr_event_branch (card : irq_card D) (irq_flags : BitVec 32) (d : D) :
    List evr_fifo_event × Bool × D :=
  if irq_flags.getLsbD C_EVR_IRQFLAG_EVENT then
    let (events, ilim, d) := isr_fifo_loop card EVR_FIFO_EVENT_LIMIT d
    (events, ilim < 1, card.write32 d EVR_REG_IRQFLAG (bit C_EVR_IRQFLAG_EVENT))
  else ([], false, d)

/-- The branch for `EVR_IRQFLAG_FIFOFULL`: the FIFO is reset. -/
def isr_fifofull_branch (card : irq_card D) (irq_flags : BitVec 32) (d : D) : D :=
  if irq_flags.getLsbD C_EVR_IRQFLAG_FIFOFULL then
    let (ctrl, d) := card.read32 d EVR_REG_CTRL
    let d := card.write32 d EVR_REG_CTRL (ctrl ||| bit C_EVR_CTRL_RESET_EVENTFIFO)
    card.write32 d EVR_REG_IRQFLAG (bit C_EVR_IRQFLAG_FIFOFULL)
  else d

def hw_support_evr_isr (card : irq_card D) (d : D) (mem : mmap_words) : isr_result D :=
  let (irq_flags, d) := card.read32 d EVR_REG_IRQFLAG
  let d := isr_clear_flags card irq_flags d
  let (databuf_calls, d, mem) := isr_databuf_branch card irq_flags d mem
  let (events, max_read, d) := isr_event_branch card irq_flags d
  { card := isr_fifofull_branch card irq_flags d
    mem := mem
    calls := databuf_calls ++ events.map evr_fifo_event.put ++ isr_notify irq_flags
    max_read := max_read }

/-- A relation between the states of a card that the accesses of the handler stay in: it reads
any register, writes two of them, and sets a bit of the control register. -/
structure IsrFrame (card : irq_card D) (R : D → D → Prop) : Prop where
  refl : ∀ d, R d d
  trans : ∀ d d' d'', R d d' → R d' d'' → R d d''
  read : ∀ d reg, R d (card.read32 d reg).2
  write : ∀ d reg val, reg = EVR_REG_IRQFLAG ∨ reg = EVR_REG_DATA_BUF_CTRL →
    R d (card.write32 d reg val)
  reset : ∀ d, R d (card.write32 (card.read32 d EVR_REG_CTRL).2 EVR_REG_CTRL
    ((card.read32 d EVR_REG_CTRL).1 ||| bit C_EVR_CTRL_RESET_EVENTFIFO))

namespace IsrFrame

variable {card : irq_card D} {R : D → D → Prop} (h : IsrFrame card R)
include h

theorem copy_databuf (d : D) (mem : mmap_words) (i : Nat) :
    R d (isr_copy_databuf card d mem i).1 := by
  induction d, mem, i using isr_copy_databuf.induct card with
  | case1 d mem i hi val d' hread ih =>
    have hstep := h.read d (EVR_REG_DATA_BUF + i <<< 2)
    rw [isr_copy_databuf, if_pos hi]
    rw [hread] at hstep ⊢
    exact h.trans _ _ _ hstep ih
  | case2 d mem i hi =>
    rw [isr_copy_databuf, if_neg hi]
    exact h.refl d

theorem databuf (d : D) (mem : mmap_words) : R d (isr_databuf card d mem).1 := by
  have hagain : ∀ d, R d (card.write32 (card.read32 d EVR_REG_DATA_BUF_CTRL).2
      EVR_REG_DATA_BUF_CTRL
      ((card.read32 d EVR_REG_DATA_BUF_CTRL).1 ||| bit C_EVR_DATABUF_LOAD)) := fun d =>
    h.trans _ _ _ (h.read d _) (h.write _ _ _ (.inr rfl))
  simp only [isr_databuf]
  split_ifs
  · exact h.trans _ _ _ (h.trans _ _ _ (h.read d _) (h.copy_databuf _ _ 0)) (hagain _)
  · exact h.trans _ _ _ (h.read d _) (hagain _)

theorem fifo_loop (ilim : Nat) (d : D) : R d (isr_fifo_loop card ilim d).2.2 := by
  induction ilim generalizing d with
  | zero => exact h.refl d
  | succ ilim ih =>
    have hread : R d (card.read32 (isr_read_fifo card d).2 EVR_REG_IRQFLAG).2 := by
      simp only [isr_read_fifo]
      exact h.trans _ _ _ (h.trans _ _ _ (h.trans _ _ _ (h.read d _) (h.read _ _)) (h.read _ _))
        (h.read _ _)
    simp only [isr_fifo_loop]
    split_ifs
    · exact h.trans _ _ _ hread (ih _)
    · exact hread

/-- The whole handler stays in the relation. -/
theorem isr (d : D) (mem : mmap_words) : R d (hw_support_evr_isr card d mem).card := by
  have hclear : ∀ irq_flags d, R d (isr_clear_flags card irq_flags d) := by
    intro irq_flags d
    unfold isr_clear_flags
    split_ifs
    · exact h.write d _ _ (.inl rfl)
    · exact h.refl d
  have hdatabuf : ∀ irq_flags d, R d (isr_databuf_branch card irq_flags d mem).2.1 := by
    intro irq_flags d
    unfold isr_databuf_branch
    split_ifs
    · exact h.trans _ _ _ (h.trans _ _ _ (h.databuf d mem) (h.write _ _ _ (.inl rfl)))
        (h.write _ _ _ (.inl rfl))
    · exact h.refl d
  have hevent : ∀ irq_flags d, R d (isr_event_branch card irq_flags d).2.2 := by
    intro irq_flags d
    unfold isr_event_branch
    split_ifs
    · exact h.trans _ _ _ (h.fifo_loop _ d) (h.write _ _ _ (.inl rfl))
    · exact h.refl d
  have hfull : ∀ irq_flags d, R d (isr_fifofull_branch card irq_flags d) := by
    intro irq_flags d
    unfold isr_fifofull_branch
    split_ifs
    · exact h.trans _ _ _ (h.reset d) (h.write _ _ _ (.inl rfl))
    · exact h.refl d
  unfold hw_support_evr_isr
  exact h.trans _ _ _ (h.trans _ _ _ (h.trans _ _ _ (h.trans _ _ _ (h.read d _) (hclear _ _))
    (hdatabuf _ _)) (hevent _ _)) (hfull _ _)

end IsrFrame

end evrma.evr
