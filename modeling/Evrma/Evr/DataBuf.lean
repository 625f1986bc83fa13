import Evrma.Evr.Regs

namespace evrma.evr

abbrev EVR_REG_DATA_BUF : Nat := 0x0800

abbrev C_EVR_DATABUF_CHECKSUM : Nat := 13
abbrev C_EVR_DATABUF_RXSIZE : Nat := 0
abbrev C_EVR_DATABUF_RXSIZE_MASK : BitVec 32 := 0x00000FFF

/-- The words of `evr_data_buff_slot_data`, which is all there is in `vevr_mmap_data`. -/
abbrev SLOT_STATUS : Nat := 0
abbrev SLOT_SIZE32 : Nat := 1
abbrev SLOT_DATA : Nat := 2
abbrev SLOT_DATA_COUNT : Nat := 512
abbrev VEVR_MMAP_DATA_WORDS : Nat := SLOT_DATA + SLOT_DATA_COUNT

/-- The memory from `mmap_p` on in words, with the words written so far. What lies behind the
slot depends on how `mmap_p` was aligned in `mmap_mem`: the rest of the page, then the next
fields of `evr_hw_data`. -/
structure mmap_words where
  word : Nat → BitVec 32
  stores : List Nat

def mmap_words.store (mem : mmap_words) (w : Nat) (val : BitVec 32) : mmap_words :=
  { word := Function.update mem.word w val
    stores := mem.stores ++ [w] }

@[simp]
theorem store_word (mem : mmap_words) (w : Nat) (val : BitVec 32) :
    (mem.store w val).word = Function.update mem.word w val := rfl

@[simp]
theorem store_stores (mem : mmap_words) (w : Nat) (val : BitVec 32) :
    (mem.store w val).stores = mem.stores ++ [w] := rfl

/-- A word of the data is none of the size, wherever it lies. -/
theorem store_data_size32 (mem : mmap_words) (i : Nat) (val : BitVec 32) :
    (mem.store (SLOT_DATA + i) val).word SLOT_SIZE32 = mem.word SLOT_SIZE32 := by
  have hne : SLOT_SIZE32 ≠ SLOT_DATA + i := by
    simp only [SLOT_SIZE32, SLOT_DATA]
    omega
  rw [store_word, Function.update_of_ne hne]

/-- The loop over `slot->data`, from a word on. The bound is read from the slot each time. -/
def copy_databuf (io : io_state) (mem : mmap_words) (i : Nat) : io_state × mmap_words :=
  if i < (mem.word SLOT_SIZE32).toNat then
    let (val, io) := evr_read32 io (EVR_REG_DATA_BUF + i <<< 2)
    copy_databuf io (mem.store (SLOT_DATA + i) val) (i + 1)
  else (io, mem)
termination_by (mem.word SLOT_SIZE32).toNat - i
decreasing_by
  rw [store_data_size32]
  omega

/-- The number of words in a message, of which the device tells the bytes. -/
def databuf_size32 (databuf_sts : BitVec 32) : BitVec 32 :=
  ((databuf_sts >>> C_EVR_DATABUF_RXSIZE) &&& C_EVR_DATABUF_RXSIZE_MASK) >>> 2

/-- What is done with a message of which the status was read. -/
def grab_databuf (io : io_state) (mem : mmap_words) (databuf_sts : BitVec 32) :
    io_state × mmap_words :=
  if databuf_sts &&& bit C_EVR_DATABUF_CHECKSUM = 0 then
    let mem := mem.store SLOT_SIZE32 (databuf_size32 databuf_sts)
    let (io, mem) := copy_databuf io mem 0
    (io, mem.store SLOT_STATUS databuf_sts)
  else
    let mem := mem.store SLOT_SIZE32 0
    (io, mem.store SLOT_STATUS databuf_sts)

/-- The part of `hw_support_evr_isr` for `EVR_IRQFLAG_DATABUF`. -/
def evr_isr_databuf (io : io_state) (mem : mmap_words) : io_state × mmap_words :=
  let (databuf_sts, io) := evr_read32 io EVR_REG_DATA_BUF_CTRL
  let (io, mem) := grab_databuf io mem databuf_sts
  let (dbctl, io) := evr_read32 io EVR_REG_DATA_BUF_CTRL
  (evr_write32 io EVR_REG_DATA_BUF_CTRL (dbctl ||| bit C_EVR_DATABUF_LOAD), mem)

/-- Whether a message stayed in the slot. -/
structure databuf_inside (mem mem' : mmap_words) : Prop where
  copied : (mem'.stores.filter (SLOT_DATA ≤ ·)).length ≤ SLOT_DATA_COUNT
  size32 : (mem'.word SLOT_SIZE32).toNat ≤ SLOT_DATA_COUNT
  stores : ∀ w ∈ mem'.stores, w < VEVR_MMAP_DATA_WORDS
  frame : ∀ w, VEVR_MMAP_DATA_WORDS ≤ w → mem'.word w = mem.word w

/-- The loop writes the words up to the size in the slot, each of them once and in order. -/
theorem copy_databuf_stores (io : io_state) (mem : mmap_words) (i : Nat) :
    (copy_databuf io mem i).2.stores =
      mem.stores ++ List.range' (SLOT_DATA + i) ((mem.word SLOT_SIZE32).toNat - i) := by
  induction io, mem, i using copy_databuf.induct with
  | case1 io mem i hi val io' hread ih =>
    have hlen : (mem.word SLOT_SIZE32).toNat - i = (mem.word SLOT_SIZE32).toNat - (i + 1) + 1 := by
      omega
    rw [store_data_size32] at ih
    rw [copy_databuf, if_pos hi, hlen, List.range'_succ]
    simp only [hread]
    rw [ih, store_stores, List.append_assoc, List.singleton_append, Nat.add_assoc]
  | case2 io mem i hi =>
    rw [copy_databuf, if_neg hi, Nat.sub_eq_zero_of_le (Nat.not_lt.mp hi)]
    simp

/-- What the loop has put into a word, and which it left alone. -/
theorem copy_databuf_word (io : io_state) (mem : mmap_words) (i w : Nat) :
    (copy_databuf io mem i).2.word w =
      if SLOT_DATA + i ≤ w ∧ w < SLOT_DATA + (mem.word SLOT_SIZE32).toNat then
        io.reg32 (EVR_REG_DATA_BUF + (w - SLOT_DATA) <<< 2)
      else mem.word w := by
  induction io, mem, i using copy_databuf.induct with
  | case1 io mem i hi val io' hread ih =>
    have hval : val = io.reg32 (EVR_REG_DATA_BUF + i <<< 2) := (congrArg Prod.fst hread).symm
    have hreg : io'.reg32 = io.reg32 := (congrArg (·.2.reg32) hread).symm
    rw [store_data_size32, store_word, hreg] at ih
    rw [copy_databuf, if_pos hi]
    simp only [hread]
    rw [ih]
    rcases Nat.lt_trichotomy w (SLOT_DATA + i) with hw | rfl | hw
    · rw [if_neg (by omega), if_neg (by omega), Function.update_of_ne (by omega)]
    · rw [if_neg (by omega), if_pos ⟨Nat.le_refl _, by omega⟩, Function.update_self, hval,
        Nat.add_sub_cancel_left]
    · rw [Function.update_of_ne (by omega)]
      congr 1
      rw [eq_iff_iff]
      constructor <;> rintro ⟨_, hlt⟩ <;> exact ⟨by omega, hlt⟩
  | case2 io mem i hi =>
    rw [copy_databuf, if_neg hi, if_neg]
    omega

/-- The words that a message takes in the slot: none after a checksum error. -/
def databuf_words (databuf_sts : BitVec 32) : Nat :=
  if databuf_sts &&& bit C_EVR_DATABUF_CHECKSUM = 0 then (databuf_size32 databuf_sts).toNat else 0

theorem grab_databuf_stores (io : io_state) (mem : mmap_words) (sts : BitVec 32) :
    (grab_databuf io mem sts).2.stores =
      mem.stores ++ SLOT_SIZE32 :: List.range' SLOT_DATA (databuf_words sts) ++ [SLOT_STATUS] := by
  unfold grab_databuf databuf_words
  split
  · rw [store_stores, copy_databuf_stores, store_word, Function.update_self, store_stores]
    simp
  · simp

theorem grab_databuf_size32 (io : io_state) (mem : mmap_words) (sts : BitVec 32) :
    ((grab_databuf io mem sts).2.word SLOT_SIZE32).toNat = databuf_words sts := by
  have hne : SLOT_SIZE32 ≠ SLOT_STATUS := by decide
  unfold grab_databuf databuf_words
  split
  · rw [store_word, Function.update_of_ne hne, copy_databuf_word, store_word,
      Function.update_self, if_neg (by simp [SLOT_DATA, SLOT_SIZE32])]
  · rw [store_word, Function.update_of_ne hne, store_word, Function.update_self]
    rfl

/-- A word behind the data of the message keeps its value. -/
theorem grab_databuf_frame (io : io_state) (mem : mmap_words) (sts : BitVec 32) (w : Nat)
    (hw : SLOT_DATA + databuf_words sts ≤ w) :
    (grab_databuf io mem sts).2.word w = mem.word w := by
  have hstatus : w ≠ SLOT_STATUS := by
    simp only [SLOT_DATA, SLOT_STATUS] at hw ⊢
    omega
  have hsize : w ≠ SLOT_SIZE32 := by
    simp only [SLOT_DATA, SLOT_SIZE32] at hw ⊢
    omega
  unfold databuf_words at hw
  unfold grab_databuf
  split at hw
  · rw [if_pos ‹_›, store_word, Function.update_of_ne hstatus, copy_databuf_word, store_word,
      Function.update_self, if_neg (by omega), Function.update_of_ne hsize]
  · rw [if_neg ‹_›, store_word, Function.update_of_ne hstatus, store_word,
      Function.update_of_ne hsize]

/-- The whole branch leaves in memory what the copying of the message does. -/
theorem evr_isr_databuf_mem (io : io_state) (mem : mmap_words) :
    ∃ io', (evr_isr_databuf io mem).2 =
      (grab_databuf io' mem (io.reg32 EVR_REG_DATA_BUF_CTRL)).2 :=
  ⟨(evr_read32 io EVR_REG_DATA_BUF_CTRL).2, rfl⟩

/-- A message stays in the slot exactly when it has no more words than the slot. -/
theorem grab_databuf_inside_iff (io : io_state) (word : Nat → BitVec 32) (sts : BitVec 32) :
    databuf_inside ⟨word, []⟩ (grab_databuf io ⟨word, []⟩ sts).2 ↔
      databuf_words sts ≤ SLOT_DATA_COUNT := by
  constructor
  · intro h
    rw [← grab_databuf_size32 io ⟨word, []⟩ sts]
    exact h.size32
  · intro h
    refine ⟨?_, ?_, ?_, ?_⟩
    · rw [grab_databuf_stores, List.nil_append, List.filter_append,
        List.filter_cons_of_neg (by simp), List.filter_cons_of_neg (by simp), List.filter_nil,
        List.append_nil]
      calc
        _ ≤ (List.range' SLOT_DATA (databuf_words sts)).length := List.length_filter_le _ _
        _ = databuf_words sts := List.length_range'
        _ ≤ SLOT_DATA_COUNT := h
    · rw [grab_databuf_size32]
      exact h
    · intro w hw
      rw [grab_databuf_stores, List.nil_append, List.mem_append, List.mem_cons,
        List.mem_range'_1, List.mem_singleton] at hw
      simp only [SLOT_SIZE32, SLOT_STATUS, SLOT_DATA, SLOT_DATA_COUNT, VEVR_MMAP_DATA_WORDS]
        at hw h ⊢
      omega
    · intro w hw
      apply grab_databuf_frame
      simp only [SLOT_DATA, SLOT_DATA_COUNT, VEVR_MMAP_DATA_WORDS] at hw h ⊢
      omega

/-- The number of words of a message, from the field of its status. -/
theorem databuf_size32_toNat (sts : BitVec 32) :
    (databuf_size32 sts).toNat = (sts &&& C_EVR_DATABUF_RXSIZE_MASK).toNat / 4 := by
  rw [databuf_size32, BitVec.ushiftRight_zero, BitVec.toNat_ushiftRight, Nat.shiftRight_eq_div_pow]

/-- A message stays in the slot exactly when its checksum is wrong or it has less than 2052
bytes; the field for the size goes up to 4095. -/
theorem databuf_inside_iff (io : io_state) (word : Nat → BitVec 32) :
    databuf_inside ⟨word, []⟩ (evr_isr_databuf io ⟨word, []⟩).2 ↔
      io.reg32 EVR_REG_DATA_BUF_CTRL &&& bit C_EVR_DATABUF_CHECKSUM ≠ 0 ∨
        (io.reg32 EVR_REG_DATA_BUF_CTRL &&& C_EVR_DATABUF_RXSIZE_MASK).toNat < 2052 := by
  obtain ⟨io', hmem⟩ := evr_isr_databuf_mem io ⟨word, []⟩
  rw [hmem, grab_databuf_inside_iff, databuf_words]
  split
  next hsum =>
    rw [databuf_size32_toNat]
    simp only [hsum, SLOT_DATA_COUNT, ne_eq, not_true, false_or]
    omega
  next hsum =>
    exact iff_of_true (Nat.zero_le _) (.inl hsum)

/-- The largest size there is, in the status of a message without an error. -/
def io_longest : io_state := ⟨fun _ => 0x0FFF, fun _ => 0, []⟩

/-- This message writes 1023 words to the 512 words of the slot. -/
theorem databuf_not_inside :
    ¬ ∀ (io : io_state) (word : Nat → BitVec 32),
      databuf_inside ⟨word, []⟩ (evr_isr_databuf io ⟨word, []⟩).2 := by
  intro hall
  have hsize := (hall io_longest (fun _ => 0)).size32
  obtain ⟨io', hmem⟩ := evr_isr_databuf_mem io_longest ⟨fun _ => 0, []⟩
  have hwords : databuf_words (io_longest.reg32 EVR_REG_DATA_BUF_CTRL) = 1023 := by decide
  rw [hmem, grab_databuf_size32, hwords] at hsize
  revert hsize
  decide

end evrma.evr
