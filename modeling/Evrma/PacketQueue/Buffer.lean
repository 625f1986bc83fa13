import Mathlib.Data.Nat.Bits
import Evrma.Errno
import Evrma.Lib.Ring

namespace evrma.packet_queue

open evrma.lib

def CBUF_EVENT_COUNT : Nat := 1024

instance : NeZero CBUF_EVENT_COUNT := ⟨by decide⟩

def CBUF_EVENT_ENTRY_DATA_LENGTH : Nat := 12

/-- The read event in case the queue overflowed. -/
abbrev MODAC_EVENT_READ_OVERFLOW : BitVec 16 := 0x8000

structure modac_circ_buf_entry where
  event : BitVec 16
  length : BitVec 16
  data : Vector (BitVec 8) CBUF_EVENT_ENTRY_DATA_LENGTH

/-- `cb_events.head` and `cb_events.tail` are only ever assigned masked values,
so they are slots of `buf`. -/
structure modac_circ_buf where
  head : Fin CBUF_EVENT_COUNT
  tail : Fin CBUF_EVENT_COUNT
  overflow_written : Bool
  buf : Fin CBUF_EVENT_COUNT → modac_circ_buf_entry

/-- The kernel's macro, on `unsigned long` operands. -/
def CIRC_CNT (head tail size : Nat) : Nat := (head + 2 ^ 64 - tail) % 2 ^ 64 &&& (size - 1)

def CIRC_SPACE (head tail size : Nat) : Nat := CIRC_CNT tail ((head + 1) % 2 ^ 64) size

/-- `(index + 1) & (CBUF_EVENT_COUNT - 1)` -/
def next_index (index : Fin CBUF_EVENT_COUNT) : Fin CBUF_EVENT_COUNT :=
  ⟨(index + 1) &&& (CBUF_EVENT_COUNT - 1), Nat.lt_of_le_of_lt Nat.and_le_right (by decide)⟩

/-- The allocation leaves `buf` with arbitrary contents, and `modac_cb_init`
does not touch it. -/
def modac_cb_init (cb : modac_circ_buf) : modac_circ_buf :=
  { cb with head := 0, tail := 0, overflow_written := false }

/-- The bytes `src` over the first bytes of `dst`. -/
def memcpy (dst : Vector (BitVec 8) CBUF_EVENT_ENTRY_DATA_LENGTH) (src : List (BitVec 8)) :
    Vector (BitVec 8) CBUF_EVENT_ENTRY_DATA_LENGTH :=
  Vector.ofFn fun i => src.getD i dst[i]

/-- The entry is written, or not, and then the head is advanced. -/
def modac_cb_put (cb : modac_circ_buf) (event : Int) (data : List (BitVec 8)) :
    modac_circ_buf × Int :=
  let head := cb.head
  if data.length > CBUF_EVENT_ENTRY_DATA_LENGTH then (cb, -ENOMEM)
  else
    let space := CIRC_SPACE head cb.tail CBUF_EVENT_COUNT
    if space ≥ 1 then
      let cb :=
        if space > 1 then
          { cb with
            overflow_written := false
            buf := Function.update cb.buf head
              { event := BitVec.ofInt 16 event
                length := BitVec.ofNat 16 data.length
                data := memcpy (cb.buf head).data data } }
        else if !cb.overflow_written then
          { cb with
            overflow_written := true
            buf := Function.update cb.buf head
              { cb.buf head with event := MODAC_EVENT_READ_OVERFLOW, length := 0 } }
        else cb
      ({ cb with head := next_index head }, 0)
    else (cb, -ENOMEM)

/-- What one successful `modac_cb_get` puts into the caller's buffer. The number
`n` counts the bytes that its two `memcpy` calls move; only the bytes that lie in
the entry are kept in `data`. -/
structure cb_read where
  event : BitVec 16
  data : List (BitVec 8)
  n : Nat
deriving DecidableEq

/-- The two `memcpy` calls of `modac_cb_get` on one entry. -/
def modac_circ_buf_entry.read (entry : modac_circ_buf_entry) : cb_read where
  event := entry.event
  data := entry.data.toList.take entry.length.toNat
  n := 2 + entry.length.toNat

/-- `none` stands for the returned 0. -/
def modac_cb_get (cb : modac_circ_buf) : modac_circ_buf × Option cb_read :=
  if CIRC_CNT cb.head cb.tail CBUF_EVENT_COUNT > 0 then
    let entry := cb.buf cb.tail
    ({ cb with tail := next_index cb.tail }, some entry.read)
  else (cb, none)

def modac_cb_available (cb : modac_circ_buf) : Bool :=
  CIRC_CNT cb.head cb.tail CBUF_EVENT_COUNT > 0

/-- What the reader gets if it empties the buffer now. -/
def modac_circ_buf.records (cb : modac_circ_buf) : List cb_read :=
  (window cb.buf cb.tail (used cb.head cb.tail)).map modac_circ_buf_entry.read

theorem CIRC_CNT_eq_used (head tail : Fin CBUF_EVENT_COUNT) :
    CIRC_CNT head tail CBUF_EVENT_COUNT = used head tail := by
  obtain ⟨h, hh⟩ := head
  obtain ⟨t, ht⟩ := tail
  simp only [CIRC_CNT, used, CBUF_EVENT_COUNT] at hh ht ⊢
  rw [Nat.and_two_pow_sub_one_eq_mod _ 10]
  omega

/-- One slot is always kept free, to tell a full buffer from an empty one. -/
theorem CIRC_SPACE_eq (head tail : Fin CBUF_EVENT_COUNT) :
    CIRC_SPACE head tail CBUF_EVENT_COUNT = CBUF_EVENT_COUNT - 1 - used head tail := by
  obtain ⟨h, hh⟩ := head
  obtain ⟨t, ht⟩ := tail
  simp only [CIRC_SPACE, CIRC_CNT, used, CBUF_EVENT_COUNT] at hh ht ⊢
  rw [Nat.and_two_pow_sub_one_eq_mod _ 10]
  omega

theorem next_index_eq_slot (index : Fin CBUF_EVENT_COUNT) : next_index index = slot index 1 := by
  ext
  rw [slot_val]
  exact Nat.and_two_pow_sub_one_eq_mod _ 10

@[simp]
theorem modac_circ_buf.records_length (cb : modac_circ_buf) :
    cb.records.length = used cb.head cb.tail := by
  simp [records]

/-- A record that fits the entry is read back as it was written. -/
theorem read_of_put (dst : Vector (BitVec 8) CBUF_EVENT_ENTRY_DATA_LENGTH) (event : BitVec 16)
    (data : List (BitVec 8)) (hlen : data.length ≤ CBUF_EVENT_ENTRY_DATA_LENGTH) :
    modac_circ_buf_entry.read
      { event := event, length := BitVec.ofNat 16 data.length, data := memcpy dst data } =
      { event := event, data := data, n := 2 + data.length } := by
  have hlen' : data.length ≤ 12 := hlen
  have hlength : (BitVec.ofNat 16 data.length).toNat = data.length := by
    rw [BitVec.toNat_ofNat]
    exact Nat.mod_eq_of_lt (by omega)
  have htake : (memcpy dst data).toList.take data.length = data := by
    apply List.ext_getElem
    · simp [hlen]
    · intro i h1 h2
      simp [memcpy, h2]
  simp only [modac_circ_buf_entry.read, hlength, htake]

end evrma.packet_queue
