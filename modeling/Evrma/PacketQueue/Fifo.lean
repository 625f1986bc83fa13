import Evrma.Lib.MarkedFifo
import Evrma.Lib.Run
import Evrma.PacketQueue.Buffer

namespace evrma.packet_queue

open evrma.lib

/-- The special record of an overflow, as a reader gets it. -/
def overflow_read : cb_read := { event := MODAC_EVENT_READ_OVERFLOW, data := [], n := 2 }

/-- With at least two free slots the event itself is written. -/
theorem modac_cb_put_eq_of_room (cb : modac_circ_buf) (event : Int) {data : List (BitVec 8)}
    (hlen : data.length ≤ CBUF_EVENT_ENTRY_DATA_LENGTH)
    (hroom : used cb.head cb.tail + 2 < CBUF_EVENT_COUNT) :
    modac_cb_put cb event data =
      ({ cb with
          head := next_index cb.head
          overflow_written := false
          buf := Function.update cb.buf cb.head
            { event := BitVec.ofInt 16 event
              length := BitVec.ofNat 16 data.length
              data := memcpy (cb.buf cb.head).data data } }, 0) := by
  have hspace : 1 < CBUF_EVENT_COUNT - 1 - used cb.head cb.tail := by
    omega
  simp only [modac_cb_put, CIRC_SPACE_eq, if_neg (Nat.not_lt.mpr hlen), hspace, if_true,
    if_pos (Nat.le_of_lt hspace), ge_iff_le, gt_iff_lt]

/-- With exactly one free slot and no overflow record written since the last own
record, the overflow record is written. -/
theorem modac_cb_put_eq_of_last_slot (cb : modac_circ_buf) (event : Int) {data : List (BitVec 8)}
    (hlen : data.length ≤ CBUF_EVENT_ENTRY_DATA_LENGTH)
    (hlast : used cb.head cb.tail + 2 = CBUF_EVENT_COUNT) (hflag : cb.overflow_written = false) :
    modac_cb_put cb event data =
      ({ cb with
          head := next_index cb.head
          overflow_written := true
          buf := Function.update cb.buf cb.head
            { cb.buf cb.head with event := MODAC_EVENT_READ_OVERFLOW, length := 0 } }, 0) := by
  have hspace : CBUF_EVENT_COUNT - 1 - used cb.head cb.tail = 1 := by
    omega
  simp only [modac_cb_put, CIRC_SPACE_eq, if_neg (Nat.not_lt.mpr hlen), hspace, hflag,
    ge_iff_le, gt_iff_lt, Nat.le_refl, Nat.lt_irrefl, if_true, if_false, Bool.not_false]

/-- With exactly one free slot and the flag set, only the head moves. -/
theorem modac_cb_put_eq_of_flag (cb : modac_circ_buf) (event : Int) {data : List (BitVec 8)}
    (hlen : data.length ≤ CBUF_EVENT_ENTRY_DATA_LENGTH)
    (hlast : used cb.head cb.tail + 2 = CBUF_EVENT_COUNT) (hflag : cb.overflow_written = true) :
    modac_cb_put cb event data = ({ cb with head := next_index cb.head }, 0) := by
  have hspace : CBUF_EVENT_COUNT - 1 - used cb.head cb.tail = 1 := by
    omega
  simp only [modac_cb_put, CIRC_SPACE_eq, if_neg (Nat.not_lt.mpr hlen), hspace, hflag,
    ge_iff_le, gt_iff_lt, Nat.le_refl, Nat.lt_irrefl, if_true, if_false, Bool.not_true,
    Bool.false_eq_true]

/-- The event becomes the last record. -/
theorem modac_cb_put_of_room (cb : modac_circ_buf) (event : Int) {data : List (BitVec 8)}
    (hlen : data.length ≤ CBUF_EVENT_ENTRY_DATA_LENGTH)
    (hroom : used cb.head cb.tail + 2 < CBUF_EVENT_COUNT) :
    (modac_cb_put cb event data).1.records =
        cb.records ++ [{ event := BitVec.ofInt 16 event, data, n := 2 + data.length }] ∧
      (modac_cb_put cb event data).1.overflow_written = false := by
  rw [modac_cb_put_eq_of_room cb event hlen hroom]
  refine ⟨?_, rfl⟩
  simp only [modac_circ_buf.records, next_index_eq_slot]
  rw [window_push cb.buf (by omega), List.map_append, List.map_singleton,
    read_of_put _ _ _ hlen]

/-- The overflow record becomes the last one. -/
theorem modac_cb_put_of_last_slot (cb : modac_circ_buf) (event : Int) {data : List (BitVec 8)}
    (hlen : data.length ≤ CBUF_EVENT_ENTRY_DATA_LENGTH)
    (hlast : used cb.head cb.tail + 2 = CBUF_EVENT_COUNT) (hflag : cb.overflow_written = false) :
    (modac_cb_put cb event data).1.records = cb.records ++ [overflow_read] ∧
      (modac_cb_put cb event data).1.overflow_written = true := by
  rw [modac_cb_put_eq_of_last_slot cb event hlen hlast hflag]
  refine ⟨?_, rfl⟩
  simp only [modac_circ_buf.records, next_index_eq_slot]
  rw [window_push cb.buf (by omega), List.map_append, List.map_singleton]
  simp [modac_circ_buf_entry.read, overflow_read]

/-- The head moves over a slot that nothing was written to. -/
theorem modac_cb_put_of_flag (cb : modac_circ_buf) (event : Int) {data : List (BitVec 8)}
    (hlen : data.length ≤ CBUF_EVENT_ENTRY_DATA_LENGTH)
    (hlast : used cb.head cb.tail + 2 = CBUF_EVENT_COUNT) (hflag : cb.overflow_written = true) :
    (modac_cb_put cb event data).1.records = cb.records ++ [(cb.buf cb.head).read] := by
  rw [modac_cb_put_eq_of_flag cb event hlen hlast hflag]
  simp only [modac_circ_buf.records, next_index_eq_slot]
  rw [used_advance_head (by omega), window_succ, slot_used, List.map_append, List.map_singleton]

theorem modac_cb_put_of_long (cb : modac_circ_buf) (event : Int) {data : List (BitVec 8)}
    (hlen : ¬ data.length ≤ CBUF_EVENT_ENTRY_DATA_LENGTH) :
    (modac_cb_put cb event data).1 = cb := by
  simp only [modac_cb_put, gt_iff_lt, if_pos (Nat.lt_of_not_le hlen)]

theorem modac_cb_put_of_full (cb : modac_circ_buf) (event : Int) (data : List (BitVec 8))
    (hfull : CBUF_EVENT_COUNT ≤ used cb.head cb.tail + 1) :
    (modac_cb_put cb event data).1 = cb := by
  have hspace : CBUF_EVENT_COUNT - 1 - used cb.head cb.tail = 0 := by omega
  simp [modac_cb_put, CIRC_SPACE_eq, hspace]

/-- Taking returns the first record and removes it; it returns nothing exactly
from an empty buffer. -/
theorem modac_cb_get_spec (cb : modac_circ_buf) :
    ((modac_cb_get cb).2 = cb.records.head?) ∧ (modac_cb_get cb).1.records = cb.records.tail ∧
      (modac_cb_get cb).1.overflow_written = cb.overflow_written := by
  by_cases hsome : 0 < used cb.head cb.tail
  · have hget : modac_cb_get cb =
        ({ cb with tail := next_index cb.tail }, some (cb.buf cb.tail).read) := by
      simp only [modac_cb_get, CIRC_CNT_eq_used, gt_iff_lt, hsome, if_true]
    have hpop := window_pop cb.buf hsome
    rw [hget]
    simp only [modac_circ_buf.records, next_index_eq_slot, hpop]
    simp
  · have hzero : used cb.head cb.tail = 0 := by omega
    have hnil : cb.records = [] := by
      apply List.eq_nil_of_length_eq_zero
      rw [modac_circ_buf.records_length, hzero]
    have hget : modac_cb_get cb = (cb, none) := by
      simp only [modac_cb_get, CIRC_CNT_eq_used, gt_iff_lt, hsome, if_false]
    simp [hget, hnil]

/-- One operation on the buffer. The callers keep the length of the data within
the entry. -/
inductive cb_op where
  | put (event : Int) (data : List (BitVec 8))
      (hlen : data.length ≤ CBUF_EVENT_ENTRY_DATA_LENGTH)
  | get

/-- The buffer together with everything its reader was given so far. -/
structure cb_state where
  cb : modac_circ_buf
  delivered : List cb_read

def cb_step (s : cb_state) : cb_op → cb_state
  | .put event data _ => { s with cb := (modac_cb_put s.cb event data).1 }
  | .get =>
    { cb := (modac_cb_get s.cb).1
      delivered := s.delivered ++ (modac_cb_get s.cb).2.toList }

/-- An event and its data, as far as the 16-bit field of the entry keeps them. -/
structure cb_event where
  event : BitVec 16
  data : List (BitVec 8)
  hlen : data.length ≤ CBUF_EVENT_ENTRY_DATA_LENGTH

/-- The queue that the comments of `modac_cb_put` describe. -/
def fifo_step (f : MarkedFifo cb_event) : cb_op → MarkedFifo cb_event
  | .put event data hlen =>
    f.put (CBUF_EVENT_COUNT - 1) { event := BitVec.ofInt 16 event, data, hlen }
  | .get => f.get

/-- An entry of the described queue as the reader of the buffer gets it. -/
def item_read : Item cb_event → cb_read
  | .own e => { event := e.event, data := e.data, n := 2 + e.data.length }
  | .overflow => overflow_read

/-- The buffer and the described queue side by side under one sequence of
operations, from `modac_cb_init` on memory with arbitrary contents. -/
def fifo_init (mem : modac_circ_buf) : cb_state × MarkedFifo cb_event :=
  ({ cb := modac_cb_init mem, delivered := [] }, MarkedFifo.empty)

def both_step (s : cb_state × MarkedFifo cb_event) (op : cb_op) :
    Option (cb_state × MarkedFifo cb_event) :=
  some (cb_step s.1 op, fifo_step s.2 op)

/-- The buffer holds what the queue holds, its reader was given what the queue
delivered, and no read moved more bytes than the caller's buffer has. -/
structure IsFifo (s : cb_state × MarkedFifo cb_event) : Prop where
  records : s.1.cb.records = s.2.pending.map item_read
  delivered : s.1.delivered = s.2.delivered.map item_read
  fits : ∀ r ∈ s.1.delivered, r.n ≤ 2 + CBUF_EVENT_ENTRY_DATA_LENGTH

/-- The operation is a put that finds exactly one free slot while the flag says
that the last record written was an overflow record. -/
def PutsOnFlag (cb : modac_circ_buf) (op : cb_op) : Prop :=
  CIRC_SPACE cb.head cb.tail CBUF_EVENT_COUNT = 1 ∧ cb.overflow_written = true ∧ op ≠ .get

/-- What relates the two sides: besides the contents, the flag says whether the
last entry ever appended is a mark. -/
structure FifoInv (s : cb_state × MarkedFifo cb_event) : Prop where
  valid : s.2.Valid
  isFifo : IsFifo s
  flag : s.1.cb.overflow_written = s.2.marked

theorem item_read_n_le (x : Item cb_event) :
    (item_read x).n ≤ 2 + CBUF_EVENT_ENTRY_DATA_LENGTH := by
  cases x with
  | own e =>
    have := e.hlen
    simp only [item_read]
    omega
  | overflow => simp [item_read, overflow_read]

theorem FifoInv.used_eq {s : cb_state × MarkedFifo cb_event} (hs : FifoInv s) :
    used s.1.cb.head s.1.cb.tail = s.2.pending.length := by
  rw [← modac_circ_buf.records_length, hs.isFifo.records, List.length_map]

theorem fifoInv_init (mem : modac_circ_buf) : FifoInv (fifo_init mem) := by
  refine ⟨Nat.le_refl _, ⟨?_, rfl, ?_⟩, rfl⟩
  · simp [fifo_init, modac_cb_init, modac_circ_buf.records, MarkedFifo.pending, MarkedFifo.empty]
  · simp [fifo_init]

/-- A put off the flagged case does on the buffer what it does on the queue. -/
theorem FifoInv.put {s : cb_state × MarkedFifo cb_event} (hs : FifoInv s) (event : Int)
    (data : List (BitVec 8)) (hlen : data.length ≤ CBUF_EVENT_ENTRY_DATA_LENGTH)
    (hgood : ¬ PutsOnFlag s.1.cb (.put event data hlen)) :
    FifoInv (cb_step s.1 (.put event data hlen), fifo_step s.2 (.put event data hlen)) := by
  obtain ⟨⟨cb, delivered⟩, f⟩ := s
  have hused := hs.used_eq
  have hvalid := hs.valid
  obtain ⟨hrecords, hdelivered, hfits⟩ := hs.isFifo
  have hflag := hs.flag
  dsimp only at hused hvalid hrecords hdelivered hfits hflag
  -- the queue is unchanged or has one more entry, and the buffer follows it
  have push : ∀ x : Item cb_event,
      (modac_cb_put cb event data).1.records = cb.records ++ [item_read x] →
      (modac_cb_put cb event data).1.overflow_written = (f.append x).marked →
      fifo_step f (.put event data hlen) = f.append x →
      FifoInv (cb_step ⟨cb, delivered⟩ (.put event data hlen),
        fifo_step f (.put event data hlen)) := by
    intro x hrec hfl hstep
    rw [hstep]
    refine ⟨MarkedFifo.append_valid hvalid x, ⟨?_, ?_, hfits⟩, hfl⟩
    · simp only [cb_step, hrec, hrecords, MarkedFifo.append_pending hvalid, List.map_append,
        List.map_singleton]
    · simp only [cb_step, hdelivered, MarkedFifo.append_delivered hvalid]
  rcases Nat.lt_trichotomy (used cb.head cb.tail + 2) CBUF_EVENT_COUNT with hroom | hlast | hfull
  · obtain ⟨hrec, hfl⟩ := modac_cb_put_of_room cb event hlen hroom
    refine push (.own { event := BitVec.ofInt 16 event, data, hlen }) hrec (by simp [hfl]) ?_
    exact f.put_of_room (by omega) _
  · have hspace : CIRC_SPACE cb.head cb.tail CBUF_EVENT_COUNT = 1 := by
      rw [CIRC_SPACE_eq]
      omega
    have hclear : cb.overflow_written = false := by
      by_contra hset
      exact hgood ⟨hspace, by simpa using hset, by simp⟩
    obtain ⟨hrec, hfl⟩ := modac_cb_put_of_last_slot cb event hlen hlast hclear
    refine push .overflow hrec (by simp [hfl]) ?_
    simp only [fifo_step, f.put_of_last_place (show _ = CBUF_EVENT_COUNT - 1 by omega),
      ← hflag, hclear, Bool.false_eq_true, if_false]
  · have hsame := modac_cb_put_of_full cb event data (by omega)
    have hstep : fifo_step f (.put event data hlen) = f := f.put_of_full (by omega) _
    simp only [cb_step, hsame, hstep]
    exact ⟨hvalid, ⟨hrecords, hdelivered, hfits⟩, hflag⟩

theorem FifoInv.get {s : cb_state × MarkedFifo cb_event} (hs : FifoInv s) :
    FifoInv (cb_step s.1 .get, fifo_step s.2 .get) := by
  obtain ⟨⟨cb, delivered⟩, f⟩ := s
  have hspec := modac_cb_get_spec cb
  have hvalid := hs.valid
  obtain ⟨hrecords, hdelivered, hfits⟩ := hs.isFifo
  have hflag := hs.flag
  simp only [cb_step, fifo_step]
  generalize modac_cb_get cb = got at hspec ⊢
  obtain ⟨cb', read⟩ := got
  obtain ⟨hread, hrest, hfl⟩ := hspec
  dsimp only at hvalid hrecords hdelivered hfits hflag hread hrest hfl ⊢
  cases hpending : f.pending with
  | nil =>
    have hget : f.get = f := by simp [MarkedFifo.get, hpending]
    rw [hpending, List.map_nil] at hrecords
    rw [hread, hrecords, hget]
    refine ⟨hvalid, ⟨?_, by simpa using hdelivered, by simpa using hfits⟩, by rw [hfl, hflag]⟩
    rw [hrest, hrecords, hpending]
    rfl
  | cons x rest =>
    obtain ⟨hpend, hdeliv⟩ := MarkedFifo.get_of_pending_cons hpending
    rw [hpending, List.map_cons] at hrecords
    rw [hread, hrecords]
    refine ⟨MarkedFifo.get_valid hvalid, ⟨?_, ?_, ?_⟩, ?_⟩
    · simp [hrest, hrecords, hpend]
    · simp [hdelivered, hdeliv]
    · intro r hr
      rcases List.mem_append.mp hr with hold | hnew
      · exact hfits r hold
      · simp only [List.head?_cons, Option.toList_some, List.mem_singleton] at hnew
        exact hnew ▸ item_read_n_le x
    · rw [hfl, hflag, MarkedFifo.get_marked]

/-- A put on the flagged case publishes one record more than the queue has. -/
theorem FifoInv.put_on_flag {s : cb_state × MarkedFifo cb_event} (hs : FifoInv s) {op : cb_op}
    (hbad : PutsOnFlag s.1.cb op) : ¬ IsFifo (cb_step s.1 op, fifo_step s.2 op) := by
  obtain ⟨hspace, hset, hop⟩ := hbad
  cases op with
  | get => exact absurd rfl hop
  | put event data hlen =>
    intro hfifo
    have hused := hs.used_eq
    rw [CIRC_SPACE_eq] at hspace
    have hlast : used s.1.cb.head s.1.cb.tail + 2 = CBUF_EVENT_COUNT := by
      omega
    have hmarked : s.2.marked = true := by rw [← hs.flag, hset]
    have hstep : fifo_step s.2 (.put event data hlen) = s.2 := by
      simp only [fifo_step, s.2.put_of_last_place (show _ = CBUF_EVENT_COUNT - 1 by omega),
        hmarked, if_true]
    have hrec := hfifo.records
    dsimp only at hrec
    simp only [hstep, cb_step, modac_cb_put_of_flag s.1.cb event hlen hlast hset] at hrec
    rw [hs.isFifo.records] at hrec
    have hlength := congrArg List.length hrec
    simp only [List.length_append, List.length_map, List.length_singleton] at hlength
    omega

theorem FifoInv.step {s t : cb_state × MarkedFifo cb_event} {op : cb_op} (hs : FifoInv s)
    (hgood : ¬ PutsOnFlag s.1.cb op) (hstep : both_step s op = some t) : FifoInv t := by
  simp only [both_step, Option.some.injEq] at hstep
  subst hstep
  cases op with
  | put event data hlen => exact hs.put event data hlen hgood
  | get => exact hs.get

/-- Under any sequence of puts and gets, from arbitrary memory, the buffer is the
described queue in every state exactly when no put meets a single free slot while
`overflow_written` is set. -/
theorem modac_cb_is_fifo_iff (mem : modac_circ_buf) (ops : List cb_op) :
    StatesMeet both_step IsFifo (fifo_init mem) ops ↔
      StepsMeet both_step (fun s op => ¬ PutsOnFlag s.1.cb op) (fifo_init mem) ops :=
  statesMeet_iff_stepsMeet (fun _ hs => hs.isFifo)
    (fun _ _ _ hs hgood hstep => hs.step hgood hstep)
    (fun s op t hs hbad hstep => by
      simp only [both_step, Option.some.injEq] at hstep
      subst hstep
      exact hs.put_on_flag (not_not.mp hbad))
    (fifoInv_init mem) ops

/-- While two places are free, puts go in as their own records. -/
theorem run_puts (mem : modac_circ_buf) (op : cb_op) (hop : op ≠ .get) (k : Nat)
    (hk : k + 2 ≤ CBUF_EVENT_COUNT) :
    ∃ s, run both_step (fifo_init mem) (List.replicate k op) = some s ∧
      FifoInv s ∧ s.2.pending.length = k ∧ s.2.marked = false := by
  induction k with
  | zero => exact ⟨_, rfl, fifoInv_init mem, rfl, rfl⟩
  | succ k ih =>
    obtain ⟨s, hrun, hs, hlength, hmarked⟩ := ih (by omega)
    have hgood : ¬ PutsOnFlag s.1.cb op := by
      simp [PutsOnFlag, hs.flag, hmarked]
    refine ⟨_, ?_, hs.step hgood rfl, ?_⟩
    · simp only [List.replicate_succ', run_append, hrun, Option.bind_some, run, both_step]
    · cases op with
      | get => exact absurd rfl hop
      | put event data hlen =>
        have hroom : s.2.pending.length + 2 ≤ CBUF_EVENT_COUNT - 1 := by omega
        have hput := s.2.put_of_room hroom { event := BitVec.ofInt 16 event, data, hlen }
        simp only [fifo_step, hput, MarkedFifo.append_pending hs.valid, List.length_append,
          List.length_singleton, hlength, MarkedFifo.append_marked, and_self]

/-- Memory as the allocator may hand it out. -/
def stale_mem : modac_circ_buf where
  head := 0
  tail := 0
  overflow_written := false
  buf := fun _ => { event := 0, length := 0xffff, data := Vector.replicate _ 0 }

/-- A put into the last place, a take and one more put: the second put finds the
flag still set and a single free slot. -/
theorem FifoInv.last_place {s : cb_state × MarkedFifo cb_event} (hs : FifoInv s) (event : Int)
    (hlength : s.2.pending.length + 2 = CBUF_EVENT_COUNT) (hmarked : s.2.marked = false) :
    ¬ StatesMeet both_step IsFifo s
      [.put event [] (Nat.zero_le _), .get, .put event [] (Nat.zero_le _)] := by
  have hgood : ¬ PutsOnFlag s.1.cb (.put event [] (Nat.zero_le _)) := by
    simp [PutsOnFlag, hs.flag, hmarked]
  have hput := hs.step hgood rfl
  have hget := hput.step (fun h => h.2.2 rfl) rfl
  intro hmeet
  refine hget.put_on_flag ?_ ((hmeet.2 _ rfl).2 _ rfl |>.2 _ rfl)
  have hlast : fifo_step s.2 (.put event [] (Nat.zero_le _)) = s.2.append .overflow := by
    have h := s.2.put_of_last_place (show _ = CBUF_EVENT_COUNT - 1 by omega)
      { event := BitVec.ofInt 16 event, data := [], hlen := Nat.zero_le _ }
    rw [hmarked] at h
    exact h
  obtain ⟨x, rest, hpending⟩ : ∃ x rest, (s.2.append .overflow).pending = x :: rest :=
    List.exists_cons_of_ne_nil (by simp [MarkedFifo.append_pending hs.valid])
  have hcount : rest.length = s.2.pending.length := by
    have h := congrArg List.length hpending
    simpa [MarkedFifo.append_pending hs.valid] using h.symm
  refine ⟨?_, ?_, by simp⟩
  · rw [CIRC_SPACE_eq, hget.used_eq]
    simp only [fifo_step] at hlast ⊢
    rw [hlast, (MarkedFifo.get_of_pending_cons hpending).1, hcount]
    omega
  · rw [hget.flag]
    simp only [fifo_step] at hlast ⊢
    rw [hlast, MarkedFifo.get_marked, MarkedFifo.append_marked]

/-- The puts fill the buffer up to its overflow record, one record is taken, and
the next put publishes the last slot, which nothing was ever written to. -/
theorem modac_cb_publishes_unwritten_slot :
    ¬ StatesMeet both_step IsFifo (fifo_init stale_mem)
      (List.replicate 1022 (cb_op.put 1 [] (Nat.zero_le _)) ++
        [.put 1 [] (Nat.zero_le _), .get, .put 1 [] (Nat.zero_le _)]) := by
  intro hmeet
  obtain ⟨s, hrun, hs, hlength, hmarked⟩ :=
    run_puts stale_mem (.put 1 [] (Nat.zero_le _)) (by simp) 1022 (by decide)
  exact hs.last_place 1 (by rw [hlength]; rfl) hmarked (hmeet.rest hrun)

end evrma.packet_queue
