import Evrma.Lib.Run
import Evrma.PacketQueue.Buffer

namespace evrma.packet_queue

open evrma.lib

/-- Where `modac_cb_put` stands, with what it has read. After the tail is read and there
is room the entry is going to be written. -/
inductive put_progress where
  | idle
  | head_read (event : Int) (data : List (BitVec 8)) (head : Fin CBUF_EVENT_COUNT)
  | tail_read (event : Int) (data : List (BitVec 8)) (head tail : Fin CBUF_EVENT_COUNT)
  | written (head : Fin CBUF_EVENT_COUNT)

/-- Where `modac_cb_get` stands. After the tail is read and there is a record the entry
is going to be copied. -/
inductive get_progress where
  | idle
  | head_read (head : Fin CBUF_EVENT_COUNT)
  | tail_read (head tail : Fin CBUF_EVENT_COUNT)
  | copied (tail : Fin CBUF_EVENT_COUNT) (read : cb_read)

/-- The buffer with both sides at work. The producers take turns under `lock_general`, and so do the
readers under `cb_reader_lock`, but a producer and a reader are never kept apart: each works on what
it last read of the other's index. `published` and `consumed` count how often the
head and the tail were advanced. -/
structure ring_state where
  cb : modac_circ_buf
  producer : put_progress
  consumer : get_progress
  published : Nat
  consumed : Nat
  delivered : List cb_read

inductive ring_op where
  | put_read_head (event : Int) (data : List (BitVec 8))
  | put_read_tail
  | put_write_entry
  | put_advance_head
  | get_read_head
  | get_read_tail
  | get_copy_entry
  | get_advance_tail

/-- The entry that a put with this head and tail leaves at the head. -/
def write_entry (cb : modac_circ_buf) (event : Int) (data : List (BitVec 8))
    (head tail : Fin CBUF_EVENT_COUNT) : modac_circ_buf :=
  if CIRC_SPACE head tail CBUF_EVENT_COUNT > 1 then
    { cb with
      overflow_written := false
      buf := Function.update cb.buf head
        { event := BitVec.ofInt 16 event
          length := BitVec.ofNat 16 data.length
          data := memcpy (cb.buf head).data data } }
  else if !cb.overflow_written then
    { cb with
      overflow_written := true
      buf := Function.update cb.buf head
        { cb.buf head with event := MODAC_EVENT_READ_OVERFLOW, length := 0 } }
  else cb

/-- One step of one side; the other side may be anywhere. -/
def ring_step (s : ring_state) : ring_op → Option ring_state
  | .put_read_head event data =>
    match s.producer with
    | .idle => some { s with producer := .head_read event data s.cb.head }
    | _ => none
  | .put_read_tail =>
    match s.producer with
    | .head_read event data head =>
      if data.length > CBUF_EVENT_ENTRY_DATA_LENGTH then some { s with producer := .idle }
      else if CIRC_SPACE head s.cb.tail CBUF_EVENT_COUNT ≥ 1 then
        some { s with producer := .tail_read event data head s.cb.tail }
      else some { s with producer := .idle }
    | _ => none
  | .put_write_entry =>
    match s.producer with
    | .tail_read event data head tail =>
      some { s with
        cb := write_entry s.cb event data head tail
        producer := .written head }
    | _ => none
  | .put_advance_head =>
    match s.producer with
    | .written head =>
      some { s with
        cb := { s.cb with head := next_index head }
        producer := .idle
        published := s.published + 1 }
    | _ => none
  | .get_read_head =>
    match s.consumer with
    | .idle => some { s with consumer := .head_read s.cb.head }
    | _ => none
  | .get_read_tail =>
    match s.consumer with
    | .head_read head =>
      if CIRC_CNT head s.cb.tail CBUF_EVENT_COUNT > 0 then
        some { s with consumer := .tail_read head s.cb.tail }
      else some { s with consumer := .idle }
    | _ => none
  | .get_copy_entry =>
    match s.consumer with
    | .tail_read _ tail => some { s with consumer := .copied tail (s.cb.buf tail).read }
    | _ => none
  | .get_advance_tail =>
    match s.consumer with
    | .copied tail read =>
      some { s with
        cb := { s.cb with tail := next_index tail }
        consumer := .idle
        consumed := s.consumed + 1
        delivered := s.delivered ++ [read] }
    | _ => none

def ring_init (mem : modac_circ_buf) : ring_state where
  cb := modac_cb_init mem
  producer := .idle
  consumer := .idle
  published := 0
  consumed := 0
  delivered := []

/-- The entry is written, and then the head is advanced. -/
theorem modac_cb_put_eq {cb : modac_circ_buf} (event : Int) {data : List (BitVec 8)}
    (hlength : ¬ data.length > CBUF_EVENT_ENTRY_DATA_LENGTH)
    (hspace : CIRC_SPACE cb.head cb.tail CBUF_EVENT_COUNT ≥ 1) :
    modac_cb_put cb event data =
      ({ write_entry cb event data cb.head cb.tail with head := next_index cb.head }, 0) := by
  unfold modac_cb_put write_entry
  rw [if_neg hlength]
  exact if_pos hspace

theorem modac_cb_put_error {cb : modac_circ_buf} {event : Int} {data : List (BitVec 8)}
    (h : data.length > CBUF_EVENT_ENTRY_DATA_LENGTH ∨
      ¬ CIRC_SPACE cb.head cb.tail CBUF_EVENT_COUNT ≥ 1) :
    modac_cb_put cb event data = (cb, -ENOMEM) := by
  unfold modac_cb_put
  by_cases hlength : data.length > CBUF_EVENT_ENTRY_DATA_LENGTH
  · exact if_pos hlength
  · rw [if_neg hlength]
    exact if_neg (h.resolve_left hlength)

/-- A put that is not interrupted is `modac_cb_put`. -/
theorem put_steps {s : ring_state} (hidle : s.producer = .idle) (event : Int)
    (data : List (BitVec 8)) :
    (run ring_step s [.put_read_head event data, .put_read_tail] = some s ∧
      (modac_cb_put s.cb event data).1 = s.cb) ∨
    run ring_step s [.put_read_head event data, .put_read_tail, .put_write_entry,
        .put_advance_head] =
      some { s with
        cb := (modac_cb_put s.cb event data).1
        published := s.published + 1 } := by
  obtain ⟨cb, producer, consumer, published, consumed, delivered⟩ := s
  obtain rfl : producer = .idle := hidle
  by_cases hlength : data.length > CBUF_EVENT_ENTRY_DATA_LENGTH
  · refine .inl ⟨?_, congrArg Prod.fst (modac_cb_put_error (.inl hlength))⟩
    simp only [run, ring_step, Option.bind_some, if_pos hlength]
  · by_cases hspace : CIRC_SPACE cb.head cb.tail CBUF_EVENT_COUNT ≥ 1
    · right
      rw [modac_cb_put_eq event hlength hspace]
      simp only [run, ring_step, Option.bind_some, if_neg hlength, if_pos hspace]
    · refine .inl ⟨?_, congrArg Prod.fst (modac_cb_put_error (.inr hspace))⟩
      simp only [run, ring_step, Option.bind_some, if_neg hlength, if_neg hspace]

theorem modac_cb_get_eq {cb : modac_circ_buf}
    (hcount : CIRC_CNT cb.head cb.tail CBUF_EVENT_COUNT > 0) :
    modac_cb_get cb = ({ cb with tail := next_index cb.tail }, some (cb.buf cb.tail).read) := by
  unfold modac_cb_get
  exact if_pos hcount

theorem modac_cb_get_none {cb : modac_circ_buf}
    (hcount : ¬ CIRC_CNT cb.head cb.tail CBUF_EVENT_COUNT > 0) :
    modac_cb_get cb = (cb, none) := by
  unfold modac_cb_get
  exact if_neg hcount

/-- A get that is not interrupted is `modac_cb_get`. -/
theorem get_steps {s : ring_state} (hidle : s.consumer = .idle) :
    (run ring_step s [.get_read_head, .get_read_tail] = some s ∧ modac_cb_get s.cb = (s.cb, none)) ∨
    ∃ cb read, modac_cb_get s.cb = (cb, some read) ∧
      run ring_step s [.get_read_head, .get_read_tail, .get_copy_entry, .get_advance_tail] =
        some { s with
          cb := cb
          consumer := .idle
          consumed := s.consumed + 1
          delivered := s.delivered ++ [read] } := by
  obtain ⟨cb, producer, consumer, published, consumed, delivered⟩ := s
  obtain rfl : consumer = .idle := hidle
  by_cases hcount : CIRC_CNT cb.head cb.tail CBUF_EVENT_COUNT > 0
  · right
    refine ⟨{ cb with tail := next_index cb.tail }, (cb.buf cb.tail).read, modac_cb_get_eq hcount, ?_⟩
    exact run_cons_eq_some.mpr ⟨_, rfl, run_cons_eq_some.mpr ⟨_, if_pos hcount, rfl⟩⟩
  · refine .inl ⟨?_, modac_cb_get_none hcount⟩
    exact run_cons_eq_some.mpr ⟨_, rfl, run_cons_eq_some.mpr ⟨_, if_neg hcount, rfl⟩⟩

/-- The slot that the producer is writing, or has written and not published yet. -/
def put_progress.writes : put_progress → Option (Fin CBUF_EVENT_COUNT)
  | .tail_read _ _ head _ => some head
  | .written head => some head
  | _ => none

/-- The slot that the consumer may be copying. -/
def get_progress.copies : get_progress → Option (Fin CBUF_EVENT_COUNT)
  | .tail_read _ tail => some tail
  | .copied tail _ => some tail
  | _ => none

/-- The two sides are at different slots, what is copied has been published before, and
the number of pending records is the distance of the two indices. -/
structure RingSafe (s : ring_state) : Prop where
  apart : ∀ head tail, s.producer.writes = some head → s.consumer.copies = some tail → head ≠ tail
  copied_published : ∀ tail, s.consumer.copies = some tail →
    tail = slot 0 s.consumed ∧ s.consumed < s.published
  pending : s.consumed ≤ s.published ∧ used s.cb.head s.cb.tail = s.published - s.consumed
  pending_le : s.published - s.consumed ≤ CBUF_EVENT_COUNT - 1

/-- No step turns a full buffer into an empty one. -/
def NotFullToEmpty (s : ring_state) (a : ring_op) : Prop :=
  ∀ t, ring_step s a = some t → used s.cb.head s.cb.tail = CBUF_EVENT_COUNT - 1 →
    used t.cb.head t.cb.tail ≠ 0

/-- What the producer has read, against the true indices: the tail may have moved on. -/
def ProducerSees (published consumed : Nat) : put_progress → Prop
  | .idle => True
  | .head_read _ _ head => head = slot 0 published
  | .tail_read _ _ head tail => head = slot 0 published ∧
    ∃ seen, seen ≤ consumed ∧ tail = slot 0 seen ∧ published + 1 < seen + CBUF_EVENT_COUNT
  | .written head => head = slot 0 published ∧ published + 1 < consumed + CBUF_EVENT_COUNT

/-- What the consumer has read: the head may have moved on. -/
def ConsumerSees (published consumed : Nat) : get_progress → Prop
  | .idle => True
  | .head_read head => ∃ seen, consumed ≤ seen ∧ seen ≤ published ∧ head = slot 0 seen
  | .tail_read _ tail => tail = slot 0 consumed ∧ consumed < published
  | .copied tail _ => tail = slot 0 consumed ∧ consumed < published

structure RingInv (s : ring_state) : Prop where
  head : s.cb.head = slot 0 s.published
  tail : s.cb.tail = slot 0 s.consumed
  le : s.consumed ≤ s.published
  room : s.published < s.consumed + CBUF_EVENT_COUNT
  producer : ProducerSees s.published s.consumed s.producer
  consumer : ConsumerSees s.published s.consumed s.consumer

/-- The distance of two slots by their numbers. -/
theorem used_slot_slot {h t : Nat} (hle : t ≤ h) (hlt : h < t + CBUF_EVENT_COUNT) :
    used (slot (0 : Fin CBUF_EVENT_COUNT) h) (slot 0 t) = h - t := by
  have hslot : slot (0 : Fin CBUF_EVENT_COUNT) h = slot (slot 0 t) (h - t) := by
    rw [slot_slot]
    congr 1
    omega
  rw [hslot, used_slot _ (by omega)]

theorem slot_ne_slot {h t : Nat} (hlt : t < h) (hroom : h < t + CBUF_EVENT_COUNT) :
    slot (0 : Fin CBUF_EVENT_COUNT) h ≠ slot 0 t := by
  intro heq
  have hused := used_slot_slot (Nat.le_of_lt hlt) hroom
  rw [heq, used_self] at hused
  omega

theorem next_index_slot (k : Nat) :
    next_index (slot (0 : Fin CBUF_EVENT_COUNT) k) = slot 0 (k + 1) := by
  rw [next_index_eq_slot, slot_slot]

/-- The consumer's move only gives the producer more room. -/
theorem ProducerSees.consume {published consumed : Nat} {producer : put_progress}
    (h : ProducerSees published consumed producer) :
    ProducerSees published (consumed + 1) producer := by
  cases producer with
  | idle => trivial
  | head_read event data head => exact h
  | tail_read event data head tail =>
    obtain ⟨hhead, seen, hseen, htail, hroom⟩ := h
    exact ⟨hhead, seen, Nat.le_succ_of_le hseen, htail, hroom⟩
  | written head =>
    obtain ⟨hhead, hroom⟩ := h
    refine ⟨hhead, ?_⟩
    omega

/-- The producer's move only gives the consumer more records. -/
theorem ConsumerSees.publish {published consumed : Nat} {consumer : get_progress}
    (h : ConsumerSees published consumed consumer) :
    ConsumerSees (published + 1) consumed consumer := by
  cases consumer with
  | idle => trivial
  | head_read head =>
    obtain ⟨seen, hle, hseen, hhead⟩ := h
    exact ⟨seen, hle, Nat.le_succ_of_le hseen, hhead⟩
  | tail_read head tail =>
    obtain ⟨htail, hlt⟩ := h
    exact ⟨htail, Nat.lt_succ_of_lt hlt⟩
  | copied tail read =>
    obtain ⟨htail, hlt⟩ := h
    exact ⟨htail, Nat.lt_succ_of_lt hlt⟩

theorem write_entry_head (cb : modac_circ_buf) (event : Int) (data : List (BitVec 8))
    (head tail : Fin CBUF_EVENT_COUNT) : (write_entry cb event data head tail).head = cb.head := by
  unfold write_entry
  split_ifs <;> rfl

theorem write_entry_tail (cb : modac_circ_buf) (event : Int) (data : List (BitVec 8))
    (head tail : Fin CBUF_EVENT_COUNT) : (write_entry cb event data head tail).tail = cb.tail := by
  unfold write_entry
  split_ifs <;> rfl

theorem ringInv_init (mem : modac_circ_buf) : RingInv (ring_init mem) where
  head := (slot_zero 0).symm
  tail := (slot_zero 0).symm
  le := Nat.le_refl 0
  room := by
    have hpos := Nat.pos_of_ne_zero (NeZero.ne CBUF_EVENT_COUNT)
    simp only [ring_init]
    omega
  producer := trivial
  consumer := trivial

theorem RingInv.step {s t : ring_state} {a : ring_op} (h : RingInv s)
    (hstep : ring_step s a = some t) : RingInv t := by
  obtain ⟨cb, producer, consumer, published, consumed, delivered⟩ := s
  obtain ⟨hhead, htail, hle, hroom, hproducer, hconsumer⟩ := h
  dsimp only at hhead htail hle hroom hproducer hconsumer
  cases a with
  | put_read_head event data =>
    cases producer with
    | idle =>
      obtain rfl := Option.some.inj hstep
      exact ⟨hhead, htail, hle, hroom, hhead, hconsumer⟩
    | head_read | tail_read | written => cases hstep
  | put_read_tail =>
    cases producer with
    | head_read event data head =>
      simp only [ring_step] at hstep
      split_ifs at hstep with hlength hspace
      · obtain rfl := Option.some.inj hstep
        exact ⟨hhead, htail, hle, hroom, trivial, hconsumer⟩
      · obtain rfl := Option.some.inj hstep
        refine ⟨hhead, htail, hle, hroom, ⟨hproducer, consumed, Nat.le_refl _, htail, ?_⟩, hconsumer⟩
        have hsees : head = slot 0 published := hproducer
        rw [CIRC_SPACE_eq, hsees, htail, used_slot_slot hle hroom] at hspace
        dsimp only
        omega
      · obtain rfl := Option.some.inj hstep
        exact ⟨hhead, htail, hle, hroom, trivial, hconsumer⟩
    | idle | tail_read | written => cases hstep
  | put_write_entry =>
    cases producer with
    | tail_read event data head tail =>
      obtain ⟨hsees, seen, hseen, -, hfree⟩ := hproducer
      obtain rfl := Option.some.inj hstep
      refine ⟨?_, ?_, hle, hroom, ⟨hsees, ?_⟩, hconsumer⟩
      · rw [write_entry_head]
        exact hhead
      · rw [write_entry_tail]
        exact htail
      · dsimp only
        omega
    | idle | head_read | written => cases hstep
  | put_advance_head =>
    cases producer with
    | written head =>
      obtain ⟨hsees, hfree⟩ := hproducer
      obtain rfl := Option.some.inj hstep
      refine ⟨?_, htail, ?_, hfree, trivial, hconsumer.publish⟩
      · dsimp only
        rw [hsees, next_index_slot]
      · exact Nat.le_succ_of_le hle
    | idle | head_read | tail_read => cases hstep
  | get_read_head =>
    cases consumer with
    | idle =>
      obtain rfl := Option.some.inj hstep
      exact ⟨hhead, htail, hle, hroom, hproducer, published, hle, Nat.le_refl _, hhead⟩
    | head_read | tail_read | copied => cases hstep
  | get_read_tail =>
    cases consumer with
    | head_read head =>
      obtain ⟨seen, hold, hseen, hsees⟩ := hconsumer
      simp only [ring_step] at hstep
      split_ifs at hstep with hcount
      · obtain rfl := Option.some.inj hstep
        rw [CIRC_CNT_eq_used, hsees, htail, used_slot_slot hold (by omega)] at hcount
        refine ⟨hhead, htail, hle, hroom, hproducer, htail, ?_⟩
        dsimp only
        omega
      · obtain rfl := Option.some.inj hstep
        exact ⟨hhead, htail, hle, hroom, hproducer, trivial⟩
    | idle | tail_read | copied => cases hstep
  | get_copy_entry =>
    cases consumer with
    | tail_read head tail =>
      obtain rfl := Option.some.inj hstep
      exact ⟨hhead, htail, hle, hroom, hproducer, hconsumer⟩
    | idle | head_read | copied => cases hstep
  | get_advance_tail =>
    cases consumer with
    | copied tail read =>
      obtain ⟨hsees, hlt⟩ := hconsumer
      obtain rfl := Option.some.inj hstep
      refine ⟨hhead, ?_, hlt, ?_, hproducer.consume, trivial⟩
      · dsimp only
        rw [hsees, next_index_slot]
      · dsimp only
        omega
    | idle | head_read | tail_read => cases hstep

theorem RingInv.used_eq {s : ring_state} (h : RingInv s) :
    used s.cb.head s.cb.tail = s.published - s.consumed := by
  rw [h.head, h.tail, used_slot_slot h.le h.room]

/-- What the producer writes is the free slot after the pending ones. -/
theorem ProducerSees.writes {published consumed : Nat} {producer : put_progress}
    (h : ProducerSees published consumed producer) {head : Fin CBUF_EVENT_COUNT}
    (hwrites : producer.writes = some head) :
    head = slot 0 published ∧ published + 1 < consumed + CBUF_EVENT_COUNT := by
  cases producer with
  | idle | head_read => cases hwrites
  | tail_read event data head' tail =>
    obtain ⟨hsees, seen, hseen, -, hfree⟩ := h
    obtain rfl := Option.some.inj hwrites
    refine ⟨hsees, ?_⟩
    omega
  | written head' =>
    obtain rfl := Option.some.inj hwrites
    exact h

/-- What the consumer copies is the first pending slot. -/
theorem ConsumerSees.copies {published consumed : Nat} {consumer : get_progress}
    (h : ConsumerSees published consumed consumer) {tail : Fin CBUF_EVENT_COUNT}
    (hcopies : consumer.copies = some tail) : tail = slot 0 consumed ∧ consumed < published := by
  cases consumer with
  | idle | head_read => cases hcopies
  | tail_read head tail' =>
    obtain rfl := Option.some.inj hcopies
    exact h
  | copied tail' read =>
    obtain rfl := Option.some.inj hcopies
    exact h

theorem RingInv.safe {s : ring_state} (h : RingInv s) : RingSafe s where
  apart head tail hwrites hcopies := by
    obtain ⟨rfl, hfree⟩ := h.producer.writes hwrites
    obtain ⟨rfl, hlt⟩ := h.consumer.copies hcopies
    exact slot_ne_slot hlt (by omega)
  copied_published tail hcopies := h.consumer.copies hcopies
  pending := ⟨h.le, h.used_eq⟩
  pending_le := by
    have hroom := h.room
    omega

/-- The head is only advanced over a free slot, and the tail over a pending one. -/
theorem ring_step_counts {s t : ring_state} {a : ring_op} (hstep : ring_step s a = some t) :
    (t.published = s.published ∧ t.consumed = s.consumed) ∨
    (t.published = s.published + 1 ∧ t.consumed = s.consumed) ∨
    (t.published = s.published ∧ t.consumed = s.consumed + 1) := by
  cases a with
  | put_read_head | put_write_entry | get_read_head | get_copy_entry =>
    simp only [ring_step] at hstep
    split at hstep
    · obtain rfl := Option.some.inj hstep
      exact .inl ⟨rfl, rfl⟩
    · cases hstep
  | put_read_tail =>
    simp only [ring_step] at hstep
    split at hstep
    · split_ifs at hstep
      · obtain rfl := Option.some.inj hstep
        exact .inl ⟨rfl, rfl⟩
      · obtain rfl := Option.some.inj hstep
        exact .inl ⟨rfl, rfl⟩
      · obtain rfl := Option.some.inj hstep
        exact .inl ⟨rfl, rfl⟩
    · cases hstep
  | get_read_tail =>
    simp only [ring_step] at hstep
    split at hstep
    · split_ifs at hstep
      · obtain rfl := Option.some.inj hstep
        exact .inl ⟨rfl, rfl⟩
      · obtain rfl := Option.some.inj hstep
        exact .inl ⟨rfl, rfl⟩
    · cases hstep
  | put_advance_head =>
    simp only [ring_step] at hstep
    split at hstep
    · obtain rfl := Option.some.inj hstep
      exact .inr (.inl ⟨rfl, rfl⟩)
    · cases hstep
  | get_advance_tail =>
    simp only [ring_step] at hstep
    split at hstep
    · obtain rfl := Option.some.inj hstep
      exact .inr (.inr ⟨rfl, rfl⟩)
    · cases hstep

theorem RingInv.notFullToEmpty {s : ring_state} (h : RingInv s) (a : ring_op) :
    NotFullToEmpty s a := by
  intro t hstep hfull
  have ht := h.step hstep
  have hle := ht.le
  have hroom := ht.room
  have hmany : 2 < CBUF_EVENT_COUNT := by decide
  rw [h.used_eq] at hfull
  rw [ht.used_eq]
  obtain ⟨hpublished, hconsumed⟩ | ⟨hpublished, hconsumed⟩ | ⟨hpublished, hconsumed⟩ :=
    ring_step_counts hstep
  · omega
  · omega
  · omega

/-- However the steps of one producer and one consumer are interleaved: the producer
never writes the slot that the consumer may be copying, the consumer copies only what
was published, and the buffer never goes from full to empty. -/
theorem producer_consumer_apart (mem : modac_circ_buf) (ops : List ring_op) :
    StatesMeet ring_step RingSafe (ring_init mem) ops ∧
      StepsMeet ring_step NotFullToEmpty (ring_init mem) ops := by
  have hkeep : ∀ s a t, RingInv s → ring_step s a = some t → RingInv t := by
    intro s a t h hstep
    exact h.step hstep
  constructor
  · exact statesMeet_of_invariant (fun _ h => h.safe) hkeep (ringInv_init mem) ops
  · exact stepsMeet_of_invariant hkeep (fun _ a _ h _ => h.notFullToEmpty a) (ringInv_init mem) ops

end evrma.packet_queue
