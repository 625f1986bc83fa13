import Mathlib.Data.List.Induction
import Evrma.PacketQueue.Fifo

namespace evrma.packet_queue

open evrma.lib

/-- The branch of `modac_cb_put` that is taken: the event itself is written, an overflow
record, or nothing, with or without a record published. -/
inductive put_branch where
  | event
  | overflow
  | unwritten
  | full
deriving DecidableEq

def put_branch_of (cb : modac_circ_buf) : put_branch :=
  let space := CIRC_SPACE cb.head cb.tail CBUF_EVENT_COUNT
  if space ≥ 1 then
    if space > 1 then .event
    else if !cb.overflow_written then .overflow
    else .unwritten
  else .full

/-- The records that were published so far: the delivered ones and the pending ones. -/
def cb_state.sequence (s : cb_state) : List cb_read := s.delivered ++ s.cb.records

def cb_run (s : cb_state) (ops : List cb_op) : cb_state := ops.foldl cb_step s

theorem cb_run_append (s : cb_state) (ops ops' : List cb_op) :
    cb_run s (ops ++ ops') = cb_run (cb_run s ops) ops' := List.foldl_append

/-- The places in the sequence that the puts of a run through one branch publish. -/
def written_at (branch : put_branch) : cb_state → List cb_op → List Nat
  | _, [] => []
  | s, .put event data hlen :: ops =>
    let rest := written_at branch (cb_step s (.put event data hlen)) ops
    if put_branch_of s.cb = branch then s.sequence.length :: rest else rest
  | s, .get :: ops => written_at branch (cb_step s .get) ops

def cb_init (mem : modac_circ_buf) : cb_state := { cb := modac_cb_init mem, delivered := [] }

theorem put_branch_cases (cb : modac_circ_buf) :
    (put_branch_of cb = .event ∧ used cb.head cb.tail + 2 < CBUF_EVENT_COUNT) ∨
    (put_branch_of cb = .overflow ∧ used cb.head cb.tail + 2 = CBUF_EVENT_COUNT ∧
      cb.overflow_written = false) ∨
    (put_branch_of cb = .unwritten ∧ used cb.head cb.tail + 2 = CBUF_EVENT_COUNT ∧
      cb.overflow_written = true) ∨
    (put_branch_of cb = .full ∧ CBUF_EVENT_COUNT ≤ used cb.head cb.tail + 1) := by
  have hlt := used_lt cb.head cb.tail
  unfold put_branch_of
  rw [CIRC_SPACE_eq]
  dsimp only
  obtain hroom | hlast | hfull := Nat.lt_trichotomy (used cb.head cb.tail + 2) CBUF_EVENT_COUNT
  · rw [if_pos (by omega), if_pos (by omega)]
    exact .inl ⟨rfl, hroom⟩
  · rw [if_pos (by omega), if_neg (by omega)]
    cases hflag : cb.overflow_written with
    | false => exact .inr (.inl ⟨rfl, hlast, rfl⟩)
    | true => exact .inr (.inr (.inl ⟨rfl, hlast, rfl⟩))
  · rw [if_neg (by omega)]
    exact .inr (.inr (.inr ⟨rfl, by omega⟩))

/-- What a put publishes in its branch: its own event, an overflow record, whatever the slot
held, or nothing. -/
def published (cb : modac_circ_buf) (event : Int) (data : List (BitVec 8)) :
    put_branch → List cb_read
  | .event => [{ event := BitVec.ofInt 16 event, data, n := 2 + data.length }]
  | .overflow => [overflow_read]
  | .unwritten => [(cb.buf cb.head).read]
  | .full => []

theorem put_records (cb : modac_circ_buf) (event : Int) {data : List (BitVec 8)}
    (hlen : data.length ≤ CBUF_EVENT_ENTRY_DATA_LENGTH) :
    (modac_cb_put cb event data).1.records =
      cb.records ++ published cb event data (put_branch_of cb) := by
  obtain ⟨hbranch, hroom⟩ | ⟨hbranch, hlast, hflag⟩ | ⟨hbranch, hlast, hflag⟩ | ⟨hbranch, hfull⟩ :=
    put_branch_cases cb
  · rw [hbranch, (modac_cb_put_of_room cb event hlen hroom).1]
    rfl
  · rw [hbranch, (modac_cb_put_of_last_slot cb event hlen hlast hflag).1]
    rfl
  · rw [hbranch, modac_cb_put_of_flag cb event hlen hlast hflag]
    rfl
  · rw [hbranch, modac_cb_put_of_full cb event data hfull]
    exact (List.append_nil _).symm

/-- Taking a record only moves it from the pending ones to the delivered ones. -/
theorem get_sequence (s : cb_state) : (cb_step s .get).sequence = s.sequence := by
  obtain ⟨cb, delivered⟩ := s
  have hspec := modac_cb_get_spec cb
  rw [cb_step]
  generalize modac_cb_get cb = got at hspec ⊢
  obtain ⟨cb', read⟩ := got
  obtain ⟨hread, hrest, -⟩ := hspec
  dsimp only at hread hrest
  unfold cb_state.sequence
  dsimp only
  rw [hread, hrest, List.append_assoc]
  congr 1
  generalize cb.records = records
  cases records with
  | nil => rfl
  | cons r rest => rfl

section

variable (s : cb_state) (event : Int) {data : List (BitVec 8)}
  (hlen : data.length ≤ CBUF_EVENT_ENTRY_DATA_LENGTH)

/-- What a put publishes goes to the end of the sequence. -/
theorem put_sequence :
    (cb_step s (.put event data hlen)).sequence =
      s.sequence ++ published s.cb event data (put_branch_of s.cb) := by
  simp only [cb_state.sequence, cb_step, put_records s.cb event hlen, List.append_assoc]

/-- The flag and the room that a put leaves. -/
theorem put_leaves :
    let t := cb_step s (.put event data hlen)
    (put_branch_of s.cb = .event ∧ t.cb.overflow_written = false ∧
      used t.cb.head t.cb.tail + 1 < CBUF_EVENT_COUNT) ∨
    (put_branch_of s.cb = .overflow ∧ t.cb.overflow_written = true) ∨
    (put_branch_of s.cb = .unwritten ∧ s.cb.overflow_written = true ∧
      t.cb.overflow_written = true) ∨
    (put_branch_of s.cb = .full ∧ t = s ∧
      CBUF_EVENT_COUNT ≤ used s.cb.head s.cb.tail + 1) := by
  intro t
  obtain ⟨hbranch, hroom⟩ | ⟨hbranch, hlast, hflag⟩ | ⟨hbranch, hlast, hflag⟩ | ⟨hbranch, hfull⟩ :=
    put_branch_cases s.cb
  · obtain ⟨hrecords, hclear⟩ := modac_cb_put_of_room s.cb event hlen hroom
    refine .inl ⟨hbranch, hclear, ?_⟩
    have hlength := congrArg List.length hrecords
    rw [List.length_append, List.length_singleton, modac_circ_buf.records_length,
      modac_circ_buf.records_length] at hlength
    have hused : used t.cb.head t.cb.tail = used s.cb.head s.cb.tail + 1 := hlength
    omega
  · exact .inr (.inl ⟨hbranch, (modac_cb_put_of_last_slot s.cb event hlen hlast hflag).2⟩)
  · refine .inr (.inr (.inl ⟨hbranch, hflag, ?_⟩))
    have hspace : CBUF_EVENT_COUNT - 1 - used s.cb.head s.cb.tail = 1 := by omega
    simp only [t, cb_step, modac_cb_put, CIRC_SPACE_eq, if_neg (Nat.not_lt.mpr hlen), hspace,
      hflag, ge_iff_le, gt_iff_lt, Nat.le_refl, Nat.lt_irrefl, if_true, if_false, Bool.not_true,
      Bool.false_eq_true]
  · refine .inr (.inr (.inr ⟨hbranch, ?_, hfull⟩))
    simp only [t, cb_step, modac_cb_put_of_full s.cb event data hfull]

end

/-- The sequence only grows, at its end. -/
theorem step_sequence_grows (s : cb_state) (a : cb_op) :
    s.sequence <+: (cb_step s a).sequence := by
  cases a with
  | get => exact ⟨[], by rw [get_sequence, List.append_nil]⟩
  | put event data hlen =>
    rw [put_sequence]
    exact List.prefix_append _ _

/-- What is in the sequence stays where it is. -/
theorem getElem?_of_grown {l l' : List cb_read} (h : l <+: l') {p : Nat} {r : cb_read}
    (hr : l[p]? = some r) : l'[p]? = some r := by
  obtain ⟨rest, rfl⟩ := h
  obtain ⟨hlt, -⟩ := List.getElem?_eq_some_iff.mp hr
  rw [List.getElem?_append_left hlt, hr]

theorem run_sequence_grows (s : cb_state) (ops : List cb_op) :
    s.sequence <+: (cb_run s ops).sequence := by
  induction ops generalizing s with
  | nil => exact List.prefix_rfl
  | cons a ops ih => exact (step_sequence_grows s a).trans (ih _)

theorem written_at_append (branch : put_branch) (s : cb_state) (ops ops' : List cb_op) :
    written_at branch s (ops ++ ops') =
      written_at branch s ops ++ written_at branch (cb_run s ops) ops' := by
  induction ops generalizing s with
  | nil => rfl
  | cons a ops ih =>
    cases a with
    | get => exact ih _
    | put event data hlen =>
      simp only [List.cons_append, written_at, ih]
      split_ifs <;> rfl

/-- What a run publishes comes after what was published before. -/
theorem le_of_mem_written_at {branch : put_branch} {s : cb_state} {ops : List cb_op} {q : Nat}
    (hq : q ∈ written_at branch s ops) : s.sequence.length ≤ q := by
  induction ops generalizing s with
  | nil => cases hq
  | cons a ops ih =>
    have hle := (step_sequence_grows s a).length_le
    cases a with
    | get => exact hle.trans (ih hq)
    | put event data hlen =>
      simp only [written_at] at hq
      split_ifs at hq
      · obtain rfl | hq := List.mem_cons.mp hq
        · exact Nat.le_refl _
        · exact hle.trans (ih hq)
      · exact hle.trans (ih hq)

/-- The events that were accepted and the overflow records that were written are in the
sequence. While the flag is set, and always when there is no room, an overflow record
comes after all accepted events. -/
structure LossInv (events overflows : List Nat) (s : cb_state) : Prop where
  event_lt : ∀ q ∈ events, q < s.sequence.length
  overflow_read : ∀ p ∈ overflows, s.sequence[p]? = some overflow_read
  marked : s.cb.overflow_written = true → ∃ p ∈ overflows, ∀ q ∈ events, q < p
  full : CBUF_EVENT_COUNT ≤ used s.cb.head s.cb.tail + 1 → s.cb.overflow_written = true

theorem lossInv_init (mem : modac_circ_buf) : LossInv [] [] (cb_init mem) := by
  refine ⟨by simp, by simp, ?_, ?_⟩
  · intro hflag
    cases hflag
  · intro hfull
    have hzero : used (cb_init mem).cb.head (cb_init mem).cb.tail = 0 := used_self _
    rw [hzero] at hfull
    exact absurd hfull (by decide)

theorem LossInv.get {events overflows : List Nat} {s : cb_state} (h : LossInv events overflows s) :
    LossInv events overflows (cb_step s .get) := by
  have hsequence := get_sequence s
  obtain ⟨cb, delivered⟩ := s
  have hspec := modac_cb_get_spec cb
  rw [cb_step] at hsequence ⊢
  generalize modac_cb_get cb = got at hspec hsequence ⊢
  obtain ⟨cb', read⟩ := got
  obtain ⟨-, hrest, hflag⟩ := hspec
  dsimp only at hrest hflag hsequence ⊢
  constructor
  · rw [hsequence]
    exact h.event_lt
  · rw [hsequence]
    exact h.overflow_read
  · dsimp only
    rw [hflag]
    exact h.marked
  · dsimp only
    intro hfull
    rw [hflag]
    apply h.full
    have hlength := congrArg List.length hrest
    rw [List.length_tail, modac_circ_buf.records_length, modac_circ_buf.records_length] at hlength
    dsimp only
    omega

/-- A put that publishes nothing of its own keeps what was there. -/
theorem LossInv.put_kept {events overflows : List Nat} {s t : cb_state}
    (h : LossInv events overflows s) (hgrows : s.sequence <+: t.sequence)
    (hset : t.cb.overflow_written = true) (hflag : s.cb.overflow_written = true) :
    LossInv events overflows t where
  event_lt q hq := Nat.lt_of_lt_of_le (h.event_lt q hq) hgrows.length_le
  overflow_read p hp := getElem?_of_grown hgrows (h.overflow_read p hp)
  marked _ := h.marked hflag
  full _ := hset

theorem LossInv.put {events overflows : List Nat} {s : cb_state} (h : LossInv events overflows s)
    (event : Int) {data : List (BitVec 8)} (hlen : data.length ≤ CBUF_EVENT_ENTRY_DATA_LENGTH) :
    LossInv (events ++ written_at .event s [.put event data hlen])
      (overflows ++ written_at .overflow s [.put event data hlen])
      (cb_step s (.put event data hlen)) := by
  have hgrows := step_sequence_grows s (.put event data hlen)
  have hsequence := put_sequence s event hlen
  have hput := put_leaves s event hlen
  simp only [written_at]
  generalize cb_step s (.put event data hlen) = t at hgrows hsequence hput ⊢
  obtain ⟨hbranch, hclear, hroom⟩ | ⟨hbranch, hset⟩ | ⟨hbranch, hflag, hset⟩ |
      ⟨hbranch, rfl, hfull⟩ := hput
  · rw [if_pos hbranch, if_neg (by simp [hbranch]), List.append_nil]
    rw [hbranch, published] at hsequence
    have hlength : t.sequence.length = s.sequence.length + 1 := by
      rw [hsequence, List.length_append, List.length_singleton]
    constructor
    · intro q hq
      rw [hlength]
      obtain hq | hq := List.mem_append.mp hq
      · exact Nat.lt_succ_of_lt (h.event_lt q hq)
      · rw [List.mem_singleton.mp hq]
        exact Nat.lt_succ_self _
    · intro p hp
      exact getElem?_of_grown hgrows (h.overflow_read p hp)
    · intro hset
      rw [hclear] at hset
      cases hset
    · intro hfull
      omega
  · rw [if_neg (by simp [hbranch]), if_pos hbranch, List.append_nil]
    rw [hbranch, published] at hsequence
    have hlength : t.sequence.length = s.sequence.length + 1 := by
      rw [hsequence, List.length_append, List.length_singleton]
    constructor
    · intro q hq
      rw [hlength]
      exact Nat.lt_succ_of_lt (h.event_lt q hq)
    · intro p hp
      obtain hp | hp := List.mem_append.mp hp
      · exact getElem?_of_grown hgrows (h.overflow_read p hp)
      · rw [List.mem_singleton.mp hp, hsequence, List.getElem?_concat_length]
    · intro _
      exact ⟨s.sequence.length, List.mem_append_right _ List.mem_cons_self, h.event_lt⟩
    · intro _
      exact hset
  · rw [if_neg (by simp [hbranch]), if_neg (by simp [hbranch]), List.append_nil, List.append_nil]
    exact h.put_kept hgrows hset hflag
  · rw [if_neg (by simp [hbranch]), if_neg (by simp [hbranch]), List.append_nil, List.append_nil]
    exact h

theorem lossInv_run (mem : modac_circ_buf) (ops : List cb_op) :
    LossInv (written_at .event (cb_init mem) ops) (written_at .overflow (cb_init mem) ops)
      (cb_run (cb_init mem) ops) := by
  induction ops using List.reverseRecOn with
  | nil => exact lossInv_init mem
  | append_singleton ops a ih =>
    rw [written_at_append, written_at_append, cb_run_append]
    cases a with
    | get =>
      simp only [written_at, List.append_nil]
      exact ih.get
    | put event data hlen => exact ih.put event hlen

/-- A put that discards its event finds an overflow record after all accepted events, or
writes it. -/
theorem LossInv.marked_of_discarded {events overflows : List Nat} {s : cb_state}
    (h : LossInv events overflows s) (event : Int) {data : List (BitVec 8)}
    (hlen : data.length ≤ CBUF_EVENT_ENTRY_DATA_LENGTH) (hdiscard : put_branch_of s.cb ≠ .event) :
    ∃ p ∈ overflows ++ written_at .overflow s [.put event data hlen], ∀ q ∈ events, q < p := by
  have hmarked : s.cb.overflow_written = true →
      ∃ p ∈ overflows ++ written_at .overflow s [.put event data hlen], ∀ q ∈ events, q < p := by
    intro hflag
    obtain ⟨p, hp, hlt⟩ := h.marked hflag
    exact ⟨p, List.mem_append_left _ hp, hlt⟩
  obtain ⟨hbranch, -⟩ | ⟨hbranch, -⟩ | ⟨-, -, hflag⟩ | ⟨-, hfull⟩ := put_branch_cases s.cb
  · exact absurd hbranch hdiscard
  · refine ⟨s.sequence.length, List.mem_append_right _ ?_, h.event_lt⟩
    simp only [written_at, if_pos hbranch, List.mem_cons_self]
  · exact hmarked hflag
  · exact hmarked (h.full hfull)

/-- Whenever the event of a put is discarded, an overflow record is written after the
last event accepted before, and stands before the first event accepted later. -/
theorem no_silent_loss (mem : modac_circ_buf) (before after : List cb_op) (event : Int)
    {data : List (BitVec 8)} (hlen : data.length ≤ CBUF_EVENT_ENTRY_DATA_LENGTH)
    (hdiscard : put_branch_of (cb_run (cb_init mem) before).cb ≠ .event) :
    let upto := before ++ [cb_op.put event data hlen]
    ∃ p ∈ written_at .overflow (cb_init mem) upto,
      (cb_run (cb_init mem) (upto ++ after)).sequence[p]? = some overflow_read ∧
      (∀ q ∈ written_at .event (cb_init mem) before, q < p) ∧
      ∀ q ∈ written_at .event (cb_run (cb_init mem) upto) after, p < q := by
  intro upto
  obtain ⟨p, hp, hlt⟩ := (lossInv_run mem before).marked_of_discarded event hlen hdiscard
  rw [← written_at_append] at hp
  have hread := (lossInv_run mem upto).overflow_read p hp
  have hgrows := run_sequence_grows (cb_run (cb_init mem) upto) after
  refine ⟨p, hp, ?_, hlt, ?_⟩
  · rw [cb_run_append]
    exact getElem?_of_grown hgrows hread
  · intro q hq
    obtain ⟨hplt, -⟩ := List.getElem?_eq_some_iff.mp hread
    exact Nat.lt_of_lt_of_le hplt (le_of_mem_written_at hq)

/-- The buffer and the described queue of a run start from the same buffer. -/
theorem cb_run_of_both {s t : cb_state × lib.MarkedFifo cb_event} {ops : List cb_op}
    (h : run both_step s ops = some t) : cb_run s.1 ops = t.1 := by
  induction ops generalizing s with
  | nil =>
    simp only [run, Option.some.injEq] at h
    rw [← h]
    rfl
  | cons a ops ih =>
    obtain ⟨u, hu, hrest⟩ := run_cons_eq_some.mp h
    simp only [both_step, Option.some.injEq] at hu
    subst hu
    exact ih hrest

/-- Where only one place is left, a put is discarded. -/
theorem discarded_after_puts (mem : modac_circ_buf) (a : cb_op) (ha : a ≠ .get) {k : Nat}
    (hk : k + 2 = CBUF_EVENT_COUNT) :
    put_branch_of (cb_run (cb_init mem) (List.replicate k a)).cb ≠ .event := by
  obtain ⟨s, hrun, hs, hlength, -⟩ := run_puts mem a ha k (Nat.le_of_eq hk)
  have hcb : cb_run (cb_init mem) (List.replicate k a) = s.1 := cb_run_of_both hrun
  have hused := hs.used_eq
  rw [hcb]
  intro hevent
  obtain ⟨-, hroom⟩ | ⟨hbranch, -⟩ | ⟨hbranch, -⟩ | ⟨hbranch, -⟩ := put_branch_cases s.1.cb
  · omega
  · rw [hbranch] at hevent
    cases hevent
  · rw [hbranch] at hevent
    cases hevent
  · rw [hbranch] at hevent
    cases hevent

/-- The put after 1022 ones is discarded, and marked. -/
theorem no_silent_loss_1023 :
    ∃ p, p ∈ written_at .overflow (cb_init stale_mem)
        (List.replicate 1022 (.put 1 [] (Nat.zero_le _)) ++ [.put 1 [] (Nat.zero_le _)]) ∧
      ∀ q ∈ written_at .event (cb_init stale_mem)
        (List.replicate 1022 (.put 1 [] (Nat.zero_le _))), q < p := by
  have hdiscard := discarded_after_puts stale_mem (.put 1 [] (Nat.zero_le _)) (by simp) (by rfl)
  have hlen : ([] : List (BitVec 8)).length ≤ CBUF_EVENT_ENTRY_DATA_LENGTH := Nat.zero_le _
  obtain ⟨p, hp, -, hlt, -⟩ := no_silent_loss stale_mem _ [] 1 hlen hdiscard
  exact ⟨p, hp, hlt⟩

end evrma.packet_queue
