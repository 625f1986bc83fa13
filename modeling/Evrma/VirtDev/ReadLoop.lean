import Evrma.VirtDev.Reads

namespace evrma.virt_dev

open evrma.event_list evrma.lib evrma.packet_queue

/-- A full event, its code and its data. -/
abbrev FULL_EVENT : Nat := 2 + CBUF_EVENT_ENTRY_DATA_LENGTH

/-- The records that go into a buffer, which takes one while a full event has place in what
is still free. -/
def whole_records : (free : Nat) → List cb_read → List cb_read
  | _, [] => []
  | free, r :: rest => if FULL_EVENT ≤ free then r :: whole_records (free - r.n) rest else []

/-- The number of bytes of the records. -/
def total (records : List cb_read) : Nat := (records.map cb_read.n).sum

/-- A record in the user's buffer; the code is stored with its low byte first. -/
def record_bytes (r : cb_read) : List (BitVec 8) :=
  [r.event.setWidth 8, (r.event >>> 8).setWidth 8] ++ r.data

/-- What a notified event gives to its reader, its code. -/
def code_bytes (event : Fin EVENT_LIST_TYPE_MAX_EVENTS) : List (BitVec 8) :=
  [BitVec.ofNat 8 event, BitVec.ofNat 8 (event / 256)]

/-- What an entry of the queue gives to its reader, its code and its data. -/
def entry_bytes (entry : modac_circ_buf_entry) : List (BitVec 8) :=
  [entry.event.setWidth 8, (entry.event >>> 8).setWidth 8] ++
    entry.data.toList.take entry.length.toNat

/-- The bytes of all that waits. -/
theorem waiting_reads_bytes (v : modac_vdev_des) :
    (waiting_reads v).map record_bytes =
      waiting code_bytes (fun i => entry_bytes (v.cb_events.buf i)) v := by
  have hcode : ∀ event : Fin EVENT_LIST_TYPE_MAX_EVENTS,
      record_bytes { event := BitVec.ofInt 16 event, data := [], n := 2 } = code_bytes event := by
    intro event
    have hlow : (BitVec.ofNat 16 event).setWidth 8 = BitVec.ofNat 8 event := by
      apply BitVec.eq_of_toNat_eq
      simp only [BitVec.toNat_setWidth, BitVec.toNat_ofNat]
      omega
    have hhigh : (BitVec.ofNat 16 event >>> 8).setWidth 8 = BitVec.ofNat 8 (event / 256) := by
      have hlt := event.isLt
      apply BitVec.eq_of_toNat_eq
      simp only [BitVec.toNat_setWidth, BitVec.toNat_ushiftRight, BitVec.toNat_ofNat,
        Nat.shiftRight_eq_div_pow]
      omega
    rw [record_bytes, BitVec.ofInt_natCast, hlow, hhigh, List.append_nil, code_bytes]
  simp only [waiting_reads, waiting, window, List.map_append, List.map_map, Function.comp_def,
    hcode]
  rfl

/-- The record has its code and at most as much data as an entry. -/
def Sized (r : cb_read) : Prop := 2 ≤ r.n ∧ r.n ≤ FULL_EVENT ∧ (record_bytes r).length = r.n

@[simp]
theorem total_cons (r : cb_read) (records : List cb_read) :
    total (r :: records) = r.n + total records := by
  simp [total]

theorem whole_records_cons_of_le {free : Nat} (hfree : FULL_EVENT ≤ free) (r : cb_read)
    (rest : List cb_read) :
    whole_records free (r :: rest) = r :: whole_records (free - r.n) rest :=
  if_pos hfree

theorem whole_records_of_lt {free : Nat} (hfree : ¬ FULL_EVENT ≤ free) (records : List cb_read) :
    whole_records free records = [] := by
  cases records with
  | nil => rfl
  | cons r rest => exact if_neg hfree

/-- The records in the buffer are the first ones, whole, and no place of the buffer is used
that it does not have; what is left out is left out for want of place only. -/
theorem whole_records_spec {records : List cb_read} (hsized : ∀ r ∈ records, Sized r)
    (free : Nat) :
    ∃ left, records = whole_records free records ++ left ∧
      total (whole_records free records) ≤ free ∧
      (left = [] ∨ free - total (whole_records free records) < FULL_EVENT) := by
  induction records generalizing free with
  | nil => exact ⟨[], rfl, Nat.zero_le free, .inl rfl⟩
  | cons r rest ih =>
    by_cases hfree : FULL_EVENT ≤ free
    · obtain ⟨-, hle, -⟩ := hsized r List.mem_cons_self
      obtain ⟨left, hrest, htotal, hstop⟩ :=
        ih (fun r hr => hsized r (List.mem_cons_of_mem _ hr)) (free - r.n)
      rw [whole_records_cons_of_le hfree, total_cons]
      refine ⟨left, ?_, by omega, hstop.imp_right fun hlt => by omega⟩
      rw [List.cons_append, ← hrest]
    · rw [whole_records_of_lt hfree]
      exact ⟨r :: rest, rfl, Nat.zero_le free, .inr (Nat.lt_of_not_le hfree)⟩

theorem total_eq_length_bytes {records : List cb_read} (hsized : ∀ r ∈ records, Sized r) :
    (records.flatMap record_bytes).length = total records := by
  induction records with
  | nil => rfl
  | cons r rest ih =>
    obtain ⟨-, -, hlength⟩ := hsized r List.mem_cons_self
    rw [List.flatMap_cons, List.length_append, hlength, total_cons,
      ih fun r hr => hsized r (List.mem_cons_of_mem _ hr)]

/-- As many things wait as there are notified events and records. -/
theorem waiting_length {β : Type} (noted : Fin EVENT_LIST_TYPE_MAX_EVENTS → β)
    (slots : Fin CBUF_EVENT_COUNT → β) (v : modac_vdev_des) :
    (waiting noted slots v).length = (waiting_reads v).length := by
  simp only [waiting_reads, waiting, List.length_append, List.length_map, window_length]

theorem waiting_reads_length_lt (v : modac_vdev_des) :
    (waiting_reads v).length < EVENT_LIST_TYPE_MAX_EVENTS + CBUF_EVENT_COUNT := by
  have hnotified := List.length_filter_le v.notified_events
    (List.finRange EVENT_LIST_TYPE_MAX_EVENTS)
  have hused := used_lt v.cb_events.head v.cb_events.tail
  rw [List.length_finRange] at hnotified
  simp only [waiting_reads, waiting, List.length_append, List.length_map, window_length]
  omega

/-- Where the entries of the queue have at most 12 bytes, all that waits is sized. -/
theorem waiting_reads_sized {v : modac_vdev_des}
    (hentries : ∀ i < used v.cb_events.head v.cb_events.tail,
      (v.cb_events.buf (slot v.cb_events.tail i)).length.toNat ≤ CBUF_EVENT_ENTRY_DATA_LENGTH) :
    ∀ r ∈ waiting_reads v, Sized r := by
  intro r hr
  rw [waiting_reads, waiting, List.mem_append] at hr
  obtain hr | hr := hr
  · obtain ⟨event, -, rfl⟩ := List.mem_map.mp hr
    exact ⟨Nat.le_refl 2, Nat.le_add_right 2 _, rfl⟩
  · obtain ⟨i, hi, rfl⟩ := List.mem_map.mp hr
    have hle := hentries i (List.mem_range.mp hi)
    refine ⟨Nat.le_add_right 2 _, Nat.add_le_add_left hle 2, ?_⟩
    simp only [record_bytes, modac_circ_buf_entry.read, List.length_append, List.length_cons,
      List.length_nil, List.length_take, Vector.length_toList]
    omega

theorem Took.sized {v v' : modac_vdev_des} {k : Nat} (htook : Took v k v')
    (hsized : ∀ r ∈ virt_dev.waiting_reads v, Sized r) :
    ∀ r ∈ virt_dev.waiting_reads v', Sized r := by
  intro r hr
  rw [htook.waiting_reads] at hr
  exact hsized r (List.mem_of_mem_drop hr)

/-- Nothing is taken from where nothing waits. -/
theorem took_zero_of_empty {v v' : modac_vdev_des} {k : Nat} (htook : Took v k v')
    (hempty : waiting_reads v = []) : Took v 0 v' := by
  refine ⟨fun noted slots => ?_, htook.only_read⟩
  have hnil : waiting noted slots v = [] := by
    apply List.eq_nil_of_length_eq_zero
    rw [waiting_length, hempty, List.length_nil]
  rw [htook.waiting, hnil, List.drop_nil, List.drop_nil]

/-- The loop, from any point of it where it has a record already or finds one: it fills the
buffer with whole records. The bound is never what ends it. -/
theorem read_loop_spec {nonblock : Bool} {copy_to_user : Nat → Bool}
    (hcopy : ∀ i, copy_to_user i = true) {bound : Nat} {v : modac_vdev_des}
    (hbound : (waiting_reads v).length < bound) (hsized : ∀ r ∈ waiting_reads v, Sized r)
    (free : Nat) (got : List cb_read)
    (hsome : got ≠ [] ∨ waiting_reads v ≠ [] ∧ FULL_EVENT ≤ free) :
    ∃ v', read_loop nonblock copy_to_user bound v free got =
        some (v', ((total (got ++ whole_records free (waiting_reads v)) : Nat) : Int),
          got ++ whole_records free (waiting_reads v)) ∧
      Took v (whole_records free (waiting_reads v)).length v' := by
  induction bound generalizing v free got with
  | zero => exact absurd hbound (Nat.not_lt_zero _)
  | succ bound ih =>
    obtain ⟨-, -, hhead⟩ := read_get_waiting v
    have htook := took_read_get v
    have hread_min : READ_MIN = (FULL_EVENT : Int) := rfl
    rw [read_loop]
    by_cases hfree : FULL_EVENT ≤ free
    · rw [if_pos (by omega)]
      generalize read_get v = next at hhead htook ⊢
      obtain ⟨w, r⟩ := next
      cases hwaiting : waiting_reads v with
      | nil =>
        rw [hwaiting] at hhead hsome
        have hgot : got ≠ [] := hsome.resolve_right fun h => h.1 rfl
        obtain rfl : r = none := hhead
        dsimp only at htook ⊢
        rw [if_pos hgot]
        refine ⟨w, ?_, took_zero_of_empty htook hwaiting⟩
        rw [whole_records, List.append_nil]
        rfl
      | cons r' rest =>
        rw [hwaiting] at hhead
        obtain rfl : r = some r' := hhead
        dsimp only at htook ⊢
        rw [if_pos (hcopy _)]
        have hrest : waiting_reads w = rest := by
          rw [htook.waiting_reads, hwaiting]
          rfl
        obtain ⟨-, hle, -⟩ := hsized r' (hwaiting ▸ List.mem_cons_self)
        have hleft : (free : Int) - r'.n = (free - r'.n : Nat) := by omega
        have hlength : (waiting_reads w).length < bound := by
          rw [hwaiting, List.length_cons] at hbound
          rw [hrest]
          omega
        obtain ⟨v', hloop, htook'⟩ := ih hlength (htook.sized hsized) (free - r'.n)
          (got ++ [r']) (.inl (by simp))
        rw [hrest] at hloop htook'
        rw [hleft, hloop, whole_records_cons_of_le hfree, List.append_assoc]
        refine ⟨v', rfl, ?_⟩
        rw [List.length_cons, Nat.add_comm]
        exact htook.trans htook'
    · have hgot : got ≠ [] := hsome.resolve_right fun h => hfree h.2
      rw [if_neg (by omega), whole_records_of_lt hfree, List.append_nil]
      exact ⟨v, rfl, .refl v⟩

/-- There is something for a reader exactly if something waits. -/
theorem read_has_data_iff (v : modac_vdev_des) :
    read_has_data v = true ↔ waiting_reads v ≠ [] := by
  constructor
  · intro hdata hempty
    have hzero := congrArg List.length hempty
    simp only [waiting_reads, waiting, List.length_append, List.length_map, window_length,
      List.length_nil, Nat.add_eq_zero_iff] at hzero
    obtain ⟨hnotified, hused⟩ := hzero
    rw [read_has_data, Bool.or_eq_true, modac_cb_available, CIRC_CNT_eq_used,
      Bool.not_eq_true'] at hdata
    obtain havailable | hnotEmpty := hdata
    · simp [hused] at havailable
    · rw [← Bool.not_eq_true, event_list_is_empty_eq_true] at hnotEmpty
      apply hnotEmpty
      intro event
      rw [List.length_eq_zero_iff, List.filter_eq_nil_iff] at hnotified
      simpa using hnotified event (List.mem_finRange event)
  · intro hsome
    by_contra hno
    rw [Bool.not_eq_true] at hno
    exact hsome (waiting_of_no_data hno _ _)

/-- The records that a read returns: whole ones from the beginning of what waited, while a
full event has place in the buffer; exactly these are gone from the VIRT_DEV. -/
structure ReadsWhole (v : modac_vdev_des) (buf_len : Nat) (v' : modac_vdev_des)
    (events : List cb_read) : Prop where
  events_eq : events = whole_records buf_len (waiting_reads v)
  some_events : events ≠ []
  fits : (events.flatMap record_bytes).length ≤ buf_len
  took : Took v events.length v'
  waiting_eq : waiting_reads v = events ++ waiting_reads v'
  bytes : events.map record_bytes =
    (waiting code_bytes (fun i => entry_bytes (v.cb_events.buf i)) v).take events.length
  stops : waiting_reads v' = [] ∨ buf_len - (events.flatMap record_bytes).length < FULL_EVENT

/-- A read of a VIRT_DEV that is there, without a copy fault: a buffer that is too short is
refused; otherwise, where there is something for a reader, the read returns the bytes of
whole records. -/
theorem vdev_read_whole {v : modac_vdev_des} (hthere : v.direct_access_denied = false)
    (hentries : ∀ i < used v.cb_events.head v.cb_events.tail,
      (v.cb_events.buf (slot v.cb_events.tail i)).length.toNat ≤ CBUF_EVENT_ENTRY_DATA_LENGTH)
    {copy_to_user : Nat → Bool} (hcopy : ∀ i, copy_to_user i = true) (nonblock : Bool)
    (buf_len : Nat) :
    (buf_len < FULL_EVENT →
      vdev_read v buf_len nonblock copy_to_user = some (v, -EINVAL, [])) ∧
    (FULL_EVENT ≤ buf_len → read_has_data v = true → ∃ v' events,
      vdev_read v buf_len nonblock copy_to_user =
        some (v', ((events.flatMap record_bytes).length : Int), events) ∧
      ReadsWhole v buf_len v' events) ∧
    (read_has_data v = true ↔ (read_get v).2.isSome = true) := by
  have hread_min : READ_MIN = (FULL_EVENT : Int) := rfl
  have hsized := waiting_reads_sized hentries
  refine ⟨fun hshort => ?_, fun hlong hdata => ?_, ?_⟩
  · rw [vdev_read, if_neg (by simp [hthere]), if_pos (by omega)]
  · have hsome := (read_has_data_iff v).mp hdata
    obtain ⟨left, hleft, htotal, hstop⟩ := whole_records_spec hsized buf_len
    obtain ⟨v', hloop, htook⟩ := @read_loop_spec nonblock copy_to_user hcopy _ v
      (waiting_reads_length_lt v) hsized buf_len [] (.inr ⟨hsome, hlong⟩)
    rw [List.nil_append] at hloop
    have hbytes : ((whole_records buf_len (waiting_reads v)).flatMap record_bytes).length =
        total (whole_records buf_len (waiting_reads v)) := by
      apply total_eq_length_bytes
      intro r hr
      exact hsized r (hleft ▸ List.mem_append_left left hr)
    have hleft' : left = waiting_reads v' := by
      have hdrop := congrArg (List.drop (whole_records buf_len (waiting_reads v)).length) hleft
      rw [List.drop_left] at hdrop
      rw [htook.waiting_reads, hdrop]
    refine ⟨v', whole_records buf_len (waiting_reads v), ?_, rfl, ?_, ?_, htook, ?_, ?_, ?_⟩
    · rw [vdev_read, if_neg (by simp [hthere]), if_neg (by omega), hloop, hbytes]
    · cases hwaiting : waiting_reads v with
      | nil => exact absurd hwaiting hsome
      | cons r rest =>
        rw [whole_records_cons_of_le hlong]
        exact List.cons_ne_nil _ _
    · rw [hbytes]
      exact htotal
    · rw [← hleft']
      exact hleft
    · have hfirst := congrArg (List.take (whole_records buf_len (waiting_reads v)).length) hleft
      rw [List.take_left] at hfirst
      rw [← waiting_reads_bytes, ← List.map_take, hfirst]
    · rw [hbytes, ← hleft']
      exact hstop
  · obtain ⟨-, -, hhead⟩ := read_get_waiting v
    rw [read_has_data_iff, hhead, List.isSome_head?]

/-- Event 7 is notified, and one record of event 40 with three bytes is in the queue. -/
def one_of_each : modac_vdev_des where
  ptr := 0
  id := 1
  major := 240
  minor := 1
  name := Vector.replicate _ 0
  res_type_data _ := .empty
  usage_counter := 1
  direct_access_denied := false
  leave_res_set_on_last_close := 0
  notified_events event := event = 7
  cb_events :=
    { head := 1
      tail := 0
      overflow_written := false
      buf := fun _ => { event := 40, length := 3, data := Vector.replicate _ 9 } }

theorem vdev_read_whole_one_of_each :
    ∃ v' events, vdev_read one_of_each 16 true (fun _ => true) =
        some (v', ((events.flatMap record_bytes).length : Int), events) ∧
      ReadsWhole one_of_each 16 v' events := by
  have hlength : (3 : BitVec 16).toNat ≤ CBUF_EVENT_ENTRY_DATA_LENGTH := by decide
  have hread := vdev_read_whole (v := one_of_each) rfl (fun _ _ => hlength)
    (fun _ => rfl : ∀ i, (fun _ : Nat => true) i = true) true 16
  exact hread.2.1 (by decide) (by decide +kernel)

example : (waiting_reads one_of_each).flatMap record_bytes = [7, 0, 40, 0, 9, 9, 9] := by
  decide +kernel

end evrma.virt_dev
