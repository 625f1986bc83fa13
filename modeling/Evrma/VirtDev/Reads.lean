import Evrma.PacketQueue.Fifo
import Evrma.VirtDev.Des

namespace evrma.virt_dev

open evrma.event_list evrma.lib evrma.packet_queue

/-- What waits for the readers, in the order in which they get it, where `noted` says
something about each event and `slots` about each slot of the queue. -/
def waiting {β : Type} (noted : Fin EVENT_LIST_TYPE_MAX_EVENTS → β)
    (slots : Fin CBUF_EVENT_COUNT → β) (v : modac_vdev_des) : List β :=
  ((List.finRange EVENT_LIST_TYPE_MAX_EVENTS).filter v.notified_events).map noted ++
    window slots v.cb_events.tail (used v.cb_events.head v.cb_events.tail)

/-- The records themselves. -/
def waiting_reads (v : modac_vdev_des) : List cb_read :=
  waiting (fun event => { event := BitVec.ofInt 16 event, data := [], n := 2 })
    (fun i => (v.cb_events.buf i).read) v

/-- A notified event is taken before the queue is looked at. -/
theorem read_get_notified {v : modac_vdev_des}
    (hevent : 0 ≤ event_list_extract_one v.notified_events) :
    read_get v =
      ({ v with
          notified_events :=
            event_list_remove v.notified_events (event_list_extract_one v.notified_events) },
        some
          { event := BitVec.ofInt 16 (event_list_extract_one v.notified_events)
            data := []
            n := 2 }) := by
  unfold read_get
  generalize modac_cb_get v.cb_events = got
  obtain ⟨cb_events, got⟩ := got
  simp only [if_pos hevent]

theorem read_get_queued {v : modac_vdev_des}
    (hevent : ¬ 0 ≤ event_list_extract_one v.notified_events) {cb_events : modac_circ_buf}
    {got : Option cb_read} (hget : modac_cb_get v.cb_events = (cb_events, got)) :
    read_get v = ({ v with cb_events }, got) := by
  unfold read_get
  rw [hget]
  simp only [if_neg hevent]

/-- The least code is the first of the codes in the list. -/
theorem extract_one_cases (events : event_list_type) :
    ((List.finRange EVENT_LIST_TYPE_MAX_EVENTS).filter events = [] ∧
      event_list_extract_one events = -1) ∨
    ∃ event rest, (List.finRange EVENT_LIST_TYPE_MAX_EVENTS).filter events = event :: rest ∧
      event_list_extract_one events = (event : Nat) ∧
      (List.finRange EVENT_LIST_TYPE_MAX_EVENTS).filter
        (event_list_remove events (event : Nat)) = rest := by
  have hnodup := (List.nodup_finRange EVENT_LIST_TYPE_MAX_EVENTS).filter events
  have hfind : (List.finRange EVENT_LIST_TYPE_MAX_EVENTS).find? (events ·) =
      ((List.finRange EVENT_LIST_TYPE_MAX_EVENTS).filter events).head? :=
    List.head?_filter.symm
  unfold event_list_extract_one
  rw [hfind]
  cases hfilter : (List.finRange EVENT_LIST_TYPE_MAX_EVENTS).filter events with
  | nil => exact .inl ⟨rfl, rfl⟩
  | cons event rest =>
    rw [hfilter] at hnodup
    refine .inr ⟨event, rest, rfl, rfl, ?_⟩
    have hremove : event_list_remove events (event : Nat) =
        fun i => decide (i ≠ event) && events i := by
      funext i
      rw [event_list_remove, event_index_natCast]
      by_cases hi : i = event
      · simp [hi]
      · simp [hi]
    obtain ⟨hnotMem, -⟩ := List.nodup_cons.mp hnodup
    rw [hremove, ← List.filter_filter, hfilter, List.filter_cons_of_neg (by simp),
      List.filter_eq_self]
    intro i hi
    have hne : i ≠ event := fun heq => hnotMem (heq ▸ hi)
    exact decide_eq_true hne

theorem modac_cb_get_cases (cb : modac_circ_buf) :
    (used cb.head cb.tail = 0 ∧ modac_cb_get cb = (cb, none)) ∨
    (0 < used cb.head cb.tail ∧
      modac_cb_get cb = ({ cb with tail := next_index cb.tail }, some (cb.buf cb.tail).read)) := by
  by_cases hsome : 0 < used cb.head cb.tail
  · right
    refine ⟨hsome, ?_⟩
    simp only [modac_cb_get, CIRC_CNT_eq_used, gt_iff_lt, hsome, if_true]
  · left
    refine ⟨by omega, ?_⟩
    simp only [modac_cb_get, CIRC_CNT_eq_used, gt_iff_lt, hsome, if_false]

/-- The notified events and the reader's index of the queue may differ. -/
def OnlyRead (v v' : modac_vdev_des) : Prop :=
  v' = { v with
    notified_events := v'.notified_events
    cb_events := { v.cb_events with tail := v'.cb_events.tail } }

/-- One read takes the first of what waits, and returns it. -/
theorem read_get_waiting (v : modac_vdev_des) :
    (∀ {β : Type} (noted : Fin EVENT_LIST_TYPE_MAX_EVENTS → β)
        (slots : Fin CBUF_EVENT_COUNT → β),
      waiting noted slots (read_get v).1 = (waiting noted slots v).tail) ∧
    OnlyRead v (read_get v).1 ∧ (read_get v).2 = (waiting_reads v).head? := by
  unfold waiting_reads
  obtain ⟨hfilter, hevent⟩ | ⟨event, rest, hfilter, hevent, hrest⟩ :=
    extract_one_cases v.notified_events
  · have hneg : ¬ 0 ≤ event_list_extract_one v.notified_events := by omega
    obtain ⟨hempty, hget⟩ | ⟨hsome, hget⟩ := modac_cb_get_cases v.cb_events
    · rw [read_get_queued hneg hget]
      refine ⟨fun noted slots => ?_, rfl, ?_⟩
      · simp only [waiting, hfilter, hempty, List.map_nil, window_zero, List.append_nil,
          List.tail_nil]
      · simp only [waiting, hfilter, hempty, List.map_nil, window_zero, List.append_nil,
          List.head?_nil]
    · rw [read_get_queued hneg hget]
      refine ⟨fun noted slots => ?_, rfl, ?_⟩
      · have hpop := window_pop slots hsome
        simp only [waiting, hfilter, List.map_nil, List.nil_append, next_index_eq_slot, hpop,
          List.tail_cons]
      · have hpop := window_pop (fun i => (v.cb_events.buf i).read) hsome
        simp only [waiting, hfilter, List.map_nil, List.nil_append, hpop, List.head?_cons]
  · have hpos : 0 ≤ event_list_extract_one v.notified_events := by omega
    rw [read_get_notified hpos, hevent]
    generalize event_list_remove v.notified_events (event : Nat) = notified_events at hrest ⊢
    refine ⟨fun noted slots => ?_, rfl, ?_⟩
    · simp only [waiting, hfilter, hrest, List.map_cons, List.cons_append, List.tail_cons]
    · simp only [waiting, hfilter, List.map_cons, List.cons_append, List.head?_cons]

/-- The first `k` of what waited are gone. -/
structure Took (v : modac_vdev_des) (k : Nat) (v' : modac_vdev_des) : Prop where
  waiting : ∀ {β : Type} (noted : Fin EVENT_LIST_TYPE_MAX_EVENTS → β)
    (slots : Fin CBUF_EVENT_COUNT → β), waiting noted slots v' = (waiting noted slots v).drop k
  only_read : OnlyRead v v'

theorem Took.buf {v v' : modac_vdev_des} {k : Nat} (h : Took v k v') :
    v'.cb_events.buf = v.cb_events.buf := by
  rw [h.only_read]

theorem Took.refl (v : modac_vdev_des) : Took v 0 v := ⟨fun _ _ => rfl, rfl⟩

theorem took_read_get (v : modac_vdev_des) : Took v 1 (read_get v).1 := by
  obtain ⟨hwaiting, honly, -⟩ := read_get_waiting v
  refine ⟨fun noted slots => ?_, honly⟩
  rw [hwaiting, List.drop_one]

theorem Took.trans {v w v' : modac_vdev_des} {k l : Nat} (h : Took v k w) (h' : Took w l v') :
    Took v (k + l) v' := by
  refine ⟨fun noted slots => ?_, ?_⟩
  · rw [h'.waiting, h.waiting, List.drop_drop]
  · unfold OnlyRead
    rw [h'.only_read, h.only_read]

theorem Took.waiting_reads {v v' : modac_vdev_des} {k : Nat} (h : Took v k v') :
    waiting_reads v' = (waiting_reads v).drop k := by
  unfold virt_dev.waiting_reads
  rw [h.buf, h.waiting]

/-- The records that the loop returns are the first ones that waited; it may have taken
one more. -/
theorem read_loop_took {nonblock : Bool} {copy_to_user : Nat → Bool} {bound : Nat}
    {v v' : modac_vdev_des} {buf_still_free ret : Int} {got events : List cb_read}
    (h : read_loop nonblock copy_to_user bound v buf_still_free got = some (v', ret, events)) :
    ∃ k n, n ≤ k ∧ Took v k v' ∧ events = got ++ (waiting_reads v).take n := by
  induction bound generalizing v buf_still_free got with
  | zero =>
    simp only [read_loop, Option.some.injEq, Prod.mk.injEq] at h
    obtain ⟨rfl, -, rfl⟩ := h
    exact ⟨0, 0, Nat.le_refl 0, .refl v, by simp⟩
  | succ bound ih =>
    obtain ⟨-, -, hhead⟩ := read_get_waiting v
    have htook := took_read_get v
    rw [read_loop] at h
    by_cases hfree : READ_MIN ≤ buf_still_free ∨ buf_still_free < 0
    · rw [if_pos hfree] at h
      generalize read_get v = next at h hhead htook
      obtain ⟨w, r⟩ := next
      cases r with
      | none =>
        dsimp only at h
        split_ifs at h with hgot
        · simp only [Option.some.injEq, Prod.mk.injEq] at h
          obtain ⟨rfl, -, rfl⟩ := h
          exact ⟨1, 0, Nat.zero_le 1, htook, by simp⟩
        · simp only [Option.some.injEq, Prod.mk.injEq] at h
          obtain ⟨rfl, -, rfl⟩ := h
          exact ⟨1, 0, Nat.zero_le 1, htook, by simpa using hgot⟩
      | some r =>
        dsimp only at h hhead htook
        split_ifs at h
        · obtain ⟨k, n, hle, htook', rfl⟩ := ih h
          obtain ⟨rest, hreads⟩ : ∃ rest, waiting_reads v = r :: rest :=
            List.head?_eq_some_iff.mp hhead.symm
          refine ⟨1 + k, n + 1, by omega, htook.trans htook', ?_⟩
          rw [htook.waiting_reads, hreads, List.take_succ_cons, List.append_assoc]
          rfl
        · simp only [Option.some.injEq, Prod.mk.injEq] at h
          obtain ⟨rfl, -, rfl⟩ := h
          exact ⟨1, 0, Nat.zero_le 1, htook, by simp⟩
    · rw [if_neg hfree] at h
      simp only [Option.some.injEq, Prod.mk.injEq] at h
      obtain ⟨rfl, -, rfl⟩ := h
      exact ⟨0, 0, Nat.le_refl 0, .refl v, by simp⟩

/-- A read returns the first records of what waits, in this order. -/
theorem vdev_read_took {v v' : modac_vdev_des} {buf_len : Nat} {nonblock : Bool}
    {copy_to_user : Nat → Bool} {ret : Int} {events : List cb_read}
    (h : vdev_read v buf_len nonblock copy_to_user = some (v', ret, events)) :
    ∃ k, events.length ≤ k ∧ Took v k v' ∧
      events = (waiting_reads v).take events.length := by
  have hloop : ∃ k n, n ≤ k ∧ Took v k v' ∧ events = [] ++ (waiting_reads v).take n := by
    unfold vdev_read at h
    generalize EVENT_LIST_TYPE_MAX_EVENTS + CBUF_EVENT_COUNT = bound at h
    split_ifs at h
    · simp only [Option.some.injEq, Prod.mk.injEq] at h
      exact ⟨0, 0, Nat.le_refl 0, h.1 ▸ .refl v, h.2.2.symm⟩
    · simp only [Option.some.injEq, Prod.mk.injEq] at h
      exact ⟨0, 0, Nat.le_refl 0, h.1 ▸ .refl v, h.2.2.symm⟩
    · exact read_loop_took h
  obtain ⟨k, n, hle, htook, rfl⟩ := hloop
  rw [List.nil_append]
  refine ⟨k, ?_, htook, ?_⟩
  · rw [List.length_take]
    omega
  · rw [List.length_take, List.take_eq_take_iff]
    omega

/-- Without data for a reader nothing waits. -/
theorem waiting_of_no_data {β : Type} {v : modac_vdev_des} (h : read_has_data v = false)
    (noted : Fin EVENT_LIST_TYPE_MAX_EVENTS → β) (slots : Fin CBUF_EVENT_COUNT → β) :
    waiting noted slots v = [] := by
  rw [read_has_data, Bool.or_eq_false_iff] at h
  obtain ⟨havailable, hnotified⟩ := h
  have hempty : used v.cb_events.head v.cb_events.tail = 0 := by
    rw [modac_cb_available, CIRC_CNT_eq_used] at havailable
    simpa using havailable
  have hfilter : (List.finRange EVENT_LIST_TYPE_MAX_EVENTS).filter v.notified_events = [] := by
    rw [Bool.not_eq_false', event_list_is_empty_eq_true] at hnotified
    rw [List.filter_eq_nil_iff]
    intro event _
    simp [hnotified event]
  rw [waiting, hfilter, hempty]
  rfl

end evrma.virt_dev
