import Evrma.Evr.IsrFifo
import Evrma.EvrSystem.Start
import Evrma.System.Delivery

namespace evrma.evr

open evrma.event_list evrma.ioctl evrma.lib evrma.mng_dev evrma.packet_queue evrma.system
  evrma.virt_dev

variable {D H A O : Type}

def isr_call.op : isr_call → delivery_op
  | .put_event event data hlength => .put_event event data hlength
  | .notify event => .notify event

/-- It does not come from the interrupt handler. -/
def FromUser : delivery_op → Prop
  | .put_event _ _ _ | .notify _ => False
  | _ => True

inductive path_op where
  | irq (a : irq_op)
  | user (a : delivery_op) (huser : FromUser a)

/-- The accesses to the card. -/
def irq_ops : List path_op → List irq_op
  | [] => []
  | .irq a :: ops => a :: irq_ops ops
  | .user _ _ :: ops => irq_ops ops

/-- What happens to the MNG_DEV, where each interrupt does what its handler hands on. -/
def path_delivery (c : irq_card D) : irq_state D → List path_op → List delivery_op
  | _, [] => []
  | s, .irq a :: ops =>
    let (s, calls) := irq_exec c s a
    calls.map isr_call.op ++ path_delivery c s ops
  | s, .user a _ :: ops => a :: path_delivery c s ops

/-- A code of the event FIFO, as an index. -/
def evr_fifo_event.index (e : evr_fifo_event) : Fin EVENT_LIST_TYPE_MAX_EVENTS :=
  ⟨e.event.toNat, Nat.lt_trans e.event.isLt (by decide)⟩

/-- The event, as a reader gets it. -/
def evr_fifo_event.record (e : evr_fifo_event) : cb_read := event_record e.index e.et_data

def fifo_record (r : cb_read) : Bool := r.event.toNat < EVR_MAPRAM_EVENT_CODES

/-- The records of the events with one of the codes. -/
def fifo_records (codes : event_list_type) (events : List evr_fifo_event) : List cb_read :=
  (events.filter fun e => codes e.index).map evr_fifo_event.record

/-- The operation leaves the subscriptions of the VIRT_DEV at an address alone. -/
def KeepsCodes (ptr : Nat) : delivery_op → Prop
  | .subscribe p _ _ | .close p => p ≠ ptr
  | _ => True

/-- What a call leaves in the queue of a VIRT_DEV with these codes, if it is an event of the
FIFO. -/
def call_record (codes : event_list_type) : isr_call → Option cb_read
  | .put_event event data _ =>
    match event_index event with
    | some i => if i < EVR_MAPRAM_EVENT_CODES ∧ codes i then some (event_record i data) else none
    | none => none
  | .notify _ => none

/-- The part of a VIRT_DEV's stream that is about the events of the FIFO: its codes stay, and
none of the FIFO's is ever notified. -/
structure FifoStream (codes : event_list_type) (records : List cb_read) (st : vdev_stream) :
    Prop where
  codes : st.codes = codes
  noted : ∀ i : Fin EVENT_LIST_TYPE_MAX_EVENTS, st.noted i = true → EVR_MAPRAM_EVENT_CODES ≤ i
  sent : st.sent.filter fifo_record = records
  reads : st.reads.filter fifo_record = st.taken.filter fifo_record

section

variable {codes : event_list_type} {records : List cb_read} {st : vdev_stream} {ptr : Nat}

theorem fifo_record_event (i : Fin EVENT_LIST_TYPE_MAX_EVENTS) (data : List (BitVec 8)) :
    fifo_record (event_record i data) = decide (i < EVR_MAPRAM_EVENT_CODES) := by
  have hi : i.val < 512 := i.isLt
  have hnat : (BitVec.ofNat 16 i).toNat = i := by
    rw [BitVec.toNat_ofNat]
    exact Nat.mod_eq_of_lt (by omega)
  simp only [fifo_record, event_record, hnat]

theorem stream_run_cons (a : delivery_op) (ops : List delivery_op) :
    stream_run ptr st (a :: ops) =
      stream_run ptr (if a.concerns ptr then stream_step st a else st) ops := by
  unfold stream_run
  rw [List.filter_cons]
  split_ifs
  · rfl
  · rfl

theorem stream_run_append (ops ops' : List delivery_op) :
    stream_run ptr st (ops ++ ops') = stream_run ptr (stream_run ptr st ops) ops' := by
  unfold stream_run
  rw [List.filter_append, List.foldl_append]

theorem FifoStream.read (h : FifoStream codes records st) : FifoStream codes records st.read := by
  by_cases hevent : 0 ≤ event_list_extract_one st.noted
  · rw [vdev_stream.read_notified hevent]
    obtain ⟨-, hnone⟩ | ⟨i, rest, hfilter, hi, -⟩ := extract_one_cases st.noted
    · rw [hnone] at hevent
      exact absurd hevent (by decide)
    · -- a notified code is none of the FIFO's, so its record does not count
      have hmem : i ∈ (List.finRange EVENT_LIST_TYPE_MAX_EVENTS).filter st.noted := by
        rw [hfilter]
        exact List.mem_cons_self
      have hge := h.noted i (List.mem_filter.mp hmem).2
      have hother : fifo_record ⟨BitVec.ofInt 16 (i : Nat), [], 2⟩ = false := by
        have hrecord := fifo_record_event i []
        rw [decide_eq_false (Nat.not_lt.mpr hge)] at hrecord
        rw [BitVec.ofInt_natCast]
        exact hrecord
      generalize event_list_extract_one st.noted = event at hi ⊢
      refine ⟨h.codes, fun j hj => ?_, h.sent, ?_⟩
      · exact h.noted j ((event_list_remove_eq_true st.noted event j).mp hj).1
      · simp only [hi]
        rw [List.filter_append, List.filter_singleton, hother, h.reads]
        exact List.append_nil _
  · cases hpending : st.pending with
    | nil =>
      rw [vdev_stream.read_nil hevent hpending]
      exact h
    | cons r pending =>
      rw [vdev_stream.read_cons hevent hpending]
      exact {
        codes := h.codes
        noted := h.noted
        sent := h.sent
        reads := by rw [List.filter_append, List.filter_append, h.reads] }

theorem FifoStream.note (h : FifoStream codes records st) {event : Int}
    (hevent : EVR_MAPRAM_EVENT_CODES ≤ event) : FifoStream codes records (st.note event) := by
  unfold vdev_stream.note
  split_ifs
  · refine ⟨h.codes, fun i hi => ?_, h.sent, h.reads⟩
    rcases (event_list_add_eq_true _ _ _).mp hi with hi | hi
    · exact h.noted i hi
    · rw [event_index_eq_some hi] at hevent
      exact Int.ofNat_le.mp hevent
  · exact h

theorem FifoStream.send (h : FifoStream codes records st) (event : Int) (data : List (BitVec 8))
    (hlength : data.length ≤ CBUF_EVENT_ENTRY_DATA_LENGTH) :
    FifoStream codes (records ++ (call_record codes (.put_event event data hlength)).toList)
      (st.send event data) := by
  simp only [vdev_stream.send, call_record, h.codes]
  cases hindex : event_index event with
  | none =>
    rw [Option.toList_none, List.append_nil]
    exact h
  | some i =>
    dsimp only
    have hrecord := fifo_record_event i data
    by_cases hcode : codes i = true
    · rw [if_pos hcode]
      refine ⟨rfl, h.noted, ?_, h.reads⟩
      rw [List.filter_append, h.sent, List.filter_singleton, hrecord]
      by_cases hlt : i.val < EVR_MAPRAM_EVENT_CODES
      · rw [if_pos ⟨hlt, hcode⟩, decide_eq_true hlt]
        rfl
      · rw [if_neg fun h => hlt h.1, decide_eq_false hlt]
        rfl
    · rw [if_neg hcode, if_neg fun h => hcode h.2, Option.toList_none, List.append_nil]
      exact h

theorem FifoStream.user (h : FifoStream codes records st) {a : delivery_op} (huser : FromUser a)
    (hkeeps : KeepsCodes ptr a) (hconcerns : a.concerns ptr = true) :
    FifoStream codes records (stream_step st a) := by
  cases a with
  | open_file p i kmalloc => exact ⟨h.codes, h.noted, h.sent, h.reads⟩
  | subscribe p event action => exact absurd (of_decide_eq_true hconcerns) hkeeps
  | close p => exact absurd (of_decide_eq_true hconcerns) hkeeps
  | put_event event data hlength => exact huser.elim
  | notify event => exact huser.elim
  | read_get p => exact h.read

/-- The calls of an interrupt, one after the other. -/
theorem FifoStream.calls {calls : List isr_call}
    (hnotify : ∀ event : Int, .notify event ∈ calls → EVR_MAPRAM_EVENT_CODES ≤ event)
    (h : FifoStream codes records st) :
    FifoStream codes (records ++ calls.filterMap (call_record codes))
      (stream_run ptr st (calls.map isr_call.op)) := by
  induction calls generalizing st records with
  | nil =>
    rw [List.filterMap_nil, List.append_nil]
    exact h
  | cons call calls ih =>
    have htail : ∀ event : Int, .notify event ∈ calls → EVR_MAPRAM_EVENT_CODES ≤ event :=
      fun event hmem => hnotify event (List.mem_cons_of_mem _ hmem)
    rw [List.map_cons, stream_run_cons]
    cases call with
    | put_event event data hlength =>
      have hsent := ih htail (h.send event data hlength)
      rw [List.append_assoc] at hsent
      rw [List.filterMap_cons]
      cases hrecord : call_record codes (.put_event event data hlength) with
      | none =>
        rw [hrecord] at hsent
        exact hsent
      | some r =>
        rw [hrecord] at hsent
        exact hsent
    | notify event => exact ih htail (h.note (hnotify event List.mem_cons_self))

theorem isr_notify_ge {irq_flags : BitVec 32} {event : Int}
    (hmem : .notify event ∈ isr_notify irq_flags) : EVR_MAPRAM_EVENT_CODES ≤ event := by
  unfold isr_notify at hmem
  simp only [List.mem_append, List.mem_ite_nil_right, List.mem_singleton, isr_call.notify.injEq]
    at hmem
  rcases hmem with ((⟨-, rfl⟩ | ⟨-, rfl⟩) | ⟨-, rfl⟩) | ⟨-, rfl⟩ <;> decide

/-- No code of the FIFO is notified. -/
theorem irq_exec_notify {c : irq_card D} {s : irq_state D} {a : irq_op} {event : Int}
    (hmem : .notify event ∈ (irq_exec c s a).2) : EVR_MAPRAM_EVENT_CODES ≤ event := by
  cases a with
  | isr =>
    simp only [irq_exec, hw_support_evr_isr, isr_databuf_branch, List.mem_append] at hmem
    rcases hmem with (hmem | hmem) | hmem
    · split_ifs at hmem
      · cases List.mem_singleton.mp hmem
      · cases hmem
    · obtain ⟨e, -, he⟩ := List.mem_map.mp hmem
      cases he
    · exact isr_notify_ge hmem
  | read32 reg hreg => cases hmem
  | write32 reg val hwrite => cases hmem

/-- Along the whole way, the stream of a VIRT_DEV is sent the records of what the interrupts
put with one of its codes. -/
theorem FifoStream.path {c : irq_card D} {s : irq_state D} {ops : List path_op}
    (hkeeps : ∀ a huser, .user a huser ∈ ops → KeepsCodes ptr a)
    (h : FifoStream codes records st) :
    FifoStream codes (records ++ (irq_run c s (irq_ops ops)).2.filterMap (call_record codes))
      (stream_run ptr st (path_delivery c s ops)) := by
  induction ops generalizing s st records with
  | nil =>
    rw [irq_ops, irq_run, List.filterMap_nil, List.append_nil]
    exact h
  | cons a ops ih =>
    have htail : ∀ a huser, .user a huser ∈ ops → KeepsCodes ptr a :=
      fun a huser hmem => hkeeps a huser (List.mem_cons_of_mem _ hmem)
    cases a with
    | irq a =>
      simp only [irq_ops, irq_run, path_delivery]
      rw [stream_run_append, List.filterMap_append, ← List.append_assoc]
      exact ih htail (h.calls fun event hmem => irq_exec_notify hmem)
    | user a huser =>
      rw [irq_ops, path_delivery, stream_run_cons]
      split_ifs with hconcerns
      · exact ih htail (h.user huser (hkeeps a huser List.mem_cons_self) hconcerns)
      · exact ih htail h

theorem call_record_put (e : evr_fifo_event) :
    call_record codes e.put = if codes e.index then some e.record else none := by
  have hlt : e.event.toNat < 256 := e.event.isLt
  have hindex : event_index (e.event.toNat : Int) = some e.index := event_index_natCast e.index
  simp only [evr_fifo_event.put, call_record, hindex, evr_fifo_event.record]
  split_ifs with hboth hcode hcode
  · rfl
  · exact absurd hboth.2 hcode
  · exact absurd ⟨hlt, hcode⟩ hboth
  · rfl

theorem fifo_records_append (events events' : List evr_fifo_event) :
    fifo_records codes (events ++ events') = fifo_records codes events ++ fifo_records codes events' := by
  unfold fifo_records
  rw [List.filter_append, List.map_append]

theorem filterMap_call_record_puts (events : List evr_fifo_event) :
    (events.map evr_fifo_event.put).filterMap (call_record codes) = fifo_records codes events := by
  induction events with
  | nil => rfl
  | cons e events ih =>
    rw [List.map_cons, List.filterMap_cons, call_record_put, ih, fifo_records, fifo_records,
      List.filter_cons]
    split_ifs
    · rfl
    · rfl

/-- Only the events of the FIFO count. -/
theorem filterMap_call_record {calls : List isr_call} {events : List evr_fifo_event}
    (hputs : calls.filter isr_call.from_fifo = events.map evr_fifo_event.put) :
    calls.filterMap (call_record codes) = fifo_records codes events := by
  rw [← filterMap_call_record_puts, ← hputs, List.filterMap_filter]
  congr 1
  funext call
  cases call with
  | notify event => rfl
  | put_event event data hlength =>
    by_cases hfifo : event < EVR_MAPRAM_EVENT_CODES
    · exact (if_pos (decide_eq_true hfifo)).symm
    · simp only [isr_call.from_fifo, hfifo, decide_false, Bool.false_eq_true, if_false, call_record]
      cases hindex : event_index event with
      | none => rfl
      | some i =>
        rw [event_index_eq_some hindex] at hfifo
        exact if_neg fun h => hfifo (Int.ofNat_lt.mpr h.1)

end

/-- From the card to the reader, where nothing is lost: for a VIRT_DEV whose subscriptions
stay, what its readers have got, what waits in its queue and what waits in the card make up, in
this order, what waited in its queue and in the card at first and what the card has saved
since, of the codes that it is subscribed to. -/
theorem fifo_to_reader {hs : modac_hw_support_def H A O} {des : modac_mngdev_des} {hw : H}
    {hw_res_defs : List modac_hw_res_def} {s₀ s : modac_state H}
    (hcreate : modac_mngdev_create hs des hw hw_res_defs = .ok s₀) {before : List (op A)}
    (hbefore : run (step hs) s₀ before = some s) {m : mngdev_data H} (hm : s.mngdev = some m)
    {v₀ : modac_vdev_des} (hv₀ : v₀ ∈ m.vdev_list)
    (hnoted : ∀ i : Fin EVENT_LIST_TYPE_MAX_EVENTS, v₀.notified_events i = true →
      EVR_MAPRAM_EVENT_CODES ≤ i)
    (c : fifo_card D) (d : irq_state D) {ops : List path_op}
    (hkeeps : ∀ a huser, .user a huser ∈ ops → KeepsCodes v₀.ptr a)
    (hlost : .notify EVRMA_EVENT_ERROR_LOST ∉ (irq_run c.toirq_card d (irq_ops ops)).2)
    (hroomy : StepsMeet (delivery_step hs) (QueueRoomy v₀.ptr) ⟨m, fun _ => []⟩
      (path_delivery c.toirq_card d ops))
    {t : delivery_state H}
    (hrun : run (delivery_step hs) ⟨m, fun _ => []⟩ (path_delivery c.toirq_card d ops) = some t) :
    let codes : event_list_type := fun i => decide (subscribed m.event_dispatch_list v₀.ptr i)
    let d' := (irq_run c.toirq_card d (irq_ops ops)).1.card
    ∃ v more, vdev_at t.mngdev v₀.ptr = some v ∧
      (c.feed d').saved = (c.feed d.card).saved ++ more ∧
      (t.reads v₀.ptr).filter fifo_record ++ v.cb_events.records.filter fifo_record ++
          fifo_records codes (c.feed d').waiting =
        v₀.cb_events.records.filter fifo_record ++
          fifo_records codes ((c.feed d.card).waiting ++ more) := by
  intro codes d'
  obtain ⟨hinv, -, hstart⟩ := delivered_start hcreate hbefore hm hv₀
  obtain ⟨v, hv, hdelivered⟩ := hstart.run hinv hroomy hrun
  obtain ⟨events, htakes⟩ := irq_run_takes c d (irq_ops ops)
  obtain ⟨more, hsaved, hwaiting⟩ := htakes.drains hlost
  have hfifo : FifoStream codes [] (stream_of m (fun _ => []) v₀) := ⟨rfl, hnoted, rfl, rfl⟩
  have hpath := hfifo.path (c := c.toirq_card) (s := d) hkeeps
  rw [List.nil_append, filterMap_call_record htakes.puts] at hpath
  have hqueue : (stream_of m (fun _ => []) v₀).taken ++ (stream_of m (fun _ => []) v₀).pending =
      v₀.cb_events.records ++ (stream_of m (fun _ => []) v₀).sent :=
    (List.append_nil v₀.cb_events.records).symm
  have horder := vdev_stream.fifo_run hqueue v₀.ptr (path_delivery c.toirq_card d ops)
  have hptr : v.ptr = v₀.ptr := (vdev_at_mem hv).2
  have hreads := hdelivered.reads
  rw [hptr] at hreads
  refine ⟨v, more, hv, hsaved, ?_⟩
  rw [hwaiting, fifo_records_append, ← List.append_assoc]
  congr 1
  rw [← hreads, hpath.reads, ← hdelivered.pending, ← List.filter_append, horder,
    List.filter_append, hpath.sent]

/-- An interrupt comes while the event 40 waits, and the VIRT_DEV is read. -/
def interrupt_and_read : List path_op := [.irq .isr, .user (.read_get 0) trivial]

/-- No queue has more than 1021 pending records. -/
def roomy_check (s : delivery_state H) (_ : delivery_op) : Bool :=
  s.mngdev.vdev_list.all fun v => decide (used v.cb_events.head v.cb_events.tail ≤ 1021)

theorem queueRoomy_of_check (ptr : Nat) (s : delivery_state H) (a : delivery_op)
    (hcheck : roomy_check s a = true) : QueueRoomy ptr s a := by
  intro _ _ _ _ _ v hv
  rw [modac_circ_buf.records_length]
  exact of_decide_eq_true (List.all_eq_true.mp hcheck v (vdev_at_mem hv).1)

/-- What the witness needs of the MNG_DEV at the beginning. -/
def ready_to_read (m : mngdev_data (evr_hw_data Bool)) : Bool :=
  m.vdev_list.any (fun v => decide (v.ptr = 0) && event_list_is_empty v.notified_events) &&
    (run (delivery_step (hw_support_evr PAGE_SIZE (some lattice_irq_set))) ⟨m, fun _ => []⟩
      (path_delivery queue_card.toirq_card ⟨two_events, ⟨fun _ => 0, []⟩⟩
        interrupt_and_read)).isSome &&
    steps_check (delivery_step (hw_support_evr PAGE_SIZE (some lattice_irq_set))) roomy_check
      ⟨m, fun _ => []⟩ (path_delivery queue_card.toirq_card ⟨two_events, ⟨fun _ => 0, []⟩⟩
        interrupt_and_read)

theorem fifo_to_reader_40 :
    ∃ (s₀ s : modac_state (evr_hw_data Bool)) (m : mngdev_data (evr_hw_data Bool))
      (t : delivery_state (evr_hw_data Bool)) (v₀ v : modac_vdev_des) (more : List evr_fifo_event),
      evr_mngdev_create PAGE_SIZE (some lattice_irq_set) first_mngdev lattice_card = .ok s₀ ∧
      run (step (hw_support_evr PAGE_SIZE (some lattice_irq_set))) s₀
        (open_vdev ++ [subscribe_to 40]) = some s ∧
      s.mngdev = some m ∧ v₀ ∈ m.vdev_list ∧
      run (delivery_step (hw_support_evr PAGE_SIZE (some lattice_irq_set))) ⟨m, fun _ => []⟩
        (path_delivery queue_card.toirq_card ⟨two_events, ⟨fun _ => 0, []⟩⟩ interrupt_and_read) =
          some t ∧
      (t.reads v₀.ptr).filter fifo_record ++ v.cb_events.records.filter fifo_record ++
          fifo_records (fun i => decide (subscribed m.event_dispatch_list v₀.ptr i))
            (queue_card.feed (irq_run queue_card.toirq_card ⟨two_events, ⟨fun _ => 0, []⟩⟩
              (irq_ops interrupt_and_read)).1.card).waiting =
        v₀.cb_events.records.filter fifo_record ++
          fifo_records (fun i => decide (subscribed m.event_dispatch_list v₀.ptr i))
            ((queue_card.feed two_events).waiting ++ more) := by
  obtain ⟨s₀, hcreate, hready⟩ : ∃ s₀,
      evr_mngdev_create PAGE_SIZE (some lattice_irq_set) first_mngdev lattice_card = .ok s₀ ∧
        ((run (step (hw_support_evr PAGE_SIZE (some lattice_irq_set))) s₀
          (open_vdev ++ [subscribe_to 40])).any fun s => s.mngdev.any ready_to_read) = true :=
    ⟨_, rfl, by decide +kernel⟩
  rw [Option.any_eq_true] at hready
  obtain ⟨s, hbefore, hs⟩ := hready
  rw [Option.any_eq_true] at hs
  obtain ⟨m, hm, hm'⟩ := hs
  simp only [ready_to_read, Bool.and_eq_true, List.any_eq_true, decide_eq_true_eq,
    event_list_is_empty_eq_true, Option.isSome_iff_exists] at hm'
  obtain ⟨⟨⟨v₀, hv₀, -, hempty⟩, t, hrun⟩, hcheck⟩ := hm'
  have hnoted : ∀ i : Fin EVENT_LIST_TYPE_MAX_EVENTS, v₀.notified_events i = true →
      EVR_MAPRAM_EVENT_CODES ≤ i := by
    intro i hi
    rw [hempty i] at hi
    exact absurd hi Bool.false_ne_true
  have hkeeps : ∀ a huser, .user a huser ∈ interrupt_and_read → KeepsCodes v₀.ptr a := by
    intro a huser hmem
    rcases List.mem_cons.mp hmem with heq | hmem
    · cases heq
    · cases List.mem_singleton.mp hmem
      trivial
  have hlost : .notify EVRMA_EVENT_ERROR_LOST ∉ (irq_run queue_card.toirq_card
      ⟨two_events, ⟨fun _ => 0, []⟩⟩ (irq_ops interrupt_and_read)).2 := by decide +kernel
  obtain ⟨v, more, -, -, horder⟩ := fifo_to_reader hcreate hbefore hm hv₀ hnoted queue_card
    ⟨two_events, ⟨fun _ => 0, []⟩⟩ hkeeps hlost (stepsMeet_of_check (queueRoomy_of_check v₀.ptr) hcheck)
    hrun
  exact ⟨s₀, s, m, t, v₀, v, more, hcreate, hbefore, hm, hv₀, hrun, horder⟩

end evrma.evr
