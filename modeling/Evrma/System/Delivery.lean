import Evrma.PacketQueue.Fifo
import Evrma.System.Subscribers
import Evrma.VirtDev.Reads

namespace evrma.system

open evrma.event_list evrma.ioctl evrma.lib evrma.mng_dev evrma.packet_queue evrma.virt_dev

variable {H A O : Type}

/-- A MNG_DEV, with everything that the calls of `read_get` of each VIRT_DEV have
returned. -/
structure delivery_state (H : Type) where
  mngdev : mngdev_data H
  reads : Nat → List cb_read

/-- An open that succeeds, and a SUBSCRIBE ioctl that gets to its action, which may be any
of the three. A close is one of a VIRT_DEV's file up to the place where the reference is
given back; it may be the last one. -/
inductive delivery_op where
  | open_file (ptr : Nat) (i : inode) (kmalloc : Bool)
  | subscribe (ptr : Nat) (event : Int) (action : BitVec 8)
  | close (ptr : Nat)
  | put_event (event : Int) (data : List (BitVec 8))
      (hlength : data.length ≤ CBUF_EVENT_ENTRY_DATA_LENGTH)
  | notify (event : Int)
  | read_get (ptr : Nat)

def delivery_step (hs : modac_hw_support_def H A O) (s : delivery_state H) :
    delivery_op → Option (delivery_state H)
  | .open_file ptr i kmalloc =>
    let (mngdev, ret) := modac_c_vdev_on_open s.mngdev ptr i kmalloc
    if ret = 0 then some { s with mngdev } else none
  | .subscribe ptr event action =>
    (vdev_at s.mngdev ptr).map fun _ =>
      { s with mngdev := (modac_c_vdev_subscribe hs s.mngdev ptr event action).1 }
  | .close ptr =>
    (vdev_at s.mngdev ptr).map fun v => { s with mngdev := vdev_leave hs s.mngdev v }
  | .put_event event data _ =>
    some { s with mngdev := modac_mngdev_put_event s.mngdev event data }
  | .notify event => some { s with mngdev := modac_mngdev_notify s.mngdev event }
  | .read_get ptr =>
    (vdev_at s.mngdev ptr).map fun v =>
      { mngdev := update_vdev s.mngdev ptr fun v => (read_get v).1
        reads := Function.update s.reads ptr (s.reads ptr ++ (read_get v).2.toList) }

/-- What a VIRT_DEV should get. Of the events that are put, `sent` are the ones that were
put while it was subscribed to them, `taken` and `pending` what its reader took from the
queue and has not taken yet. -/
structure vdev_stream where
  codes : event_list_type
  usage_counter : Int
  noted : event_list_type
  sent : List cb_read
  taken : List cb_read
  pending : List cb_read
  reads : List cb_read

/-- The code and the bytes of an event, as a reader gets them. -/
def event_record (i : Fin EVENT_LIST_TYPE_MAX_EVENTS) (data : List (BitVec 8)) : cb_read where
  event := BitVec.ofNat 16 i
  data := data
  n := 2 + data.length

def change_codes (codes : event_list_type) (event : Int) (action : BitVec 8) : event_list_type :=
  if action = VIRT_DEV_IOCTL_SUBSCRIBE_ACTION_SUBSCRIBE then event_list_add codes event
  else if action = VIRT_DEV_IOCTL_SUBSCRIBE_ACTION_UNSUBSCRIBE then event_list_remove codes event
  else if action = VIRT_DEV_IOCTL_SUBSCRIBE_ACTION_CLEAR then event_list_clear
  else codes

/-- The last close ends the subscriptions. -/
def vdev_stream.close (st : vdev_stream) : vdev_stream :=
  { st with
    usage_counter := st.usage_counter - 1
    codes := if st.usage_counter - 1 < 1 then event_list_clear else st.codes }

def vdev_stream.send (st : vdev_stream) (event : Int) (data : List (BitVec 8)) : vdev_stream :=
  match event_index event with
  | none => st
  | some i =>
    if st.codes i then
      { st with
        sent := st.sent ++ [event_record i data]
        pending := st.pending ++ [event_record i data] }
    else st

def vdev_stream.note (st : vdev_stream) (event : Int) : vdev_stream :=
  if event_list_test st.codes event then { st with noted := event_list_add st.noted event } else st

/-- Notified codes come first. -/
def vdev_stream.read (st : vdev_stream) : vdev_stream :=
  let event := event_list_extract_one st.noted
  if 0 ≤ event then
    { st with
      noted := event_list_remove st.noted event
      reads := st.reads ++ [{ event := BitVec.ofInt 16 event, data := [], n := 2 }] }
  else
    match st.pending with
    | [] => st
    | r :: pending =>
      { st with pending, taken := st.taken ++ [r], reads := st.reads ++ [r] }

/-- The operations that matter for the VIRT_DEV at an address. -/
def delivery_op.concerns (ptr : Nat) : delivery_op → Bool
  | .open_file p _ _ | .subscribe p _ _ | .close p | .read_get p => p = ptr
  | .put_event _ _ _ | .notify _ => true

/-- An operation that concerns the VIRT_DEV. -/
def stream_step (st : vdev_stream) : delivery_op → vdev_stream
  | .open_file _ _ _ => { st with usage_counter := st.usage_counter + 1 }
  | .subscribe _ event action => { st with codes := change_codes st.codes event action }
  | .close _ => st.close
  | .put_event event data _ => st.send event data
  | .notify event => st.note event
  | .read_get _ => st.read

/-- What the VIRT_DEV should get in a run that begins with this stream. -/
def stream_run (ptr : Nat) (st : vdev_stream) (ops : List delivery_op) : vdev_stream :=
  (ops.filter fun a => a.concerns ptr).foldl stream_step st

/-- The VIRT_DEV at the beginning of a run. -/
def stream_of (m : mngdev_data H) (reads : Nat → List cb_read) (v : modac_vdev_des) :
    vdev_stream where
  codes i := decide (subscribed m.event_dispatch_list v.ptr i)
  usage_counter := v.usage_counter
  noted := v.notified_events
  sent := []
  taken := []
  pending := v.cb_events.records
  reads := reads v.ptr

/-- The VIRT_DEV got what the stream says. -/
structure Delivered (s : delivery_state H) (v : modac_vdev_des) (st : vdev_stream) : Prop where
  codes : ∀ i, st.codes i = true ↔ subscribed s.mngdev.event_dispatch_list v.ptr i
  usage_counter : st.usage_counter = v.usage_counter
  noted : st.noted = v.notified_events
  pending : st.pending = v.cb_events.records
  reads : st.reads = s.reads v.ptr

/-- The rows of the table hold only VIRT_DEVs, which are few enough for them. -/
structure DispatchInv (m : mngdev_data H) : Prop where
  few : (m.vdev_list.map modac_vdev_des.ptr).length ≤ EVENT_DISPATCH_LIST_MAX_SUBSCRIBERS
  rows : RowsFilled m.event_dispatch_list
  live : ∀ ptr i, subscribed m.event_dispatch_list ptr i →
    ptr ∈ m.vdev_list.map modac_vdev_des.ptr

/-- No queue has more than 1021 pending records when an event is put. -/
def QueuesRoomy (s : delivery_state H) (a : delivery_op) : Prop :=
  ∀ event data hlength, a = .put_event event data hlength →
    ∀ v ∈ s.mngdev.vdev_list, v.cb_events.records.length ≤ 1021

/-- The queue of the VIRT_DEV at this address has no more than 1021 pending records when an
event that the VIRT_DEV is subscribed to is put. -/
def QueueRoomy (ptr : Nat) (s : delivery_state H) (a : delivery_op) : Prop :=
  ∀ event data hlength, a = .put_event event data hlength →
    ptr ∈ event_dispatch_list_for_all_subscribers s.mngdev.event_dispatch_list event →
      ∀ v, vdev_at s.mngdev ptr = some v → v.cb_events.records.length ≤ 1021

theorem QueuesRoomy.queueRoomy {s : delivery_state H} {a : delivery_op} (h : QueuesRoomy s a)
    (ptr : Nat) : QueueRoomy ptr s a :=
  fun event data hlength hput _ v hv => h event data hlength hput v (vdev_at_mem hv).1

section

variable {m : mngdev_data H}

theorem update_vdev_ptrs (ptr : Nat) {f : modac_vdev_des → modac_vdev_des}
    (hf : ∀ v, (f v).ptr = v.ptr) :
    (update_vdev m ptr f).vdev_list.map modac_vdev_des.ptr =
      m.vdev_list.map modac_vdev_des.ptr := by
  simp only [update_vdev, List.map_map]
  refine List.map_congr_left fun v _ => ?_
  simp only [Function.comp_apply]
  split_ifs
  · exact hf v
  · rfl

theorem vdev_at_update (ptr p : Nat) {f : modac_vdev_des → modac_vdev_des}
    (hf : ∀ v, (f v).ptr = v.ptr) :
    vdev_at (update_vdev m ptr f) p =
      (vdev_at m p).map fun v => if p = ptr then f v else v := by
  have hpred : (fun v : modac_vdev_des => decide (v.ptr = p)) ∘
      (fun v => if v.ptr = ptr then f v else v) = fun v => decide (v.ptr = p) := by
    funext v
    simp only [Function.comp_apply]
    split_ifs
    · rw [hf]
    · rfl
  simp only [vdev_at, update_vdev, List.find?_map, hpred]
  refine Option.map_congr fun v hv => ?_
  have hptr : v.ptr = p := by simpa using List.find?_some hv
  rw [hptr]

theorem vdev_at_update_some (ptr : Nat) {p : Nat} {v : modac_vdev_des} (hv : vdev_at m p = some v)
    {f : modac_vdev_des → modac_vdev_des} (hf : ∀ v, (f v).ptr = v.ptr) :
    vdev_at (update_vdev m ptr f) p = some (if p = ptr then f v else v) := by
  rw [vdev_at_update ptr p hf, hv, Option.map_some]

theorem process_ptrs (event : Int) {f : modac_vdev_des → modac_vdev_des}
    (hf : ∀ v, (f v).ptr = v.ptr) :
    (modac_mngdev_process_event m event f).vdev_list.map modac_vdev_des.ptr =
      m.vdev_list.map modac_vdev_des.ptr := by
  unfold modac_mngdev_process_event
  induction event_dispatch_list_for_all_subscribers m.event_dispatch_list event
    generalizing m with
  | nil => rfl
  | cons ptr ptrs ih =>
    rw [List.foldl_cons, ih, update_vdev_ptrs ptr hf]

theorem process_event_dispatch_list (event : Int) (f : modac_vdev_des → modac_vdev_des) :
    (modac_mngdev_process_event m event f).event_dispatch_list = m.event_dispatch_list := by
  unfold modac_mngdev_process_event
  induction event_dispatch_list_for_all_subscribers m.event_dispatch_list event
    generalizing m with
  | nil => rfl
  | cons ptr ptrs ih =>
    rw [List.foldl_cons, ih]
    rfl

/-- A callback for each address, none of them twice, changes each VIRT_DEV there once. -/
theorem vdev_at_foldl_update {f : modac_vdev_des → modac_vdev_des} (hf : ∀ v, (f v).ptr = v.ptr)
    (p : Nat) {ptrs : List Nat} (hnodup : ptrs.Nodup) :
    vdev_at (ptrs.foldl (fun m ptr => update_vdev m ptr f) m) p =
      (vdev_at m p).map fun v => if p ∈ ptrs then f v else v := by
  induction ptrs generalizing m with
  | nil => simp
  | cons ptr ptrs ih =>
    obtain ⟨hnotMem, hnodup⟩ := List.nodup_cons.mp hnodup
    rw [List.foldl_cons, ih hnodup, vdev_at_update ptr p hf, Option.map_map]
    refine Option.map_congr fun v _ => ?_
    simp only [Function.comp_apply, List.mem_cons]
    by_cases hptr : p = ptr
    · subst hptr
      rw [if_pos rfl, if_neg hnotMem, if_pos (.inl rfl)]
    · rw [if_neg hptr]
      simp only [hptr, false_or]

end

theorem event_list_add_eq_true (codes : event_list_type) (event : Int)
    (i : Fin EVENT_LIST_TYPE_MAX_EVENTS) :
    event_list_add codes event i = true ↔ codes i = true ∨ event_index event = some i := by
  unfold event_list_add
  cases event_index event with
  | none => simp
  | some j =>
    rcases eq_or_ne i j with rfl | hne
    · simp
    · simp [hne, hne.symm]

theorem event_list_remove_eq_true (codes : event_list_type) (event : Int)
    (i : Fin EVENT_LIST_TYPE_MAX_EVENTS) :
    event_list_remove codes event i = true ↔ codes i = true ∧ ¬ event_index event = some i := by
  unfold event_list_remove
  cases event_index event with
  | none => simp
  | some j =>
    rcases eq_or_ne i j with rfl | hne
    · simp
    · simp [hne, hne.symm]

/-- The codes of a VIRT_DEV change as the table does. -/
theorem change_codes_apply {subs : Nat → Fin EVENT_LIST_TYPE_MAX_EVENTS → Prop}
    {codes : event_list_type} {ptr : Nat} (hcodes : ∀ i, codes i = true ↔ subs ptr i)
    (event : Int) (action : BitVec 8) (i : Fin EVENT_LIST_TYPE_MAX_EVENTS) :
    change_codes codes event action i = true ↔
      (action_request ptr event action).apply subs ptr i := by
  unfold change_codes action_request
  split_ifs
  · rw [event_list_add_eq_true, hcodes]
    simp [subscription_request.apply]
  · rw [event_list_remove_eq_true, hcodes]
    simp [subscription_request.apply]
  · simp [subscription_request.apply, event_list_clear]
  · exact hcodes i

/-- A VIRT_DEV only changes its own subscriptions. -/
theorem action_request_apply_of_ne {subs : Nat → Fin EVENT_LIST_TYPE_MAX_EVENTS → Prop}
    {ptr p : Nat} (hne : p ≠ ptr) (event : Int) (action : BitVec 8)
    (i : Fin EVENT_LIST_TYPE_MAX_EVENTS) :
    (action_request ptr event action).apply subs p i ↔ subs p i := by
  unfold action_request
  split_ifs <;> simp [subscription_request.apply, hne]

/-- The callback is called for a VIRT_DEV if and only if the event is one of its codes. -/
theorem Delivered.mem_subscribers {s : delivery_state H} {v : modac_vdev_des} {st : vdev_stream}
    (h : Delivered s v st) (hrows : RowsFilled s.mngdev.event_dispatch_list) (event : Int) :
    v.ptr ∈ event_dispatch_list_for_all_subscribers s.mngdev.event_dispatch_list event ↔
      event_list_test st.codes event = true := by
  rw [(hrows.for_all_subscribers event).2]
  unfold event_list_test
  cases event_index event with
  | none => simp
  | some i => simp [h.codes i]

theorem read_get_ptr (v : modac_vdev_des) : (read_get v).1.ptr = v.ptr :=
  congrArg vdev_usage.ptr (read_get_usage v)

theorem read_get_usage_counter (v : modac_vdev_des) :
    (read_get v).1.usage_counter = v.usage_counter :=
  congrArg vdev_usage.usage_counter (read_get_usage v)

theorem vdev_stream.read_notified {st : vdev_stream}
    (hevent : 0 ≤ event_list_extract_one st.noted) :
    st.read =
      { st with
        noted := event_list_remove st.noted (event_list_extract_one st.noted)
        reads := st.reads ++
          [{ event := BitVec.ofInt 16 (event_list_extract_one st.noted), data := [], n := 2 }] } := by
  unfold vdev_stream.read
  generalize event_list_extract_one st.noted = event at hevent ⊢
  exact if_pos hevent

theorem vdev_stream.read_nil {st : vdev_stream} (hevent : ¬ 0 ≤ event_list_extract_one st.noted)
    (hpending : st.pending = []) : st.read = st := by
  unfold vdev_stream.read
  rw [hpending]
  generalize event_list_extract_one st.noted = event at hevent ⊢
  exact if_neg hevent

theorem vdev_stream.read_cons {st : vdev_stream} (hevent : ¬ 0 ≤ event_list_extract_one st.noted)
    {r : cb_read} {pending : List cb_read} (hpending : st.pending = r :: pending) :
    st.read = { st with pending, taken := st.taken ++ [r], reads := st.reads ++ [r] } := by
  unfold vdev_stream.read
  rw [hpending]
  generalize event_list_extract_one st.noted = event at hevent ⊢
  exact if_neg hevent

/-- A read takes from the notified events and the queue what the stream says. -/
theorem vdev_stream.read_spec {st : vdev_stream} {v : modac_vdev_des}
    (hnoted : st.noted = v.notified_events) (hpending : st.pending = v.cb_events.records) :
    st.read.noted = (read_get v).1.notified_events ∧
      st.read.pending = (read_get v).1.cb_events.records ∧
      st.read.reads = st.reads ++ (read_get v).2.toList ∧
      st.read.codes = st.codes ∧ st.read.usage_counter = st.usage_counter := by
  by_cases hevent : 0 ≤ event_list_extract_one st.noted
  · rw [vdev_stream.read_notified hevent, read_get_notified (hnoted ▸ hevent), hnoted]
    exact ⟨rfl, hpending, rfl, rfl, rfl⟩
  · obtain ⟨hgot, hrest, -⟩ := modac_cb_get_spec v.cb_events
    rw [← hpending] at hgot hrest
    rcases hget : modac_cb_get v.cb_events with ⟨cb_events, got⟩
    rw [hget] at hgot hrest
    rw [read_get_queued (hnoted ▸ hevent) hget]
    dsimp only at hgot hrest
    cases hlist : st.pending with
    | nil =>
      rw [hlist] at hgot hrest
      rw [vdev_stream.read_nil hevent hlist, hgot]
      exact ⟨hnoted, hlist.trans hrest.symm, (List.append_nil _).symm, rfl, rfl⟩
    | cons r pending =>
      rw [hlist] at hgot hrest
      rw [vdev_stream.read_cons hevent hlist, hgot]
      exact ⟨hnoted, hrest.symm, rfl, rfl, rfl⟩

/-- What a close does before the reference is given back. -/
theorem vdev_leave_eq (hs : modac_hw_support_def H A O) (m : mngdev_data H) (v : modac_vdev_des) :
    ∃ hw, vdev_leave hs m v =
      { update_vdev m v.ptr (fun v => { v with usage_counter := v.usage_counter - 1 }) with
        event_dispatch_list :=
          if v.usage_counter - 1 < 1 then
            event_dispatch_list_remove_all m.event_dispatch_list v.ptr
          else m.event_dispatch_list
        hw } := by
  unfold vdev_leave
  dsimp only
  by_cases hlast : v.usage_counter - 1 < 1
  · simp only [if_pos hlast, mngdev_event_dispatch_list_remove_all]
    split_ifs
    · obtain ⟨hw, heq⟩ := on_subscribe_change_eq hs _
      exact ⟨hw, heq⟩
    · obtain ⟨hw, heq⟩ := on_subscribe_change_eq hs _
      exact ⟨hw, heq⟩
  · simp only [if_neg hlast]
    exact ⟨m.hw, rfl⟩

theorem modac_c_vdev_on_open_eq {m : mngdev_data H} {ptr : Nat} {i : inode} {kmalloc : Bool}
    (hret : (modac_c_vdev_on_open m ptr i kmalloc).2 = 0) :
    ∃ ref, (modac_c_vdev_on_open m ptr i kmalloc).1 =
      { update_vdev m ptr (fun v => { v with usage_counter := v.usage_counter + 1 }) with ref } := by
  unfold modac_c_vdev_on_open at hret ⊢
  dsimp only at hret ⊢
  split_ifs at hret ⊢ with hget
  · exact absurd hret hget
  · exact ⟨_, rfl⟩

theorem DispatchInv.of_same {m m' : mngdev_data H} (h : DispatchInv m)
    (hptrs : m'.vdev_list.map modac_vdev_des.ptr = m.vdev_list.map modac_vdev_des.ptr)
    (hlist : m'.event_dispatch_list = m.event_dispatch_list) : DispatchInv m' where
  few := hptrs ▸ h.few
  rows := hlist ▸ h.rows
  live := by
    rw [hptrs, hlist]
    exact h.live

theorem DispatchInv.add_ret {m : mngdev_data H} (h : DispatchInv m) {ptr : Nat}
    {v : modac_vdev_des} (hv : vdev_at m ptr = some v) (event : Int) :
    (event_dispatch_list_add m.event_dispatch_list ptr event).2 =
      if (event_index event).isSome then 0 else -EINVAL := by
  obtain ⟨hmem, rfl⟩ := vdev_at_mem hv
  exact h.rows.add_ret v.ptr event fun _ _ _ hxs =>
    room_of_live h.few h.live (List.mem_map_of_mem hmem) hxs

theorem DispatchInv.step {hs : modac_hw_support_def H A O} {s t : delivery_state H}
    {a : delivery_op} (h : DispatchInv s.mngdev) (hstep : delivery_step hs s a = some t) :
    DispatchInv t.mngdev := by
  cases a with
  | open_file ptr i kmalloc =>
    simp only [delivery_step] at hstep
    split_ifs at hstep with hret
    obtain rfl := Option.some.inj hstep
    obtain ⟨ref, heq⟩ := modac_c_vdev_on_open_eq hret
    dsimp only
    rw [heq]
    exact h.of_same (update_vdev_ptrs ptr fun _ => rfl) rfl
  | subscribe ptr event action =>
    obtain ⟨v, hv, rfl⟩ := Option.map_eq_some_iff.mp hstep
    obtain ⟨hw, heq⟩ := modac_c_vdev_subscribe_eq hs s.mngdev ptr event action
    obtain ⟨hrows, happly⟩ := subscriptions_after_apply h.rows ptr event action (h.add_ret hv event)
    obtain ⟨hmem, hptr⟩ := vdev_at_mem hv
    dsimp only
    rw [heq]
    refine ⟨h.few, hrows, fun p i hsub => ?_⟩
    rcases eq_or_ne p ptr with rfl | hne
    · exact List.mem_map.mpr ⟨v, hmem, hptr⟩
    · exact h.live p i ((action_request_apply_of_ne hne event action i).mp ((happly p i).mp hsub))
  | close ptr =>
    obtain ⟨v, hv, rfl⟩ := Option.map_eq_some_iff.mp hstep
    obtain ⟨hw, heq⟩ := vdev_leave_eq hs s.mngdev v
    have hptrs := update_vdev_ptrs (m := s.mngdev) v.ptr
      (f := fun v => { v with usage_counter := v.usage_counter - 1 }) fun _ => rfl
    obtain ⟨hrows, hremoved⟩ := h.rows.remove_all v.ptr
    dsimp only
    rw [heq]
    split_ifs
    · refine ⟨hptrs ▸ h.few, hrows, fun p i hsub => ?_⟩
      dsimp only
      rw [hptrs]
      exact h.live p i ((hremoved p i).mp hsub).1
    · exact h.of_same hptrs rfl
  | put_event event data hlength =>
    obtain rfl := Option.some.inj hstep
    exact h.of_same (process_ptrs event fun _ => rfl) (process_event_dispatch_list event _)
  | notify event =>
    obtain rfl := Option.some.inj hstep
    exact h.of_same (process_ptrs event fun _ => rfl) (process_event_dispatch_list event _)
  | read_get ptr =>
    obtain ⟨v, hv, rfl⟩ := Option.map_eq_some_iff.mp hstep
    exact h.of_same (update_vdev_ptrs ptr read_get_ptr) rfl

theorem vdev_stream.send_of_test {st : vdev_stream} {event : Int}
    (htest : event_list_test st.codes event = true) (data : List (BitVec 8)) :
    st.send event data =
      { st with
        sent := st.sent ++ [{ event := BitVec.ofInt 16 event, data, n := 2 + data.length }]
        pending := st.pending ++
          [{ event := BitVec.ofInt 16 event, data, n := 2 + data.length }] } := by
  obtain ⟨i, rfl, hi⟩ := event_list_test_eq_true.mp htest
  rw [vdev_stream.send, event_index_natCast]
  dsimp only
  rw [if_pos hi, event_record, BitVec.ofInt_natCast]

theorem vdev_stream.send_of_not_test {st : vdev_stream} {event : Int}
    (htest : ¬ event_list_test st.codes event = true) (data : List (BitVec 8)) :
    st.send event data = st := by
  unfold event_list_test at htest
  unfold vdev_stream.send
  cases hindex : event_index event with
  | none => rfl
  | some i =>
    rw [hindex] at htest
    dsimp only at htest ⊢
    exact if_neg htest

/-- The callback of an event changes the VIRT_DEVs that are subscribed to it, once each. -/
theorem Delivered.vdev_at_process {s : delivery_state H} {v : modac_vdev_des} {st : vdev_stream}
    (h : Delivered s v st) (hrows : RowsFilled s.mngdev.event_dispatch_list)
    (hv : vdev_at s.mngdev v.ptr = some v) (event : Int) {f : modac_vdev_des → modac_vdev_des}
    (hf : ∀ v, (f v).ptr = v.ptr) :
    vdev_at (modac_mngdev_process_event s.mngdev event f) v.ptr =
      some (if event_list_test st.codes event = true then f v else v) := by
  unfold modac_mngdev_process_event
  rw [vdev_at_foldl_update hf v.ptr (hrows.for_all_subscribers event).1, hv, Option.map_some]
  simp only [h.mem_subscribers hrows event]

/-- Everything of the VIRT_DEV that the stream speaks of is as it was. -/
theorem Delivered.of_same {s t : delivery_state H} {v : modac_vdev_des} {st : vdev_stream}
    (h : Delivered s v st)
    (hcodes : ∀ i, subscribed t.mngdev.event_dispatch_list v.ptr i ↔
      subscribed s.mngdev.event_dispatch_list v.ptr i)
    (hreads : t.reads v.ptr = s.reads v.ptr) : Delivered t v st where
  codes i := (h.codes i).trans (hcodes i).symm
  usage_counter := h.usage_counter
  noted := h.noted
  pending := h.pending
  reads := h.reads.trans hreads.symm

/-- The VIRT_DEV at an address got what the stream says. -/
def DeliveredAt (s : delivery_state H) (ptr : Nat) (st : vdev_stream) : Prop :=
  ∃ v, vdev_at s.mngdev ptr = some v ∧ Delivered s v st

theorem DeliveredAt.open_file {s : delivery_state H} {ptr : Nat} {st : vdev_stream}
    (h : DeliveredAt s ptr st) {p : Nat} {i : inode} {kmalloc : Bool}
    (hret : (modac_c_vdev_on_open s.mngdev p i kmalloc).2 = 0) :
    DeliveredAt { s with mngdev := (modac_c_vdev_on_open s.mngdev p i kmalloc).1 } ptr
      (if p = ptr then stream_step st (.open_file p i kmalloc) else st) := by
  obtain ⟨v, hv, hdelivered⟩ := h
  obtain ⟨-, rfl⟩ := vdev_at_mem hv
  obtain ⟨ref, heq⟩ := modac_c_vdev_on_open_eq hret
  have hv' := vdev_at_update_some p hv
    (f := fun v => { v with usage_counter := v.usage_counter + 1 }) fun _ => rfl
  rw [heq]
  refine ⟨_, hv', ?_⟩
  by_cases hp : p = v.ptr
  · rw [if_pos hp, if_pos hp.symm]
    exact ⟨hdelivered.codes, congrArg (· + 1) hdelivered.usage_counter, hdelivered.noted,
      hdelivered.pending, hdelivered.reads⟩
  · rw [if_neg hp, if_neg (Ne.symm hp)]
    exact hdelivered.of_same (fun _ => Iff.rfl) rfl

theorem DeliveredAt.subscribe {hs : modac_hw_support_def H A O} {s : delivery_state H} {ptr : Nat}
    {st : vdev_stream} (h : DeliveredAt s ptr st) (hinv : DispatchInv s.mngdev) {p : Nat}
    {w : modac_vdev_des} (hw : vdev_at s.mngdev p = some w) (event : Int) (action : BitVec 8) :
    DeliveredAt { s with mngdev := (modac_c_vdev_subscribe hs s.mngdev p event action).1 } ptr
      (if p = ptr then stream_step st (.subscribe p event action) else st) := by
  obtain ⟨v, hv, hdelivered⟩ := h
  obtain ⟨-, rfl⟩ := vdev_at_mem hv
  obtain ⟨hw', heq⟩ := modac_c_vdev_subscribe_eq hs s.mngdev p event action
  have happly :=
    (subscriptions_after_apply hinv.rows p event action (hinv.add_ret hw event)).2 v.ptr
  rw [heq]
  refine ⟨v, hv, ?_⟩
  by_cases hp : p = v.ptr
  · subst hp
    rw [if_pos rfl]
    refine ⟨fun i => ?_, hdelivered.usage_counter, hdelivered.noted, hdelivered.pending,
      hdelivered.reads⟩
    exact (change_codes_apply hdelivered.codes event action i).trans (happly i).symm
  · rw [if_neg hp]
    refine hdelivered.of_same (fun i => ?_) rfl
    exact (happly i).trans (action_request_apply_of_ne (Ne.symm hp) event action i)

theorem DeliveredAt.close {hs : modac_hw_support_def H A O} {s : delivery_state H} {ptr : Nat}
    {st : vdev_stream} (h : DeliveredAt s ptr st) (hinv : DispatchInv s.mngdev) {p : Nat}
    {w : modac_vdev_des} (hw : vdev_at s.mngdev p = some w) :
    DeliveredAt { s with mngdev := vdev_leave hs s.mngdev w } ptr
      (if p = ptr then stream_step st (.close p) else st) := by
  obtain ⟨v, hv, hdelivered⟩ := h
  obtain ⟨-, rfl⟩ := vdev_at_mem hv
  obtain ⟨-, rfl⟩ := vdev_at_mem hw
  obtain ⟨hw', heq⟩ := vdev_leave_eq hs s.mngdev w
  have hv' := vdev_at_update_some w.ptr hv
    (f := fun v => { v with usage_counter := v.usage_counter - 1 }) fun _ => rfl
  rw [heq]
  refine ⟨_, hv', ?_⟩
  have hremoved := (hinv.rows.remove_all w.ptr).2 v.ptr
  by_cases hp : w.ptr = v.ptr
  · obtain rfl : w = v := Option.some.inj (hw.symm.trans (hp ▸ hv))
    rw [if_pos rfl, if_pos rfl]
    refine ⟨fun i => ?_, congrArg (· - 1) hdelivered.usage_counter, hdelivered.noted,
      hdelivered.pending, hdelivered.reads⟩
    simp only [stream_step, vdev_stream.close, hdelivered.usage_counter]
    split_ifs
    · rw [hremoved]
      simp [event_list_clear]
    · exact hdelivered.codes i
  · rw [if_neg hp, if_neg (Ne.symm hp)]
    refine hdelivered.of_same (fun i => ?_) rfl
    dsimp only
    split_ifs
    · rw [hremoved]
      exact and_iff_left (Ne.symm hp)
    · exact Iff.rfl

theorem DeliveredAt.put_event {s : delivery_state H} {ptr : Nat} {st : vdev_stream}
    (h : DeliveredAt s ptr st) (hinv : DispatchInv s.mngdev) (event : Int)
    {data : List (BitVec 8)} (hlength : data.length ≤ CBUF_EVENT_ENTRY_DATA_LENGTH)
    (hroomy : QueueRoomy ptr s (.put_event event data hlength)) :
    DeliveredAt { s with mngdev := modac_mngdev_put_event s.mngdev event data } ptr
      (st.send event data) := by
  obtain ⟨v, hv, hdelivered⟩ := h
  obtain ⟨-, rfl⟩ := vdev_at_mem hv
  have hv' := hdelivered.vdev_at_process hinv.rows hv event
    (f := fun v => modac_vdev_put_cb v event data) fun _ => rfl
  refine ⟨_, hv', ?_⟩
  have hlist := process_event_dispatch_list (m := s.mngdev) event
    fun v => modac_vdev_put_cb v event data
  have hcodes : ∀ i, subscribed (modac_mngdev_put_event s.mngdev event data).event_dispatch_list
      v.ptr i ↔ subscribed s.mngdev.event_dispatch_list v.ptr i :=
    fun i => (congrArg (subscribed · v.ptr i) hlist).to_iff
  by_cases htest : event_list_test st.codes event = true
  · have hsub := (hdelivered.mem_subscribers hinv.rows event).mpr htest
    have hused := hroomy event data hlength rfl hsub v hv
    rw [modac_circ_buf.records_length] at hused
    have hput := (modac_cb_put_of_room v.cb_events event hlength
      (show _ < 1024 by omega)).1
    rw [if_pos htest, vdev_stream.send_of_test htest]
    refine ⟨fun i => (hdelivered.codes i).trans (hcodes i).symm, hdelivered.usage_counter,
      hdelivered.noted, ?_, hdelivered.reads⟩
    rw [hdelivered.pending]
    exact hput.symm
  · rw [if_neg htest, vdev_stream.send_of_not_test htest]
    exact hdelivered.of_same hcodes rfl

theorem DeliveredAt.notify {s : delivery_state H} {ptr : Nat} {st : vdev_stream}
    (h : DeliveredAt s ptr st) (hinv : DispatchInv s.mngdev) (event : Int) :
    DeliveredAt { s with mngdev := modac_mngdev_notify s.mngdev event } ptr (st.note event) := by
  obtain ⟨v, hv, hdelivered⟩ := h
  obtain ⟨-, rfl⟩ := vdev_at_mem hv
  have hv' := hdelivered.vdev_at_process hinv.rows hv event
    (f := fun v => modac_vdev_notify v event) fun _ => rfl
  refine ⟨_, hv', ?_⟩
  have hlist := process_event_dispatch_list (m := s.mngdev) event
    fun v => modac_vdev_notify v event
  have hcodes : ∀ i, subscribed (modac_mngdev_notify s.mngdev event).event_dispatch_list
      v.ptr i ↔ subscribed s.mngdev.event_dispatch_list v.ptr i :=
    fun i => (congrArg (subscribed · v.ptr i) hlist).to_iff
  unfold vdev_stream.note
  by_cases htest : event_list_test st.codes event = true
  · rw [if_pos htest, if_pos htest]
    refine ⟨fun i => (hdelivered.codes i).trans (hcodes i).symm, hdelivered.usage_counter, ?_,
      hdelivered.pending, hdelivered.reads⟩
    exact congrArg (event_list_add · event) hdelivered.noted
  · rw [if_neg htest, if_neg htest]
    exact hdelivered.of_same hcodes rfl

theorem DeliveredAt.read_get {s : delivery_state H} {ptr : Nat} {st : vdev_stream}
    (h : DeliveredAt s ptr st) {p : Nat} {w : modac_vdev_des} (hw : vdev_at s.mngdev p = some w) :
    DeliveredAt
      { mngdev := update_vdev s.mngdev p fun v => (read_get v).1
        reads := Function.update s.reads p (s.reads p ++ (read_get w).2.toList) }
      ptr (if p = ptr then stream_step st (.read_get p) else st) := by
  obtain ⟨v, hv, hdelivered⟩ := h
  obtain ⟨-, rfl⟩ := vdev_at_mem hv
  refine ⟨_, vdev_at_update_some p hv read_get_ptr, ?_⟩
  by_cases hp : p = v.ptr
  · subst hp
    obtain rfl : w = v := Option.some.inj (hw.symm.trans hv)
    obtain ⟨hnoted, hpending, hreads, hcodes, husage⟩ :=
      vdev_stream.read_spec hdelivered.noted hdelivered.pending
    rw [if_pos rfl, if_pos rfl, stream_step]
    refine ⟨fun i => ?_, ?_, hnoted, hpending, ?_⟩
    · rw [hcodes, read_get_ptr]
      exact hdelivered.codes i
    · rw [husage, read_get_usage_counter]
      exact hdelivered.usage_counter
    · rw [hreads, read_get_ptr, hdelivered.reads]
      exact (Function.update_self w.ptr _ s.reads).symm
  · rw [if_neg hp, if_neg (Ne.symm hp)]
    exact hdelivered.of_same (fun _ => Iff.rfl) (Function.update_of_ne (Ne.symm hp) _ _)

/-- One operation is one step of the stream of every VIRT_DEV that it concerns, and of no
other one. -/
theorem DeliveredAt.step {hs : modac_hw_support_def H A O} {s t : delivery_state H} {ptr : Nat}
    {st : vdev_stream} {a : delivery_op} (h : DeliveredAt s ptr st) (hinv : DispatchInv s.mngdev)
    (hroomy : QueueRoomy ptr s a) (hstep : delivery_step hs s a = some t) :
    DeliveredAt t ptr (if a.concerns ptr then stream_step st a else st) := by
  cases a with
  | open_file p i kmalloc =>
    simp only [delivery_step] at hstep
    split_ifs at hstep with hret
    obtain rfl := Option.some.inj hstep
    simpa only [delivery_op.concerns, decide_eq_true_eq] using h.open_file hret
  | subscribe p event action =>
    obtain ⟨w, hw, rfl⟩ := Option.map_eq_some_iff.mp hstep
    simpa only [delivery_op.concerns, decide_eq_true_eq] using h.subscribe hinv hw event action
  | close p =>
    obtain ⟨w, hw, rfl⟩ := Option.map_eq_some_iff.mp hstep
    simpa only [delivery_op.concerns, decide_eq_true_eq] using h.close hinv hw
  | put_event event data hlength =>
    obtain rfl := Option.some.inj hstep
    exact h.put_event hinv event hlength hroomy
  | notify event =>
    obtain rfl := Option.some.inj hstep
    exact h.notify hinv event
  | read_get p =>
    obtain ⟨w, hw, rfl⟩ := Option.map_eq_some_iff.mp hstep
    simpa only [delivery_op.concerns, decide_eq_true_eq] using h.read_get hw

/-- A whole run of the MNG_DEV is a run of the stream. -/
theorem DeliveredAt.run {hs : modac_hw_support_def H A O} {s t : delivery_state H} {ptr : Nat}
    {st : vdev_stream} {ops : List delivery_op} (h : DeliveredAt s ptr st)
    (hinv : DispatchInv s.mngdev)
    (hroomy : StepsMeet (delivery_step hs) (QueueRoomy ptr) s ops)
    (hrun : run (delivery_step hs) s ops = some t) : DeliveredAt t ptr (stream_run ptr st ops) := by
  induction ops generalizing s st with
  | nil =>
    obtain rfl := Option.some.inj hrun
    exact h
  | cons a ops ih =>
    obtain ⟨u, hu, hrun⟩ := run_cons_eq_some.mp hrun
    obtain ⟨hroom, hroomy⟩ := hroomy u hu
    have htail := ih (h.step hinv hroom hu) (hinv.step hu) hroomy hrun
    unfold stream_run at htail ⊢
    rw [List.filter_cons]
    split_ifs at htail ⊢
    · exact htail
    · exact htail

/-- Nothing is lost or taken twice: what was pending at first and what was sent since goes
out in this order. -/
theorem vdev_stream.fifo_step {st : vdev_stream} {queue : List cb_read}
    (h : st.taken ++ st.pending = queue ++ st.sent) (a : delivery_op) :
    (stream_step st a).taken ++ (stream_step st a).pending = queue ++ (stream_step st a).sent := by
  cases a with
  | open_file | subscribe | close => exact h
  | put_event event data hlength =>
    by_cases htest : event_list_test st.codes event = true
    · simp only [stream_step, vdev_stream.send_of_test htest, ← List.append_assoc, h]
    · rw [stream_step, vdev_stream.send_of_not_test htest]
      exact h
  | notify event =>
    simp only [stream_step, vdev_stream.note]
    split_ifs
    · exact h
    · exact h
  | read_get p =>
    rw [stream_step]
    by_cases hevent : 0 ≤ event_list_extract_one st.noted
    · rw [vdev_stream.read_notified hevent]
      exact h
    · cases hpending : st.pending with
      | nil =>
        rw [vdev_stream.read_nil hevent hpending]
        exact h
      | cons r pending =>
        rw [vdev_stream.read_cons hevent hpending, ← h, hpending]
        exact List.append_assoc ..

theorem vdev_stream.fifo_run {st : vdev_stream} {queue : List cb_read}
    (h : st.taken ++ st.pending = queue ++ st.sent) (ptr : Nat) (ops : List delivery_op) :
    (stream_run ptr st ops).taken ++ (stream_run ptr st ops).pending =
      queue ++ (stream_run ptr st ops).sent := by
  unfold stream_run
  induction ops.filter fun a => a.concerns ptr generalizing st with
  | nil => exact h
  | cons a ops ih => exact ih (vdev_stream.fifo_step h a)

theorem delivered_stream_of (m : mngdev_data H) (reads : Nat → List cb_read) (v : modac_vdev_des) :
    Delivered ⟨m, reads⟩ v (stream_of m reads v) where
  codes _ := decide_eq_true_iff
  usage_counter := rfl
  noted := rfl
  pending := rfl
  reads := rfl

/-- A VIRT_DEV that was just created has nothing pending and nothing notified. -/
theorem init_dev_empty (v : modac_vdev_des) (cb_events : modac_circ_buf) :
    (virt_dev.init_dev v cb_events).cb_events.records = [] ∧
      (virt_dev.init_dev v cb_events).notified_events = event_list_clear := by
  refine ⟨?_, rfl⟩
  apply List.eq_nil_of_length_eq_zero
  rw [modac_circ_buf.records_length]
  exact used_self 0

theorem SubscribersInv.dispatchInv {s : modac_state H} (h : SubscribersInv (usage_of s))
    {m : mngdev_data H} (hm : s.mngdev = some m) : DispatchInv m := by
  have hd := usage_of_device hm
  have hids := (h.ids _ hd).length_le
  constructor
  · rw [mngdev_usage_of, List.length_map] at hids
    rw [List.length_map]
    exact hids
  · exact h.rows _ hd
  · intro ptr i hsub
    obtain ⟨r, hr, rfl⟩ := h.live _ hd ptr i hsub
    obtain ⟨v, hv, rfl⟩ := List.mem_map.mp hr
    exact List.mem_map_of_mem hv

/-- At the beginning, a VIRT_DEV has got what its stream says. -/
theorem delivered_start {hs : modac_hw_support_def H A O} {des : modac_mngdev_des} {hw : H}
    {hw_res_defs : List modac_hw_res_def} {s₀ s : modac_state H}
    (hcreate : modac_mngdev_create hs des hw hw_res_defs = .ok s₀) {before : List (op A)}
    (hbefore : run (step hs) s₀ before = some s) {m : mngdev_data H} (hm : s.mngdev = some m)
    {v : modac_vdev_des} (hv : v ∈ m.vdev_list) :
    DispatchInv m ∧ vdev_at m v.ptr = some v ∧
      DeliveredAt ⟨m, fun _ => []⟩ v.ptr (stream_of m (fun _ => []) v) := by
  have hinv : SubscribersInv (usage_of s) :=
    run_invariant (I := fun s => SubscribersInv (usage_of s))
      (fun s a t hs hstep => hs.step (usage_effect_of_step hs.ptrs hstep)) hbefore
      (subscribersInv_of_create hcreate)
  have hat := hinv.ptrs.vdev_at_of_mem hm hv
  exact ⟨hinv.dispatchInv hm, hat, v, hat, delivered_stream_of m _ v⟩

/-- Every VIRT_DEV gets what is sent to it while it is subscribed to the code, in this order
and once, and has in its notified set what was notified and not read since. The stream is
made of the operations that concern the VIRT_DEV alone. -/
theorem delivered_end_to_end {hs : modac_hw_support_def H A O} {des : modac_mngdev_des} {hw : H}
    {hw_res_defs : List modac_hw_res_def} {s₀ s : modac_state H}
    (hcreate : modac_mngdev_create hs des hw hw_res_defs = .ok s₀) {before : List (op A)}
    (hbefore : run (step hs) s₀ before = some s) {m : mngdev_data H} (hm : s.mngdev = some m)
    {ops : List delivery_op}
    (hroomy : StepsMeet (delivery_step hs) QueuesRoomy ⟨m, fun _ => []⟩ ops)
    {t : delivery_state H} (hrun : run (delivery_step hs) ⟨m, fun _ => []⟩ ops = some t) :
    ∀ v₀ ∈ m.vdev_list, ∃ v, vdev_at t.mngdev v₀.ptr = some v ∧
      let st := stream_run v₀.ptr (stream_of m (fun _ => []) v₀) ops
      st.taken ++ v.cb_events.records = v₀.cb_events.records ++ st.sent ∧
        v.notified_events = st.noted ∧ t.reads v.ptr = st.reads ∧
        ∀ i, subscribed t.mngdev.event_dispatch_list v.ptr i ↔ st.codes i = true := by
  intro v₀ hv₀
  obtain ⟨hinv, -, hstart⟩ := delivered_start hcreate hbefore hm hv₀
  obtain ⟨v, hv, hdelivered⟩ := hstart.run hinv
    (hroomy.mono fun s a hroom => hroom.queueRoomy v₀.ptr) hrun
  refine ⟨v, hv, ?_, hdelivered.noted.symm, hdelivered.reads.symm, fun i => ?_⟩
  · have hqueue : (stream_of m (fun _ => []) v₀).taken ++ (stream_of m (fun _ => []) v₀).pending =
        v₀.cb_events.records ++ (stream_of m (fun _ => []) v₀).sent :=
      (List.append_nil v₀.cb_events.records).symm
    rw [← hdelivered.pending]
    exact vdev_stream.fifo_run hqueue v₀.ptr ops
  · exact (hdelivered.codes i).symm

/-- A VIRT_DEV subscribes to an event, the event is put, and it is read. -/
def subscribe_put_read : List delivery_op :=
  [.subscribe 0 40 VIRT_DEV_IOCTL_SUBSCRIBE_ACTION_SUBSCRIBE,
    .put_event 40 [1, 2, 3] (by decide), .read_get 0]

theorem delivered_end_to_end_read :
    ∃ s₀ s m t v, modac_mngdev_create recording_hw_support first_mngdev [] [] = .ok s₀ ∧
      run (step recording_hw_support) s₀ (open_first ++ [create_vdev [0x61]]) = some s ∧
      s.mngdev = some m ∧
      run (delivery_step recording_hw_support) ⟨m, fun _ => []⟩ subscribe_put_read = some t ∧
      vdev_at t.mngdev 0 = some v ∧ ∃ v₀ ∈ m.vdev_list, v₀.ptr = 0 ∧
        let st := stream_run 0 (stream_of m (fun _ => []) v₀) subscribe_put_read
        st.taken ++ v.cb_events.records = v₀.cb_events.records ++ st.sent := by
  have hopen : ∃ s₀, modac_mngdev_create recording_hw_support first_mngdev [] [] = .ok s₀ ∧
      ((run (step recording_hw_support) s₀ (open_first ++ [create_vdev [0x61]])).any fun s =>
        s.mngdev.any fun m => (vdev_at m 0).isSome &&
          (run (delivery_step recording_hw_support) ⟨m, fun _ => []⟩ subscribe_put_read).isSome &&
          m.vdev_list.all fun v => decide (used v.cb_events.head v.cb_events.tail ≤ 1021)) =
        true :=
    ⟨_, rfl, by decide +kernel⟩
  simp only [Option.any_eq_true, Bool.and_eq_true, Option.isSome_iff_exists, List.all_eq_true,
    decide_eq_true_eq] at hopen
  obtain ⟨s₀, hcreate, s, hbefore, m, hm, ⟨⟨v₀, hv₀⟩, t, hrun⟩, hused⟩ := hopen
  obtain ⟨hmem, hptr⟩ := vdev_at_mem hv₀
  have hroomy : StepsMeet (delivery_step recording_hw_support) QueuesRoomy ⟨m, fun _ => []⟩
      subscribe_put_read := by
    intro t₁ ht₁
    refine ⟨?_, fun t₂ _ => ⟨?_, fun t₃ _ => ⟨?_, trivial⟩⟩⟩
    · intro _ _ _ hop
      cases hop
    · rintro _ _ _ - v hv
      obtain ⟨_, -, rfl⟩ := Option.map_eq_some_iff.mp ht₁
      obtain ⟨hw, heq⟩ := modac_c_vdev_subscribe_eq recording_hw_support m 0 40
        VIRT_DEV_IOCTL_SUBSCRIBE_ACTION_SUBSCRIBE
      dsimp only at hv
      rw [heq] at hv
      rw [modac_circ_buf.records_length]
      exact hused v hv
    · intro _ _ _ hop
      cases hop
  obtain ⟨v, hv, hfifo, -⟩ :=
    delivered_end_to_end hcreate hbefore hm hroomy hrun v₀ hmem
  rw [hptr] at hv hfifo
  exact ⟨s₀, s, m, t, v, hcreate, hbefore, hm, hrun, hv, v₀, hmem, hptr, hfifo⟩

end evrma.system
