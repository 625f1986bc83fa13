import Evrma.System.Delivery
import Evrma.System.OpenVdevs

namespace evrma.system

open evrma.event_list evrma.ioctl evrma.lib evrma.mng_dev evrma.packet_queue evrma.rm
  evrma.virt_dev

variable {H A O : Type}

/-- The last session of a VIRT_DEV, from the open of its first user to the close of its last one, by
a clock that counts the steps: when it began, when each event was last notified to the
VIRT_DEV, when each slot of the queue was last written, and when what the reads of the
session returned was dispatched. -/
structure session where
  began : Nat
  notified : Fin EVENT_LIST_TYPE_MAX_EVENTS → Nat
  written : Fin CBUF_EVENT_COUNT → Nat
  returned : List Nat

def session.none : session where
  began := 0
  notified _ := 0
  written _ := 0
  returned := []

/-- `modac_cb_put` writes to the slot at the head. -/
def put_writes (cb : modac_circ_buf) (data : List (BitVec 8)) : Prop :=
  data.length ≤ CBUF_EVENT_ENTRY_DATA_LENGTH ∧
    (1 < CIRC_SPACE cb.head cb.tail CBUF_EVENT_COUNT ∨
      CIRC_SPACE cb.head cb.tail CBUF_EVENT_COUNT = 1 ∧ cb.overflow_written = false)

instance (cb : modac_circ_buf) (data : List (BitVec 8)) : Decidable (put_writes cb data) :=
  inferInstanceAs (Decidable (_ ∧ _))

namespace session

/-- An open by the first user. -/
def begin (ses : session) (time : Nat) : session := { ses with began := time, returned := [] }

def put (ses : session) (time : Nat) (cb : modac_circ_buf) (data : List (BitVec 8)) : session :=
  if put_writes cb data then { ses with written := Function.update ses.written cb.head time }
  else ses

def note (ses : session) (time : Nat) (event : Int) : session :=
  match event_index event with
  | Option.none => ses
  | some i => { ses with notified := Function.update ses.notified i time }

/-- When what waits for the readers was dispatched. -/
def waiting (ses : session) (v : modac_vdev_des) : List Nat :=
  virt_dev.waiting ses.notified ses.written v

/-- A read that returns so many records. -/
def read (ses : session) (v : modac_vdev_des) (events : Nat) : session :=
  { ses with returned := ses.returned ++ (ses.waiting v).take events }

end session

/-- The VIRT_DEV that an open gets to. -/
def opened_vdev (s : modac_state H) (i : inode) : Option Nat :=
  (calc_table_indices s.des i.iminor).bind fun indices => s.vdev_slots indices.2

/-- The records that an operation gives to the user. -/
def returned_events : user_out O → List cb_read
  | .events events => events
  | _ => []

/-- What an operation means for the session of a VIRT_DEV. -/
def session.follow (ses : session) (time : Nat) (s : modac_state H) (m : mngdev_data H)
    (v : modac_vdev_des) (ret : Int) (events : List cb_read) : op A → session
  | .vdev_open i _ =>
    if ret = 0 ∧ opened_vdev s i = some v.ptr ∧ v.usage_counter < 1 then ses.begin time else ses
  | .put_event event data =>
    if v.ptr ∈ event_dispatch_list_for_all_subscribers m.event_dispatch_list event then
      ses.put time v.cb_events data
    else ses
  | .notify event =>
    if v.ptr ∈ event_dispatch_list_for_all_subscribers m.event_dispatch_list event then
      ses.note time event
    else ses
  | .vdev_read _ ptr _ _ _ => if ptr = v.ptr then ses.read v events.length else ses
  | _ => ses

/-- The system with its clock and the sessions of the VIRT_DEVs. -/
structure session_state (H : Type) where
  state : modac_state H
  clock : Nat
  sessions : Nat → session

def session_init (s : modac_state H) : session_state H where
  state := s
  clock := 0
  sessions _ := .none

def session_step (hs : modac_hw_support_def H A O) (s : session_state H) (a : op A) :
    Option (session_state H) :=
  (exec hs s.state a).map fun (state, ret, out) =>
    { state
      clock := s.clock + 1
      sessions := fun ptr =>
        match s.state.mngdev with
        | none => s.sessions ptr
        | some m =>
          match vdev_at m ptr with
          | none => s.sessions ptr
          | some v =>
            (s.sessions ptr).follow (s.clock + 1) s.state m v ret (returned_events out) a }

/-- All that the reads of the last session of each VIRT_DEV returned was dispatched after
the session began. -/
def SessionsFresh (s : session_state H) : Prop :=
  ∀ ptr, ∀ time ∈ (s.sessions ptr).returned, (s.sessions ptr).began < time

/-- A put publishes a slot that it does not write to, and that was last written before the
session began. -/
def PublishesOld (ses : session) (cb : modac_circ_buf) (data : List (BitVec 8)) : Prop :=
  data.length ≤ CBUF_EVENT_ENTRY_DATA_LENGTH ∧
    CIRC_SPACE cb.head cb.tail CBUF_EVENT_COUNT = 1 ∧ cb.overflow_written = true ∧
    ses.written cb.head ≤ ses.began

/-- An open by the first user finds nothing for a reader, and no put publishes an old slot
to a subscriber. -/
structure KeepsFresh (s : session_state H) (a : op A) : Prop where
  opens : ∀ i kmalloc m v, a = .vdev_open i kmalloc → s.state.mngdev = some m →
    vdev_at m v.ptr = some v → opened_vdev s.state i = some v.ptr →
    (devref_get m.ref (some i) kmalloc).2 = 0 → v.usage_counter < 1 → read_has_data v = false
  puts : ∀ event data m v, a = .put_event event data → s.state.mngdev = some m →
    vdev_at m v.ptr = some v →
    v.ptr ∈ event_dispatch_list_for_all_subscribers m.event_dispatch_list event →
    ¬ PublishesOld (s.sessions v.ptr) v.cb_events data

/-- What waits for the readers of the session was dispatched after it began. -/
def session.Fresh (ses : session) (v : modac_vdev_des) : Prop :=
  ∀ time ∈ ses.waiting v, ses.began < time

section

variable {ses : session} {v : modac_vdev_des}

theorem session.mem_waiting {time : Nat} :
    time ∈ ses.waiting v ↔ (∃ i, v.notified_events i = true ∧ ses.notified i = time) ∨
      time ∈ window ses.written v.cb_events.tail (used v.cb_events.head v.cb_events.tail) := by
  rw [waiting, virt_dev.waiting, List.mem_append, List.mem_map]
  simp

/-- The queue and the set of the notified events are the same. -/
theorem session.Fresh.of_same {v' : modac_vdev_des} (h : ses.Fresh v)
    (hcb_events : v'.cb_events = v.cb_events)
    (hnotified : v'.notified_events = v.notified_events) : ses.Fresh v' := by
  intro time htime
  rw [session.mem_waiting, hcb_events, hnotified, ← session.mem_waiting] at htime
  exact h time htime

theorem session.Fresh.took {v' : modac_vdev_des} {k : Nat} (h : ses.Fresh v)
    (htook : Took v k v') : ses.Fresh v' := by
  intro time htime
  rw [waiting, htook.waiting] at htime
  exact h time (List.mem_of_mem_drop htime)

theorem session.Fresh.begin (hdata : read_has_data v = false) (time : Nat) :
    (ses.begin time).Fresh v := by
  intro n hn
  rw [waiting, waiting_of_no_data hdata] at hn
  cases hn

theorem session.Fresh.note {time : Nat} (h : ses.Fresh v) (htime : ses.began < time)
    (event : Int) : (ses.note time event).Fresh (modac_vdev_notify v event) := by
  unfold session.note
  intro n hn
  rw [session.mem_waiting] at hn
  simp only [modac_vdev_notify, event_list_add] at hn
  cases hindex : event_index event with
  | none =>
    rw [hindex] at hn
    exact h n (session.mem_waiting.mpr hn)
  | some i =>
    rw [hindex] at hn
    dsimp only at hn ⊢
    obtain ⟨j, hj, rfl⟩ | hn := hn
    · by_cases heq : j = i
      · rw [heq, Function.update_self]
        exact htime
      · rw [Function.update_of_ne heq] at hj ⊢
        exact h _ (session.mem_waiting.mpr (.inl ⟨j, hj, rfl⟩))
    · exact h n (session.mem_waiting.mpr (.inr hn))

theorem session.put_began (time : Nat) (cb : modac_circ_buf) (data : List (BitVec 8)) :
    (ses.put time cb data).began = ses.began := by
  unfold session.put
  split_ifs <;> rfl

theorem session.put_of_writes {cb : modac_circ_buf} {data : List (BitVec 8)}
    (hwrites : put_writes cb data) (time : Nat) :
    ses.put time cb data = { ses with written := Function.update ses.written cb.head time } :=
  if_pos hwrites

theorem session.put_of_not_writes {cb : modac_circ_buf} {data : List (BitVec 8)}
    (hwrites : ¬ put_writes cb data) (time : Nat) : ses.put time cb data = ses :=
  if_neg hwrites

/-- The slot at the head is written and published. -/
theorem session.Fresh.push {time : Nat} (h : ses.Fresh v) (htime : ses.began < time)
    {data : List (BitVec 8)} (hwrites : put_writes v.cb_events data)
    (hroom : used v.cb_events.head v.cb_events.tail + 1 < CBUF_EVENT_COUNT)
    {v' : modac_vdev_des} (hhead : v'.cb_events.head = next_index v.cb_events.head)
    (htail : v'.cb_events.tail = v.cb_events.tail)
    (hnotified : v'.notified_events = v.notified_events) :
    (ses.put time v.cb_events data).Fresh v' := by
  rw [session.put_of_writes hwrites]
  intro n hn
  rw [session.mem_waiting, hhead, htail, hnotified, next_index_eq_slot,
    window_push ses.written hroom, List.mem_append, List.mem_singleton] at hn
  obtain hn | hn | rfl := hn
  · exact h n (session.mem_waiting.mpr (.inl hn))
  · exact h n (session.mem_waiting.mpr (.inr hn))
  · exact htime

theorem session.Fresh.put {time : Nat} (h : ses.Fresh v) (htime : ses.began < time)
    (event : Int) {data : List (BitVec 8)} (hold : ¬ PublishesOld ses v.cb_events data) :
    (ses.put time v.cb_events data).Fresh (modac_vdev_put_cb v event data) := by
  have hspace := CIRC_SPACE_eq v.cb_events.head v.cb_events.tail
  unfold modac_vdev_put_cb
  by_cases hlength : data.length ≤ CBUF_EVENT_ENTRY_DATA_LENGTH
  · rcases Nat.lt_trichotomy (used v.cb_events.head v.cb_events.tail + 2) CBUF_EVENT_COUNT with
      hroom | hlast | hfull
    · rw [modac_cb_put_eq_of_room v.cb_events event hlength hroom]
      exact h.push htime ⟨hlength, .inl (by rw [hspace]; omega)⟩ (by omega) rfl rfl rfl
    · have hone : CIRC_SPACE v.cb_events.head v.cb_events.tail CBUF_EVENT_COUNT = 1 := by
        rw [hspace]
        omega
      cases hflag : v.cb_events.overflow_written with
      | false =>
        rw [modac_cb_put_eq_of_last_slot v.cb_events event hlength hlast hflag]
        exact h.push htime ⟨hlength, .inr ⟨hone, hflag⟩⟩ (by omega) rfl rfl rfl
      | true =>
        -- the slot at the head is published as it is
        have hwrites : ¬ put_writes v.cb_events data := by
          rintro ⟨-, hmore | ⟨-, hclear⟩⟩
          · omega
          · rw [hflag] at hclear
            cases hclear
        have hwritten : ses.began < ses.written v.cb_events.head := by
          by_contra hle
          exact hold ⟨hlength, hone, hflag, Nat.le_of_not_lt hle⟩
        rw [modac_cb_put_eq_of_flag v.cb_events event hlength hlast hflag,
          session.put_of_not_writes hwrites]
        intro n hn
        rw [session.mem_waiting] at hn
        dsimp only at hn
        rw [next_index_eq_slot, used_advance_head (by omega), window_succ, slot_used,
          List.mem_append, List.mem_singleton] at hn
        obtain hn | hn | rfl := hn
        · exact h n (session.mem_waiting.mpr (.inl hn))
        · exact h n (session.mem_waiting.mpr (.inr hn))
        · exact hwritten
    · have hwrites : ¬ put_writes v.cb_events data := by
        rintro ⟨-, hmore | ⟨hone, -⟩⟩
        · omega
        · omega
      rw [modac_cb_put_of_full v.cb_events event data (by omega),
        session.put_of_not_writes hwrites]
      exact h
  · rw [modac_cb_put_of_long v.cb_events event hlength,
      session.put_of_not_writes fun hwrites => hlength hwrites.1]
    exact h

end

/-- The VIRT_DEVs with users were there before, with the same queue and notified events. -/
def QueuesKept (m m' : mngdev_data H) : Prop :=
  ∀ v', vdev_at m' v'.ptr = some v' → 1 ≤ v'.usage_counter →
    ∃ v, vdev_at m v'.ptr = some v ∧ v'.cb_events = v.cb_events ∧
      v'.notified_events = v.notified_events ∧ v'.usage_counter ≤ v.usage_counter

section

variable {m m' : mngdev_data H}

theorem QueuesKept.of_same (hsame : m'.vdev_list = m.vdev_list) : QueuesKept m m' := by
  intro v' hv' _
  refine ⟨v', ?_, rfl, rfl, Int.le_refl _⟩
  rw [vdev_at, ← hsame]
  exact hv'

theorem QueuesKept.refl (m : mngdev_data H) : QueuesKept m m := .of_same rfl

theorem QueuesKept.trans {m'' : mngdev_data H} (h : QueuesKept m m') (h' : QueuesKept m' m'') :
    QueuesKept m m'' := by
  intro w hw husage
  obtain ⟨v', hv', hcb', hnotified', hle'⟩ := h' w hw husage
  obtain ⟨-, hptr⟩ := vdev_at_mem hv'
  obtain ⟨v, hv, hcb, hnotified, hle⟩ := h v' (hptr ▸ hv') (by omega)
  exact ⟨v, hptr ▸ hv, hcb'.trans hcb, hnotified'.trans hnotified, Int.le_trans hle' hle⟩

theorem queuesKept_update (m : mngdev_data H) (ptr : Nat) {f : modac_vdev_des → modac_vdev_des}
    (hptr : ∀ v, (f v).ptr = v.ptr) (hcb_events : ∀ v, (f v).cb_events = v.cb_events)
    (hnotified : ∀ v, (f v).notified_events = v.notified_events)
    (husage : ∀ v, (f v).usage_counter ≤ v.usage_counter) :
    QueuesKept m (update_vdev m ptr f) := by
  intro v' hv' _
  rw [vdev_at_update ptr v'.ptr hptr] at hv'
  obtain ⟨v, hv, heq⟩ := Option.map_eq_some_iff.mp hv'
  refine ⟨v, hv, ?_⟩
  rw [← heq]
  split_ifs
  · exact ⟨hcb_events v, hnotified v, husage v⟩
  · exact ⟨rfl, rfl, Int.le_refl _⟩

theorem queuesKept_leave (hs : modac_hw_support_def H A O) (m : mngdev_data H)
    (v : modac_vdev_des) : QueuesKept m (vdev_leave hs m v) := by
  obtain ⟨hw, heq⟩ := vdev_leave_eq hs m v
  rw [heq]
  have hupdate : QueuesKept m (update_vdev m v.ptr fun v =>
      { v with usage_counter := v.usage_counter - 1 }) :=
    queuesKept_update m v.ptr (fun _ => rfl) (fun _ => rfl) (fun _ => rfl)
      fun v => Int.sub_le_self _ (by decide)
  exact hupdate.trans (.of_same rfl)

theorem queuesKept_put (hs : modac_hw_support_def H A O) {s t : modac_state H}
    (hkept : QueuesKept m m') {slots : vdev_slots} {i : Option inode} {vdev_des : Option Nat}
    {m'' : mngdev_data H} (ht : t = put_reference s (drvdat_put hs m' slots i vdev_des))
    (hm'' : t.mngdev = some m'') : QueuesKept m m'' := by
  rw [ht] at hm''
  simp only [put_reference, drvdat_put] at hm''
  split_ifs at hm''
  obtain rfl := Option.some.inj hm''
  exact hkept.trans (.of_same rfl)

theorem vdev_on_res_add_queue (m : mngdev_data H) (v : modac_vdev_des)
    (vres_desc : modac_rm_vres_desc) :
    (vdev_on_res_add m v vres_desc).1.ptr = v.ptr ∧
      (vdev_on_res_add m v vres_desc).1.cb_events = v.cb_events ∧
      (vdev_on_res_add m v vres_desc).1.notified_events = v.notified_events ∧
      (vdev_on_res_add m v vres_desc).1.usage_counter = v.usage_counter := by
  unfold vdev_on_res_add
  dsimp only
  split_ifs <;> exact ⟨rfl, rfl, rfl, rfl⟩

theorem queuesKept_destroy (hs : modac_hw_support_def H A O) (m : mngdev_data H)
    (slots : vdev_slots) (v : modac_vdev_des) :
    QueuesKept m (list_destroy_vdev hs m slots v true).1 := by
  intro v' hv' _
  simp only [list_destroy_vdev, if_true, vdev_at, list_del, mngdev_event_dispatch_list_remove_all,
    on_subscribe_change_vdev_list] at hv'
  refine ⟨v', ?_, rfl, rfl, Int.le_refl _⟩
  have hmem := List.mem_of_find?_eq_some hv'
  rw [List.find?_filter] at hv'
  have hne : v'.ptr ≠ v.ptr := by simpa using (List.mem_filter.mp hmem).2
  rw [vdev_at, ← hv']
  congr 1
  funext w
  by_cases hw : w.ptr = v'.ptr
  · simp [hw, hne]
  · simp [hw]

theorem queuesKept_mngdev_sysfs (hs : modac_hw_support_def H A O) (m : mngdev_data H)
    (sysfs : mngdev_sysfs) : QueuesKept m (mngdev_sysfs_op hs m sysfs).1 := by
  unfold mngdev_sysfs_op
  split_ifs
  · exact .refl m
  · cases sysfs with
    | show_alloc => exact .refl m
    | show_dbg => cases hs.show_dbg <;> exact .of_same rfl
    | store_dbg => cases hs.store_dbg <;> exact .of_same rfl
    | show_hw_regs => cases hs.dbg_regs <;> exact .of_same rfl
    | store_hw_regs regs_offset regs_length => exact .of_same rfl
    | show_hw_info => exact .of_same rfl
    | show_events => exact .of_same rfl

theorem queuesKept_vdev_sysfs (hs : modac_hw_support_def H A O) (m : mngdev_data H)
    (v : modac_vdev_des) (sysfs : vdev_sysfs) : QueuesKept m (vdev_sysfs_op hs m v sysfs).1 := by
  unfold vdev_sysfs_op
  split_ifs
  · exact .refl m
  · cases sysfs with
    | show_config => cases hs.dbg_res <;> exact .of_same rfl
    | store_hw_reset => exact .of_same rfl
    | store_config val =>
      cases val with
      | none => exact .refl m
      | some val =>
        exact queuesKept_update m v.ptr (fun _ => rfl) (fun _ => rfl) (fun _ => rfl)
          fun _ => Int.le_refl _

theorem queuesKept_mngdev_ioctl {hs : modac_hw_support_def H A O} {slots slots' : vdev_slots}
    {ptr : Nat} {cmd : ioctl_cmd} {arg : mngdev_ioctl_arg A}
    (heffect : mngdev_ioctl_effect hs m slots ptr cmd arg m' slots') : QueuesKept m m' := by
  cases heffect with
  | none => exact .refl m
  | hw_ioctl => exact .of_same rfl
  | create v imngdev ivdev hptr hid hnew husage =>
    intro v' hv' hopen
    by_cases heq : v.ptr = v'.ptr
    · rw [vdev_at, List.find?_cons_of_pos (by simpa using heq), Option.some.injEq] at hv'
      rw [← hv', husage] at hopen
      omega
    · rw [vdev_at, List.find?_cons_of_neg (by simpa using heq)] at hv'
      exact ⟨v', hv', rfl, rfl, Int.le_refl _⟩
  | destroy v args => exact queuesKept_destroy hs m slots v
  | alloc v args rm_data index t i =>
    have hsame : QueuesKept m { m with rm_data } := .of_same rfl
    refine hsame.trans (queuesKept_update _ _ ?_ ?_ ?_ ?_)
    · exact fun w => (vdev_on_res_add_queue _ w _).1
    · exact fun w => (vdev_on_res_add_queue _ w _).2.1
    · exact fun w => (vdev_on_res_add_queue _ w _).2.2.1
    · exact fun w => Int.le_of_eq (vdev_on_res_add_queue _ w _).2.2.2

theorem queuesKept_vdev_ioctl {hs : modac_hw_support_def H A O} {v : modac_vdev_des}
    {cmd : ioctl_cmd} {arg : vdev_ioctl_arg A} (heffect : vdev_ioctl_effect hs m v cmd arg m') :
    QueuesKept m m' := by
  cases heffect with
  | none => exact .refl m
  | direct_ioctl => exact .of_same rfl
  | hw_ioctl => exact .of_same rfl
  | subscribe args =>
    apply QueuesKept.of_same
    rw [on_subscribe_change_vdev_list]
    unfold change_subscriptions
    split_ifs <;> rfl

end

/-- The operation opens a VIRT_DEV or reaches its queue. -/
def op.reaches_queue : op A → Bool
  | .vdev_open _ _ | .put_event _ _ | .notify _ | .vdev_read _ _ _ _ _ => true
  | _ => false

/-- The other operations keep the queues of the VIRT_DEVs. -/
theorem queuesKept_of_step {hs : modac_hw_support_def H A O} {s t : modac_state H} {a : op A}
    (hptrs : PtrsGiven (usage_of s)) (hstep : step hs s a = some t) (ha : a.reaches_queue = false)
    {m' : mngdev_data H} (hm' : t.mngdev = some m') :
    ∃ m, s.mngdev = some m ∧ QueuesKept m m' := by
  have heffect := effect_of_step hstep
  cases heffect with
  | none => exact ⟨m', hm', .refl m'⟩
  | mngdev_open m i kmalloc hm =>
    obtain rfl := Option.some.inj hm'
    exact ⟨m, hm, .of_same rfl⟩
  | mngdev_open_busy m i pid hm => exact ⟨m', hm', .refl m'⟩
  | mngdev_open_finish m i pid hm =>
    obtain rfl := Option.some.inj hm'
    exact ⟨m, hm, .of_same rfl⟩
  | mngdev_release m i hm =>
    have hpid : QueuesKept m { m with pid := NO_PID } := .of_same rfl
    exact ⟨m, hm, queuesKept_put hs hpid rfl hm'⟩
  | mngdev_ioctl m i cmd arg hm =>
    have hnew : ∀ w ∈ m.vdev_list, w.ptr ≠ s.next_ptr := by
      intro w hw
      have hlt := hptrs.lt _ (usage_of_device hm) (vdev_usage_of w) (List.mem_map_of_mem hw)
      exact Nat.ne_of_lt hlt
    obtain rfl := Option.some.inj hm'
    have heffect : mngdev_ioctl_effect hs m s.vdev_slots s.next_ptr cmd arg _ _ :=
      mngdev_unlocked_ioctl_effect hnew
    exact ⟨m, hm, queuesKept_mngdev_ioctl heffect⟩
  | mngdev_sysfs m sysfs hm =>
    obtain rfl := Option.some.inj hm'
    exact ⟨m, hm, queuesKept_mngdev_sysfs hs m sysfs⟩
  | vdev_open => cases ha
  | vdev_release m i v hm =>
    exact ⟨m, hm, queuesKept_put hs (queuesKept_leave hs m v) rfl hm'⟩
  | vdev_ioctl m i v cmd arg hm =>
    obtain rfl := Option.some.inj hm'
    exact ⟨m, hm, queuesKept_vdev_ioctl (vdev_unlocked_ioctl_effect hs m v cmd arg)⟩
  | vdev_read => cases ha
  | vdev_sysfs m v sysfs hm =>
    obtain rfl := Option.some.inj hm'
    exact ⟨m, hm, queuesKept_vdev_sysfs hs m v sysfs⟩
  | put_event => cases ha
  | notify => cases ha
  | destroy_unlist => exact ⟨m', hm', .refl m'⟩
  | destroy_finish m hm =>
    have hinvalid : QueuesKept m { m with ref := devref_invalidate m.ref } := .of_same rfl
    exact ⟨m, hm, queuesKept_put hs hinvalid rfl hm'⟩

/-- An open that returns 0 counts one user more for the VIRT_DEV that it gets to. -/
theorem exec_vdev_open {hs : modac_hw_support_def H A O} {s t : modac_state H} {i : inode}
    {kmalloc : Bool} {ret : Int} {out : user_out O}
    (h : exec hs s (.vdev_open i kmalloc) = some (t, ret, out)) :
    (t = s ∧ ret ≠ 0) ∨
    ∃ m v, s.mngdev = some m ∧ vdev_at m v.ptr = some v ∧ opened_vdev s i = some v.ptr ∧
      (devref_get m.ref (some i) kmalloc).2 = 0 ∧ ret = 0 ∧
      t.mngdev = some (update_vdev { m with ref := (devref_get m.ref (some i) kmalloc).1 } v.ptr
        fun v => { v with usage_counter := v.usage_counter + 1 }) := by
  simp only [exec] at h
  unfold opened_vdev
  cases hindices : calc_table_indices s.des i.iminor with
  | none =>
    rw [hindices, Option.some.injEq, Prod.mk.injEq, Prod.mk.injEq] at h
    obtain ⟨rfl, rfl, -⟩ := h
    exact .inl ⟨rfl, by decide⟩
  | some indices =>
    obtain ⟨imngdev, ivdev⟩ := indices
    rw [hindices] at h
    dsimp only at h
    split_ifs at h with hdevice
    cases hslot : s.vdev_slots ivdev with
    | none =>
      rw [hslot, Option.some.injEq, Prod.mk.injEq, Prod.mk.injEq] at h
      obtain ⟨rfl, rfl, -⟩ := h
      exact .inl ⟨rfl, by decide⟩
    | some ptr =>
      rw [hslot] at h
      obtain ⟨m, hm, h⟩ := Option.bind_eq_some_iff.mp h
      obtain ⟨v, hv, heq⟩ := Option.map_eq_some_iff.mp h
      obtain ⟨-, rfl⟩ := vdev_at_mem hv
      by_cases hret : (devref_get m.ref (some i) kmalloc).2 = 0
      · simp only [vdev_open, modac_c_vdev_on_open, hret, ne_eq, not_true_eq_false, if_false,
          Prod.mk.injEq] at heq
        obtain ⟨rfl, rfl, -⟩ := heq
        exact .inr ⟨m, v, hm, hv, hslot, hret, rfl, rfl⟩
      · simp only [vdev_open, modac_c_vdev_on_open, if_pos hret] at heq
        rw [devref_get_of_ne_zero hret, set_mngdev_self hm, Prod.mk.injEq, Prod.mk.injEq] at heq
        obtain ⟨rfl, rfl, -⟩ := heq
        exact .inl ⟨rfl, hret⟩

/-- An event changes the VIRT_DEVs that are subscribed to it, once each. -/
theorem vdev_at_process {m : mngdev_data H} (hrows : RowsFilled m.event_dispatch_list)
    (event : Int) (f : modac_vdev_des → modac_vdev_des) (hf : ∀ v, (f v).ptr = v.ptr)
    {v' : modac_vdev_des} (hv' : vdev_at (modac_mngdev_process_event m event f) v'.ptr = some v') :
    ∃ v, vdev_at m v.ptr = some v ∧ v.ptr = v'.ptr ∧
      v' = if v.ptr ∈ event_dispatch_list_for_all_subscribers m.event_dispatch_list event then f v
        else v := by
  have hat := vdev_at_foldl_update (m := m) hf v'.ptr (hrows.for_all_subscribers event).1
  obtain ⟨v, hv, heq⟩ := Option.map_eq_some_iff.mp (hat.symm.trans hv')
  obtain ⟨-, hptr⟩ := vdev_at_mem hv
  exact ⟨v, hptr ▸ hv, hptr, hptr ▸ heq.symm⟩

/-- A VIRT_DEV after a change of one of them is the changed one, or was there before. -/
theorem vdev_at_changed {m : mngdev_data H} {v v' : modac_vdev_des}
    (hv : vdev_at m v.ptr = some v) {change : modac_vdev_des → modac_vdev_des}
    (hv' : ((vdev_at m v'.ptr).map fun w => if v'.ptr = v.ptr then change w else w) = some v') :
    (v'.ptr = v.ptr ∧ v' = change v) ∨ (v'.ptr ≠ v.ptr ∧ vdev_at m v'.ptr = some v') := by
  obtain ⟨w, hw, heq⟩ := Option.map_eq_some_iff.mp hv'
  by_cases hptr : v'.ptr = v.ptr
  · rw [if_pos hptr] at heq
    rw [hptr, hv, Option.some.injEq] at hw
    exact .inl ⟨hptr, hw ▸ heq.symm⟩
  · rw [if_neg hptr] at heq
    exact .inr ⟨hptr, heq ▸ hw⟩

/-- A VIRT_DEV is put in the place of the one at its address. -/
theorem vdev_at_replace {m : mngdev_data H} {v v₁ : modac_vdev_des} (hptr : v₁.ptr = v.ptr)
    (ptr : Nat) :
    vdev_at (update_vdev m v.ptr fun _ => v₁) ptr =
      (vdev_at m ptr).map fun w => if ptr = v.ptr then v₁ else w := by
  have heq : update_vdev m v.ptr (fun _ => v₁) =
      update_vdev m v.ptr fun w => if w.ptr = v.ptr then v₁ else w := by
    unfold update_vdev
    congr 1
    refine List.map_congr_left fun w _ => ?_
    dsimp only
    split_ifs <;> rfl
  have hkeeps : ∀ w : modac_vdev_des, (if w.ptr = v.ptr then v₁ else w).ptr = w.ptr := by
    intro w
    split_ifs with hw
    · rw [hptr, hw]
    · rfl
  rw [heq, vdev_at_update v.ptr ptr hkeeps]
  refine Option.map_congr fun w hw => ?_
  obtain ⟨-, rfl⟩ := vdev_at_mem hw
  split_ifs <;> rfl

/-- The sessions in a run whose steps keep them fresh. -/
structure SessionInv (s : session_state H) : Prop where
  subscribers : SubscribersInv (usage_of s.state)
  users : UsersCounted (usage_of s.state)
  began : ∀ ptr, (s.sessions ptr).began ≤ s.clock
  waiting : ∀ m v, s.state.mngdev = some m → vdev_at m v.ptr = some v → 1 ≤ v.usage_counter →
    (s.sessions v.ptr).Fresh v
  returned : SessionsFresh s

/-- A VIRT_DEV with an open file has a user. -/
theorem SessionInv.used {s : session_state H} (h : SessionInv s) {m : mngdev_data H}
    (hm : s.state.mngdev = some m) {v : modac_vdev_des} (hv : vdev_at m v.ptr = some v)
    {i : inode} (hfile : ⟨i, .vdev v.ptr⟩ ∈ s.state.files) : 1 ≤ v.usage_counter := by
  obtain ⟨hmem, -⟩ := vdev_at_mem hv
  have hcount : v.usage_counter = (usage_of s.state).files.countP (opens v.ptr) :=
    h.users.counted _ (usage_of_device hm) (vdev_usage_of v) (List.mem_map_of_mem hmem)
  have hpos : 0 < (usage_of s.state).files.countP (opens v.ptr) :=
    List.countP_pos_iff.mpr ⟨_, hfile, decide_eq_true rfl⟩
  omega

/-- What an operation means for the session of a VIRT_DEV that is there. -/
theorem session_step_at {hs : modac_hw_support_def H A O} {s t : session_state H} {a : op A}
    (hstep : session_step hs s a = some t) :
    ∃ ret out, exec hs s.state a = some (t.state, ret, out) ∧ t.clock = s.clock + 1 ∧
      ∀ ptr, (∀ m v, s.state.mngdev = some m → vdev_at m v.ptr = some v → v.ptr = ptr →
          t.sessions ptr = (s.sessions ptr).follow (s.clock + 1) s.state m v ret
            (returned_events out) a) ∧
        ((∀ m v, s.state.mngdev = some m → ¬ vdev_at m ptr = some v) →
          t.sessions ptr = s.sessions ptr) := by
  obtain ⟨⟨state, ret, out⟩, hexec, rfl⟩ := Option.map_eq_some_iff.mp hstep
  refine ⟨ret, out, hexec, rfl, fun ptr => ⟨?_, ?_⟩⟩
  · rintro m v hm hv rfl
    simp only [hm, hv]
  · intro hnone
    cases hm : s.state.mngdev with
    | none => rfl
    | some m =>
      cases hv : vdev_at m ptr with
      | none => simp only [hv]
      | some v => exact absurd hv (hnone m v hm)

/-- Either the session is followed, or there is no VIRT_DEV at the address. -/
theorem vdev_there_or_not (s : modac_state H) (ptr : Nat) :
    (∃ m v, s.mngdev = some m ∧ vdev_at m v.ptr = some v ∧ v.ptr = ptr) ∨
      ∀ m v, s.mngdev = some m → ¬ vdev_at m ptr = some v := by
  by_cases hthere : ∃ m v, s.mngdev = some m ∧ vdev_at m ptr = some v
  · obtain ⟨m, v, hm, hv⟩ := hthere
    obtain ⟨-, hptr⟩ := vdev_at_mem hv
    exact .inl ⟨m, v, hm, hptr ▸ hv, hptr⟩
  · exact .inr fun m v hm hv => hthere ⟨m, v, hm, hv⟩

section

variable {ses : session} {time : Nat} {s : modac_state H} {m : mngdev_data H}
  {v : modac_vdev_des} {ret : Int} {events : List cb_read} {a : op A}

/-- Operations that do not reach the queue do not reach the session. -/
theorem session.follow_of_not_reaches (ha : a.reaches_queue = false) :
    ses.follow time s m v ret events a = ses := by
  cases a with
  | vdev_open | put_event | notify | vdev_read => cases ha
  | _ => rfl

theorem session.note_began (event : Int) : (ses.note time event).began = ses.began := by
  unfold session.note
  cases event_index event <;> rfl

theorem session.note_returned (event : Int) :
    (ses.note time event).returned = ses.returned := by
  unfold session.note
  cases event_index event <;> rfl

theorem session.put_returned (cb : modac_circ_buf) (data : List (BitVec 8)) :
    (ses.put time cb data).returned = ses.returned := by
  unfold session.put
  split_ifs <;> rfl

theorem session.follow_began (hbegan : ses.began ≤ time) :
    (ses.follow time s m v ret events a).began ≤ time := by
  cases a with
  | vdev_open =>
    simp only [session.follow]
    split_ifs
    · exact Nat.le_refl time
    · exact hbegan
  | put_event =>
    simp only [session.follow]
    split_ifs
    · rw [session.put_began]
      exact hbegan
    · exact hbegan
  | notify =>
    simp only [session.follow]
    split_ifs
    · rw [session.note_began]
      exact hbegan
    · exact hbegan
  | vdev_read =>
    simp only [session.follow]
    split_ifs
    · exact hbegan
    · exact hbegan
  | _ => exact hbegan

/-- What a session returned stays fresh, where a read only returns what is. -/
theorem session.follow_returned (hreturned : ∀ n ∈ ses.returned, ses.began < n)
    (hread : ∀ i buf_len nonblock copy_to_user, a = .vdev_read i v.ptr buf_len nonblock copy_to_user →
      ses.Fresh v) :
    ∀ n ∈ (ses.follow time s m v ret events a).returned,
      (ses.follow time s m v ret events a).began < n := by
  cases a with
  | vdev_open =>
    simp only [session.follow]
    split_ifs
    · intro n hn
      cases hn
    · exact hreturned
  | put_event =>
    simp only [session.follow]
    split_ifs
    · rw [session.put_began, session.put_returned]
      exact hreturned
    · exact hreturned
  | notify =>
    simp only [session.follow]
    split_ifs
    · rw [session.note_began, session.note_returned]
      exact hreturned
    · exact hreturned
  | vdev_read i ptr buf_len nonblock copy_to_user =>
    simp only [session.follow]
    split_ifs with hptr
    · intro n hn
      obtain hn | hn := List.mem_append.mp hn
      · exact hreturned n hn
      · exact hread i buf_len nonblock copy_to_user (by rw [hptr]) n (List.mem_of_mem_take hn)
    · exact hreturned
  | _ => exact hreturned

end

/-- An event leaves fresh what waits if it does so for the VIRT_DEVs that are subscribed to it. -/
theorem SessionInv.waiting_process {s : session_state H} (h : SessionInv s) {m : mngdev_data H}
    (hm : s.state.mngdev = some m) (event : Int) (f : modac_vdev_des → modac_vdev_des)
    (hf : ∀ v, (f v).ptr = v.ptr) (husers : ∀ v, (f v).usage_counter = v.usage_counter)
    (dispatched : session → modac_vdev_des → session)
    (hfresh : ∀ v, vdev_at m v.ptr = some v →
      v.ptr ∈ event_dispatch_list_for_all_subscribers m.event_dispatch_list event →
      (s.sessions v.ptr).Fresh v → (dispatched (s.sessions v.ptr) v).Fresh (f v))
    {v' : modac_vdev_des} (hv' : vdev_at (modac_mngdev_process_event m event f) v'.ptr = some v')
    (hused : 1 ≤ v'.usage_counter) :
    ∃ v, vdev_at m v.ptr = some v ∧ v.ptr = v'.ptr ∧
      (if v.ptr ∈ event_dispatch_list_for_all_subscribers m.event_dispatch_list event then
        dispatched (s.sessions v.ptr) v else s.sessions v.ptr).Fresh v' := by
  have hrows := h.subscribers.rows _ (usage_of_device hm)
  obtain ⟨v, hv, hptr, hfrom⟩ := vdev_at_process hrows event f hf hv'
  refine ⟨v, hv, hptr, ?_⟩
  by_cases hmem : v.ptr ∈ event_dispatch_list_for_all_subscribers m.event_dispatch_list event
  · rw [if_pos hmem] at hfrom ⊢
    rw [hfrom, husers] at hused
    rw [hfrom]
    exact hfresh v hv hmem (h.waiting m v hm hv hused)
  · rw [if_neg hmem] at hfrom ⊢
    rw [hfrom] at hused ⊢
    exact h.waiting m v hm hv hused

/-- A step that keeps the sessions fresh leaves fresh what waits for the readers. -/
theorem SessionInv.waiting_step {hs : modac_hw_support_def H A O} {s t : session_state H}
    {a : op A} (h : SessionInv s) (hkeeps : KeepsFresh s a) (hstep : session_step hs s a = some t)
    {m' : mngdev_data H} (hm' : t.state.mngdev = some m') {v' : modac_vdev_des}
    (hv' : vdev_at m' v'.ptr = some v') (hused : 1 ≤ v'.usage_counter) :
    (t.sessions v'.ptr).Fresh v' := by
  obtain ⟨ret, out, hexec, -, hsessions⟩ := session_step_at hstep
  have htime : ∀ ptr, (s.sessions ptr).began < s.clock + 1 := fun ptr =>
    Nat.lt_succ_of_le (h.began ptr)
  have hsys : step hs s.state a = some t.state := Option.map_eq_some_iff.mpr ⟨_, hexec, rfl⟩
  have hfollow := (hsessions v'.ptr).1
  by_cases ha : a.reaches_queue = false
  · obtain ⟨m, hm, hkept⟩ := queuesKept_of_step h.subscribers.ptrs hsys ha hm'
    obtain ⟨v, hv, hcb_events, hnotified, hle⟩ := hkept v' hv' hused
    obtain ⟨-, hptr⟩ := vdev_at_mem hv
    rw [hfollow m v hm (hptr ▸ hv) hptr, session.follow_of_not_reaches ha, ← hptr]
    exact (h.waiting m v hm (hptr ▸ hv) (by omega)).of_same hcb_events hnotified
  cases a with
  | vdev_open i kmalloc =>
    obtain ⟨hsame, hret⟩ | ⟨m, v, hm, hv, hopened, hget, hret, hstate⟩ := exec_vdev_open hexec
    · rw [hsame] at hm'
      rw [hfollow m' v' hm' hv' rfl, session.follow, if_neg fun hbegin => hret hbegin.1]
      exact h.waiting m' v' hm' hv' hused
    · rw [hstate, Option.some.injEq] at hm'
      have hat := vdev_at_update (m := { m with ref := (devref_get m.ref (some i) kmalloc).1 })
        v.ptr v'.ptr (f := fun v => { v with usage_counter := v.usage_counter + 1 }) fun _ => rfl
      rw [← hm', hat] at hv'
      obtain ⟨hptr, heq⟩ | ⟨hptr, hat'⟩ := vdev_at_changed hv hv'
      · rw [hfollow m v hm hv hptr.symm, hptr, session.follow, heq]
        by_cases hfirst : v.usage_counter < 1
        · rw [if_pos ⟨hret, hopened, hfirst⟩]
          have hdata := hkeeps.opens i kmalloc m v rfl hm hv hopened hget hfirst
          exact (session.Fresh.begin hdata _).of_same rfl rfl
        · rw [if_neg fun hbegin => hfirst hbegin.2.2]
          exact (h.waiting m v hm hv (by omega)).of_same rfl rfl
      · have hother : ¬ opened_vdev s.state i = some v'.ptr := by
          intro hopened'
          exact hptr (Option.some.inj (hopened'.symm.trans hopened))
        rw [hfollow m v' hm hat' rfl, session.follow, if_neg fun hbegin => hother hbegin.2.1]
        exact h.waiting m v' hm hat' hused
  | put_event event data =>
    obtain ⟨m, hm, heq⟩ := Option.map_eq_some_iff.mp hexec
    obtain ⟨hstate, -⟩ := Prod.mk.inj heq
    rw [← hstate] at hm'
    obtain rfl := Option.some.inj hm'
    obtain ⟨w, hw, hptr, hfresh⟩ := h.waiting_process hm event
      (fun v => modac_vdev_put_cb v event data) (fun _ => rfl) (fun _ => rfl)
      (fun ses v => ses.put (s.clock + 1) v.cb_events data)
      (fun w hw hmem hfresh =>
        hfresh.put (htime w.ptr) event (hkeeps.puts event data m w rfl hm hw hmem)) hv' hused
    rw [hfollow m w hm hw hptr, session.follow, ← hptr]
    exact hfresh
  | notify event =>
    obtain ⟨m, hm, heq⟩ := Option.map_eq_some_iff.mp hexec
    obtain ⟨hstate, -⟩ := Prod.mk.inj heq
    rw [← hstate] at hm'
    obtain rfl := Option.some.inj hm'
    obtain ⟨w, hw, hptr, hfresh⟩ := h.waiting_process hm event
      (fun v => modac_vdev_notify v event) (fun _ => rfl) (fun _ => rfl)
      (fun ses _ => ses.note (s.clock + 1) event)
      (fun w _ _ hfresh => hfresh.note (htime w.ptr) event) hv' hused
    rw [hfollow m w hm hw hptr, session.follow, ← hptr]
    exact hfresh
  | vdev_read i ptr buf_len nonblock copy_to_user =>
    obtain ⟨m, v, hm, hv, rfl, hfile, hbind⟩ := on_vdev_file_eq_some hexec
    obtain ⟨⟨v₁, ret₁, events⟩, hread, hresult⟩ := Option.map_eq_some_iff.mp hbind
    obtain ⟨hstate, -⟩ := Prod.mk.inj hresult
    rw [← hstate] at hm'
    obtain rfl := Option.some.inj hm'
    have hptr₁ : v₁.ptr = v.ptr := congrArg vdev_usage.ptr (vdev_read_usage hread)
    obtain ⟨k, -, htook, -⟩ := vdev_read_took hread
    rw [vdev_at_replace hptr₁] at hv'
    obtain ⟨hptr, heq⟩ | ⟨hptr, hat'⟩ := vdev_at_changed hv hv'
    · rw [hfollow m v hm hv hptr.symm, hptr, session.follow, if_pos rfl, heq]
      exact (h.waiting m v hm hv (h.used hm hv hfile)).took htook
    · rw [hfollow m v' hm hat' rfl, session.follow, if_neg (Ne.symm hptr)]
      exact h.waiting m v' hm hat' hused
  | _ => exact absurd rfl ha

theorem SessionInv.step {hs : modac_hw_support_def H A O} {s t : session_state H} {a : op A}
    (h : SessionInv s) (hkeeps : KeepsFresh s a) (hstep : session_step hs s a = some t) :
    SessionInv t := by
  obtain ⟨ret, out, hexec, hclock, hsessions⟩ := session_step_at hstep
  have hsys : system.step hs s.state a = some t.state :=
    Option.map_eq_some_iff.mpr ⟨_, hexec, rfl⟩
  have heffect := usage_effect_of_step h.subscribers.ptrs hsys
  refine ⟨h.subscribers.step heffect, h.users.step h.subscribers.ptrs heffect, ?_, ?_, ?_⟩
  · intro ptr
    rw [hclock]
    have hbegan : (s.sessions ptr).began ≤ s.clock + 1 := Nat.le_succ_of_le (h.began ptr)
    obtain ⟨m, v, hm, hv, hptr⟩ | hnone := vdev_there_or_not s.state ptr
    · rw [(hsessions ptr).1 m v hm hv hptr]
      exact session.follow_began hbegan
    · rw [(hsessions ptr).2 hnone]
      exact hbegan
  · intro m' v' hm' hv' hused
    exact h.waiting_step hkeeps hstep hm' hv' hused
  · intro ptr
    obtain ⟨m, v, hm, hv, rfl⟩ | hnone := vdev_there_or_not s.state ptr
    · rw [(hsessions v.ptr).1 m v hm hv rfl]
      refine session.follow_returned (h.returned v.ptr) fun i buf_len nonblock copy_to_user ha => ?_
      subst ha
      obtain ⟨m₀, v₀, hm₀, hv₀, hptr, hfile, -⟩ := on_vdev_file_eq_some hexec
      rw [hptr] at hfile
      exact h.waiting m v hm hv (h.used hm hv hfile)
    · rw [(hsessions ptr).2 hnone]
      exact h.returned ptr

theorem sessionInv_init {hs : modac_hw_support_def H A O} {des : modac_mngdev_des} {hw : H}
    {hw_res_defs : List modac_hw_res_def} {s : modac_state H}
    (hcreate : modac_mngdev_create hs des hw hw_res_defs = .ok s) :
    SessionInv (session_init s) := by
  have hopen := openInv_of_create hcreate
  refine ⟨subscribersInv_of_create hcreate, hopen.users, fun _ => Nat.le_refl 0, ?_, ?_⟩
  · intro m v hm hv _
    obtain ⟨hmem, -⟩ := vdev_at_mem hv
    obtain ⟨rm_data, -, heq⟩ := usage_of_create hcreate
    have hd : (usage_of s).device = some (mngdev_usage_of m) := usage_of_device hm
    rw [heq] at hd
    have hnone := congrArg mngdev_usage.vdevs (Option.some.inj hd)
    have hv' : vdev_usage_of v ∈ (mngdev_usage_of m).vdevs := List.mem_map_of_mem hmem
    rw [← hnone] at hv'
    cases hv'
  · intro ptr n hn
    cases hn

/-- In a run where each session begins with nothing for a reader, and where no put publishes
a slot that was last written before the session, all that the reads of a session return was
dispatched after its open. -/
theorem sessions_fresh {hs : modac_hw_support_def H A O} {des : modac_mngdev_des} {hw : H}
    {hw_res_defs : List modac_hw_res_def} {s : modac_state H}
    (hcreate : modac_mngdev_create hs des hw hw_res_defs = .ok s) (ops : List (op A))
    (hkeeps : StepsMeet (session_step hs) KeepsFresh (session_init s) ops) :
    StatesMeet (session_step hs) SessionsFresh (session_init s) ops :=
  statesMeet_of_stepsMeet (fun _ h => h.returned) (fun _ _ _ h hkeeps hstep => h.step hkeeps hstep)
    (sessionInv_init hcreate) hkeeps

/-- A VIRT_DEV is opened, subscribes to an event and is put one. -/
def open_subscribe_put : List (op Unit) :=
  open_first ++ [create_vdev [0x61], .vdev_open ⟨2, 1⟩ true,
    subscribe_vdev ⟨2, 1⟩ 0 40 VIRT_DEV_IOCTL_SUBSCRIBE_ACTION_SUBSCRIBE,
    .put_event 40 [1, 2, 3]]

def read_one : op Unit := .vdev_read ⟨2, 1⟩ 0 14 true fun _ => true

def close_and_reopen : List (op Unit) := [.vdev_release ⟨2, 1⟩ 0, .vdev_open ⟨2, 1⟩ true]

/-- A test that is enough for a step to keep the sessions fresh. -/
def keeps_fresh_check (s : session_state H) : op A → Bool
  | .vdev_open _ _ => s.state.mngdev.all fun m => m.vdev_list.all fun v => !read_has_data v
  | .put_event _ _ => s.state.mngdev.all fun m => m.vdev_list.all fun v =>
    decide (1 < CIRC_SPACE v.cb_events.head v.cb_events.tail CBUF_EVENT_COUNT)
  | _ => true

theorem keepsFresh_of_check (s : session_state H) (a : op A)
    (hcheck : keeps_fresh_check s a = true) : KeepsFresh s a := by
  constructor
  · rintro i kmalloc m v rfl hm hv - - -
    obtain ⟨hmem, -⟩ := vdev_at_mem hv
    simp only [keeps_fresh_check, hm, Option.all_some, List.all_eq_true] at hcheck
    simpa using hcheck v hmem
  · rintro event data m v rfl hm hv - ⟨-, hone, -⟩
    obtain ⟨hmem, -⟩ := vdev_at_mem hv
    simp only [keeps_fresh_check, hm, Option.all_some, List.all_eq_true, decide_eq_true_eq]
      at hcheck
    have hmore := hcheck v hmem
    omega

/-- The record is read in the session that it was put in. -/
theorem sessions_fresh_read :
    ∃ s, modac_mngdev_create recording_hw_support first_mngdev [] [] = .ok s ∧
      StatesMeet (session_step recording_hw_support) SessionsFresh (session_init s)
        (open_subscribe_put ++ read_one :: close_and_reopen) := by
  have hcreate : modac_mngdev_create recording_hw_support first_mngdev [] [] = .ok _ := rfl
  exact ⟨_, hcreate, sessions_fresh hcreate _
    (stepsMeet_of_check keepsFresh_of_check (by decide +kernel))⟩

/-- The record is left unread, and the next session reads it. -/
theorem next_session_reads_old_record :
    ∃ s, modac_mngdev_create recording_hw_support first_mngdev [] [] = .ok s ∧
      ¬ StatesMeet (session_step recording_hw_support) SessionsFresh (session_init s)
        (open_subscribe_put ++ close_and_reopen ++ [read_one]) := by
  have hbad : ∀ u : session_state (List hw_call),
      ((u.sessions 0).returned.any fun time => decide (time ≤ (u.sessions 0).began)) = true →
        ¬ SessionsFresh u := by
    intro u hany hfresh
    obtain ⟨time, htime, hle⟩ := List.any_eq_true.mp hany
    have hlt := hfresh 0 time htime
    simp only [decide_eq_true_eq] at hle
    omega
  exact ⟨_, rfl, not_statesMeet_of_last hbad (by decide +kernel)⟩

end evrma.system
