import Evrma.PacketQueue.Loss
import Evrma.System.Sessions
import Evrma.VirtDev.ReadLoop

namespace evrma.system

open evrma.event_list evrma.ioctl evrma.lib evrma.mng_dev evrma.packet_queue evrma.virt_dev

variable {H A O : Type}

/-- The VIRT_DEV at an address comes from the one that was there, which `R` relates to it. -/
def VdevFrom (R : modac_vdev_des → modac_vdev_des → Prop) (ptr : Nat) (m m' : mngdev_data H) :
    Prop :=
  ∀ v' ∈ m'.vdev_list, v'.ptr = ptr → ∃ v ∈ m.vdev_list, v.ptr = ptr ∧ R v v'

/-- Direct accesses are allowed as before, and what waits does not go away. -/
def StaysReadable (v v' : modac_vdev_des) : Prop :=
  v'.direct_access_denied = v.direct_access_denied ∧
    (waiting_reads v ≠ [] → waiting_reads v' ≠ [])

theorem StaysReadable.refl (v : modac_vdev_des) : StaysReadable v v := ⟨rfl, id⟩

theorem StaysReadable.trans {v w v' : modac_vdev_des} (h : StaysReadable v w)
    (h' : StaysReadable w v') : StaysReadable v v' :=
  ⟨h'.1.trans h.1, fun hsome => h'.2 (h.2 hsome)⟩

/-- What the readers get depends on the queue and the notified events only. -/
theorem StaysReadable.of_same {v v' : modac_vdev_des}
    (hdenied : v'.direct_access_denied = v.direct_access_denied)
    (hcb_events : v'.cb_events = v.cb_events)
    (hnotified : v'.notified_events = v.notified_events) : StaysReadable v v' := by
  refine ⟨hdenied, fun hsome => ?_⟩
  unfold waiting_reads waiting at hsome ⊢
  rw [hcb_events, hnotified]
  exact hsome

/-- A put only adds to the records. -/
theorem put_records_prefix (cb : modac_circ_buf) (event : Int) (data : List (BitVec 8)) :
    cb.records <+: (modac_cb_put cb event data).1.records := by
  by_cases hlen : data.length ≤ CBUF_EVENT_ENTRY_DATA_LENGTH
  · obtain ⟨-, hroom⟩ | ⟨-, hlast, hflag⟩ | ⟨-, hlast, hflag⟩ | ⟨-, hfull⟩ := put_branch_cases cb
    · rw [(modac_cb_put_of_room cb event hlen hroom).1]
      exact List.prefix_append _ _
    · rw [(modac_cb_put_of_last_slot cb event hlen hlast hflag).1]
      exact List.prefix_append _ _
    · rw [modac_cb_put_of_flag cb event hlen hlast hflag]
      exact List.prefix_append _ _
    · rw [modac_cb_put_of_full cb event data hfull]
  · rw [modac_cb_put_of_long cb event hlen]

/-- Something waits if there is a record in the queue, or an event is notified. -/
theorem waiting_reads_ne_nil {v : modac_vdev_des} :
    waiting_reads v ≠ [] ↔
      v.cb_events.records ≠ [] ∨ ∃ event, v.notified_events event = true := by
  rw [← List.length_pos_iff, ← List.length_pos_iff, modac_circ_buf.records_length]
  simp only [waiting_reads, waiting, List.length_append, List.length_map, window_length]
  rw [Nat.add_pos_iff_pos_or_pos, or_comm, List.length_pos_iff_exists_mem]
  simp only [List.mem_filter, List.mem_finRange, true_and]

theorem StaysReadable.put (v : modac_vdev_des) (event : Int) (data : List (BitVec 8)) :
    StaysReadable v (modac_vdev_put_cb v event data) := by
  refine ⟨rfl, fun hsome => ?_⟩
  rw [waiting_reads_ne_nil] at hsome ⊢
  exact hsome.imp_left fun hrecords hnone =>
    hrecords (List.prefix_nil.mp (hnone ▸ put_records_prefix v.cb_events event data))

theorem StaysReadable.notify (v : modac_vdev_des) (event : Int) :
    StaysReadable v (modac_vdev_notify v event) := by
  refine ⟨rfl, fun hsome => ?_⟩
  rw [waiting_reads_ne_nil] at hsome ⊢
  refine hsome.imp_right fun ⟨i, hi⟩ => ⟨i, ?_⟩
  rw [modac_vdev_notify, event_list_add_eq_true]
  exact .inl hi

section

variable {R : modac_vdev_des → modac_vdev_des → Prop} {ptr : Nat} {m m' : mngdev_data H}

theorem VdevFrom.of_sublist (hR : ∀ v, R v v) (hsub : ∀ v ∈ m'.vdev_list, v ∈ m.vdev_list) :
    VdevFrom R ptr m m' :=
  fun v hv hptr => ⟨v, hsub v hv, hptr, hR v⟩

theorem VdevFrom.of_same (hR : ∀ v, R v v) (hsame : m'.vdev_list = m.vdev_list) :
    VdevFrom R ptr m m' :=
  .of_sublist hR fun _ hv => hsame ▸ hv

theorem VdevFrom.trans {m'' : mngdev_data H} (hR : ∀ u v w, R u v → R v w → R u w)
    (h : VdevFrom R ptr m m') (h' : VdevFrom R ptr m' m'') : VdevFrom R ptr m m'' := by
  intro w hw hptr
  obtain ⟨v', hv', hptr', hw'⟩ := h' w hw hptr
  obtain ⟨v, hv, hptr₀, hv''⟩ := h v' hv' hptr'
  exact ⟨v, hv, hptr₀, hR v v' w hv'' hw'⟩

theorem VdevFrom.update (hR : ∀ v, R v v) (m : mngdev_data H) (p : Nat)
    {f : modac_vdev_des → modac_vdev_des} (hptr : ∀ v, (f v).ptr = v.ptr)
    (hf : ∀ v, R v (f v)) : VdevFrom R ptr m (update_vdev m p f) := by
  intro v' hv' hptr'
  obtain ⟨v, hv, rfl⟩ := List.mem_map.mp hv'
  split_ifs at hptr' ⊢
  · exact ⟨v, hv, hptr v ▸ hptr', hf v⟩
  · exact ⟨v, hv, hptr', hR v⟩

/-- The VIRT_DEV at another address does not matter. -/
theorem VdevFrom.replace_other (hR : ∀ v, R v v) (m : mngdev_data H) {p : Nat} (hp : p ≠ ptr)
    {w : modac_vdev_des} (hw : w.ptr = p) : VdevFrom R ptr m (update_vdev m p fun _ => w) := by
  intro v' hv' hptr'
  obtain ⟨v, hv, rfl⟩ := List.mem_map.mp hv'
  split_ifs at hptr' ⊢
  · exact absurd (hw.symm.trans hptr') hp
  · exact ⟨v, hv, hptr', hR v⟩

theorem VdevFrom.process (hR : ∀ v, R v v) (htrans : ∀ u v w, R u v → R v w → R u w)
    (m : mngdev_data H) (event : Int) {f : modac_vdev_des → modac_vdev_des}
    (hptr : ∀ v, (f v).ptr = v.ptr) (hf : ∀ v, R v (f v)) :
    VdevFrom R ptr m (modac_mngdev_process_event m event f) := by
  unfold modac_mngdev_process_event
  generalize event_dispatch_list_for_all_subscribers m.event_dispatch_list event = subscribers
  induction subscribers generalizing m with
  | nil => exact .of_same hR rfl
  | cons p subscribers ih => exact (VdevFrom.update hR m p hptr hf).trans htrans (ih _)

end

/-- The operation is a read of the VIRT_DEV at the address. -/
def reads_vdev (ptr : Nat) : op A → Bool
  | .vdev_read _ p _ _ _ => p = ptr
  | _ => false

section

variable {hs : modac_hw_support_def H A O} {s t : modac_state H} {a : op A} {ptr : Nat}
  {m m' : mngdev_data H}

theorem VdevFrom.put_reference (hfrom : VdevFrom StaysReadable ptr m m') {slots : vdev_slots}
    {i : Option inode} {vdev_des : Option Nat} {m'' : mngdev_data H}
    (ht : t = put_reference s (drvdat_put hs m' slots i vdev_des)) (hm'' : t.mngdev = some m'') :
    VdevFrom StaysReadable ptr m m'' := by
  rw [ht] at hm''
  simp only [system.put_reference, drvdat_put] at hm''
  split_ifs at hm''
  obtain rfl := Option.some.inj hm''
  exact hfrom.trans (fun _ _ _ => .trans) (.of_same .refl rfl)

theorem VdevFrom.leave (hs : modac_hw_support_def H A O) (m : mngdev_data H)
    (v : modac_vdev_des) : VdevFrom StaysReadable ptr m (vdev_leave hs m v) := by
  obtain ⟨hw, heq⟩ := vdev_leave_eq hs m v
  rw [heq]
  have hupdate : VdevFrom StaysReadable ptr m (update_vdev m v.ptr fun v =>
      { v with usage_counter := v.usage_counter - 1 }) :=
    .update .refl m v.ptr (fun _ => rfl) fun _ => .of_same rfl rfl rfl
  exact hupdate.trans (fun _ _ _ => .trans) (.of_same .refl rfl)

theorem VdevFrom.mngdev_ioctl {slots slots' : vdev_slots} {next_ptr : Nat}
    (hgiven : ptr < next_ptr) {cmd : ioctl_cmd} {arg : mngdev_ioctl_arg A}
    (heffect : mngdev_ioctl_effect hs m slots next_ptr cmd arg m' slots') :
    VdevFrom StaysReadable ptr m m' := by
  cases heffect with
  | none => exact .of_same .refl rfl
  | hw_ioctl => exact .of_same .refl rfl
  | create v imngdev ivdev hptr =>
    intro w hw hptr'
    obtain rfl | hw := List.mem_cons.mp hw
    · omega
    · exact ⟨w, hw, hptr', .refl w⟩
  | destroy v =>
    refine .of_sublist .refl fun w hw => ?_
    simp only [list_destroy_vdev, if_true, list_del, mngdev_event_dispatch_list_remove_all,
      on_subscribe_change_vdev_list] at hw
    exact List.mem_of_mem_filter hw
  | alloc v args rm_data index t i =>
    have hsame : VdevFrom StaysReadable ptr m { m with rm_data } := .of_same .refl rfl
    refine hsame.trans (fun _ _ _ => .trans) (.update .refl _ _ (fun w => ?_) fun w => ?_)
    · exact (vdev_on_res_add_queue _ w _).1
    · obtain ⟨-, hcb_events, hnotified, -⟩ := vdev_on_res_add_queue { m with rm_data } w ⟨t, i⟩
      refine .of_same ?_ hcb_events hnotified
      unfold vdev_on_res_add
      dsimp only
      split_ifs <;> rfl

theorem VdevFrom.vdev_ioctl {v : modac_vdev_des} {cmd : ioctl_cmd} {arg : vdev_ioctl_arg A}
    (heffect : vdev_ioctl_effect hs m v cmd arg m') : VdevFrom StaysReadable ptr m m' := by
  cases heffect with
  | none => exact .of_same .refl rfl
  | direct_ioctl => exact .of_same .refl rfl
  | hw_ioctl => exact .of_same .refl rfl
  | subscribe args =>
    apply VdevFrom.of_same .refl
    rw [on_subscribe_change_vdev_list]
    unfold change_subscriptions
    split_ifs <;> rfl

theorem VdevFrom.mngdev_sysfs (hs : modac_hw_support_def H A O) (m : mngdev_data H)
    (sysfs : mngdev_sysfs) : VdevFrom StaysReadable ptr m (mngdev_sysfs_op hs m sysfs).1 := by
  apply VdevFrom.of_same .refl
  unfold mngdev_sysfs_op
  split_ifs
  · rfl
  · cases sysfs with
    | show_dbg => cases hs.show_dbg <;> rfl
    | store_dbg => cases hs.store_dbg <;> rfl
    | show_hw_regs => cases hs.dbg_regs <;> rfl
    | _ => rfl

theorem VdevFrom.vdev_sysfs (hs : modac_hw_support_def H A O) (m : mngdev_data H)
    (v : modac_vdev_des) (sysfs : vdev_sysfs) :
    VdevFrom StaysReadable ptr m (vdev_sysfs_op hs m v sysfs).1 := by
  unfold vdev_sysfs_op
  split_ifs
  · exact .of_same .refl rfl
  · cases sysfs with
    | show_config => cases hs.dbg_res <;> exact .of_same .refl rfl
    | store_hw_reset => exact .of_same .refl rfl
    | store_config val =>
      cases val with
      | none => exact .of_same .refl rfl
      | some val => exact .update .refl m v.ptr (fun _ => rfl) fun _ => .of_same rfl rfl rfl

/-- Only a read takes something away from a VIRT_DEV. -/
theorem stays_readable_of_step (hptrs : PtrsGiven (usage_of s)) (hgiven : ptr < s.next_ptr)
    (hstep : step hs s a = some t) (hother : reads_vdev ptr a = false) (hm' : t.mngdev = some m') :
    ∃ m, s.mngdev = some m ∧ VdevFrom StaysReadable ptr m m' := by
  have heffect := effect_of_step hstep
  cases heffect with
  | none => exact ⟨m', hm', .of_same .refl rfl⟩
  | mngdev_open m i kmalloc hm =>
    obtain rfl := Option.some.inj hm'
    exact ⟨m, hm, .of_same .refl rfl⟩
  | mngdev_open_busy m i pid hm => exact ⟨m', hm', .of_same .refl rfl⟩
  | mngdev_open_finish m i pid hm =>
    obtain rfl := Option.some.inj hm'
    exact ⟨m, hm, .of_same .refl rfl⟩
  | mngdev_release m i hm =>
    have hpid : VdevFrom StaysReadable ptr m { m with pid := NO_PID } := .of_same .refl rfl
    exact ⟨m, hm, hpid.put_reference rfl hm'⟩
  | mngdev_ioctl m i cmd arg hm =>
    have hnew : ∀ w ∈ m.vdev_list, w.ptr ≠ s.next_ptr := by
      intro w hw
      have hlt := hptrs.lt _ (usage_of_device hm) (vdev_usage_of w) (List.mem_map_of_mem hw)
      exact Nat.ne_of_lt hlt
    obtain rfl := Option.some.inj hm'
    have heffect : mngdev_ioctl_effect hs m s.vdev_slots s.next_ptr cmd arg _ _ :=
      mngdev_unlocked_ioctl_effect hnew
    exact ⟨m, hm, .mngdev_ioctl hgiven heffect⟩
  | mngdev_sysfs m sysfs hm =>
    obtain rfl := Option.some.inj hm'
    exact ⟨m, hm, .mngdev_sysfs hs m sysfs⟩
  | vdev_open m i kmalloc imngdev ivdev v hm =>
    obtain rfl := Option.some.inj hm'
    have hsame : VdevFrom StaysReadable ptr m
        { m with ref := (devref_get m.ref (some i) kmalloc).1 } := .of_same .refl rfl
    exact ⟨m, hm, hsame.trans (fun _ _ _ => .trans)
      (.update .refl _ v.ptr (fun _ => rfl) fun _ => .of_same rfl rfl rfl)⟩
  | vdev_release m i v hm =>
    have hleave : VdevFrom StaysReadable ptr m (vdev_leave hs m v) := .leave hs m v
    exact ⟨m, hm, hleave.put_reference rfl hm'⟩
  | vdev_ioctl m i v cmd arg hm =>
    obtain rfl := Option.some.inj hm'
    exact ⟨m, hm, .vdev_ioctl (vdev_unlocked_ioctl_effect hs m v cmd arg)⟩
  | vdev_read m i v v' buf_len nonblock copy_to_user ret events hm hv hfile hread =>
    obtain rfl := Option.some.inj hm'
    have hne : v.ptr ≠ ptr := by simpa [reads_vdev] using hother
    have hptr : v'.ptr = v.ptr := congrArg vdev_usage.ptr (vdev_read_usage hread)
    exact ⟨m, hm, .replace_other .refl m hne hptr⟩
  | vdev_sysfs m v sysfs hm =>
    obtain rfl := Option.some.inj hm'
    exact ⟨m, hm, .vdev_sysfs hs m v sysfs⟩
  | put_event m event data hm =>
    obtain rfl := Option.some.inj hm'
    exact ⟨m, hm, .process .refl (fun _ _ _ => .trans) m event (fun _ => rfl)
      fun v => .put v event data⟩
  | notify m event hm =>
    obtain rfl := Option.some.inj hm'
    exact ⟨m, hm, .process .refl (fun _ _ _ => .trans) m event (fun _ => rfl)
      fun v => .notify v event⟩
  | destroy_unlist => exact ⟨m', hm', .of_same .refl rfl⟩
  | destroy_finish m hm =>
    have hinvalid : VdevFrom StaysReadable ptr m { m with ref := devref_invalidate m.ref } :=
      .of_same .refl rfl
    exact ⟨m, hm, hinvalid.put_reference rfl hm'⟩

end

/-- Addresses are only given out. -/
theorem next_ptr_le_of_step {hs : modac_hw_support_def H A O} {s t : modac_state H} {a : op A}
    (hstep : step hs s a = some t) : s.next_ptr ≤ t.next_ptr := by
  have heffect := effect_of_step hstep
  cases heffect with
  | mngdev_ioctl => exact Nat.le_succ _
  | _ => exact Nat.le_refl _

/-- Something waits in the VIRT_DEV at an address, for as long as it is there. -/
structure ReadableInv (ptr : Nat) (s : modac_state H) : Prop where
  ptrs : PtrsGiven (usage_of s)
  given : ptr < s.next_ptr
  waiting : ∀ m v, s.mngdev = some m → v ∈ m.vdev_list → v.ptr = ptr →
    v.direct_access_denied = false ∧ waiting_reads v ≠ []

theorem ReadableInv.step {hs : modac_hw_support_def H A O} {s t : modac_state H} {a : op A}
    {ptr : Nat} (h : ReadableInv ptr s) (hother : reads_vdev ptr a = false)
    (hstep : system.step hs s a = some t) : ReadableInv ptr t := by
  have heffect := usage_effect_of_step h.ptrs hstep
  refine ⟨h.ptrs.step heffect, Nat.lt_of_lt_of_le h.given (next_ptr_le_of_step hstep), ?_⟩
  intro m' v' hm' hv' hptr'
  obtain ⟨m, hm, hfrom⟩ := stays_readable_of_step h.ptrs h.given hstep hother hm'
  obtain ⟨v, hv, hptr, hdenied, hstays⟩ := hfrom v' hv' hptr'
  obtain ⟨hthere, hsome⟩ := h.waiting m v hm hv hptr
  exact ⟨hdenied.trans hthere, hstays hsome⟩

/-- A loop that has a record returns with it. -/
theorem read_loop_of_got (nonblock : Bool) {copy_to_user : Nat → Bool}
    (hcopy : ∀ i, copy_to_user i = true) (bound : Nat) (v : modac_vdev_des) (free : Int)
    (got : List cb_read) (hgot : got ≠ []) :
    ∃ v' more, read_loop nonblock copy_to_user bound v free got =
      some (v', (total (got ++ more) : Int), got ++ more) := by
  induction bound generalizing v free got with
  | zero => exact ⟨v, [], by rw [List.append_nil]; rfl⟩
  | succ bound ih =>
    rw [read_loop]
    by_cases hfree : READ_MIN ≤ free ∨ free < 0
    · rw [if_pos hfree]
      generalize read_get v = next
      obtain ⟨w, r⟩ := next
      cases r with
      | none =>
        dsimp only
        rw [if_pos hgot]
        exact ⟨w, [], by rw [List.append_nil]; rfl⟩
      | some r =>
        dsimp only
        rw [if_pos (hcopy _)]
        obtain ⟨v', more, hloop⟩ := ih w (free - r.n) (got ++ [r]) (by simp)
        rw [List.append_assoc] at hloop
        exact ⟨v', [r] ++ more, hloop⟩
    · rw [if_neg hfree]
      exact ⟨v, [], by rw [List.append_nil]; rfl⟩

/-- A read where something waits, with place for an event, returns something. -/
theorem vdev_read_of_waiting {v : modac_vdev_des} (hthere : v.direct_access_denied = false)
    (hsome : waiting_reads v ≠ []) {copy_to_user : Nat → Bool}
    (hcopy : ∀ i, copy_to_user i = true) (nonblock : Bool) {buf_len : Nat}
    (hlong : FULL_EVENT ≤ buf_len) :
    ∃ v' events, vdev_read v buf_len nonblock copy_to_user =
      some (v', (total events : Int), events) ∧ 0 < total events := by
  have hread_min : READ_MIN = (FULL_EVENT : Int) := rfl
  obtain ⟨r, rest, hwaiting⟩ := List.exists_cons_of_ne_nil hsome
  obtain ⟨-, -, hhead⟩ := read_get_waiting v
  rw [hwaiting, List.head?_cons] at hhead
  have hr : 2 ≤ r.n := by
    have hmem : r ∈ waiting_reads v := hwaiting ▸ List.mem_cons_self
    rw [waiting_reads, waiting, List.mem_append] at hmem
    obtain hmem | hmem := hmem
    · obtain ⟨event, -, rfl⟩ := List.mem_map.mp hmem
      exact Nat.le_refl 2
    · obtain ⟨i, -, rfl⟩ := List.mem_map.mp hmem
      exact Nat.le_add_right 2 _
  rw [vdev_read, if_neg (by simp [hthere]), if_neg (by omega)]
  obtain ⟨bound, hbound⟩ : ∃ bound, EVENT_LIST_TYPE_MAX_EVENTS + CBUF_EVENT_COUNT = bound + 1 :=
    ⟨_, rfl⟩
  rw [hbound, read_loop, if_pos (by omega)]
  generalize read_get v = next at hhead ⊢
  obtain ⟨w, first⟩ := next
  obtain rfl : first = some r := hhead
  dsimp only
  rw [if_pos (hcopy _)]
  obtain ⟨v', more, hloop⟩ := read_loop_of_got nonblock hcopy bound w
    (buf_len - r.n) ([] ++ [r]) (by simp)
  refine ⟨v', _, hloop, ?_⟩
  rw [List.nil_append, List.singleton_append, total_cons]
  omega

theorem readable_of_poll {v : modac_vdev_des} (h : vdev_poll v = POLL_READABLE) :
    v.direct_access_denied = false ∧ read_has_data v = true := by
  unfold vdev_poll at h
  by_cases hdenied : v.direct_access_denied = true
  · rw [if_pos hdenied] at h
    exact absurd h (by decide)
  · rw [if_neg hdenied] at h
    refine ⟨Bool.not_eq_true _ ▸ hdenied, ?_⟩
    by_contra hdata
    rw [if_neg hdata] at h
    exact absurd h (by decide)

/-- When a poll has said that there is something to read, a read of that VIRT_DEV returns
something and does not block, whatever else was done in between but a read of it; also
when the device has been unplugged. -/
theorem poll_promises_read {hs : modac_hw_support_def H A O} {des : modac_mngdev_des} {hw : H}
    {hw_res_defs : List modac_hw_res_def} {s₀ s t : modac_state H} {before ops : List (op A)}
    (hcreate : modac_mngdev_create hs des hw hw_res_defs = .ok s₀)
    (hbefore : run (step hs) s₀ before = some s) {i : inode} {ptr : Nat} {r : op_result H O}
    (hpoll : exec hs s (.vdev_poll i ptr) = some r) (hreadable : r.2.1 = POLL_READABLE)
    (hothers : ∀ a ∈ ops, reads_vdev ptr a = false) (hrun : run (step hs) s ops = some t)
    {j : inode} (hfile : ⟨j, .vdev ptr⟩ ∈ t.files) {m : mngdev_data H} (hm : t.mngdev = some m)
    {v : modac_vdev_des} (hv : vdev_at m ptr = some v) {copy_to_user : Nat → Bool}
    (hcopy : ∀ n, copy_to_user n = true) (nonblock : Bool) {buf_len : Nat}
    (hlong : FULL_EVENT ≤ buf_len) :
    ∃ u events, exec hs t (.vdev_read j ptr buf_len nonblock copy_to_user) =
      some (u, (total events : Int), .events events) ∧ 0 < total events := by
  obtain ⟨m₁, v₁, hm₁, hv₁, rfl, -, hanswer⟩ := on_vdev_file_eq_some hpoll
  have hptrs := run_invariant (I := fun s => PtrsGiven (usage_of s))
    (fun _ _ _ hptrs hstep => hptrs.step (usage_effect_of_step hptrs hstep)) hbefore
    (ptrsGiven_of_create hcreate)
  obtain rfl := Option.some.inj hanswer
  obtain ⟨hthere, hdata⟩ := readable_of_poll hreadable
  have hinv : ReadableInv v₁.ptr s := by
    refine ⟨hptrs, hptrs.lt _ (usage_of_device hm₁) _ (List.mem_map_of_mem (vdev_at_mem hv₁).1), ?_⟩
    intro m v hm hv hptr
    obtain rfl := Option.some.inj (hm₁.symm.trans hm)
    obtain rfl := hptrs.eq_of_ptr hm₁ hv (vdev_at_mem hv₁).1 hptr
    exact ⟨hthere, (read_has_data_iff v).mp hdata⟩
  have hend : ReadableInv v₁.ptr t := by
    refine run_invariant_of_stepsMeet (G := fun _ a => reads_vdev v₁.ptr a = false)
      (fun _ _ _ h hother hstep => h.step hother hstep) (stepsMeet_of_mem hothers) hrun hinv
  obtain ⟨hmem, hptr⟩ := vdev_at_mem hv
  obtain ⟨hthere, hsome⟩ := hend.waiting m v hm hmem hptr
  obtain ⟨v', events, hread, hpos⟩ := vdev_read_of_waiting hthere hsome hcopy nonblock hlong
  refine ⟨{ t with mngdev := some (update_vdev m v₁.ptr fun _ => v') }, events, ?_, hpos⟩
  simp only [exec, on_vdev_file, if_pos hfile, hm, hv, Option.bind_some, hread, Option.map_some]

/-- The VIRT_DEV's file is opened, and event 40 is put for it. -/
def subscribed_to_40 : List (op Unit) :=
  open_first ++ [create_vdev [0x61], .vdev_open ⟨2, 1⟩ true,
    subscribe_vdev ⟨2, 1⟩ 0 40 VIRT_DEV_IOCTL_SUBSCRIBE_ACTION_SUBSCRIBE,
    .put_event 40 [1, 2, 3]]

/-- The device is unplugged and left by its manager. -/
def unplug_and_leave : List (op Unit) :=
  [.destroy_unlist, .put_event 40 [4], .destroy_finish, .mngdev_release first_inode]

/-- The event can still be read when the device has been unplugged. -/
theorem poll_promises_read_unplugged :
    ∃ s₀ s t r u events,
      modac_mngdev_create recording_hw_support first_mngdev [] [] = .ok s₀ ∧
      run (step recording_hw_support) s₀ subscribed_to_40 = some s ∧
      exec recording_hw_support s (.vdev_poll ⟨2, 1⟩ 0) = some r ∧ r.2.1 = POLL_READABLE ∧
      run (step recording_hw_support) s unplug_and_leave = some t ∧
      exec recording_hw_support t (.vdev_read ⟨2, 1⟩ 0 14 true fun _ => true) =
        some (u, (total events : Int), .events events) ∧ 0 < total events := by
  have hruns : ∃ s₀, modac_mngdev_create recording_hw_support first_mngdev [] [] = .ok s₀ ∧
      ((run (step recording_hw_support) s₀ subscribed_to_40).any fun s =>
        ((exec recording_hw_support s (.vdev_poll ⟨2, 1⟩ 0)).any fun r =>
          decide (r.2.1 = POLL_READABLE)) &&
        (run (step recording_hw_support) s unplug_and_leave).any fun t =>
          decide (⟨⟨2, 1⟩, .vdev 0⟩ ∈ t.files) &&
            t.mngdev.any fun m => (vdev_at m 0).isSome) = true := ⟨_, rfl, by decide +kernel⟩
  simp only [Option.any_eq_true, Bool.and_eq_true, decide_eq_true_eq, Option.isSome_iff_exists]
    at hruns
  obtain ⟨s₀, hcreate, s, hbefore, ⟨r, hpoll, hreadable⟩, t, hrun, hfile, m, hm, v, hv⟩ := hruns
  obtain ⟨u, events, hread, hpos⟩ := poll_promises_read hcreate hbefore hpoll hreadable
    (by decide) hrun hfile hm hv (fun _ => rfl : ∀ n, (fun _ : Nat => true) n = true) true
    (Nat.le_refl FULL_EVENT)
  exact ⟨s₀, s, t, r, u, events, hcreate, hbefore, hpoll, hreadable, hrun, hread, hpos⟩

end evrma.system
