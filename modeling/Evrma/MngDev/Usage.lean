import Evrma.MngDev.Effect

namespace evrma.mng_dev

open evrma.event_list evrma.ioctl evrma.packet_queue evrma.rm evrma.virt_dev

/-- What says of a VIRT_DEV who uses it. -/
structure vdev_usage where
  ptr : Nat
  id : BitVec 8
  minor : Int
  usage_counter : Int
  res_type_data : Nat → res_type_data

/-- The part of a MNG_DEV that says who uses it. The hardware and the queues of events are left
out. -/
structure mngdev_usage where
  des : modac_mngdev_des
  pid : Int
  ref : devref inode
  rm_data : res_data
  vdevs : List vdev_usage
  event_dispatch_list : event_dispatch_list Nat

def vdev_usage_of (v : modac_vdev_des) : vdev_usage :=
  ⟨v.ptr, v.id, v.minor, v.usage_counter, v.res_type_data⟩

variable {H A O : Type}

def mngdev_usage_of (m : mngdev_data H) : mngdev_usage where
  des := m.des
  pid := m.pid
  ref := m.ref
  rm_data := m.rm_data
  vdevs := m.vdev_list.map vdev_usage_of
  event_dispatch_list := m.event_dispatch_list

/-- The usage of the VIRT_DEV at an address is changed. -/
def mngdev_usage.update (d : mngdev_usage) (ptr : Nat) (f : vdev_usage → vdev_usage) :
    mngdev_usage :=
  { d with vdevs := d.vdevs.map fun r => if r.ptr = ptr then f r else r }

/-- A resource is recorded for the VIRT_DEV, unless its list is full. -/
def vdev_usage.add_res (r : vdev_usage) (t i : Nat) : vdev_usage :=
  if h : MODAC_RES_PER_VIRT_DEV_MAX_COUNT ≤ (r.res_type_data t).res_alloc_index.length then r
  else
    { r with
      res_type_data := Function.update r.res_type_data t
        { res_alloc_index := (r.res_type_data t).res_alloc_index ++ [(i : Int)]
          res_alloc_count_le := by
            rw [List.length_append, List.length_singleton]
            omega } }

/-- The VIRT_DEV leaves the list, with its resources and its subscriptions. -/
def mngdev_usage.destroy (d : mngdev_usage) (r : vdev_usage) : mngdev_usage :=
  { d with
    rm_data := modac_rm_free_owner d.rm_data r.id.toNat
    vdevs := d.vdevs.filter fun r' => r'.ptr ≠ r.ptr
    event_dispatch_list := event_dispatch_list_remove_all d.event_dispatch_list r.ptr }

/-- One user less; the last one ends the subscriptions. -/
def mngdev_usage.leave (d : mngdev_usage) (r : vdev_usage) : mngdev_usage :=
  { d.update r.ptr fun r => { r with usage_counter := r.usage_counter - 1 } with
    event_dispatch_list :=
      if r.usage_counter - 1 < 1 then
        event_dispatch_list_remove_all d.event_dispatch_list r.ptr
      else d.event_dispatch_list }

/-- The subscriptions after a request of the VIRT_DEV. -/
def subscriptions_after (list : event_dispatch_list Nat) (ptr : Nat) (event : Int)
    (action : BitVec 8) : event_dispatch_list Nat :=
  if action = VIRT_DEV_IOCTL_SUBSCRIBE_ACTION_SUBSCRIBE then
    (event_dispatch_list_add list ptr event).1
  else if action = VIRT_DEV_IOCTL_SUBSCRIBE_ACTION_UNSUBSCRIBE then
    event_dispatch_list_remove list ptr event
  else if action = VIRT_DEV_IOCTL_SUBSCRIBE_ACTION_CLEAR then
    event_dispatch_list_remove_all list ptr
  else list

@[simp]
theorem mngdev_usage_of_hw (m : mngdev_data H) (hw : H) :
    mngdev_usage_of { m with hw } = mngdev_usage_of m := rfl

@[simp]
theorem mngdev_usage_of_subscribe_change (hs : modac_hw_support_def H A O) (m : mngdev_data H) :
    mngdev_usage_of (on_subscribe_change hs m).1 = mngdev_usage_of m := by
  obtain ⟨hw, heq⟩ := on_subscribe_change_eq hs m
  rw [heq, mngdev_usage_of_hw]

theorem mngdev_usage_of_remove_all (hs : modac_hw_support_def H A O) (m : mngdev_data H)
    (ptr : Nat) :
    mngdev_usage_of (mngdev_event_dispatch_list_remove_all hs m ptr) =
      { mngdev_usage_of m with
        event_dispatch_list := event_dispatch_list_remove_all m.event_dispatch_list ptr } := by
  rw [mngdev_event_dispatch_list_remove_all, mngdev_usage_of_subscribe_change]
  rfl

theorem mngdev_usage_of_change_subscriptions (m : mngdev_data H) (ptr : Nat) (event : Int)
    (action : BitVec 8) :
    mngdev_usage_of (change_subscriptions m ptr event action).1 =
      { mngdev_usage_of m with
        event_dispatch_list := subscriptions_after m.event_dispatch_list ptr event action } := by
  unfold change_subscriptions subscriptions_after
  split_ifs <;> rfl

/-- A change of one VIRT_DEV, as far as its usage shows it. -/
theorem mngdev_usage_of_update {m : mngdev_data H} {ptr : Nat}
    {f : modac_vdev_des → modac_vdev_des} {g : vdev_usage → vdev_usage}
    (hfg : ∀ v ∈ m.vdev_list, v.ptr = ptr → vdev_usage_of (f v) = g (vdev_usage_of v)) :
    mngdev_usage_of (update_vdev m ptr f) = (mngdev_usage_of m).update ptr g := by
  have hvdevs : (m.vdev_list.map fun v => if v.ptr = ptr then f v else v).map vdev_usage_of =
      (m.vdev_list.map vdev_usage_of).map fun r => if r.ptr = ptr then g r else r := by
    rw [List.map_map, List.map_map]
    refine List.map_congr_left fun v hv => ?_
    simp only [Function.comp_apply]
    by_cases hptr : v.ptr = ptr
    · rw [if_pos hptr, hfg v hv hptr]
      exact (if_pos hptr).symm
    · rw [if_neg hptr]
      exact (if_neg hptr).symm
  unfold mngdev_usage.update update_vdev mngdev_usage_of
  rw [hvdevs]

@[simp]
theorem mngdev_usage.update_id (d : mngdev_usage) (ptr : Nat) : d.update ptr id = d := by
  simp [mngdev_usage.update]

/-- A change of one VIRT_DEV that its usage does not show. -/
theorem mngdev_usage_of_update_same {m : mngdev_data H} {ptr : Nat}
    {f : modac_vdev_des → modac_vdev_des}
    (hf : ∀ v ∈ m.vdev_list, v.ptr = ptr → vdev_usage_of (f v) = vdev_usage_of v) :
    mngdev_usage_of (update_vdev m ptr f) = mngdev_usage_of m := by
  rw [mngdev_usage_of_update (g := id) hf, mngdev_usage.update_id]

/-- An event goes to the VIRT_DEVs only. -/
theorem process_event_hw (m : mngdev_data H) (event : Int) (f : modac_vdev_des → modac_vdev_des) :
    (modac_mngdev_process_event m event f).hw = m.hw := by
  unfold modac_mngdev_process_event
  generalize event_dispatch_list_for_all_subscribers m.event_dispatch_list event = subscribers
  induction subscribers generalizing m with
  | nil => rfl
  | cons ptr rest ih =>
    rw [List.foldl_cons, ih]
    rfl

theorem mngdev_usage_of_process_event {m : mngdev_data H} {event : Int}
    {f : modac_vdev_des → modac_vdev_des} (hf : ∀ v, vdev_usage_of (f v) = vdev_usage_of v) :
    mngdev_usage_of (modac_mngdev_process_event m event f) = mngdev_usage_of m := by
  unfold modac_mngdev_process_event
  generalize event_dispatch_list_for_all_subscribers m.event_dispatch_list event = subscribers
  induction subscribers generalizing m with
  | nil => rfl
  | cons ptr rest ih =>
    rw [List.foldl_cons, ih]
    exact mngdev_usage_of_update_same fun v _ _ => hf v

theorem mngdev_usage_of_put_event (m : mngdev_data H) (event : Int) (data : List (BitVec 8)) :
    mngdev_usage_of (modac_mngdev_put_event m event data) = mngdev_usage_of m :=
  mngdev_usage_of_process_event fun _ => rfl

theorem mngdev_usage_of_notify (m : mngdev_data H) (event : Int) :
    mngdev_usage_of (modac_mngdev_notify m event) = mngdev_usage_of m :=
  mngdev_usage_of_process_event fun _ => rfl

@[simp]
theorem mngdev_usage_of_init_res (hs : modac_hw_support_def H A O) (m : mngdev_data H)
    (v : modac_vdev_des) : mngdev_usage_of (modac_c_vdev_init_res hs m v) = mngdev_usage_of m :=
  rfl

theorem mngdev_usage_of_mngdev_sysfs (hs : modac_hw_support_def H A O) (m : mngdev_data H)
    (sysfs : mngdev_sysfs) :
    mngdev_usage_of (mngdev_sysfs_op hs m sysfs).1 = mngdev_usage_of m := by
  unfold mngdev_sysfs_op
  split_ifs
  · rfl
  · cases sysfs with
    | show_alloc => rfl
    | show_dbg => cases hs.show_dbg <;> rfl
    | store_dbg => cases hs.store_dbg <;> rfl
    | show_hw_regs => cases hs.dbg_regs <;> rfl
    | store_hw_regs regs_offset regs_length => rfl
    | show_hw_info => rfl
    | show_events => rfl

theorem mngdev_usage_of_vdev_sysfs (hs : modac_hw_support_def H A O) (m : mngdev_data H)
    (v : modac_vdev_des) (sysfs : vdev_sysfs) :
    mngdev_usage_of (vdev_sysfs_op hs m v sysfs).1 = mngdev_usage_of m := by
  unfold vdev_sysfs_op
  split_ifs
  · rfl
  · cases sysfs with
    | show_config => cases hs.dbg_res <;> rfl
    | store_hw_reset => rfl
    | store_config val =>
      cases val with
      | none => rfl
      | some val => exact mngdev_usage_of_update_same fun _ _ _ => rfl

theorem mngdev_usage_of_leave (hs : modac_hw_support_def H A O) (m : mngdev_data H)
    (v : modac_vdev_des) :
    mngdev_usage_of (vdev_leave hs m v) = (mngdev_usage_of m).leave (vdev_usage_of v) := by
  have hupdate : mngdev_usage_of (update_vdev m v.ptr fun v =>
        { v with usage_counter := v.usage_counter - 1 }) =
      (mngdev_usage_of m).update v.ptr fun r =>
        { r with usage_counter := r.usage_counter - 1 } :=
    mngdev_usage_of_update fun _ _ _ => rfl
  unfold vdev_leave mngdev_usage.leave
  by_cases hlast : v.usage_counter - 1 < 1
  · have hlast' : (vdev_usage_of v).usage_counter - 1 < 1 := hlast
    dsimp only
    rw [if_pos hlast, if_pos hlast', mngdev_usage_of_remove_all]
    split_ifs
    · rw [mngdev_usage_of_init_res, hupdate]
      rfl
    · rw [hupdate]
      rfl
  · have hlast' : ¬ (vdev_usage_of v).usage_counter - 1 < 1 := hlast
    dsimp only
    rw [if_neg hlast, if_neg hlast', hupdate]
    rfl

theorem mngdev_usage_of_destroy (hs : modac_hw_support_def H A O) (m : mngdev_data H)
    (slots : vdev_slots) (v : modac_vdev_des) :
    mngdev_usage_of (list_destroy_vdev hs m slots v true).1 =
      (mngdev_usage_of m).destroy (vdev_usage_of v) := by
  have hlist : (list_del m.vdev_list v.ptr).map vdev_usage_of =
      (m.vdev_list.map vdev_usage_of).filter fun r => r.ptr ≠ v.ptr := by
    rw [list_del, List.filter_map]
    rfl
  obtain ⟨hw, heq⟩ := on_subscribe_change_eq hs
    { m with
      event_dispatch_list := event_dispatch_list_remove_all m.event_dispatch_list v.ptr }
  simp only [list_destroy_vdev, if_true, mngdev_event_dispatch_list_remove_all, heq]
  unfold mngdev_usage_of mngdev_usage.destroy
  rw [hlist]
  rfl

/-- The column of a minor is emptied. -/
def column_reset (des : modac_mngdev_des) (slots : vdev_slots) (minor : Int) : vdev_slots :=
  match calc_table_indices des minor with
  | none => slots
  | some (_, ivdev) => Function.update slots ivdev none

theorem list_destroy_vdev_slots (hs : modac_hw_support_def H A O) (m : mngdev_data H)
    (slots : vdev_slots) (v : modac_vdev_des) :
    (list_destroy_vdev hs m slots v true).2 = column_reset m.des slots v.minor := by
  obtain ⟨hw, heq⟩ := on_subscribe_change_eq hs
    { m with
      event_dispatch_list := event_dispatch_list_remove_all m.event_dispatch_list v.ptr }
  simp only [list_destroy_vdev, if_true, mngdev_event_dispatch_list_remove_all, heq]
  rfl

/-- With the MNG_DEV, the columns of all its VIRT_DEVs are emptied. -/
theorem list_stop_and_destroy_vdevs_slots (hs : modac_hw_support_def H A O) (m : mngdev_data H)
    (slots : vdev_slots) :
    (list_stop_and_destroy_vdevs hs m slots).2 =
      ((mngdev_usage_of m).vdevs.map vdev_usage.minor).foldl
        (column_reset (mngdev_usage_of m).des) slots := by
  have hfold : ∀ (vs : List modac_vdev_des) (m' : mngdev_data H) (slots : vdev_slots),
      m'.des = m.des →
      (vs.foldl (fun s v => list_destroy_vdev hs s.1 s.2 v true) (m', slots)).2 =
        (vs.map modac_vdev_des.minor).foldl (column_reset m.des) slots := by
    intro vs
    induction vs with
    | nil =>
      intro m' slots hdes
      rfl
    | cons v vs ih =>
      intro m' slots hdes
      rw [List.foldl_cons, List.map_cons, List.foldl_cons, ← hdes, ← list_destroy_vdev_slots hs]
      have hdes' : (list_destroy_vdev hs m' slots v true).1.des = m.des := by
        have husage := congrArg mngdev_usage.des (mngdev_usage_of_destroy hs m' slots v)
        exact husage.trans hdes
      rw [hdes]
      exact ih _ _ hdes'
  have hminors : (mngdev_usage_of m).vdevs.map vdev_usage.minor =
      m.vdev_list.map modac_vdev_des.minor := List.map_map
  rw [hminors]
  exact hfold m.vdev_list m slots rfl

@[simp]
theorem vdev_usage_of_notified_events (v : modac_vdev_des) (notified_events : event_list_type) :
    vdev_usage_of { v with notified_events } = vdev_usage_of v := rfl

@[simp]
theorem vdev_usage_of_cb_events (v : modac_vdev_des) (cb_events : modac_circ_buf) :
    vdev_usage_of { v with cb_events } = vdev_usage_of v := rfl

/-- What is read does not show in the usage. -/
theorem read_get_usage (v : modac_vdev_des) : vdev_usage_of (read_get v).1 = vdev_usage_of v := by
  unfold read_get
  generalize modac_cb_get v.cb_events = next
  obtain ⟨cb_events, got⟩ := next
  by_cases hevent : 0 ≤ event_list_extract_one v.notified_events
  · simp only [if_pos hevent, vdev_usage_of_notified_events]
  · simp only [if_neg hevent, vdev_usage_of_cb_events]

theorem read_loop_usage {nonblock : Bool} {copy_to_user : Nat → Bool} {bound : Nat}
    {v v' : modac_vdev_des} {buf_still_free ret : Int} {got events : List cb_read}
    (h : read_loop nonblock copy_to_user bound v buf_still_free got = some (v', ret, events)) :
    vdev_usage_of v' = vdev_usage_of v := by
  induction bound generalizing v buf_still_free got with
  | zero =>
    simp only [read_loop, Option.some.injEq, Prod.mk.injEq] at h
    rw [h.1]
  | succ bound ih =>
    have hget := read_get_usage v
    rw [read_loop] at h
    by_cases hfree : READ_MIN ≤ buf_still_free ∨ buf_still_free < 0
    · rw [if_pos hfree] at h
      generalize read_get v = next at h hget
      obtain ⟨w, r⟩ := next
      cases r with
      | none =>
        dsimp only at h
        split_ifs at h
        · simp only [Option.some.injEq, Prod.mk.injEq] at h
          rw [← h.1]
          exact hget
        · simp only [Option.some.injEq, Prod.mk.injEq] at h
          rw [← h.1]
          exact hget
      | some r =>
        dsimp only at h
        split_ifs at h
        · exact (ih h).trans hget
        · simp only [Option.some.injEq, Prod.mk.injEq] at h
          rw [← h.1]
          exact hget
    · rw [if_neg hfree] at h
      simp only [Option.some.injEq, Prod.mk.injEq] at h
      rw [h.1]

theorem vdev_read_usage {v v' : modac_vdev_des} {buf_len : Nat} {nonblock : Bool}
    {copy_to_user : Nat → Bool} {ret : Int} {events : List cb_read}
    (h : vdev_read v buf_len nonblock copy_to_user = some (v', ret, events)) :
    vdev_usage_of v' = vdev_usage_of v := by
  unfold vdev_read at h
  generalize EVENT_LIST_TYPE_MAX_EVENTS + CBUF_EVENT_COUNT = bound at h
  split_ifs at h
  · simp only [Option.some.injEq, Prod.mk.injEq] at h
    rw [h.1]
  · simp only [Option.some.injEq, Prod.mk.injEq] at h
    rw [h.1]
  · exact read_loop_usage h

/-- A resource of the table is recorded for the VIRT_DEV, unless its list is full. -/
theorem vdev_on_res_add_usage {m : mngdev_data H} {v : modac_vdev_des} {t i : Nat}
    (hhas : m.rm_data.has t i) :
    vdev_usage_of (vdev_on_res_add m v ⟨t, i⟩).1 = (vdev_usage_of v).add_res t i := by
  obtain ⟨td, htd, hi⟩ := res_data.has_iff.mp hhas
  have hcount : modac_rm_get_res_count_for_type m.rm_data t = td.res_state_count := by
    rw [modac_rm_get_res_count_for_type, if_neg (by omega), Int.toNat_natCast, htd]
  unfold vdev_on_res_add vdev_usage.add_res
  simp only [hcount, Int.toNat_natCast]
  rw [if_neg (by omega), if_neg (by omega)]
  have heq : (vdev_usage_of v).res_type_data = v.res_type_data := rfl
  by_cases hfull : MODAC_RES_PER_VIRT_DEV_MAX_COUNT ≤ (v.res_type_data t).res_alloc_index.length
  · rw [dif_pos hfull, dif_pos (by rw [heq]; exact hfull)]
  · rw [dif_neg hfull, dif_neg (by rw [heq]; exact hfull)]
    rfl

end evrma.mng_dev
