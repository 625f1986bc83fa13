import Evrma.Evr.SimDbg
import Evrma.EvrSystem.EventPath
import Evrma.EvrSystem.SimCard

namespace evrma.evr

open evrma.event_list evrma.ioctl evrma.lib evrma.mng_dev evrma.packet_queue evrma.system
  evrma.virt_dev

variable {H : Type} {mmap_p_final_size : Nat}

def put_sim_event (m : mngdev_data H) : sim_event → mngdev_data H
  | .put_event event data => modac_mngdev_put_event m event data
  | .notify event => modac_mngdev_notify m event

/-- The file `dbg` is written. The event is put under the mutex of the MNG_DEV, and only with a
valid reference. -/
def store_dbg (s : modac_state evr_sim_data) (buf : List (BitVec 8)) :
    Option (modac_state evr_sim_data) :=
  s.mngdev.map fun m =>
    if m.ref.ref_ptr = false then s
    else (evr_sim_dbg buf).elim s fun e => { s with mngdev := some (put_sim_event m e) }

/-- The operations with a simulated card, whose events only come from the file `dbg`. -/
inductive sim_op where
  | op (a : op evr_sim_arg)
  | store_dbg (buf : List (BitVec 8))

def sim_step (mmap_p_final_size : Nat) (s : modac_state evr_sim_data) :
    sim_op → Option (modac_state evr_sim_data)
  | .op a => step (hw_support_evr_sim mmap_p_final_size) s a
  | .store_dbg buf => store_dbg s buf

/-- The event of a text is one that the hardware could have put. -/
theorem sim_step_runs (s : modac_state evr_sim_data) (a : sim_op) (t : modac_state evr_sim_data)
    (hstep : sim_step mmap_p_final_size s a = some t) :
    ∃ ops, run (step (hw_support_evr_sim mmap_p_final_size)) s ops = some t := by
  cases a with
  | op a => exact ⟨[a], run_cons_eq_some.mpr ⟨t, hstep, rfl⟩⟩
  | store_dbg buf =>
    obtain ⟨m, hm, heq⟩ := Option.map_eq_some_iff.mp hstep
    split_ifs at heq with hvalid
    · exact ⟨[], congrArg some heq⟩
    · cases htext : evr_sim_dbg buf with
      | none =>
        rw [htext] at heq
        exact ⟨[], congrArg some heq⟩
      | some e =>
        rw [htext, Option.elim_some] at heq
        subst heq
        cases e with
        | put_event event data =>
          have hput : step (hw_support_evr_sim mmap_p_final_size) s (.put_event event data) =
              some { s with mngdev := some (modac_mngdev_put_event m event data) } := by
            rw [step, exec, hm]
            rfl
          exact ⟨[.put_event event data], run_cons_eq_some.mpr ⟨_, hput, rfl⟩⟩
        | notify event =>
          have hnotify : step (hw_support_evr_sim mmap_p_final_size) s (.notify event) =
              some { s with mngdev := some (modac_mngdev_notify m event) } := by
            rw [step, exec, hm]
            rfl
          exact ⟨[.notify event], run_cons_eq_some.mpr ⟨_, hnotify, rfl⟩⟩

/-- What a VIRT_DEV should get of the event: data that are too long for an entry of its queue are
dropped, although a text may have them. -/
def sim_event.stream (st : vdev_stream) : sim_event → vdev_stream
  | .put_event event data =>
    if data.length ≤ CBUF_EVENT_ENTRY_DATA_LENGTH then st.send event data else st
  | .notify event => st.note event

/-- Data that are too long leave the queues as they are. -/
theorem put_event_of_long (m : mngdev_data H) (event : Int) {data : List (BitVec 8)}
    (hlong : ¬ data.length ≤ CBUF_EVENT_ENTRY_DATA_LENGTH) :
    modac_mngdev_put_event m event data = m := by
  have hupdate : ∀ (m : mngdev_data H) ptr,
      (update_vdev m ptr fun v => modac_vdev_put_cb v event data) = m := by
    intro m ptr
    have hsame : ∀ v : modac_vdev_des,
        (if v.ptr = ptr then modac_vdev_put_cb v event data else v) = v := by
      intro v
      split_ifs
      · rw [modac_vdev_put_cb, modac_cb_put_of_long v.cb_events event hlong]
      · rfl
    simp only [update_vdev, hsame, List.map_id']
  unfold modac_mngdev_put_event modac_mngdev_process_event
  simp only [hupdate]
  generalize event_dispatch_list_for_all_subscribers m.event_dispatch_list event = subscribers
  induction subscribers with
  | nil => rfl
  | cons ptr subscribers ih => exact ih

/-- The event is one step of the stream of every VIRT_DEV. -/
theorem delivered_sim_event {m : mngdev_data H} {reads : Nat → List cb_read} {ptr : Nat}
    {st : vdev_stream} (h : DeliveredAt ⟨m, reads⟩ ptr st) (hinv : DispatchInv m)
    (hroomy : ∀ v, vdev_at m ptr = some v → v.cb_events.records.length ≤ 1021) (e : sim_event) :
    DeliveredAt ⟨put_sim_event m e, reads⟩ ptr (e.stream st) := by
  cases e with
  | put_event event data =>
    rw [put_sim_event, sim_event.stream]
    split_ifs with hlength
    · exact h.put_event hinv event hlength fun _ _ _ _ _ v hv => hroomy v hv
    · rw [put_event_of_long m event hlength]
      exact h
  | notify event => exact h.notify hinv event

/-- What is written to the file `dbg` reaches the VIRT_DEVs that are subscribed to the event it
stands for, each of them once where its queue has room, and no other one, but for data that are
too long for a queue; and a text that stands for no event changes nothing. -/
theorem sim_dbg_delivers {des : modac_mngdev_des} {s₀ s t : modac_state evr_sim_data}
    {before : List sim_op} (hcreate : sim_mngdev_create mmap_p_final_size des = .ok s₀)
    (hbefore : run (sim_step mmap_p_final_size) s₀ before = some s) {m : mngdev_data evr_sim_data}
    (hm : s.mngdev = some m) (hvalid : m.ref.ref_ptr = true)
    {buf : List (BitVec 8)} (hstore : store_dbg s buf = some t) :
    ((∀ e, ¬ DbgText buf e) → t = s) ∧
      ∀ e, DbgText buf e → ∃ m', t.mngdev = some m' ∧ ∀ v ∈ m.vdev_list,
        v.cb_events.records.length ≤ 1021 → ∃ v', vdev_at m' v.ptr = some v' ∧
          let st := e.stream (stream_of m (fun _ => []) v)
          v'.cb_events.records = st.pending ∧ v'.notified_events = st.noted ∧
            ∀ i, subscribed m'.event_dispatch_list v'.ptr i ↔ st.codes i = true := by
  obtain ⟨ops, hops⟩ := run_of_steps sim_step_runs hbefore
  obtain ⟨m₀, hm₀, heq⟩ := Option.map_eq_some_iff.mp hstore
  obtain rfl := Option.some.inj (hm.symm.trans hm₀)
  rw [if_neg (by simp [hvalid])] at heq
  constructor
  · intro hno
    cases htext : evr_sim_dbg buf with
    | none =>
      rw [htext] at heq
      exact heq.symm
    | some e => exact absurd ((evr_sim_dbg_iff buf e).mp htext) (hno e)
  · intro e htext
    rw [(evr_sim_dbg_iff buf e).mpr htext, Option.elim_some] at heq
    subst heq
    refine ⟨_, rfl, fun v hv hroomy => ?_⟩
    obtain ⟨hinv, hat, hstart⟩ := delivered_start hcreate hops hm hv
    have hroom : ∀ w, vdev_at m v.ptr = some w → w.cb_events.records.length ≤ 1021 := by
      intro w hw
      obtain rfl := Option.some.inj (hat.symm.trans hw)
      exact hroomy
    obtain ⟨v', hv', hdelivered⟩ := delivered_sim_event hstart hinv hroom e
    exact ⟨v', hv', hdelivered.pending.symm, hdelivered.noted.symm,
      fun i => (hdelivered.codes i).symm⟩

/-- "i28010203", the event 40 with three bytes. -/
def text_40 : List (BitVec 8) := [0x69, 0x32, 0x38, 0x30, 0x31, 0x30, 0x32, 0x30, 0x33]

/-- A VIRT_DEV is open and subscribes to the event 40. -/
def sim_subscribed : List sim_op :=
  (open_first ++ [sim_create_vdev [0x61], .vdev_open vdev_inode true,
    .vdev_ioctl vdev_inode 0 VIRT_DEV_IOC_SUBSCRIBE
      { vdev_request none with
        hw := no_sim_request
        subscribe := some ⟨40, VIRT_DEV_IOCTL_SUBSCRIBE_ACTION_SUBSCRIBE⟩ }]).map .op

theorem sim_dbg_delivers_40 :
    ∃ s₀ s t m m', sim_mngdev_create PAGE_SIZE sim_mngdev = .ok s₀ ∧
      run (sim_step PAGE_SIZE) s₀ sim_subscribed = some s ∧ s.mngdev = some m ∧
      store_dbg s text_40 = some t ∧ t.mngdev = some m' ∧ ∃ v ∈ m.vdev_list, ∃ v',
        vdev_at m' v.ptr = some v' ∧
          v'.cb_events.records = v.cb_events.records ++ [event_record 40 [1, 2, 3]] := by
  have hrun : ∃ s₀, sim_mngdev_create PAGE_SIZE sim_mngdev = .ok s₀ ∧
      ((run (sim_step PAGE_SIZE) s₀ sim_subscribed).any fun s =>
        (store_dbg s text_40).isSome && s.mngdev.any fun m => m.ref.ref_ptr &&
          m.vdev_list.all (fun v => decide (used v.cb_events.head v.cb_events.tail ≤ 1021)) &&
          m.vdev_list.any fun v =>
            decide (v.ptr ∈ event_dispatch_list_for_all_subscribers m.event_dispatch_list 40)) =
        true :=
    ⟨_, rfl, by decide +kernel⟩
  simp only [Option.any_eq_true, Bool.and_eq_true, List.all_eq_true, List.any_eq_true,
    decide_eq_true_eq, Option.isSome_iff_exists] at hrun
  obtain ⟨s₀, hcreate, s, hbefore, ⟨t, hstore⟩, m, hm, ⟨hvalid, hused⟩, v, hv, hsub⟩ := hrun
  have hroomy : v.cb_events.records.length ≤ 1021 := by
    rw [modac_circ_buf.records_length]
    exact hused v hv
  have htext : DbgText text_40 (.put_event 40 [1, 2, 3]) :=
    (evr_sim_dbg_iff _ _).mp (by decide)
  obtain ⟨-, hdelivers⟩ := sim_dbg_delivers hcreate hbefore hm hvalid hstore
  obtain ⟨m', hm', hall⟩ := hdelivers _ htext
  obtain ⟨v', hv', hpending, -⟩ := hall v hv hroomy
  obtain ⟨ops, hops⟩ := run_of_steps sim_step_runs hbefore
  obtain ⟨hinv, -, -⟩ := delivered_start hcreate hops hm hv
  have hcode := ((delivered_stream_of m (fun _ => []) v).mem_subscribers hinv.rows 40).mp hsub
  refine ⟨s₀, s, t, m, m', hcreate, hbefore, hm, hstore, hm', v, hv, v', hv', ?_⟩
  rw [hpending, sim_event.stream, if_pos (by decide), vdev_stream.send_of_test hcode]
  rfl

end evrma.evr
