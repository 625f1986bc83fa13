import Evrma.PacketQueue.Steps
import Evrma.VirtDev.Reads

namespace evrma.virt_dev

open evrma.event_list evrma.ioctl evrma.lib evrma.packet_queue

/-- The loop of `vdev_read`, at its head. -/
structure read_call where
  nonblock : Bool
  buf_still_free : Int
  got : List cb_read

/-- Who calls `read_has_data`: `wait_event_interruptible`, first before it puts the thread into the
queue and then after it, or `vdev_poll`. -/
inductive caller where
  | wait_event (c : read_call) (prepared : Bool)
  | poll

/-- Where a thread stands. -/
inductive progress where
  /-- Not in a call; the last one returned this. -/
  | returned (ret : Int) (got : List cb_read)
  | read_loop (c : read_call)
  /-- There was no notified event. -/
  | read_get_cb (c : read_call)
  | copy_to_user (c : read_call) (r : cb_read)
  | unlock_to_wait (c : read_call)
  /-- In `read_has_data`, before the queue and before the notified events are looked at. -/
  | has_data_cb (who : caller)
  | has_data_notified (who : caller)
  | prepare_to_wait (c : read_call)
  | schedule (c : read_call)
  | lock_again (c : read_call)
  | bail (ret : Int) (got : List cb_read)
  | poll_wait
  | poll_bail (ready : Bool)
  /-- Whoever called `vdev_poll` was told to wait. -/
  | polled
  | direct_ioctl (ret : Int)

/-- A thread and its entry in `wait_queue_events`, which a wake-up takes out. -/
structure thread where
  progress : progress
  queued : Bool

/-- What `drvdat_put` does to a VIRT_DEV when the last reference is dropped by its file. -/
inductive closing where
  | not_yet
  | denied
  | destroyed

/-- `waking` is the part of `modac_mngdev_process_event` from where the event was put or noted to
the wake-up; `lock_general` is held there. -/
structure access_state (T : Type) where
  v : modac_vdev_des
  direct_access_active_count : Int
  waking : Bool
  closing : closing
  threads : T → thread

inductive call where
  | read (buf_len : Nat) (nonblock : Bool)
  | poll
  | direct_ioctl (ret : Int)

/-- The file operations of a thread, its steps in them, and the rest of the driver. What is done
under one spin lock is one step. -/
inductive access_op (T : Type) where
  | enter (t : T) (call : call)
  | next (t : T) (copied : Bool)
  | interrupt (t : T)
  | poll_again (t : T)
  | poll_end (t : T)
  | put (event : Int) (data : List (BitVec 8))
  | notify (event : Int)
  | wake_up
  | deny
  | read_active_count

/-- The first step behind `lock_direct_call`. -/
def call.first : call → progress
  | .read buf_len nonblock =>
    if (buf_len : Int) < READ_MIN then .bail (-EINVAL) []
    else .read_loop { nonblock, buf_still_free := buf_len, got := [] }
  | .poll => .poll_wait
  | .direct_ioctl ret => .direct_ioctl ret

/-- Where the answer of `read_has_data` leads. `finish_wait` takes the thread out of the queue. -/
def caller.answered (queued : Bool) : caller → (has_data : Bool) → thread
  | .wait_event c _, true => ⟨.lock_again c, false⟩
  | .wait_event c true, false => ⟨.schedule c, queued⟩
  | .wait_event c false, false => ⟨.prepare_to_wait c, queued⟩
  | .poll, has_data => ⟨.poll_bail has_data, queued⟩

/-- The first half of `read_get`, under `lock_general`. -/
@[irreducible]
def notified_get (v : modac_vdev_des) : modac_vdev_des × Option cb_read :=
  let event := event_list_extract_one v.notified_events
  if 0 ≤ event then
    ({ v with notified_events := event_list_remove v.notified_events event },
      some { event := BitVec.ofInt 16 event, data := [], n := 2 })
  else (v, none)

/-- The second half of `read_get`, under `cb_reader_lock`. -/
@[irreducible]
def queued_get (v : modac_vdev_des) : modac_vdev_des × Option cb_read :=
  ({ v with cb_events := (modac_cb_get v.cb_events).1 }, (modac_cb_get v.cb_events).2)

/-- Together they make up `read_get`, where nobody comes in between. -/
theorem read_get_eq_notified {v : modac_vdev_des}
    (hevent : 0 ≤ event_list_extract_one v.notified_events) : read_get v = notified_get v := by
  unfold notified_get
  rw [read_get_notified hevent]
  exact (if_pos hevent).symm

theorem read_get_eq_queued {v : modac_vdev_des}
    (hevent : ¬ 0 ≤ event_list_extract_one v.notified_events) :
    notified_get v = (v, none) ∧ read_get v = queued_get v := by
  constructor
  · unfold notified_get
    exact if_neg hevent
  · unfold queued_get
    generalize hget : modac_cb_get v.cb_events = out
    obtain ⟨cb_events, got⟩ := out
    exact read_get_queued hevent hget

/-- What `vdev_read` does with what came from the queue. -/
def queued_got (count : Int) (c : read_call) (queued : Bool) :
    modac_vdev_des × Option cb_read → modac_vdev_des × Int × thread
  | (v, some r) => (v, count, ⟨.copy_to_user c r, queued⟩)
  | (v, none) =>
    if c.got ≠ [] then (v, count, ⟨.bail (c.got.map cb_read.n).sum c.got, queued⟩)
    else if c.nonblock then (v, count, ⟨.bail (-EAGAIN) [], queued⟩)
    else (v, count, ⟨.unlock_to_wait c, queued⟩)

theorem queued_got_some (count : Int) (c : read_call) (queued : Bool) (v : modac_vdev_des)
    (r : cb_read) :
    queued_got count c queued (v, some r) = (v, count, ⟨.copy_to_user c r, queued⟩) := rfl

theorem queued_got_none (count : Int) (c : read_call) (queued : Bool) (v : modac_vdev_des) :
    queued_got count c queued (v, none) =
      if c.got ≠ [] then (v, count, ⟨.bail (c.got.map cb_read.n).sum c.got, queued⟩)
      else if c.nonblock then (v, count, ⟨.bail (-EAGAIN) [], queued⟩)
      else (v, count, ⟨.unlock_to_wait c, queued⟩) := rfl

/-- The next step of a thread with the VIRT_DEV and `direct_access_active_count`; `copied` is what
`copy_to_user` comes to. -/
def thread_step (waking copied : Bool) (v : modac_vdev_des) (count : Int) (th : thread) :
    Option (modac_vdev_des × Int × thread) :=
  match th.progress with
  | .returned _ _ => none
  | .read_loop c =>
    if READ_MIN ≤ c.buf_still_free ∨ c.buf_still_free < 0 then
      if waking then none
      else
        match notified_get v with
        | (v, some r) => some (v, count, ⟨.copy_to_user c r, th.queued⟩)
        | (v, none) => some (v, count, ⟨.read_get_cb c, th.queued⟩)
    else some (v, count, ⟨.bail (c.got.map cb_read.n).sum c.got, th.queued⟩)
  | .read_get_cb c => some (queued_got count c th.queued (queued_get v))
  | .copy_to_user c r =>
    if copied then
      some (v, count, ⟨.read_loop { c with
        buf_still_free := c.buf_still_free - r.n
        got := c.got ++ [r] }, th.queued⟩)
    else some (v, count, ⟨.bail (-EFAULT) c.got, th.queued⟩)
  | .unlock_to_wait c => some (v, count - 1, ⟨.has_data_cb (.wait_event c false), th.queued⟩)
  | .has_data_cb who =>
    if modac_cb_available v.cb_events then some (v, count, who.answered th.queued true)
    else some (v, count, ⟨.has_data_notified who, th.queued⟩)
  | .has_data_notified who =>
    if waking then none
    else some (v, count, who.answered th.queued (!event_list_is_empty v.notified_events))
  | .prepare_to_wait c => some (v, count, ⟨.has_data_cb (.wait_event c true), true⟩)
  | .schedule c => if th.queued then none else some (v, count, ⟨.prepare_to_wait c, false⟩)
  | .lock_again c =>
    if v.direct_access_denied then some (v, count, ⟨.returned (-ENODEV) [], th.queued⟩)
    else some (v, count + 1, ⟨.read_loop c, th.queued⟩)
  | .bail ret got => some (v, count - 1, ⟨.returned ret got, th.queued⟩)
  | .poll_wait => some (v, count, ⟨.has_data_cb .poll, true⟩)
  | .poll_bail ready =>
    if ready then some (v, count - 1, ⟨.returned POLL_READABLE [], false⟩)
    else some (v, count - 1, ⟨.polled, th.queued⟩)
  | .polled => none
  | .direct_ioctl ret => some (v, count - 1, ⟨.returned ret [], th.queued⟩)

variable {T : Type} [DecidableEq T]

/-- A thread comes to a call of the VIRT_DEV. -/
def lock_direct_call (s : access_state T) (t : T) (call : call) : access_state T :=
  if s.v.direct_access_denied then
    { s with threads := Function.update s.threads t ⟨.returned (-ENODEV) [], false⟩ }
  else
    { s with
      direct_access_active_count := s.direct_access_active_count + 1
      threads := Function.update s.threads t ⟨call.first, false⟩ }

def access_step (s : access_state T) : access_op T → Option (access_state T)
  | .enter t call =>
    match s.threads t with
    | ⟨.returned _ _, _⟩ => some (lock_direct_call s t call)
    | _ => none
  | .next t copied =>
    (thread_step s.waking copied s.v s.direct_access_active_count (s.threads t)).map
      fun (v, count, th) =>
        { s with
          v
          direct_access_active_count := count
          threads := Function.update s.threads t th }
  -- a signal ends the sleep
  | .interrupt t =>
    match s.threads t with
    | ⟨.schedule _, _⟩ =>
      some { s with threads := Function.update s.threads t ⟨.returned (-ERESTARTSYS) [], false⟩ }
    | _ => none
  | .poll_again t =>
    match s.threads t with
    | ⟨.polled, false⟩ => some (lock_direct_call s t .poll)
    | _ => none
  | .poll_end t =>
    match s.threads t with
    | ⟨.polled, _⟩ => some { s with threads := Function.update s.threads t ⟨.returned 0 [], false⟩ }
    | _ => none
  | .put event data =>
    if s.waking then none
    else
      let (cb_events, ret) := modac_cb_put s.v.cb_events event data
      -- without a place for the event nobody is woken
      some { s with v := { s.v with cb_events }, waking := decide (ret = 0) }
  | .notify event =>
    if s.waking then none else some { s with v := modac_vdev_notify s.v event, waking := true }
  | .wake_up =>
    if s.waking then
      some { s with waking := false, threads := fun t => { s.threads t with queued := false } }
    else none
  | .deny =>
    match s.closing with
    | .not_yet =>
      some { s with v := { s.v with direct_access_denied := true }, closing := .denied }
    | _ => none
  | .read_active_count =>
    match s.closing with
    | .denied =>
      if s.direct_access_active_count > 0 then some s else some { s with closing := .destroyed }
    | _ => none

/-- A VIRT_DEV that was just created, and threads that have not called it. -/
def access_init (v : modac_vdev_des) (cb_events : modac_circ_buf) : access_state T where
  v := init_dev v cb_events
  direct_access_active_count := 0
  waking := false
  closing := .not_yet
  threads _ := ⟨.returned 0 [], false⟩

/-- Between `lock_direct_call` and `unlock_direct_call`. -/
def progress.inside : progress → Bool
  | .read_loop _ | .read_get_cb _ | .copy_to_user _ _ | .unlock_to_wait _ | .bail _ _ => true
  | .poll_wait | .has_data_cb .poll | .has_data_notified .poll | .poll_bail _ => true
  | .direct_ioctl _ => true
  | _ => false

/-- At most so many steps are left inside, but for three with each record that is taken. -/
def progress.left : progress → Nat
  | .read_loop _ => 3
  | .read_get_cb _ => 2
  | .copy_to_user _ _ => 4
  | .poll_wait => 4
  | .has_data_cb .poll => 3
  | .has_data_notified .poll => 2
  | .unlock_to_wait _ | .bail _ _ | .poll_bail _ | .direct_ioctl _ => 1
  | _ => 0

/-- Where the events of a reader come from. -/
inductive source where
  | cb
  | notified

def source.there (v : modac_vdev_des) : source → Prop
  | .cb => modac_cb_available v.cb_events = true
  | .notified => event_list_is_empty v.notified_events = false

/-- The thread sleeps, or was told to wait. -/
def progress.waits : progress → Bool
  | .schedule _ | .polled => true
  | _ => false

/-- Since its entry is in the queue, the thread has looked there and found nothing. -/
def progress.looked : progress → source → Bool
  | .has_data_notified (.wait_event _ true), .cb | .has_data_notified .poll, .cb => true
  | .schedule _, _ | .poll_bail false, _ | .polled, _ => true
  | _, _ => false

def thread.missed (th : thread) (i : source) : Prop :=
  th.queued = true ∧ th.progress.looked i = true

/-- One of the events that waited is gone. -/
structure TakesOne (v v' : modac_vdev_des) : Prop where
  waiting : (waiting_reads v').length + 1 = (waiting_reads v).length
  denied : v'.direct_access_denied = v.direct_access_denied
  there : ∀ i : source, i.there v' → i.there v

/-- How a step changes a thread, the VIRT_DEV and the count of the threads inside. -/
inductive thread_effect (v : modac_vdev_des) (count : Int) (th : thread) :
    modac_vdev_des → Int → thread → Prop
  | goes_on (th' : thread) (hinside : th'.progress.inside = th.progress.inside)
      (hleft : th.progress.inside = true → th'.progress.left < th.progress.left)
      (hmissed : ∀ i, th'.missed i → th.missed i ∨ ¬ i.there v) :
      thread_effect v count th v count th'
  | takes (v' : modac_vdev_des) (th' : thread) (hinside : th.progress.inside = true)
      (hinside' : th'.progress.inside = true)
      (hleft : th'.progress.left < th.progress.left + 3)
      (htakes : TakesOne v v') (hmissed : ∀ i, ¬ th'.missed i) :
      thread_effect v count th v' count th'
  | leaves (th' : thread) (hinside : th.progress.inside = true)
      (hinside' : th'.progress.inside = false) (hmissed : ∀ i, th'.missed i → th.missed i) :
      thread_effect v count th v (count - 1) th'
  | enters (th' : thread) (hallowed : v.direct_access_denied = false)
      (hinside : th.progress.inside = false) (hinside' : th'.progress.inside = true)
      (hmissed : ∀ i, ¬ th'.missed i) :
      thread_effect v count th v (count + 1) th'

theorem progress.left_eq_zero_iff (p : progress) : p.left = 0 ↔ p.inside = false := by
  cases p with
  | has_data_cb who => cases who <;> simp [left, inside]
  | has_data_notified who => cases who <;> simp [left, inside]
  | _ => simp [left, inside]

/-- The least notified event is taken, if there is one. -/
theorem notified_get_cases (v : modac_vdev_des) :
    notified_get v = (v, none) ∨ ∃ v' r, notified_get v = (v', some r) ∧ TakesOne v v' := by
  unfold notified_get
  obtain ⟨-, hnone⟩ | ⟨first, rest, hfilter, hfirst, hrest⟩ := extract_one_cases v.notified_events
  · rw [hnone]
    exact .inl (if_neg (by decide))
  · rw [hfirst]
    refine .inr ⟨_, _, if_pos (Int.natCast_nonneg _), ?_, rfl, fun i hi => ?_⟩
    · simp only [waiting_reads, waiting, List.length_append, List.length_map, hrest, hfilter,
        List.length_cons]
      omega
    · cases i with
      | cb => simpa only [source.there] using hi
      | notified =>
        have hmem :
            first ∈ (List.finRange EVENT_LIST_TYPE_MAX_EVENTS).filter v.notified_events := by
          rw [hfilter]
          exact List.mem_cons_self
        rw [source.there, ← Bool.not_eq_true, event_list_is_empty_eq_true]
        intro hempty
        have hset := (List.mem_filter.mp hmem).2
        rw [hempty first] at hset
        cases hset

theorem queued_get_eq {v : modac_vdev_des} {cb_events : modac_circ_buf} {got : Option cb_read}
    (hget : modac_cb_get v.cb_events = (cb_events, got)) :
    queued_get v = ({ v with cb_events }, got) := by
  rw [queued_get, hget]

/-- The queue without its first record. -/
theorem takesOne_of_queue {v : modac_vdev_des} {cb_events : modac_circ_buf}
    (hused : used cb_events.head cb_events.tail + 1 = used v.cb_events.head v.cb_events.tail) :
    TakesOne v { v with cb_events } := by
  refine ⟨?_, rfl, fun i hi => ?_⟩
  · simp only [waiting_reads, waiting, List.length_append, List.length_map, window_length]
    omega
  · cases i with
    | cb =>
      rw [source.there, modac_cb_available, CIRC_CNT_eq_used]
      exact decide_eq_true (by omega)
    | notified => simpa only [source.there] using hi

/-- The first record of the queue is taken, if there is one. -/
theorem queued_get_cases (v : modac_vdev_des) :
    queued_get v = (v, none) ∨ ∃ v' r, queued_get v = (v', some r) ∧ TakesOne v v' := by
  obtain ⟨-, hget⟩ | ⟨hsome, hget⟩ := modac_cb_get_cases v.cb_events
  · exact .inl (queued_get_eq hget)
  · refine .inr ⟨_, _, queued_get_eq hget, takesOne_of_queue ?_⟩
    have hused := used_advance_tail hsome
    rw [← next_index_eq_slot] at hused
    dsimp only
    omega

section

variable {waking copied : Bool} {v v' : modac_vdev_des} {count count' : Int} {th th' : thread}

/-- A step that touches nothing but the thread, after which this has not looked anywhere. -/
theorem goes_on {p p' : progress} {q q' : Bool}
    (h : some (v, count, (⟨p', q'⟩ : thread)) = some (v', count', th'))
    (hinside : p'.inside = p.inside) (hleft : p.inside = true → p'.left < p.left)
    (hlooked : ∀ i, p'.looked i = false) :
    thread_effect v count ⟨p, q⟩ v' count' th' := by
  simp only [Option.some.injEq, Prod.mk.injEq] at h
  obtain ⟨rfl, rfl, rfl⟩ := h
  refine .goes_on _ hinside hleft fun i hmissed => ?_
  rw [thread.missed, hlooked] at hmissed
  exact absurd hmissed.2 Bool.false_ne_true

/-- A thread unlocks, and is at a place where it has not looked anywhere, or had looked as well. -/
theorem unlocks {p p' : progress} {q q' : Bool}
    (h : some (v, count - 1, (⟨p', q'⟩ : thread)) = some (v', count', th'))
    (hinside : p.inside = true) (hinside' : p'.inside = false)
    (hlooked : ∀ i, p'.looked i = true → p.looked i = true) (hq : q' = true → q = true) :
    thread_effect v count ⟨p, q⟩ v' count' th' := by
  simp only [Option.some.injEq, Prod.mk.injEq] at h
  obtain ⟨rfl, rfl, rfl⟩ := h
  exact .leaves _ hinside hinside' fun i hmissed => ⟨hq hmissed.1, hlooked i hmissed.2⟩

/-- The answer of `read_has_data`: a thread that is told to wait has looked everywhere. -/
theorem answers {p : progress} {who : caller} {q has_data : Bool}
    (h : some (v, count, who.answered q has_data) = some (v', count', th'))
    (hp : p = .has_data_cb who ∨ p = .has_data_notified who)
    (hlooked : has_data = false → ∀ i, (who.answered q false).progress.looked i = true →
      p.looked i = true ∨ ¬ source.there v i) :
    thread_effect v count ⟨p, q⟩ v' count' th' := by
  simp only [Option.some.injEq, Prod.mk.injEq] at h
  obtain ⟨rfl, rfl, rfl⟩ := h
  refine .goes_on _ ?_ ?_ fun i hmissed => ?_
  · obtain rfl | rfl := hp <;> rcases who with ⟨c, - | -⟩ | - <;> cases has_data <;> rfl
  · obtain rfl | rfl := hp <;> rcases who with ⟨c, - | -⟩ | - <;> cases has_data <;>
      simp [progress.left, progress.inside, caller.answered]
  · obtain ⟨hq, hi⟩ := hmissed
    cases has_data with
    | true => rcases who with ⟨c, prepared⟩ | - <;> cases hi
    | false =>
      have hq : q = true := by rcases who with ⟨c, - | -⟩ | - <;> exact hq
      exact (hlooked rfl i hi).imp_left fun hlooked => ⟨hq, hlooked⟩

/-- A thread that has got a record is going to copy it. -/
theorem gets {p : progress} {c : read_call} {r : cb_read} {q : Bool} {w : modac_vdev_des}
    (h : some (w, count, (⟨.copy_to_user c r, q⟩ : thread)) = some (v', count', th'))
    (htakes : TakesOne v w) (hinside : p.inside = true) (hleft : 1 < p.left) :
    thread_effect v count ⟨p, q⟩ v' count' th' := by
  simp only [Option.some.injEq, Prod.mk.injEq] at h
  obtain ⟨rfl, rfl, rfl⟩ := h
  refine .takes _ _ hinside rfl ?_ htakes ?_
  · change 4 < p.left + 3
    omega
  · simp [thread.missed, progress.looked]

/-- One step of a thread, in one of four ways. -/
theorem effect_of_thread_step
    (h : thread_step waking copied v count th = some (v', count', th')) :
    thread_effect v count th v' count' th' := by
  obtain ⟨p, q⟩ := th
  unfold thread_step at h
  cases p with
  | returned ret got => cases h
  | read_loop c =>
    dsimp only at h
    split_ifs at h with hfree hwaking
    · obtain hget | ⟨w, r, hget, htakes⟩ := notified_get_cases v
      · rw [hget] at h
        exact goes_on h rfl (by simp [progress.left]) (fun _ => rfl)
      · rw [hget] at h
        exact gets h htakes rfl (by simp [progress.left])
    · exact goes_on h rfl (by simp [progress.left]) (fun _ => rfl)
  | read_get_cb c =>
    dsimp only at h
    obtain hget | ⟨w, r, hget, htakes⟩ := queued_get_cases v
    · rw [hget, queued_got_none] at h
      split_ifs at h
      · exact goes_on h rfl (by simp [progress.left]) (fun _ => rfl)
      · exact goes_on h rfl (by simp [progress.left]) (fun _ => rfl)
      · exact goes_on h rfl (by simp [progress.left]) (fun _ => rfl)
    · rw [hget, queued_got_some] at h
      exact gets h htakes rfl (by simp [progress.left])
  | copy_to_user c r =>
    dsimp only at h
    split_ifs at h
    · exact goes_on h rfl (by simp [progress.left]) (fun _ => rfl)
    · exact goes_on h rfl (by simp [progress.left]) (fun _ => rfl)
  | unlock_to_wait c => exact unlocks h rfl rfl (by simp [progress.looked]) id
  | has_data_cb who =>
    dsimp only at h
    split_ifs at h with havailable
    · exact answers h (.inl rfl) (fun hno => absurd hno (by decide))
    · simp only [Option.some.injEq, Prod.mk.injEq] at h
      obtain ⟨rfl, rfl, rfl⟩ := h
      refine .goes_on _ ?_ ?_ fun i hmissed => .inr ?_
      · rcases who with ⟨c, prepared⟩ | - <;> rfl
      · rcases who with ⟨c, prepared⟩ | - <;> simp [progress.left, progress.inside]
      · -- it has looked at the queue only
        cases i with
        | cb => exact havailable
        | notified =>
          obtain ⟨-, hi⟩ := hmissed
          rcases who with ⟨c, - | -⟩ | - <;> cases hi
  | has_data_notified who =>
    dsimp only at h
    split_ifs at h
    refine answers h (.inr rfl) fun hempty i hlooked => ?_
    cases i with
    | cb =>
      left
      rcases who with ⟨c, - | -⟩ | -
      · cases hlooked
      · rfl
      · rfl
    | notified =>
      right
      simpa [source.there] using hempty
  | prepare_to_wait c => exact goes_on h rfl (by simp [progress.inside]) (fun _ => rfl)
  | schedule c =>
    dsimp only at h
    split_ifs at h
    exact goes_on h rfl (by simp [progress.inside]) (fun _ => rfl)
  | lock_again c =>
    dsimp only at h
    split_ifs at h with hdenied
    · exact goes_on h rfl (by simp [progress.inside]) (fun _ => rfl)
    · simp only [Option.some.injEq, Prod.mk.injEq] at h
      obtain ⟨rfl, rfl, rfl⟩ := h
      exact .enters _ (Bool.eq_false_of_not_eq_true hdenied) rfl rfl
        (by simp [thread.missed, progress.looked])
  | bail ret got => exact unlocks h rfl rfl (by simp [progress.looked]) id
  | poll_wait => exact goes_on h rfl (by simp [progress.left]) (fun _ => rfl)
  | poll_bail ready =>
    cases ready with
    | true => exact unlocks h rfl rfl (by simp [progress.looked]) (by simp)
    | false => exact unlocks h rfl rfl (fun _ _ => rfl) id
  | polled => cases h
  | direct_ioctl ret => exact unlocks h rfl rfl (by simp [progress.looked]) id

end

/-- How a step changes the state: a thread takes one, an event comes, the sleepers are woken, or the
file that closes goes on. -/
inductive access_effect {T : Type} [DecidableEq T] (s : access_state T) : access_state T → Prop
  | thread (t : T) {v' : modac_vdev_des} {count' : Int} {th' : thread}
      (heffect : thread_effect s.v s.direct_access_active_count (s.threads t) v' count' th') :
      access_effect s { s with
        v := v'
        direct_access_active_count := count'
        threads := Function.update s.threads t th' }
  | event (v' : modac_vdev_des) (waking : Bool) (hwaking : s.waking = false)
      (hdenied : v'.direct_access_denied = s.v.direct_access_denied)
      (hcomes : waking = true ∨ v' = s.v) :
      access_effect s { s with v := v', waking }
  | wake_up :
      access_effect s { s with
        waking := false
        threads := fun t => { s.threads t with queued := false } }
  | deny (hclosing : s.closing = .not_yet) :
      access_effect s { s with
        v := { s.v with direct_access_denied := true }
        closing := .denied }
  | waits : access_effect s s
  | destroy (hclosing : s.closing = .denied) (hcount : ¬ s.direct_access_active_count > 0) :
      access_effect s { s with closing := .destroyed }

section

variable {T : Type} [DecidableEq T] {s s' : access_state T} {t : T} {th' : thread}

theorem call.first_inside (call : call) : call.first.inside = true := by
  cases call with
  | read buf_len nonblock =>
    rw [call.first]
    split_ifs
    · rfl
    · rfl
  | _ => rfl

/-- A thread outside comes to another place outside, and is not in the queue. -/
theorem effect_of_outside (hbefore : (s.threads t).progress.inside = false)
    (hafter : th'.progress.inside = false) (hqueued : th'.queued = false) :
    access_effect s { s with threads := Function.update s.threads t th' } := by
  refine .thread t (.goes_on th' (hafter.trans hbefore.symm) ?_ fun i hmissed => ?_)
  · rw [hbefore]
    nofun
  · rw [thread.missed, hqueued] at hmissed
    exact absurd hmissed.1 Bool.false_ne_true

theorem effect_of_lock (hbefore : (s.threads t).progress.inside = false) (call : call) :
    access_effect s (lock_direct_call s t call) := by
  unfold lock_direct_call
  split_ifs with hdenied
  · exact effect_of_outside hbefore rfl rfl
  · refine .thread t (.enters _ (Bool.eq_false_of_not_eq_true hdenied) hbefore call.first_inside ?_)
    exact fun i hmissed => absurd hmissed.1 Bool.false_ne_true

/-- Without a place for the event the queue stays as it is. -/
theorem modac_cb_put_cases (cb : modac_circ_buf) (event : Int) (data : List (BitVec 8)) :
    (modac_cb_put cb event data).2 = 0 ∨ (modac_cb_put cb event data).1 = cb := by
  by_cases hlength : data.length > CBUF_EVENT_ENTRY_DATA_LENGTH
  · rw [modac_cb_put_error (.inl hlength)]
    exact .inr rfl
  · by_cases hspace : CIRC_SPACE cb.head cb.tail CBUF_EVENT_COUNT ≥ 1
    · rw [modac_cb_put_eq event hlength hspace]
      exact .inl rfl
    · rw [modac_cb_put_error (.inr hspace)]
      exact .inr rfl

theorem effect_of_access_step {op : access_op T} (hstep : access_step s op = some s') :
    access_effect s s' := by
  cases op with
  | enter t call =>
    simp only [access_step] at hstep
    split at hstep
    · next hth =>
      obtain rfl := Option.some.inj hstep
      exact effect_of_lock (by rw [hth]; rfl) call
    · cases hstep
  | next t copied =>
    simp only [access_step, Option.map_eq_some_iff] at hstep
    obtain ⟨⟨v', count', th'⟩, hth, rfl⟩ := hstep
    exact .thread t (effect_of_thread_step hth)
  | interrupt t =>
    simp only [access_step] at hstep
    split at hstep
    · next hth =>
      obtain rfl := Option.some.inj hstep
      exact effect_of_outside (by rw [hth]; rfl) rfl rfl
    · cases hstep
  | poll_again t =>
    simp only [access_step] at hstep
    split at hstep
    · next hth =>
      obtain rfl := Option.some.inj hstep
      exact effect_of_lock (by rw [hth]; rfl) .poll
    · cases hstep
  | poll_end t =>
    simp only [access_step] at hstep
    split at hstep
    · next hth =>
      obtain rfl := Option.some.inj hstep
      exact effect_of_outside (by rw [hth]; rfl) rfl rfl
    · cases hstep
  | put event data =>
    simp only [access_step] at hstep
    split_ifs at hstep with hwaking
    obtain rfl := Option.some.inj hstep
    refine .event _ _ (Bool.eq_false_of_not_eq_true hwaking) rfl ?_
    obtain hret | hsame := modac_cb_put_cases s.v.cb_events event data
    · exact .inl (decide_eq_true hret)
    · right
      rw [hsame]
  | notify event =>
    simp only [access_step] at hstep
    split_ifs at hstep with hwaking
    obtain rfl := Option.some.inj hstep
    exact .event _ _ (Bool.eq_false_of_not_eq_true hwaking) rfl (.inl rfl)
  | wake_up =>
    simp only [access_step] at hstep
    split_ifs at hstep
    obtain rfl := Option.some.inj hstep
    exact .wake_up
  | deny =>
    simp only [access_step] at hstep
    split at hstep
    · next hclosing =>
      obtain rfl := Option.some.inj hstep
      exact .deny hclosing
    · cases hstep
  | read_active_count =>
    simp only [access_step] at hstep
    split at hstep
    · next hclosing =>
      split_ifs at hstep with hcount
      · obtain rfl := Option.some.inj hstep
        exact .waits
      · obtain rfl := Option.some.inj hstep
        exact .destroy hclosing hcount
    · cases hstep

/-- Between `lock_direct_call` and `unlock_direct_call`. -/
def access_state.inside (s : access_state T) (t : T) : Prop :=
  (s.threads t).progress.inside = true

/-- When the VIRT_DEV is denied nobody comes in. -/
theorem inside_of_step {op : access_op T} (hstep : access_step s op = some s')
    (hdenied : s.v.direct_access_denied = true) :
    s'.v.direct_access_denied = true ∧ ∀ t, s'.inside t → s.inside t := by
  cases effect_of_access_step hstep with
  | @thread u v' count' th' heffect =>
    have hkept : v'.direct_access_denied = true ∧
        (th'.progress.inside = true → s.inside u) := by
      cases heffect with
      | goes_on _ hinside _ _ => exact ⟨hdenied, fun hin => hinside.symm.trans hin⟩
      | takes _ _ hinside _ _ htakes _ => exact ⟨htakes.denied.trans hdenied, fun _ => hinside⟩
      | leaves _ hinside _ _ => exact ⟨hdenied, fun _ => hinside⟩
      | enters _ hallowed _ _ _ =>
        rw [hallowed] at hdenied
        cases hdenied
    refine ⟨hkept.1, fun t hin => ?_⟩
    by_cases ht : t = u
    · subst ht
      simp only [access_state.inside, Function.update_self] at hin
      exact hkept.2 hin
    · simp only [access_state.inside, Function.update_of_ne ht] at hin
      exact hin
  | event v' waking _ hsame _ => exact ⟨hsame.trans hdenied, fun _ hin => hin⟩
  | wake_up => exact ⟨hdenied, fun _ hin => hin⟩
  | deny _ => exact ⟨rfl, fun _ hin => hin⟩
  | waits => exact ⟨hdenied, fun _ hin => hin⟩
  | destroy _ _ => exact ⟨hdenied, fun _ hin => hin⟩

end

end evrma.virt_dev
