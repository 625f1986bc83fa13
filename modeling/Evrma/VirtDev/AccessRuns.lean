import Evrma.Lib.Cost
import Evrma.Lib.Threads
import Evrma.VirtDev.Access
import Evrma.VirtDev.ReadLoop

namespace evrma.virt_dev

open evrma.event_list evrma.ioctl evrma.lib evrma.packet_queue

/-- Whether the thread is inside, as a number. -/
def thread.inside_count (th : thread) : Nat := if th.progress.inside then 1 else 0

/-- The count is that of the threads inside, and when the VIRT_DEV is destroyed there are none. -/
structure CallsCounted {T : Type} [Fintype T] (s : access_state T) : Prop where
  count : s.direct_access_active_count = (load thread.inside_count s.threads : Nat)
  denied : s.closing ≠ .not_yet → s.v.direct_access_denied = true
  destroyed : s.closing = .destroyed → ∀ t, ¬ s.inside t

section

variable {T : Type} [DecidableEq T] [Fintype T] {s s' : access_state T}

omit [DecidableEq T] in
theorem callsCounted_init (v : modac_vdev_des) (cb_events : modac_circ_buf) :
    CallsCounted (access_init v cb_events : access_state T) where
  count := by
    have hnone : load thread.inside_count (access_init v cb_events : access_state T).threads = 0 :=
      load_eq_zero_iff.mpr fun _ => rfl
    rw [hnone]
    rfl
  denied h := absurd rfl h
  destroyed h := by cases h

/-- The count goes with the thread. -/
theorem thread_effect.count_eq {v v' : modac_vdev_des} {count count' : Int} {th th' : thread}
    (h : thread_effect v count th v' count' th') :
    count' + th.inside_count = count + th'.inside_count := by
  cases h with
  | goes_on _ hinside _ _ => simp [thread.inside_count, hinside]
  | takes _ _ hinside hinside' _ _ _ => simp [thread.inside_count, hinside, hinside']
  | leaves _ hinside hinside' _ => simp [thread.inside_count, hinside, hinside']
  | enters _ _ hinside hinside' _ => simp [thread.inside_count, hinside, hinside']

theorem CallsCounted.step {op : access_op T} (h : CallsCounted s)
    (hstep : access_step s op = some s') : CallsCounted s' := by
  have hinside := fun hclosing => inside_of_step hstep (h.denied hclosing)
  cases effect_of_access_step hstep with
  | @thread t v' count' th' heffect =>
    refine ⟨?_, fun hclosing => (hinside hclosing).1, fun hclosing u hin => ?_⟩
    · have hload : load thread.inside_count (Function.update s.threads t th') +
          (s.threads t).inside_count = load thread.inside_count s.threads + th'.inside_count :=
        load_update t th'
      have hbefore := h.count
      have hcount := heffect.count_eq
      dsimp only
      omega
    · exact h.destroyed hclosing u ((hinside (by rw [hclosing]; nofun)).2 u hin)
  | event v' waking _ hsame _ =>
    exact ⟨h.count, fun hclosing => hsame.trans (h.denied hclosing), h.destroyed⟩
  | wake_up => exact ⟨h.count, h.denied, h.destroyed⟩
  | deny _ => exact ⟨h.count, fun _ => rfl, by nofun⟩
  | waits => exact h
  | destroy hclosing hcount =>
    refine ⟨h.count, fun _ => h.denied (by rw [hclosing]; nofun), fun _ t hin => ?_⟩
    have hnone : load thread.inside_count s.threads = 0 := by
      have hbefore := h.count
      omega
    have ht := load_eq_zero_iff.mp hnone t
    have hone : (s.threads t).inside_count = 1 := if_pos hin
    omega

end

/-- What is left of the calls that are going on: three steps more for each event that waits. -/
def access_state.left {T : Type} [Fintype T] (s : access_state T) : Nat :=
  load (fun th => th.progress.left) s.threads + 3 * (waiting_reads s.v).length

/-- A step between `lock_direct_call` and `unlock_direct_call`. -/
def access_op.steps {T : Type} (s : access_state T) : access_op T → Nat
  | .next t _ => (s.threads t).inside_count
  | _ => 0

/-- So many steps more there may be for an event that comes. -/
def access_op.brings {T : Type} : access_op T → Nat
  | .put _ _ | .notify _ => 3 * (EVENT_LIST_TYPE_MAX_EVENTS + CBUF_EVENT_COUNT)
  | _ => 0

section

variable {T : Type} [DecidableEq T] [Fintype T] {s s' : access_state T}

/-- A step of a thread inside leaves less, unless somebody comes in. -/
theorem thread_effect.left_lt {v v' : modac_vdev_des} {count count' : Int} {th th' : thread}
    (h : thread_effect v count th v' count' th') (hdenied : v.direct_access_denied = true) :
    th'.progress.left + 3 * (waiting_reads v').length + th.inside_count ≤
      th.progress.left + 3 * (waiting_reads v).length := by
  cases h with
  | goes_on _ hinside hleft _ =>
    by_cases hin : th.progress.inside = true
    · have hone : th.inside_count = 1 := if_pos hin
      have hless := hleft hin
      omega
    · have hnone : th.inside_count = 0 := if_neg hin
      have hleft' : th'.progress.left = 0 := by
        rw [progress.left_eq_zero_iff, hinside]
        exact Bool.eq_false_of_not_eq_true hin
      omega
  | takes _ _ hinside _ hleft htakes _ =>
    have hone : th.inside_count = 1 := if_pos hinside
    have hwaiting := htakes.waiting
    omega
  | leaves _ hinside hinside' _ =>
    have hone : th.inside_count = 1 := if_pos hinside
    have hleft' := (progress.left_eq_zero_iff _).mpr hinside'
    have hpos : th.progress.left ≠ 0 := by
      rw [Ne, progress.left_eq_zero_iff, hinside]
      nofun
    omega
  | enters _ hallowed _ _ _ =>
    rw [hallowed] at hdenied
    cases hdenied

theorem left_update {v' : modac_vdev_des} (count' : Int) {t : T} {th' : thread} {steps : Nat}
    (h : th'.progress.left + 3 * (waiting_reads v').length + steps ≤
      (s.threads t).progress.left + 3 * (waiting_reads s.v).length) :
    access_state.left { s with
      v := v'
      direct_access_active_count := count'
      threads := Function.update s.threads t th' } + steps ≤ s.left := by
  have hload : load (fun th : thread => th.progress.left) (Function.update s.threads t th') +
      (s.threads t).progress.left =
        load (fun th : thread => th.progress.left) s.threads + th'.progress.left :=
    load_update t th'
  rw [access_state.left, access_state.left]
  dsimp only
  omega

/-- Whoever comes to a denied VIRT_DEV is sent away. -/
theorem left_sent_away {t : T} {ret : Int} {got : List cb_read} {queued : Bool} :
    access_state.left { s with
      threads := Function.update s.threads t ⟨.returned ret got, queued⟩ } ≤ s.left := by
  have hload : load (fun th : thread => th.progress.left)
      (Function.update s.threads t ⟨.returned ret got, queued⟩) + (s.threads t).progress.left =
        load (fun th : thread => th.progress.left) s.threads + 0 :=
    load_update t (⟨.returned ret got, queued⟩ : thread)
  rw [access_state.left, access_state.left]
  dsimp only
  omega

theorem left_lock {t : T} (call : call) (hdenied : s.v.direct_access_denied = true) :
    (lock_direct_call s t call).left ≤ s.left := by
  rw [lock_direct_call, if_pos hdenied]
  exact left_sent_away

omit [DecidableEq T] in
theorem left_of_event (v' : modac_vdev_des) (waking : Bool) :
    access_state.left { s with v := v', waking } ≤
      s.left + 3 * (EVENT_LIST_TYPE_MAX_EVENTS + CBUF_EVENT_COUNT) := by
  have hwaiting := waiting_reads_length_lt v'
  rw [access_state.left, access_state.left]
  dsimp only
  omega

omit [DecidableEq T] in
theorem left_of_outside {op : access_op T} (hleft : s'.left ≤ s.left) (hsteps : op.steps s = 0) :
    s'.left + op.steps s ≤ s.left + op.brings := by
  rw [hsteps]
  omega

/-- The steps inside a denied VIRT_DEV are paid from what was left. -/
theorem left_of_step {op : access_op T} (hstep : access_step s op = some s')
    (hdenied : s.v.direct_access_denied = true) : s'.left + op.steps s ≤ s.left + op.brings := by
  cases op with
  | enter t call =>
    simp only [access_step] at hstep
    split at hstep
    · obtain rfl := Option.some.inj hstep
      exact left_of_outside (left_lock call hdenied) (by rfl)
    · cases hstep
  | next t copied =>
    simp only [access_step, Option.map_eq_some_iff] at hstep
    obtain ⟨⟨v', count', th'⟩, hth, rfl⟩ := hstep
    have hpaid := left_update count' ((effect_of_thread_step hth).left_lt hdenied)
    simpa only [access_op.steps, access_op.brings, Nat.add_zero] using hpaid
  | interrupt t =>
    simp only [access_step] at hstep
    split at hstep
    · obtain rfl := Option.some.inj hstep
      exact left_of_outside left_sent_away rfl
    · cases hstep
  | poll_again t =>
    simp only [access_step] at hstep
    split at hstep
    · obtain rfl := Option.some.inj hstep
      exact left_of_outside (left_lock .poll hdenied) rfl
    · cases hstep
  | poll_end t =>
    simp only [access_step] at hstep
    split at hstep
    · obtain rfl := Option.some.inj hstep
      exact left_of_outside left_sent_away rfl
    · cases hstep
  | put event data =>
    simp only [access_step] at hstep
    split_ifs at hstep
    obtain rfl := Option.some.inj hstep
    simp only [access_op.steps, access_op.brings, Nat.add_zero]
    exact left_of_event _ _
  | notify event =>
    simp only [access_step] at hstep
    split_ifs at hstep
    obtain rfl := Option.some.inj hstep
    simp only [access_op.steps, access_op.brings, Nat.add_zero]
    exact left_of_event _ _
  | wake_up =>
    simp only [access_step] at hstep
    split_ifs at hstep
    obtain rfl := Option.some.inj hstep
    refine left_of_outside ?_ rfl
    simp only [access_state.left]
    exact Nat.add_le_add_right (Nat.le_of_eq rfl) _
  | deny =>
    simp only [access_step] at hstep
    split at hstep
    · obtain rfl := Option.some.inj hstep
      have hsame : { s.v with direct_access_denied := true } = s.v := by
        rw [← hdenied]
      refine left_of_outside ?_ rfl
      simp only [access_state.left, hsame, Nat.le_refl]
    · cases hstep
  | read_active_count =>
    simp only [access_step] at hstep
    split at hstep
    · split_ifs at hstep
      · obtain rfl := Option.some.inj hstep
        exact left_of_outside (Nat.le_refl _) rfl
      · obtain rfl := Option.some.inj hstep
        refine left_of_outside ?_ rfl
        simp only [access_state.left, Nat.le_refl]
    · cases hstep

end

/-- A queued thread that has looked everywhere is woken, if there is something by now. -/
def access_state.none_missed {T : Type} (s : access_state T) : Prop :=
  NoneMissed thread.missed (fun i => i.there s.v) (s.waking = true) s.threads

section

variable {T : Type} [DecidableEq T] {s s' : access_state T} {v : modac_vdev_des}
  {cb_events : modac_circ_buf} {ops : List (access_op T)}

theorem looked_of_waits {p : progress} (hwaits : p.waits = true) (i : source) :
    p.looked i = true := by
  cases p with
  | schedule c => rfl
  | polled => rfl
  | _ => cases hwaits

theorem none_missed_step {op : access_op T} (h : s.none_missed)
    (hstep : access_step s op = some s') : s'.none_missed := by
  cases effect_of_access_step hstep with
  | @thread t v' count' th' heffect =>
    cases heffect with
    | goes_on _ _ _ hmissed => exact NoneMissed.update h t hmissed
    | takes _ _ _ _ _ htakes hmissed =>
      exact (NoneMissed.mono h htakes.there).update t fun i hi => absurd hi (hmissed i)
    | leaves _ _ _ hmissed => exact NoneMissed.update h t fun i hi => .inl (hmissed i hi)
    | enters _ _ _ _ hmissed => exact NoneMissed.update h t fun i hi => absurd hi (hmissed i)
  | event v' waking hwaking _ hcomes =>
    obtain hwaking' | hsame := hcomes
    · exact NoneMissed.of_waking hwaking'
    · -- nothing has come, so nobody who waits missed anything before
      subst hsame
      intro t i hmissed hi
      have hwoken := h t i hmissed hi
      rw [hwaking] at hwoken
      cases hwoken
  | wake_up => exact fun _ _ hmissed _ => absurd hmissed.1 Bool.false_ne_true
  | deny _ =>
    refine NoneMissed.mono h fun i hi => ?_
    cases i with
    | cb => exact hi
    | notified => exact hi
  | waits => exact h
  | destroy _ _ => exact h

/-- However the threads interleave, the count is that of the threads between `lock_direct_call` and
`unlock_direct_call`; once the close has denied the VIRT_DEV only those are there who were before,
and when it is destroyed there is nobody. -/
theorem calls_gated [Fintype T]
    (hrun : run access_step (access_init v cb_events) ops = some s) :
    s.direct_access_active_count = (load thread.inside_count s.threads : Nat) ∧
      (s.closing = .destroyed → ∀ t, ¬ s.inside t) ∧
      (s.closing ≠ .not_yet → ∀ ops' s', run access_step s ops' = some s' →
        ∀ t, s'.inside t → s.inside t) := by
  have h : CallsCounted s :=
    run_invariant (fun _ _ _ h hstep => CallsCounted.step h hstep) hrun
      (callsCounted_init v cb_events)
  refine ⟨h.count, h.destroyed, fun hclosing ops' s' hrun' => ?_⟩
  have hkept : s'.v.direct_access_denied = true ∧ ∀ t, s'.inside t → s.inside t := by
    refine run_invariant
      (I := fun u => u.v.direct_access_denied = true ∧ ∀ t, u.inside t → s.inside t)
      (fun u op u' hu hstep => ?_) hrun' ⟨h.denied hclosing, fun _ hin => hin⟩
    have hnext := inside_of_step hstep hu.1
    exact ⟨hnext.1, fun t hin => hu.2 t (hnext.2 t hin)⟩
  exact hkept.2

/-- The file closes while an `ioctl` is going on. -/
def closes_on_ioctl : List (access_op Bool) := [.enter true (.direct_ioctl 0), .deny]

/-- Nobody comes in, and the `ioctl` is over. -/
def ioctl_ends : List (access_op Bool) :=
  [.read_active_count, .enter false .poll, .next true true, .read_active_count]

theorem calls_gated_closes_on_ioctl :
    ∃ s, run access_step (access_init one_of_each one_of_each.cb_events)
        (closes_on_ioctl ++ ioctl_ends) = some s ∧
      s.closing = .destroyed ∧ ∀ t, ¬ s.inside t := by
  have hruns : ∃ s, run access_step (access_init one_of_each one_of_each.cb_events)
      (closes_on_ioctl ++ ioctl_ends) = some s ∧ s.closing = .destroyed := ⟨_, rfl, rfl⟩
  obtain ⟨s, hrun, hdestroyed⟩ := hruns
  exact ⟨s, hrun, hdestroyed, (calls_gated hrun).2.1 hdestroyed⟩

/-- The close does not wait forever: while no event comes, the calls that are going on take so many
steps at most until they are over, whatever else there is in between. -/
theorem calls_end [Fintype T]
    (hrun : run access_step (access_init v cb_events) ops = some s)
    (hclosing : s.closing ≠ .not_yet)
    {ops' : List (access_op T)} {s' : access_state T} (hrun' : run access_step s ops' = some s') :
    s'.left + run_cost access_step (fun s op => op.steps s) s ops' ≤
      s.left + (ops'.map access_op.brings).sum := by
  have h : CallsCounted s :=
    run_invariant (fun _ _ _ h hstep => CallsCounted.step h hstep) hrun
      (callsCounted_init v cb_events)
  have hpay : ∀ (u : access_state T) op u', u.v.direct_access_denied = true →
      access_step u op = some u' → u'.left + op.steps u ≤ u.left + op.brings :=
    fun _ _ _ hdenied hstep => left_of_step hstep hdenied
  exact run_cost_le (fun _ _ _ hdenied hstep => (inside_of_step hstep hdenied).1) hpay hrun'
    (h.denied hclosing)

theorem calls_end_ioctl_ends :
    ∃ s s', run access_step (access_init one_of_each one_of_each.cb_events) closes_on_ioctl =
        some s ∧ run access_step s ioctl_ends = some s' ∧
      s'.left + run_cost access_step (fun s op => op.steps s) s ioctl_ends ≤ s.left + 0 := by
  have hruns : ∃ s s', run access_step (access_init one_of_each one_of_each.cb_events)
      closes_on_ioctl = some s ∧ s.closing = .denied ∧ run access_step s ioctl_ends = some s' :=
    ⟨_, _, rfl, rfl, rfl⟩
  obtain ⟨s, s', hrun, hclosing, hrun'⟩ := hruns
  exact ⟨s, s', hrun, hrun', calls_end hrun (by rw [hclosing]; nofun) hrun'⟩

/-- No wake-up is lost, however the threads interleave: one that sleeps in `vdev_read`, or was told
by `vdev_poll` to wait, and is still in the queue, is going to be woken when there is an event. -/
theorem no_wake_up_lost (hrun : run access_step (access_init v cb_events) ops = some s) (t : T)
    (hqueued : (s.threads t).queued = true) (hwaits : (s.threads t).progress.waits = true)
    (hdata : read_has_data s.v = true) : s.waking = true := by
  have h : s.none_missed := by
    refine run_invariant (fun _ _ _ h hstep => none_missed_step h hstep) hrun ?_
    exact fun _ _ hmissed _ => absurd hmissed.1 Bool.false_ne_true
  have hlooked (i : source) : (s.threads t).missed i := ⟨hqueued, looked_of_waits hwaits i⟩
  rw [read_has_data, Bool.or_eq_true, Bool.not_eq_true'] at hdata
  obtain hcb | hnotified := hdata
  · exact h t .cb (hlooked .cb) hcb
  · exact h t .notified (hlooked .notified) hnotified

/-- A reader finds nothing, twice, and sleeps; then the event comes. -/
def sleeps_before_40 : List (access_op Unit) :=
  .enter () (.read FULL_EVENT false) :: List.replicate 8 (.next () true) ++ [.notify 40]

theorem no_wake_up_lost_sleeps_before_40 :
    ∃ s, run access_step (access_init one_of_each one_of_each.cb_events) sleeps_before_40 =
        some s ∧
      (s.threads ()).progress.waits = true ∧ read_has_data s.v = true ∧ s.waking = true := by
  have hruns : ((run access_step (access_init one_of_each one_of_each.cb_events)
      sleeps_before_40).any fun s =>
        (s.threads ()).queued && (s.threads ()).progress.waits && read_has_data s.v) = true := by
    decide +kernel
  simp only [Option.any_eq_true, Bool.and_eq_true] at hruns
  obtain ⟨s, hrun, ⟨hqueued, hwaits⟩, hdata⟩ := hruns
  exact ⟨s, hrun, hwaits, hdata, no_wake_up_lost hrun () hqueued hwaits hdata⟩

end

end evrma.virt_dev
