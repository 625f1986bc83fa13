import Evrma.Evr.Isr

namespace evrma.evr

open evrma.lib

/-- The write resets the event FIFO. -/
def ResetsFifo (reg : Nat) (val : BitVec 32) : Prop :=
  reg = EVR_REG_CTRL ∧ val.getLsbD C_EVR_CTRL_RESET_EVENTFIFO = true

/-- A card with an event FIFO, which it fills at any time. A read of `EVR_REG_FIFO_EVENT`
takes the first event, and the other two registers tell about this event from then on. The
flag stands while an event waits. -/
structure fifo_card (D : Type) extends irq_card D where
  feed : D → Feed evr_fifo_event
  held : D → evr_fifo_event
  read_event : ∀ d e rest, (feed d).waiting = e :: rest →
    (read32 d EVR_REG_FIFO_EVENT).1 &&& 0xFF = e.event.setWidth 32 ∧
      held (read32 d EVR_REG_FIFO_EVENT).2 = e ∧
      (feed d).Drains [e] (feed (read32 d EVR_REG_FIFO_EVENT).2)
  read_seconds : ∀ d, (read32 d EVR_REG_FIFO_SECONDS).1 = (held d).seconds
  read_timestamp : ∀ d, (read32 d EVR_REG_FIFO_TIMESTAMP).1 = (held d).timestamp
  read_flag : ∀ d, (read32 d EVR_REG_IRQFLAG).1.getLsbD C_EVR_IRQFLAG_EVENT = true ↔
    (feed d).waiting ≠ []
  read_other : ∀ d reg, reg ≠ EVR_REG_FIFO_EVENT →
    held (read32 d reg).2 = held d ∧ (feed d).Drains [] (feed (read32 d reg).2)
  write_reset : ∀ d reg val, ResetsFifo reg val → (feed d).Discards (feed (write32 d reg val))
  write_other : ∀ d reg val, ¬ ResetsFifo reg val →
    (feed d).Drains [] (feed (write32 d reg val))

variable {D : Type} {c : fifo_card D}

theorem not_resetsFifo_of_ne {reg : Nat} (hreg : reg ≠ EVR_REG_CTRL) (val : BitVec 32) :
    ¬ ResetsFifo reg val := fun h => hreg h.1

theorem fifo_card.drains_flags_write (d : D) (val : BitVec 32) :
    (c.feed d).Drains [] (c.feed (c.write32 d EVR_REG_IRQFLAG val)) :=
  c.write_other d EVR_REG_IRQFLAG val (not_resetsFifo_of_ne (by decide) val)

theorem isr_read_fifo_spec {d : D} {e : evr_fifo_event} {rest : List evr_fifo_event}
    (hwaiting : (c.feed d).waiting = e :: rest) :
    (isr_read_fifo c.toirq_card d).1 = e ∧
      (c.feed d).Drains [e] (c.feed (isr_read_fifo c.toirq_card d).2) := by
  obtain ⟨hevent, hheld, hdrains⟩ := c.read_event d e rest hwaiting
  obtain ⟨hheld', hdrains'⟩ := c.read_other (c.read32 d EVR_REG_FIFO_EVENT).2
    EVR_REG_FIFO_SECONDS (by decide)
  have hdrains'' := (c.read_other (c.read32 (c.read32 d EVR_REG_FIFO_EVENT).2
    EVR_REG_FIFO_SECONDS).2 EVR_REG_FIFO_TIMESTAMP (by decide)).2
  refine ⟨?_, (hdrains.trans hdrains').trans hdrains''⟩
  simp only [isr_read_fifo]
  rw [hevent, c.read_seconds, c.read_timestamp, hheld', hheld,
    BitVec.setWidth_setWidth_of_le _ (by decide : 8 ≤ 32), BitVec.setWidth_eq]

/-- The loop takes events from the FIFO until it has seen it empty, or `ilim` of them. -/
theorem isr_fifo_loop_spec (ilim : Nat) {d : D} (hwaiting : (c.feed d).waiting ≠ []) :
    let r := isr_fifo_loop c.toirq_card ilim d
    (c.feed d).Drains r.1 (c.feed r.2.2) ∧ r.1.length ≤ ilim ∧
      (r.2.1 < 1 ↔ r.1.length = ilim) ∧ ((c.feed d).waiting <+: r.1 ∨ r.1.length = ilim) := by
  induction ilim generalizing d with
  | zero => exact ⟨.refl _, Nat.le_refl 0, iff_of_true (by decide : (-1 : Int) < 1) rfl, .inr rfl⟩
  | succ ilim ih =>
    obtain ⟨e, rest, hcons⟩ := List.exists_cons_of_ne_nil hwaiting
    obtain ⟨he, hdrains⟩ := isr_read_fifo_spec hcons
    rw [isr_fifo_loop]
    generalize hread : isr_read_fifo c.toirq_card d = read at he hdrains ⊢
    obtain ⟨e', d₁⟩ := read
    obtain rfl : e' = e := he
    have hstat := (c.read_other d₁ EVR_REG_IRQFLAG (by decide)).2
    have hflag := c.read_flag d₁
    by_cases hset : (c.read32 d₁ EVR_REG_IRQFLAG).1.getLsbD C_EVR_IRQFLAG_EVENT = true
    · -- an event waits, and is still there after the status is read
      have hmore : (c.feed (c.read32 d₁ EVR_REG_IRQFLAG).2).waiting ≠ [] := by
        intro hnil
        have hbegins := hstat.waiting_of_nil
        rw [hnil, List.prefix_nil] at hbegins
        exact hflag.mp hset hbegins
      obtain ⟨hdrains', hlength, hleft, hall⟩ := ih hmore
      simp only [if_pos hset]
      refine ⟨(hdrains.trans hstat).trans hdrains', Nat.succ_le_succ hlength, ?_, ?_⟩
      · rw [hleft, List.length_cons, Nat.add_right_cancel_iff]
      · rcases hall with hall | hall
        · exact .inl ((hdrains.trans hstat).prefix_append hall)
        · exact .inr (congrArg Nat.succ hall)
    · have hempty : (c.feed d₁).waiting = [] := by
        by_contra hne
        exact hset (hflag.mpr hne)
      simp only [if_neg hset]
      refine ⟨hdrains.trans hstat, ?_, ?_, .inl ?_⟩
      · rw [List.length_singleton]
        omega
      · rw [List.length_singleton]
        omega
      · exact hdrains.prefix_append (by rw [hempty] : (c.feed d₁).waiting <+: [])

theorem isr_clear_flags_drains (irq_flags : BitVec 32) (d : D) :
    (c.feed d).Drains [] (c.feed (isr_clear_flags c.toirq_card irq_flags d)) := by
  unfold isr_clear_flags
  split_ifs
  · exact c.drains_flags_write d _
  · exact .refl _

theorem isr_copy_databuf_drains (d : D) (mem : mmap_words) (i : Nat) :
    (c.feed d).Drains [] (c.feed (isr_copy_databuf c.toirq_card d mem i).1) := by
  induction d, mem, i using isr_copy_databuf.induct c.toirq_card with
  | case1 d mem i hi val d' hread ih =>
    rw [isr_copy_databuf, if_pos hi]
    have hreg : EVR_REG_DATA_BUF + i <<< 2 ≠ EVR_REG_FIFO_EVENT := by
      simp only [EVR_REG_DATA_BUF, EVR_REG_FIFO_EVENT]
      omega
    have hother := (c.read_other d _ hreg).2
    rw [hread] at hother ⊢
    exact hother.trans ih
  | case2 d mem i hi =>
    rw [isr_copy_databuf, if_neg hi]
    exact .refl _

theorem isr_databuf_drains (d : D) (mem : mmap_words) :
    (c.feed d).Drains [] (c.feed (isr_databuf c.toirq_card d mem).1) := by
  have hread := fun d => (c.read_other d EVR_REG_DATA_BUF_CTRL (by decide)).2
  have hwrite := fun d val =>
    c.write_other d EVR_REG_DATA_BUF_CTRL val (not_resetsFifo_of_ne (by decide) val)
  simp only [isr_databuf]
  split_ifs
  · have hcopy := isr_copy_databuf_drains (c := c) (c.read32 d EVR_REG_DATA_BUF_CTRL).2
      (mem.store SLOT_SIZE32 (databuf_size32 (c.read32 d EVR_REG_DATA_BUF_CTRL).1)) 0
    exact (((hread d).trans hcopy).trans (hread _)).trans (hwrite _ _)
  · exact ((hread d).trans (hread _)).trans (hwrite _ _)

theorem isr_databuf_branch_drains (irq_flags : BitVec 32) (d : D) (mem : mmap_words) :
    (c.feed d).Drains [] (c.feed (isr_databuf_branch c.toirq_card irq_flags d mem).2.1) := by
  unfold isr_databuf_branch
  split_ifs
  · exact ((isr_databuf_drains d mem).trans (c.drains_flags_write _ _)).trans
      (c.drains_flags_write _ _)
  · exact .refl _

/-- The branch takes all that waits when it begins, or as many events as the limit. The
flags may have been read before. -/
theorem isr_event_branch_spec {irq_flags : BitVec 32} {d : D}
    (hflag : irq_flags.getLsbD C_EVR_IRQFLAG_EVENT = true → (c.feed d).waiting ≠ []) :
    let r := isr_event_branch c.toirq_card irq_flags d
    (c.feed d).Drains r.1 (c.feed r.2.2) ∧ r.1.length ≤ EVR_FIFO_EVENT_LIMIT ∧
      (r.2.1 = true ↔ r.1.length = EVR_FIFO_EVENT_LIMIT) ∧
      (irq_flags.getLsbD C_EVR_IRQFLAG_EVENT = true →
        (c.feed d).waiting <+: r.1 ∨ r.1.length = EVR_FIFO_EVENT_LIMIT) := by
  unfold isr_event_branch
  split_ifs with hset
  · obtain ⟨hdrains, hlength, hleft, hall⟩ :=
      isr_fifo_loop_spec EVR_FIFO_EVENT_LIMIT (hflag hset)
    refine ⟨?_, hlength, by rw [decide_eq_true_eq]; exact hleft, fun _ => hall⟩
    have hclear := hdrains.trans (c.drains_flags_write _ (bit C_EVR_IRQFLAG_EVENT))
    rwa [List.append_nil] at hclear
  · have hzero : (0 : Nat) ≠ EVR_FIFO_EVENT_LIMIT := by decide
    exact ⟨.refl _, Nat.zero_le _, iff_of_false Bool.false_ne_true hzero,
      fun h => absurd h hset⟩

theorem isr_fifofull_branch_yields (irq_flags : BitVec 32) (d : D) :
    (c.feed d).Yields [] (c.feed (isr_fifofull_branch c.toirq_card irq_flags d)) := by
  unfold isr_fifofull_branch
  split_ifs
  · have hread := (c.read_other d EVR_REG_CTRL (by decide)).2
    have hreset := c.write_reset (c.read32 d EVR_REG_CTRL).2 EVR_REG_CTRL
      ((c.read32 d EVR_REG_CTRL).1 ||| bit C_EVR_CTRL_RESET_EVENTFIFO)
      ⟨rfl, by rw [BitVec.getLsbD_or, getLsbD_bit, Bool.or_eq_true]; exact .inr (by decide)⟩
    exact (hread.yields.trans hreset.yields).trans (c.drains_flags_write _ _).yields
  · exact (Feed.Drains.refl _).yields

theorem isr_fifofull_branch_drains {irq_flags : BitVec 32}
    (hfull : irq_flags.getLsbD C_EVR_IRQFLAG_FIFOFULL = false) (d : D) :
    isr_fifofull_branch c.toirq_card irq_flags d = d := by
  rw [isr_fifofull_branch, if_neg (by rw [hfull]; exact Bool.false_ne_true)]

/-- What one interrupt makes of the FIFO: `events` are put, in the order of the FIFO, between
the data buffer and the codes that are notified. -/
structure IsrTakes (c : fifo_card D) (d : D) (r : isr_result D) (events : List evr_fifo_event) :
    Prop where
  calls : r.calls =
    (if (c.read32 d EVR_REG_IRQFLAG).1.getLsbD C_EVR_IRQFLAG_DATABUF then
      [.put_event EVRMA_EVENT_DBUF_DATA [] (by decide)] else []) ++
    events.map evr_fifo_event.put ++ isr_notify (c.read32 d EVR_REG_IRQFLAG).1
  limit : events.length ≤ EVR_FIFO_EVENT_LIMIT
  max_read : r.max_read = true ↔ events.length = EVR_FIFO_EVENT_LIMIT
  all : (c.feed d).waiting <+: events ∨ events.length = EVR_FIFO_EVENT_LIMIT
  yields : (c.feed d).Yields events (c.feed r.card)
  drains : (c.read32 d EVR_REG_IRQFLAG).1.getLsbD C_EVR_IRQFLAG_FIFOFULL = false →
    (c.feed d).Drains events (c.feed r.card)

theorem isr_takes (c : fifo_card D) (d : D) (mem : mmap_words) :
    ∃ events, IsrTakes c d (hw_support_evr_isr c.toirq_card d mem) events := by
  have hread := (c.read_other d EVR_REG_IRQFLAG (by decide)).2
  have hflag := c.read_flag d
  unfold hw_support_evr_isr
  generalize hflags : c.read32 d EVR_REG_IRQFLAG = read at hread hflag ⊢
  obtain ⟨irq_flags, d₁⟩ := read
  have hclear := isr_clear_flags_drains (c := c) irq_flags d₁
  have hdatabuf := isr_databuf_branch_drains (c := c) irq_flags
    (isr_clear_flags c.toirq_card irq_flags d₁) mem
  have hbefore := (hread.trans hclear).trans hdatabuf
  -- what waited when the flags were read still waits when the branch begins
  have hwaits : irq_flags.getLsbD C_EVR_IRQFLAG_EVENT = true →
      (c.feed (isr_databuf_branch c.toirq_card irq_flags
        (isr_clear_flags c.toirq_card irq_flags d₁) mem).2.1).waiting ≠ [] := by
    intro hset hnil
    have hbegins := hbefore.waiting_of_nil
    rw [hnil, List.prefix_nil] at hbegins
    exact hflag.mp hset hbegins
  obtain ⟨hdrains, hlimit, hmax, hall⟩ := isr_event_branch_spec hwaits
  have htaken := hbefore.trans hdrains
  refine ⟨(isr_event_branch c.toirq_card irq_flags _).1, ?_, hlimit, hmax, ?_, ?_, ?_⟩
  · simp only [hflags, isr_databuf_branch]
    split_ifs
    · rfl
    · rfl
  · by_cases hset : irq_flags.getLsbD C_EVR_IRQFLAG_EVENT = true
    · exact (hall hset).imp hbefore.prefix_append id
    · have hempty : (c.feed d).waiting = [] := by
        by_contra hne
        exact hset (hflag.mpr hne)
      rw [hempty]
      exact .inl (List.nil_prefix)
  · have hyields := htaken.yields.trans (isr_fifofull_branch_yields irq_flags _)
    rwa [List.append_nil] at hyields
  · intro hfull
    rw [hflags] at hfull
    simp only [isr_fifofull_branch_drains hfull]
    exact htaken

/-- The card and the memory of the data buffer. -/
structure irq_state (D : Type) where
  card : D
  mem : mmap_words

/-- The interrupt, and what the other paths do with the registers between two of them: they
neither read from the event FIFO nor reset it. -/
inductive irq_op where
  | isr
  | read32 (reg : Nat) (hreg : reg ≠ EVR_REG_FIFO_EVENT)
  | write32 (reg : Nat) (val : BitVec 32) (hwrite : ¬ ResetsFifo reg val)

def irq_exec (c : irq_card D) (s : irq_state D) : irq_op → irq_state D × List isr_call
  | .isr =>
    let r := hw_support_evr_isr c s.card s.mem
    (⟨r.card, r.mem⟩, r.calls)
  | .read32 reg _ => ({ s with card := (c.read32 s.card reg).2 }, [])
  | .write32 reg val _ => ({ s with card := c.write32 s.card reg val }, [])

/-- The state after the operations, and all that was handed to the MODAC core. -/
def irq_run (c : irq_card D) : irq_state D → List irq_op → irq_state D × List isr_call
  | s, [] => (s, [])
  | s, a :: ops =>
    let (s, calls) := irq_exec c s a
    let (s, later) := irq_run c s ops
    (s, calls ++ later)

/-- An event with a code of the event FIFO. -/
def isr_call.from_fifo : isr_call → Bool
  | .put_event event _ _ => event < EVR_MAPRAM_EVENT_CODES
  | .notify _ => false

@[simp]
theorem filter_puts (events : List evr_fifo_event) :
    (events.map evr_fifo_event.put).filter isr_call.from_fifo = events.map evr_fifo_event.put := by
  rw [List.filter_eq_self]
  intro call hcall
  obtain ⟨e, -, rfl⟩ := List.mem_map.mp hcall
  have hlt : e.event.toNat < 256 := e.event.isLt
  simp only [evr_fifo_event.put, isr_call.from_fifo, EVR_MAPRAM_EVENT_CODES, decide_eq_true_eq]
  omega

theorem mem_isr_notify_lost (irq_flags : BitVec 32) :
    .notify EVRMA_EVENT_ERROR_LOST ∈ isr_notify irq_flags ↔
      irq_flags.getLsbD C_EVR_IRQFLAG_FIFOFULL = true := by
  have hpulse : EVRMA_EVENT_ERROR_LOST ≠ EVRMA_EVENT_DELAYED_IRQ := by decide
  have hheart : EVRMA_EVENT_ERROR_LOST ≠ EVRMA_EVENT_ERROR_HEART := by decide
  have htaxi : EVRMA_EVENT_ERROR_LOST ≠ EVRMA_EVENT_ERROR_TAXI := by decide
  unfold isr_notify
  split_ifs <;> simp_all

theorem filter_isr_notify (irq_flags : BitVec 32) :
    (isr_notify irq_flags).filter isr_call.from_fifo = [] := by
  rw [List.filter_eq_nil_iff]
  unfold isr_notify
  split_ifs <;> simp [isr_call.from_fifo]

/-- What some calls make of the FIFO. -/
structure CallsTake (f : Feed evr_fifo_event) (calls : List isr_call) (g : Feed evr_fifo_event)
    (events : List evr_fifo_event) : Prop where
  puts : calls.filter isr_call.from_fifo = events.map evr_fifo_event.put
  yields : f.Yields events g
  drains : .notify EVRMA_EVENT_ERROR_LOST ∉ calls → f.Drains events g

theorem CallsTake.append {f g h : Feed evr_fifo_event} {calls later : List isr_call}
    {events events' : List evr_fifo_event} (hfg : CallsTake f calls g events)
    (hgh : CallsTake g later h events') : CallsTake f (calls ++ later) h (events ++ events') where
  puts := by rw [List.filter_append, hfg.puts, hgh.puts, List.map_append]
  yields := hfg.yields.trans hgh.yields
  drains hlost := by
    rw [List.mem_append, not_or] at hlost
    exact (hfg.drains hlost.1).trans (hgh.drains hlost.2)

theorem CallsTake.of_drains {f g : Feed evr_fifo_event} (h : f.Drains [] g) :
    CallsTake f [] g [] := ⟨rfl, h.yields, fun _ => h⟩

theorem irq_exec_takes (c : fifo_card D) (s : irq_state D) (a : irq_op) :
    ∃ events, CallsTake (c.feed s.card) (irq_exec c.toirq_card s a).2
      (c.feed (irq_exec c.toirq_card s a).1.card) events := by
  cases a with
  | isr =>
    obtain ⟨events, htakes⟩ := isr_takes c s.card s.mem
    refine ⟨events, ?_, htakes.yields, fun hlost => htakes.drains ?_⟩
    · simp only [irq_exec]
      rw [htakes.calls, List.filter_append, List.filter_append, filter_puts, filter_isr_notify,
        List.append_nil]
      split_ifs
      · rfl
      · rfl
    · simp only [irq_exec] at hlost
      rw [htakes.calls, List.mem_append, not_or, mem_isr_notify_lost] at hlost
      exact Bool.eq_false_iff.mpr hlost.2
  | read32 reg hreg => exact ⟨[], .of_drains (c.read_other s.card reg hreg).2⟩
  | write32 reg val hwrite => exact ⟨[], .of_drains (c.write_other s.card reg val hwrite)⟩

theorem irq_run_takes (c : fifo_card D) (s : irq_state D) (ops : List irq_op) :
    ∃ events, CallsTake (c.feed s.card) (irq_run c.toirq_card s ops).2
      (c.feed (irq_run c.toirq_card s ops).1.card) events := by
  induction ops generalizing s with
  | nil => exact ⟨[], .of_drains (.refl _)⟩
  | cons a ops ih =>
    obtain ⟨events, hexec⟩ := irq_exec_takes c s a
    obtain ⟨events', hrun⟩ := ih (irq_exec c.toirq_card s a).1
    exact ⟨events ++ events', hexec.append hrun⟩

/-- Over any run, what the card saves in its event FIFO is put in this order, each event once
and with its own time, and only what waits in the FIFO is not put yet. Some of it is left
out only when `EVRMA_EVENT_ERROR_LOST` is notified. -/
theorem fifo_no_silent_loss (c : fifo_card D) (s : irq_state D) (ops : List irq_op) :
    let t := irq_run c.toirq_card s ops
    ∃ more, (c.feed t.1.card).saved = (c.feed s.card).saved ++ more ∧
      (t.2.filter isr_call.from_fifo ++ (c.feed t.1.card).waiting.map evr_fifo_event.put).Sublist
        (((c.feed s.card).waiting ++ more).map evr_fifo_event.put) ∧
      (.notify EVRMA_EVENT_ERROR_LOST ∉ t.2 →
        t.2.filter isr_call.from_fifo ++ (c.feed t.1.card).waiting.map evr_fifo_event.put =
          ((c.feed s.card).waiting ++ more).map evr_fifo_event.put) := by
  obtain ⟨events, htakes⟩ := irq_run_takes c s ops
  obtain ⟨more, hsaved, hsub⟩ := htakes.yields
  refine ⟨more, hsaved, ?_, fun hlost => ?_⟩
  · rw [htakes.puts, ← List.map_append]
    exact hsub.map _
  · obtain ⟨more', hsaved', hwaiting⟩ := htakes.drains hlost
    rw [hsaved] at hsaved'
    rw [htakes.puts, ← List.map_append, List.append_cancel_left hsaved', hwaiting]

/-- A card that is nothing but its event FIFO. With every access the next of `to_come` comes
in. -/
structure queue_state where
  feed : Feed evr_fifo_event
  held : evr_fifo_event
  flags : BitVec 32
  to_come : List (List evr_fifo_event)

def queue_state.tick (s : queue_state) : queue_state :=
  { s with
    feed := ⟨s.feed.waiting ++ s.to_come.headD [], s.feed.saved ++ s.to_come.headD []⟩
    to_come := s.to_come.tail }

/-- The flag of the event FIFO is not kept, it stands while an event waits. -/
def queue_state.irq_flags (s : queue_state) : BitVec 32 :=
  if s.feed.waiting = [] then s.flags &&& ~~~bit C_EVR_IRQFLAG_EVENT
  else s.flags ||| bit C_EVR_IRQFLAG_EVENT

def queue_state.read32 (s : queue_state) (reg : Nat) : BitVec 32 × queue_state :=
  if reg = EVR_REG_FIFO_EVENT then
    match s.feed.waiting with
    | [] => (0, s.tick)
    | e :: rest =>
      (e.event.setWidth 32, { s with feed := ⟨rest, s.feed.saved⟩, held := e : queue_state }.tick)
  else if reg = EVR_REG_FIFO_SECONDS then (s.held.seconds, s.tick)
  else if reg = EVR_REG_FIFO_TIMESTAMP then (s.held.timestamp, s.tick)
  else if reg = EVR_REG_IRQFLAG then (s.irq_flags, s.tick)
  else (0, s.tick)

instance (reg : Nat) (val : BitVec 32) : Decidable (ResetsFifo reg val) :=
  inferInstanceAs (Decidable (_ ∧ _))

def queue_state.write32 (s : queue_state) (reg : Nat) (val : BitVec 32) : queue_state :=
  if ResetsFifo reg val then { s with feed := ⟨[], s.feed.saved⟩ : queue_state }.tick
  else if reg = EVR_REG_IRQFLAG then { s with flags := s.flags &&& ~~~val : queue_state }.tick
  else s.tick

theorem queue_state.tick_drains (s : queue_state) : s.feed.Drains [] s.tick.feed :=
  ⟨s.to_come.headD [], rfl, rfl⟩

theorem queue_state.irq_flags_event (s : queue_state) :
    s.irq_flags.getLsbD C_EVR_IRQFLAG_EVENT = true ↔ s.feed.waiting ≠ [] := by
  unfold queue_state.irq_flags
  split_ifs with hempty
  · simp [hempty]
  · have hbit : C_EVR_IRQFLAG_EVENT < 32 := by decide
    simp [hempty, hbit]

theorem queue_state.read32_other (s : queue_state) {reg : Nat} (hreg : reg ≠ EVR_REG_FIFO_EVENT) :
    (s.read32 reg).2 = s.tick := by
  unfold queue_state.read32
  rw [if_neg hreg]
  split_ifs <;> rfl

theorem low_byte_setWidth (event : BitVec 8) :
    event.setWidth 32 &&& 0xFF = event.setWidth 32 := by
  apply BitVec.eq_of_toNat_eq
  have hlt : event.toNat < 2 ^ 8 := event.isLt
  have hwide : event.toNat % 2 ^ 32 = event.toNat := Nat.mod_eq_of_lt (by omega)
  rw [BitVec.toNat_and, BitVec.toNat_setWidth, hwide]
  exact (Nat.and_two_pow_sub_one_eq_mod event.toNat 8).trans (Nat.mod_eq_of_lt hlt)

def queue_card : fifo_card queue_state where
  read32 := queue_state.read32
  write32 := queue_state.write32
  feed := queue_state.feed
  held := queue_state.held
  read_event s e rest hwaiting := by
    have hread : s.read32 EVR_REG_FIFO_EVENT =
        (e.event.setWidth 32,
          { s with feed := ⟨rest, s.feed.saved⟩, held := e : queue_state }.tick) := by
      simp only [queue_state.read32, if_true, hwaiting]
    rw [hread]
    exact ⟨low_byte_setWidth e.event, rfl, .of_cons hwaiting rfl rfl⟩
  read_seconds s := rfl
  read_timestamp s := rfl
  read_flag s := s.irq_flags_event
  read_other s reg hreg := by
    rw [s.read32_other hreg]
    exact ⟨rfl, s.tick_drains⟩
  write_reset s reg val hreset := by
    rw [queue_state.write32, if_pos hreset]
    exact ⟨s.to_come.headD [], rfl⟩
  write_other s reg val hother := by
    rw [queue_state.write32, if_neg hother]
    split_ifs
    · exact queue_state.tick_drains _
    · exact s.tick_drains

/-- An event waits, and a second one comes in while the first one is read. -/
def two_events : queue_state :=
  ⟨⟨[⟨40, 1, 2⟩], [⟨40, 1, 2⟩]⟩, ⟨0, 0, 0⟩, 0, [[], [], [⟨41, 1, 3⟩]]⟩

theorem fifo_no_silent_loss_two :
    let t := irq_run queue_card.toirq_card ⟨two_events, ⟨fun _ => 0, []⟩⟩ [.isr]
    t.2 = [.put_event 40 (u32_bytes 1 ++ u32_bytes 2) (by decide),
        .put_event 41 (u32_bytes 1 ++ u32_bytes 3) (by decide)] ∧
      t.2.filter isr_call.from_fifo ++ (queue_card.feed t.1.card).waiting.map evr_fifo_event.put =
        [⟨40, 1, 2⟩, ⟨41, 1, 3⟩].map evr_fifo_event.put := by
  have hcalls : (irq_run queue_card.toirq_card ⟨two_events, ⟨fun _ => 0, []⟩⟩ [.isr]).2 =
      [.put_event 40 (u32_bytes 1 ++ u32_bytes 2) (by decide),
        .put_event 41 (u32_bytes 1 ++ u32_bytes 3) (by decide)] := by
    decide +kernel
  obtain ⟨more, hsaved, -, hkept⟩ :=
    fifo_no_silent_loss queue_card ⟨two_events, ⟨fun _ => 0, []⟩⟩ [.isr]
  have hcame : (queue_card.feed (irq_run queue_card.toirq_card ⟨two_events, ⟨fun _ => 0, []⟩⟩
      [.isr]).1.card).saved = two_events.feed.saved ++ [⟨41, 1, 3⟩] := by decide +kernel
  obtain rfl := List.append_cancel_left (hsaved.symm.trans hcame)
  refine ⟨hcalls, hkept ?_⟩
  rw [hcalls]
  decide

end evrma.evr
