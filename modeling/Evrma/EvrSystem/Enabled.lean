import Evrma.EvrSystem.Device
import Evrma.System.HwGuard
import Evrma.System.Subscribers

namespace evrma.evr

open evrma.event_list evrma.ioctl evrma.lib evrma.mng_dev evrma.system

variable {P : Type} {mmap_p_final_size : Nat} {irq_set : Option (evr_irq_set P)}

/-- A VIRT_DEV is subscribed to the event. -/
def some_subscribed (m : mngdev_data (evr_hw_data P)) (event : Int) : Prop :=
  ∃ v ∈ m.vdev_list, ∃ i, event_index event = some i ∧ subscribed m.event_dispatch_list v.ptr i

/-- The events that are saved and the interrupts that are enabled are those that the VIRT_DEVs are
subscribed to. -/
structure EnabledAgrees (m : mngdev_data (evr_hw_data P)) : Prop where
  saved : ∀ event : Fin EVR_MAPRAM_EVENT_CODES,
    (m.hw.map_ram event).int_event.getLsbD C_EVR_MAP_SAVE_EVENT = true ↔
      some_subscribed m (event : Nat)
  saved_in_bank : ∀ event : Fin EVR_MAPRAM_EVENT_CODES,
    (m.hw.io.reg32 (selected_bank (m.hw.io.reg32 EVR_REG_CTRL) +
        event * EVR_REG_MAPRAM_SLOT_SIZE + EVR_REG_MAPRAM_INT_FUNC_OFFSET)).getLsbD
          C_EVR_MAP_SAVE_EVENT = true ↔
      some_subscribed m (event : Nat)
  event : (m.hw.io.reg32 EVR_REG_IRQEN).getLsbD C_EVR_IRQFLAG_EVENT = true ↔
    ∃ event : Fin EVR_MAPRAM_EVENT_CODES, some_subscribed m (event : Nat)
  databuf : (m.hw.io.reg32 EVR_REG_IRQEN).getLsbD C_EVR_IRQFLAG_DATABUF = true ↔
    some_subscribed m EVRMA_EVENT_DBUF_DATA
  violation : (m.hw.io.reg32 EVR_REG_IRQEN).getLsbD C_EVR_IRQFLAG_VIOLATION = true ↔
    some_subscribed m EVRMA_EVENT_ERROR_TAXI
  pulse : (m.hw.io.reg32 EVR_REG_IRQEN).getLsbD C_EVR_IRQFLAG_PULSE = true ↔
    some_subscribed m EVRMA_EVENT_DELAYED_IRQ
  heartbeat : (m.hw.io.reg32 EVR_REG_IRQEN).getLsbD C_EVR_IRQFLAG_HEARTBEAT = true ↔
    some_subscribed m EVRMA_EVENT_ERROR_HEART
  fifofull : (m.hw.io.reg32 EVR_REG_IRQEN).getLsbD C_EVR_IRQFLAG_FIFOFULL = true ↔
    some_subscribed m EVRMA_EVENT_ERROR_LOST
  master : (m.hw.io.reg32 EVR_REG_IRQEN).getLsbD C_EVR_IRQ_MASTER_ENABLE = true ↔
    ∃ event, some_subscribed m event

/-- `MNG_DEV_EVR_IOC_INIT` gets through while a VIRT_DEV is subscribed to an event code. -/
def InitWhileSubscribed (s : modac_state (evr_hw_data P)) (a : op evr_ioctl_arg) : Prop :=
  ∃ i arg m res, a = .mngdev_ioctl i MNG_DEV_EVR_IOC_INIT arg ∧ s.mngdev = some m ∧
    HwIoctlFor m MNG_DEV_EVR_IOC_INIT arg res ∧
    ∃ event : Fin EVR_MAPRAM_EVENT_CODES, some_subscribed m (event : Nat)

/-- The card has enabled exactly what these subscriptions need. -/
structure EnableExact (hw : evr_hw_data P) (subscriptions : event_list_type) : Prop where
  saved : ∀ event : Fin EVR_MAPRAM_EVENT_CODES,
    (hw.map_ram event).int_event.getLsbD C_EVR_MAP_SAVE_EVENT =
      event_list_test subscriptions (event : Nat)
  irqen : ∀ i, i ≠ C_EVR_IRQ_PCIEE →
    ((hw.io.reg32 EVR_REG_IRQEN).getLsbD i = true ↔ IrqRequired subscriptions i)

theorem EnableExact.of_kept {hw hw' : evr_hw_data P} {subscriptions : event_list_type}
    (h : EnableExact hw subscriptions) (hkept : EnableKept hw hw') :
    EnableExact hw' subscriptions := by
  constructor
  · intro event
    rw [hkept.int_event, h.saved]
  · intro i hi
    rw [hkept.irqen]
    exact h.irqen i hi

/-- A change of the subscriptions enables what they need, whatever was enabled before. -/
theorem enableExact_subscribe (irq_set : Option (evr_irq_set P)) (hw : evr_hw_data P)
    (subscriptions : event_list_type) :
    EnableExact (hw_support_evr_on_subscribe_change irq_set hw subscriptions).1 subscriptions := by
  constructor
  · intro event
    rw [subscribe_map_ram, getLsbD_save_subscribed, if_pos rfl]
  · intro i hi
    rw [subscribe_irqen, getLsbD_combined_irq_enable]
    exact ⟨fun h => h.resolve_right fun h' => hi h'.1, .inl⟩

/-- Of the initial contents no event is saved. -/
theorem initial_not_saved (event : Nat) :
    (initial_int_event event).getLsbD C_EVR_MAP_SAVE_EVENT = false := by
  unfold initial_int_event
  split <;> decide

/-- `MNG_DEV_EVR_IOC_INIT` keeps the interrupts, and saves no event. -/
theorem EnableExact.init {hw : evr_hw_data P} {subscriptions : event_list_type}
    (h : EnableExact hw subscriptions)
    (hnone : ∀ event : Fin EVR_MAPRAM_EVENT_CODES,
      event_list_test subscriptions (event : Nat) = false) :
    EnableExact (evr_init hw).1 subscriptions := by
  constructor
  · intro event
    rw [init_int_event, initial_not_saved, hnone]
  · intro i hi
    rw [init_irqen]
    exact h.irqen i hi

/-- The hardware is told of the events that a VIRT_DEV is subscribed to. -/
theorem test_all_subscriptions {s : modac_state (evr_hw_data P)}
    (hsubs : SubscribersInv (usage_of s)) {m : mngdev_data (evr_hw_data P)} (hm : s.mngdev = some m)
    (event : Int) :
    event_list_test (all_subscriptions m.event_dispatch_list) event = true ↔
      some_subscribed m event := by
  have hlive : ∀ ptr i, subscribed m.event_dispatch_list ptr i → ∃ v ∈ m.vdev_list, v.ptr = ptr := by
    intro ptr i hsub
    obtain ⟨r, hr, rfl⟩ := hsubs.live _ (usage_of_device hm) ptr i hsub
    obtain ⟨v, hv, rfl⟩ := List.mem_map.mp hr
    exact ⟨v, hv, rfl⟩
  unfold event_list_test some_subscribed
  cases hindex : event_index event with
  | none => simp
  | some i =>
    refine ((hsubs.tableExact hm).all_events i).trans ?_
    constructor
    · rintro ⟨ptr, hsub⟩
      obtain ⟨v, hv, rfl⟩ := hlive ptr i hsub
      exact ⟨v, hv, i, rfl, hsub⟩
    · rintro ⟨v, hv, i', hi', hsub⟩
      obtain rfl := Option.some.inj hi'
      exact ⟨v.ptr, hsub⟩

/-- What is enabled follows the subscriptions in every step, unless `MNG_DEV_EVR_IOC_INIT` gets
through while some are there. -/
theorem EnableExact.step {s : modac_state (evr_hw_data P)} (hsubs : SubscribersInv (usage_of s))
    {m m' : mngdev_data (evr_hw_data P)} (hm : s.mngdev = some m) (hvalid : m.ref.ref_ptr = true)
    (h : EnableExact m.hw (all_subscriptions m.event_dispatch_list)) {a : op evr_ioctl_arg}
    (heffect : device_effect (hw_support_evr mmap_p_final_size irq_set) s m a m')
    (hinit : ¬ InitWhileSubscribed s a) :
    EnableExact m'.hw (all_subscriptions m'.event_dispatch_list) := by
  have hsame : ∀ {d : mngdev_usage}, SameUse d (mngdev_usage_of m') →
      d.event_dispatch_list = m.event_dispatch_list →
      m'.event_dispatch_list = m.event_dispatch_list := fun huse hlist =>
    huse.event_dispatch_list.trans hlist
  have hinit_res : ∀ count v hw,
      EnableKept hw (init_res_hw (hw_support_evr mmap_p_final_size irq_set) count v hw) :=
    fun count v hw => init_res_hw_of_calls .refl (fun _ _ _ h h' => h.trans h')
      (fun hw t index _ => init_res_enableKept hw t index) count hw
  cases heffect with
  | quiet a m' hhw huse =>
    rw [hhw, hsame huse rfl]
    exact h
  | dbg a m' hhw huse =>
    obtain ⟨io, heq, hregs⟩ := dbg_calls_eq hhw
    rw [heq, hsame huse rfl]
    exact h.of_kept ⟨fun _ => rfl, congrFun hregs.reg32 _⟩
  | create => exact h
  | alloc => exact h
  | destroy v i cmd arg args m' hfor hhw huse =>
    rw [hhw]
    exact enableExact_subscribe irq_set m.hw _
  | mngdev_hw i cmd arg ioctl res hioctl htype haccess hnr hres =>
    obtain rfl := Option.some.inj hioctl
    by_cases hcmd : cmd = MNG_DEV_EVR_IOC_INIT
    · subst hcmd
      dsimp only
      rw [ioctl_init, no_out_card]
      apply h.init
      intro event
      rw [Bool.eq_false_iff]
      intro htest
      exact hinit ⟨i, arg, m, res, rfl, hm, ⟨hvalid, htype, haccess, hnr, hres⟩, event,
        (test_all_subscriptions hsubs hm _).mp htest⟩
    · exact h.of_kept ((evr_ioctl_effect_of m.hw res cmd arg.hw).enableKept hcmd)
  | vdev_open v i kmalloc m' hhw huse =>
    rw [hhw, hsame huse rfl]
    exact h
  | close v i m' hv hfile hlast hhw huse =>
    have hlast' : ¬ (vdev_usage_of v).usage_counter - 1 < 1 := hlast
    rw [hhw, hsame huse (if_neg hlast')]
    exact h
  | last_close v i m' hv hfile hlast hhw huse =>
    rw [hhw]
    exact enableExact_subscribe irq_set _ _
  | vdev_hw v i cmd arg ioctl header res hv hfile hioctl htype hheader hres =>
    obtain rfl := Option.some.inj hioctl
    have hcmd : cmd ≠ MNG_DEV_EVR_IOC_INIT := by
      rintro rfl
      exact absurd htype (by decide)
    exact h.of_kept ((evr_ioctl_effect_of m.hw (res, arg.stack.2) cmd arg.hw).enableKept hcmd)
  | direct v i cmd arg direct_ioctl hioctl =>
    obtain rfl := Option.some.inj hioctl
    exact h.of_kept (direct_ioctl_enableKept m.hw cmd arg.hw.copy_to_user)
  | subscribe v i cmd arg event action m' hhw huse =>
    rw [hhw]
    exact enableExact_subscribe irq_set m.hw _
  | hw_reset v hv => exact h.of_kept (hinit_res _ v m.hw)

/-- Each interrupt is required by its own subscriptions. -/
theorem irqRequired_flags (subscriptions : event_list_type) :
    (IrqRequired subscriptions C_EVR_IRQFLAG_EVENT ↔
      ∃ event : Fin EVR_MAPRAM_EVENT_CODES, event_list_test subscriptions (event : Nat) = true) ∧
    (IrqRequired subscriptions C_EVR_IRQFLAG_DATABUF ↔
      event_list_test subscriptions EVRMA_EVENT_DBUF_DATA = true) ∧
    (IrqRequired subscriptions C_EVR_IRQFLAG_VIOLATION ↔
      event_list_test subscriptions EVRMA_EVENT_ERROR_TAXI = true) ∧
    (IrqRequired subscriptions C_EVR_IRQFLAG_PULSE ↔
      event_list_test subscriptions EVRMA_EVENT_DELAYED_IRQ = true) ∧
    (IrqRequired subscriptions C_EVR_IRQFLAG_HEARTBEAT ↔
      event_list_test subscriptions EVRMA_EVENT_ERROR_HEART = true) ∧
    (IrqRequired subscriptions C_EVR_IRQFLAG_FIFOFULL ↔
      event_list_test subscriptions EVRMA_EVENT_ERROR_LOST = true) ∧
    (IrqRequired subscriptions C_EVR_IRQ_MASTER_ENABLE ↔ ∃ i, subscriptions i = true) := by
  simp [IrqRequired, C_EVR_IRQFLAG_EVENT, C_EVR_IRQFLAG_DATABUF, C_EVR_IRQFLAG_VIOLATION,
    C_EVR_IRQFLAG_PULSE, C_EVR_IRQFLAG_HEARTBEAT, C_EVR_IRQFLAG_FIFOFULL, C_EVR_IRQ_MASTER_ENABLE]

/-- A card with its map RAM in force that has enabled what the subscriptions need. -/
theorem enabledAgrees_of_exact {s : modac_state (evr_hw_data P)}
    (hsubs : SubscribersInv (usage_of s)) {m : mngdev_data (evr_hw_data P)} (hm : s.mngdev = some m)
    (hforce : MapRamInForce m.hw)
    (h : EnableExact m.hw (all_subscriptions m.event_dispatch_list)) : EnabledAgrees m := by
  have htest := test_all_subscriptions hsubs hm
  have hsaved : ∀ event : Fin EVR_MAPRAM_EVENT_CODES,
      (m.hw.map_ram event).int_event.getLsbD C_EVR_MAP_SAVE_EVENT = true ↔
        some_subscribed m (event : Nat) := by
    intro event
    rw [h.saved]
    exact htest event
  obtain ⟨hevent, hdatabuf, hviolation, hpulse, hheartbeat, hfifofull, hmaster⟩ :=
    irqRequired_flags (all_subscriptions m.event_dispatch_list)
  refine ⟨hsaved, ?_, ?_, ?_, ?_, ?_, ?_, ?_, ?_⟩
  · intro event
    rw [bank_holds_int_event hforce.2]
    exact hsaved event
  · rw [h.irqen _ (by decide), hevent]
    exact exists_congr fun event => htest (event : Nat)
  · rw [h.irqen _ (by decide), hdatabuf, htest]
  · rw [h.irqen _ (by decide), hviolation, htest]
  · rw [h.irqen _ (by decide), hpulse, htest]
  · rw [h.irqen _ (by decide), hheartbeat, htest]
  · rw [h.irqen _ (by decide), hfifofull, htest]
  · rw [h.irqen _ (by decide), hmaster]
    constructor
    · rintro ⟨i, hi⟩
      exact ⟨(i : Nat), (htest _).mp (event_list_test_eq_true.mpr ⟨i, rfl, hi⟩)⟩
    · rintro ⟨event, hsome⟩
      obtain ⟨i, -, hi⟩ := event_list_test_eq_true.mp ((htest event).mpr hsome)
      exact ⟨i, hi⟩

/-- What holds in every run until a `MNG_DEV_EVR_IOC_INIT` gets through at a bad time. -/
structure EnableInv (s : modac_state (evr_hw_data P)) : Prop where
  subs : SubscribersInv (usage_of s)
  inForce : ∀ m, s.mngdev = some m → m.ref.ref_ptr = true → MapRamInForce m.hw
  exact : ∀ m, s.mngdev = some m → m.ref.ref_ptr = true →
    EnableExact m.hw (all_subscriptions m.event_dispatch_list)

theorem EnableInv.agrees {s : modac_state (evr_hw_data P)} (h : EnableInv s)
    {m : mngdev_data (evr_hw_data P)} (hm : s.mngdev = some m) (hvalid : m.ref.ref_ptr = true) :
    EnabledAgrees m :=
  enabledAgrees_of_exact h.subs hm (h.inForce m hm hvalid) (h.exact m hm hvalid)

theorem EnableInv.step (hirq : ∀ f ∈ irq_set, IrqSetOk f) {s t : modac_state (evr_hw_data P)}
    (h : EnableInv s) {a : op evr_ioctl_arg} (hinit : ¬ InitWhileSubscribed s a)
    (hstep : step (hw_support_evr mmap_p_final_size irq_set) s a = some t) : EnableInv t := by
  refine ⟨h.subs.step (usage_effect_of_step h.subs.ptrs hstep), ?_, ?_⟩
  · intro m' hm' hvalid'
    obtain ⟨m, hm, hvalid, heffect⟩ := device_effect_of_step h.subs.ptrs hstep hm' hvalid'
    exact (cardKept_of_effect hirq heffect).inForce (h.inForce m hm hvalid)
  · intro m' hm' hvalid'
    obtain ⟨m, hm, hvalid, heffect⟩ := device_effect_of_step h.subs.ptrs hstep hm' hvalid'
    exact (h.exact m hm hvalid).step h.subs hm hvalid heffect hinit

/-- After a `MNG_DEV_EVR_IOC_INIT` no event is saved, and the VIRT_DEVs don't know. -/
theorem InitWhileSubscribed.not_agrees {s t : modac_state (evr_hw_data P)} {a : op evr_ioctl_arg}
    (h : InitWhileSubscribed s a)
    (hstep : step (hw_support_evr mmap_p_final_size irq_set) s a = some t) :
    ∃ m, t.mngdev = some m ∧ m.ref.ref_ptr = true ∧ ¬ EnabledAgrees m := by
  obtain ⟨i, arg, m, res, rfl, hm, hfor, event, hsome⟩ := h
  obtain ⟨m₀, hm₀, -, rfl⟩ := step_mngdev_ioctl hstep
  obtain rfl := Option.some.inj (hm.symm.trans hm₀)
  refine ⟨_, rfl, ?_⟩
  rw [hfor.ioctl_eq (by rfl), ioctl_init]
  refine ⟨hfor.valid, fun hagrees => ?_⟩
  have hsaved := (hagrees.saved event).mpr hsome
  rw [hw_result] at hsaved
  dsimp only at hsaved
  rw [no_out_card, init_int_event, initial_not_saved] at hsaved
  cases hsaved

theorem enableInv_of_create (hirq : ∀ f ∈ irq_set, IrqSetOk f) {des : modac_mngdev_des}
    {hw : evr_hw_data P} {s : modac_state (evr_hw_data P)}
    (hcreate : evr_mngdev_create mmap_p_final_size irq_set des hw = .ok s) : EnableInv s := by
  have hsubs := subscribersInv_of_create hcreate
  have hempty : all_subscriptions event_dispatch_list_init = event_list_clear := by
    funext i
    rw [Bool.eq_iff_iff, all_subscriptions, rowsFilled_init.all_subscriptions]
    exact iff_of_false (fun ⟨ptr, hsub⟩ => not_subscribed_init ptr i hsub) Bool.false_ne_true
  unfold evr_mngdev_create modac_mngdev_create at hcreate
  cases hinit : rm.modac_rm_init (hw_res_defs hw.evr_type_data) true with
  | error err =>
    rw [hinit] at hcreate
    cases hcreate
  | ok rm_data =>
    rw [hinit, Except.ok.injEq] at hcreate
    subst hcreate
    refine ⟨hsubs, ?_, ?_⟩
    · intro m hm _
      obtain rfl := Option.some.inj hm
      exact (subscribe_cardKept hirq _ _).inForce (flush_inForce _)
    · intro m hm _
      obtain rfl := Option.some.inj hm
      have hlist : all_subscriptions (init_dev des
          ((hw_support_evr mmap_p_final_size irq_set).on_subscribe_change (evr_ram_map_init hw)
            event_list_clear).1 rm_data).event_dispatch_list = event_list_clear := hempty
      rw [hlist]
      exact enableExact_subscribe irq_set _ _

/-- In every state of a run of the MNG_DEV, as long as it is not unplugged, the saved events and
the enabled interrupts are those that VIRT_DEVs are subscribed to, exactly when no
`MNG_DEV_EVR_IOC_INIT` gets through while a VIRT_DEV is subscribed to an event code. -/
theorem enabled_agrees_iff (hirq : ∀ f ∈ irq_set, IrqSetOk f) {des : modac_mngdev_des}
    {hw : evr_hw_data P} {s : modac_state (evr_hw_data P)}
    (hcreate : evr_mngdev_create mmap_p_final_size irq_set des hw = .ok s)
    (ops : List (op evr_ioctl_arg)) :
    StatesMeet (step (hw_support_evr mmap_p_final_size irq_set))
        (fun s => ∀ m, s.mngdev = some m → m.ref.ref_ptr = true → EnabledAgrees m) s ops ↔
      StepsMeet (step (hw_support_evr mmap_p_final_size irq_set))
        (fun s a => ¬ InitWhileSubscribed s a) s ops := by
  apply statesMeet_iff_stepsMeet (I := EnableInv)
  · intro s h m hm hvalid
    exact h.agrees hm hvalid
  · intro s a t h hinit hstep
    exact h.step hirq hinit hstep
  · intro s a t h hinit hstep hagrees
    obtain ⟨m, hm, hvalid, hnot⟩ := (not_not.mp hinit).not_agrees hstep
    exact hnot (hagrees m hm hvalid)
  · exact enableInv_of_create hirq hcreate

/-- There is no `MNG_DEV_EVR_IOC_INIT` after the first VIRT_DEV is created. -/
def init_first (s : modac_state (evr_hw_data P)) : op evr_ioctl_arg → Bool
  | .mngdev_ioctl _ cmd _ =>
    decide (cmd ≠ MNG_DEV_EVR_IOC_INIT) || s.mngdev.all fun m => m.vdev_list.isEmpty
  | _ => true

theorem not_initWhileSubscribed_of_check {s : modac_state (evr_hw_data P)} {a : op evr_ioctl_arg}
    (hcheck : init_first s a = true) : ¬ InitWhileSubscribed s a := by
  rintro ⟨i, arg, m, res, rfl, hm, -, event, v, hv, -⟩
  simp only [init_first, ne_eq, not_true_eq_false, decide_false, Bool.false_or, hm, Option.all_some,
    List.isEmpty_iff] at hcheck
  rw [hcheck] at hv
  cases hv

/-- The card is initialized, and then a VIRT_DEV subscribes to the event 40. -/
theorem enabled_agrees_subscribed :
    ∃ s, evr_mngdev_create PAGE_SIZE (some lattice_irq_set) first_mngdev lattice_card = .ok s ∧
      StatesMeet (step (hw_support_evr PAGE_SIZE (some lattice_irq_set)))
        (fun s => ∀ m, s.mngdev = some m → m.ref.ref_ptr = true → EnabledAgrees m) s
        (open_first ++ [evr_init_ioctl, evr_create_vdev [0x61], .vdev_open vdev_inode true,
          subscribe_to 40]) := by
  have hirq : ∀ f ∈ some lattice_irq_set, IrqSetOk f := by
    rintro f hf
    obtain rfl := Option.some.inj hf
    exact lattice_irq_set_ok
  have hcreate : evr_mngdev_create PAGE_SIZE (some lattice_irq_set) first_mngdev lattice_card =
    .ok _ := rfl
  refine ⟨_, hcreate, (enabled_agrees_iff hirq hcreate _).mpr ?_⟩
  apply stepsMeet_of_check (fun s a hcheck => ?_)
    (by decide +kernel : steps_check _ init_first _ _ = true)
  rintro ⟨i, arg, m, res, rfl, hm, -, event, v, hv, -⟩
  simp only [init_first, ne_eq, not_true_eq_false, decide_false, Bool.false_or, hm, Option.all_some,
    List.isEmpty_iff] at hcheck
  rw [hcheck] at hv
  cases hv

/-- A VIRT_DEV is subscribed to the event 40, which is not saved. -/
def not_saved_40 (s : modac_state (evr_hw_data P)) : Bool :=
  s.mngdev.any fun m =>
    m.ref.ref_ptr && !(m.hw.map_ram 40).int_event.getLsbD C_EVR_MAP_SAVE_EVENT &&
      m.vdev_list.any fun v => decide (subscribed m.event_dispatch_list v.ptr 40)

/-- A VIRT_DEV subscribes to the event 40, and then the card is initialized. -/
theorem init_stops_subscribed :
    ∃ s, evr_mngdev_create PAGE_SIZE none first_mngdev slac_card = .ok s ∧
      ¬ StatesMeet (step (hw_support_evr PAGE_SIZE none))
        (fun s => ∀ m, s.mngdev = some m → m.ref.ref_ptr = true → EnabledAgrees m) s
        (open_vdev ++ [subscribe_to 40, evr_init_ioctl]) := by
  refine ⟨_, rfl, not_statesMeet_of_last (fun u hbad => ?_)
    (by decide +kernel : (run _ _ _).any not_saved_40 = true)⟩
  simp only [not_saved_40, Option.any_eq_true, Bool.and_eq_true, Bool.not_eq_true', List.any_eq_true,
    decide_eq_true_eq] at hbad
  obtain ⟨m, hm, ⟨hvalid, hbit⟩, v, hv, hsub⟩ := hbad
  intro hall
  have hindex : event_index ((40 : Fin EVR_MAPRAM_EVENT_CODES) : Nat) = some 40 := by decide
  have hsaved := ((hall m hm hvalid).saved 40).mpr ⟨v, hv, 40, hindex, hsub⟩
  rw [hbit] at hsaved
  cases hsaved

end evrma.evr
