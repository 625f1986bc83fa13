import Evrma.Evr.Outset
import Evrma.EvrSystem.Isolation

namespace evrma.evr

open evrma.event_list evrma.ioctl evrma.lib evrma.mng_dev evrma.rm evrma.system evrma.virt_dev

variable {P : Type} {mmap_p_final_size : Nat} {irq_set : Option (evr_irq_set P)}

/-- No output is touched. -/
structure OutputsKept (hw hw' : evr_hw_data P) : Prop where
  flavour : hw'.evr_type_data = hw.evr_type_data
  reg16 : hw'.io.reg16 = hw.io.reg16

section

variable {hw hw' hw'' : evr_hw_data P}

theorem OutputsKept.refl (hw : evr_hw_data P) : OutputsKept hw hw := ⟨rfl, rfl⟩

theorem OutputsKept.trans (h : OutputsKept hw hw') (h' : OutputsKept hw' hw'') :
    OutputsKept hw hw'' :=
  ⟨h'.flavour.trans h.flavour, h'.reg16.trans h.reg16⟩

theorem OutputsKept.output_source (h : OutputsKept hw hw') (output : Int) :
    output_source hw' output = output_source hw output := by
  simp only [evr.output_source, h.flavour, h.reg16]

variable (hw)

theorem subscribe_outputsKept (hirq : ∀ f ∈ irq_set, IrqSetOk f)
    (subscriptions : event_list_type) :
    OutputsKept hw (hw_support_evr_on_subscribe_change irq_set hw subscriptions).1 := by
  refine ⟨subscribe_type irq_set hw subscriptions, ?_⟩
  have hinformed : (informed irq_set hw subscriptions).io.reg16 = hw.io.reg16 := by
    unfold informed call_irq_set
    cases irq_set with
    | none => rfl
    | some f => exact (hirq f rfl).reg16 _ _ _
  have hflush : (subscribed_flush irq_set hw subscriptions).io.reg16 = hw.io.reg16 := by
    rw [subscribed_flush, flush_reg16]
    exact hinformed
  rw [subscribe_io, ← hflush]
  unfold set_irq_enable set_data_buf
  split_ifs <;> rfl

theorem init_res_outputsKept (res_type res_index : Int) :
    OutputsKept hw (hw_support_evr_init_res hw res_type res_index).1 := by
  unfold hw_support_evr_init_res
  split_ifs
  · exact ⟨rfl, flush_reg16 _⟩
  · exact .refl hw
  · exact .refl hw

theorem direct_ioctl_outputsKept (cmd : ioctl_cmd) (copy_to_user : Bool) :
    OutputsKept hw (hw_support_evr_direct_ioctl hw cmd copy_to_user).1 := by
  have hput : ∀ (hw : evr_hw_data P) (val : BitVec 32), (put_u32 hw val copy_to_user).1 = hw := by
    intro hw val
    unfold put_u32
    split_ifs <;> rfl
  have haxixadc : ∀ reg, OutputsKept hw (axixadc_get hw reg).1 := by
    intro reg
    unfold axixadc_get
    split_ifs
    · exact ⟨rfl, rfl⟩
    · exact .refl hw
  unfold hw_support_evr_direct_ioctl
  split_ifs
  · dsimp only
    rw [hput]
    exact ⟨rfl, rfl⟩
  · dsimp only
    rw [hput]
    exact haxixadc _
  · dsimp only
    rw [hput]
    exact haxixadc _
  · exact .refl hw

end

/-- The operation neither sets the output nor initializes the card. -/
def LeavesOutput (output : Nat) (s : modac_state (evr_hw_data P)) (a : irq_system_op) : Prop :=
  ∀ m i cmd arg res, a = .op (.mngdev_ioctl i cmd arg) → s.mngdev = some m →
    HwIoctlFor m cmd arg res →
    cmd ≠ MNG_DEV_EVR_IOC_INIT ∧
      (cmd = MNG_DEV_EVR_IOC_OUTSET → res.1 ≠ ⟨EVR_RES_TYPE_OUTPUT, output⟩)

section

variable {s t : modac_state (evr_hw_data P)} {m m' : mngdev_data (evr_hw_data P)} {output : Nat}

theorem output_kept_of_effect (hirq : ∀ f ∈ irq_set, IrqSetOk f)
    (houtput : output < m.hw.evr_type_data.out_res_count) {a : op evr_ioctl_arg}
    (hm : s.mngdev = some m) (hvalid : m.ref.ref_ptr = true) (hleaves : LeavesOutput output s (.op a))
    (heffect : device_effect (hw_support_evr mmap_p_final_size irq_set) s m a m') :
    output_source m'.hw output = output_source m.hw output := by
  have hsubscribe : ∀ hw subscriptions,
      OutputsKept hw (hw_support_evr_on_subscribe_change irq_set hw subscriptions).1 :=
    fun hw subscriptions => subscribe_outputsKept hw hirq subscriptions
  have hinit_res : ∀ v, OutputsKept m.hw (init_res_hw (hw_support_evr mmap_p_final_size irq_set)
      m.rm_data.hw_res_def_count v m.hw) := fun v =>
    init_res_hw_of_calls .refl (fun _ _ _ h h' => h.trans h')
      (fun hw t index _ => init_res_outputsKept hw t index) _ m.hw
  have hvdev : ∀ (cmd : ioctl_cmd) (resources : hw_resources) (arg : evr_ioctl_arg),
      cmd.type = VIRT_DEV_IOC_MAGIC →
      output_source (hw_support_evr_ioctl m.hw resources cmd arg).1 output =
        output_source m.hw output := by
    intro cmd resources arg htype
    refine (evr_ioctl_effect_of m.hw resources cmd arg).output_kept ?_ houtput ?_
    · rintro rfl
      exact absurd htype (by decide)
    · rintro rfl
      exact absurd htype (by decide)
  cases heffect with
  | quiet a m' hhw huse => rw [hhw]
  | dbg a m' hhw huse =>
    obtain ⟨io, heq, hregs⟩ := dbg_calls_eq hhw
    have hkept : OutputsKept m.hw { m.hw with io } := ⟨rfl, hregs.reg16⟩
    rw [heq]
    exact hkept.output_source output
  | create => rfl
  | alloc => rfl
  | destroy v i cmd arg args m' hfor hhw huse =>
    rw [hhw]
    exact (hsubscribe _ _).output_source output
  | mngdev_hw i cmd arg ioctl res hioctl htype haccess hnr hres =>
    obtain rfl := Option.some.inj hioctl
    obtain ⟨hinit, hne⟩ := hleaves m i cmd arg res rfl hm ⟨hvalid, htype, haccess, hnr, hres⟩
    exact (evr_ioctl_effect_of m.hw res cmd arg.hw).output_kept hinit houtput hne
  | vdev_open v i kmalloc m' hhw huse => rw [hhw]
  | close v i m' hv hfile hlast hhw huse => rw [hhw]
  | last_close v i m' hv hfile hlast hhw huse =>
    rw [hhw]
    split_ifs
    · exact ((hinit_res v).trans (hsubscribe _ _)).output_source output
    · exact (hsubscribe _ _).output_source output
  | vdev_hw v i cmd arg ioctl header res hv hfile hioctl htype hheader hres =>
    obtain rfl := Option.some.inj hioctl
    exact hvdev cmd _ arg.hw htype
  | direct v i cmd arg direct_ioctl hioctl =>
    obtain rfl := Option.some.inj hioctl
    exact (direct_ioctl_outputsKept m.hw cmd _).output_source output
  | subscribe v i cmd arg event action m' hhw huse =>
    rw [hhw]
    exact (hsubscribe _ _).output_source output
  | hw_reset v hv => exact (hinit_res v).output_source output

theorem output_kept_of_step (hirq : ∀ f ∈ irq_set, IrqSetOk f) {type : evr_type_data}
    (h : CardInv type s) (houtput : output < type.out_res_count) {a : irq_system_op}
    (hleaves : LeavesOutput output s a)
    (hstep : irq_step mmap_p_final_size irq_set s a = some t) (hm' : t.mngdev = some m')
    (hvalid' : m'.ref.ref_ptr = true) :
    ∃ m, s.mngdev = some m ∧ m.ref.ref_ptr = true ∧
      output_source m'.hw output = output_source m.hw output := by
  cases a with
  | op a =>
    obtain ⟨m, hm, hvalid, heffect⟩ := device_effect_of_step h.owners.ptrs hstep hm' hvalid'
    rw [← h.flavour m hm hvalid] at houtput
    exact ⟨m, hm, hvalid, output_kept_of_effect hirq houtput hm hvalid hleaves heffect⟩
  | isr mem answers =>
    obtain ⟨m, hm, hvalid⟩ := h.valid_of_step hstep hm' hvalid'
    obtain ⟨u, io, hu, rfl, -, hhw, hkept⟩ := irq_step_isr hstep
    obtain rfl := Option.some.inj (hm.symm.trans hu)
    obtain rfl := Option.some.inj hm'
    have houtputs : OutputsKept m.hw { m.hw with io } := ⟨rfl, hkept.reg16⟩
    refine ⟨m, hm, hvalid, ?_⟩
    rw [hhw]
    exact houtputs.output_source output

theorem output_kept_of_run (hirq : ∀ f ∈ irq_set, IrqSetOk f) {type : evr_type_data}
    (h : CardInv type s) (houtput : output < type.out_res_count) {ops : List irq_system_op}
    (hmeet : StepsMeet (irq_step mmap_p_final_size irq_set) (LeavesOutput output) s ops)
    (hrun : run (irq_step mmap_p_final_size irq_set) s ops = some t) (hm : s.mngdev = some m)
    (hm' : t.mngdev = some m') (hvalid' : m'.ref.ref_ptr = true) :
    output_source m'.hw output = output_source m.hw output := by
  obtain ⟨-, hend⟩ := run_invariant_of_stepsMeet
    (I := fun u => CardInv type u ∧ ∀ m', u.mngdev = some m' → m'.ref.ref_ptr = true →
      output_source m'.hw output = output_source m.hw output)
    (fun u a u' ⟨hcard, hkept⟩ hleaves hstep => by
      refine ⟨hcard.irq_step hirq hstep, fun m₂ hm₂ hvalid₂ => ?_⟩
      obtain ⟨m₁, hm₁, hvalid₁, hsame⟩ :=
        output_kept_of_step hirq hcard houtput hleaves hstep hm₂ hvalid₂
      exact hsame.trans (hkept m₁ hm₁ hvalid₁))
    hmeet hrun ⟨h, fun u hu _ => by rw [Option.some.inj (hm.symm.trans hu)]⟩
  exact hend m' hm' hvalid'

end

/-- The source that a request to the MNG_DEV asks for. -/
def requested_source (cmd : ioctl_cmd) (res : hw_resources) (arg : evr_ioctl_arg) :
    Option (BitVec 16) :=
  if cmd = MNG_DEV_EVR_IOC_INIT then some OUTPUT_REG_MAPPING_FORCE_LOW
  else if res.2.type = EVR_RES_TYPE_PULSEGEN then some (BitVec.ofInt 16 res.2.index)
  else arg.output_set.map fun set_args => BitVec.ofInt 16 set_args.misc_func

/-- A request that succeeds gives the output the source that it asks for. -/
theorem output_source_set {hw : evr_hw_data P} {cmd : ioctl_cmd} {res : hw_resources}
    {arg : evr_ioctl_arg} {output : Nat} (houtput : output < hw.evr_type_data.out_res_count)
    (hsets : cmd = MNG_DEV_EVR_IOC_INIT ∨
      cmd = MNG_DEV_EVR_IOC_OUTSET ∧ res.1 = ⟨EVR_RES_TYPE_OUTPUT, output⟩)
    (hret : (hw_support_evr_ioctl hw res cmd arg).2.1 = 0) :
    output_source (hw_support_evr_ioctl hw res cmd arg).1 output =
      requested_source cmd res arg := by
  obtain rfl | ⟨rfl, houtput_res⟩ := hsets
  · rw [ioctl_init, no_out_card, init_output_source hw houtput, requested_source, if_pos rfl]
  · have his : is_output hw output := ⟨Int.natCast_nonneg _, Int.ofNat_lt.mpr houtput⟩
    have hindex : res.1.index = output := by rw [houtput_res]
    have hne : MNG_DEV_EVR_IOC_OUTSET ≠ MNG_DEV_EVR_IOC_INIT := by decide
    rw [ioctl_outset] at hret ⊢
    rw [requested_source, if_neg hne]
    obtain ⟨err, herr, -, heq⟩ | ⟨htype, -, heq⟩ | ⟨set_args, -, hnone, hargs, -, heq⟩ :=
      evr_outset_cases hw res arg
    · rw [heq] at hret
      exact absurd hret herr
    · rw [no_out_card, heq, hindex, if_pos htype]
      have hsum : 0 + res.2.index = res.2.index := Int.zero_add _
      rw [(evr_set_out_map_of_output hw output _ his).2.1, hsum]
    · have hpulsegen : res.2.type ≠ EVR_RES_TYPE_PULSEGEN := by
        rw [hnone]
        decide
      rw [no_out_card, heq, hindex, if_neg hpulsegen, hargs,
        (evr_set_out_map_of_output hw output _ his).2.1]
      rfl

/-- An output keeps the source that was last asked for it, by an OUTSET or by an INIT, whatever
else happens to the card and to the VIRT_DEVs, even to the one whose pulse generator it is. -/
theorem output_source_last_set (hirq : ∀ f ∈ irq_set, IrqSetOk f) {hw : evr_hw_data P}
    {s s₁ t : modac_state (evr_hw_data P)} (hs : Reached mmap_p_final_size irq_set hw s)
    {m m' : mngdev_data (evr_hw_data P)} (hm : s.mngdev = some m) {output : Nat}
    (houtput : output < hw.evr_type_data.out_res_count) {cmd : ioctl_cmd}
    {arg : mngdev_ioctl_arg evr_ioctl_arg} {res : hw_resources} (hfor : HwIoctlFor m cmd arg res)
    (hsets : cmd = MNG_DEV_EVR_IOC_INIT ∨
      cmd = MNG_DEV_EVR_IOC_OUTSET ∧ res.1 = ⟨EVR_RES_TYPE_OUTPUT, output⟩)
    {i : inode} {out : user_out evr_ioctl_out}
    (hset : exec (hw_support_evr mmap_p_final_size irq_set) s (.mngdev_ioctl i cmd arg) =
      some (s₁, 0, out))
    {ops : List irq_system_op}
    (hmeet : StepsMeet (irq_step mmap_p_final_size irq_set) (LeavesOutput output) s₁ ops)
    (hrun : run (irq_step mmap_p_final_size irq_set) s₁ ops = some t) (hm' : t.mngdev = some m')
    (hvalid : m'.ref.ref_ptr = true) :
    output_source m'.hw output = requested_source cmd res arg.hw := by
  have hcard := hs.cardInv hirq
  have hstep : irq_step mmap_p_final_size irq_set s (.op (.mngdev_ioctl i cmd arg)) = some s₁ := by
    simp only [irq_step, step]
    rw [hset]
    rfl
  obtain ⟨u, hu, -, hr⟩ := on_mngdev_file_eq_some hset
  obtain rfl := Option.some.inj (hm.symm.trans hu)
  rw [mngdev_ioctl, hfor.ioctl_eq rfl] at hr
  obtain ⟨rfl, hreply⟩ := Prod.mk.inj hr
  have hret := (congrArg Prod.fst hreply).symm
  rw [output_kept_of_run hirq (hcard.irq_step hirq hstep) houtput hmeet hrun rfl hm' hvalid]
  rw [← hcard.flavour m hm hfor.valid] at houtput
  exact output_source_set houtput hsets hret

/-- The first output of the first VIRT_DEV is to be connected to its first pulse generator. -/
def connect_first : mngdev_ioctl_arg evr_ioctl_arg :=
  { mngdev_request with
    header := some ⟨1, ⟨EVR_RES_TYPE_OUTPUT, 0⟩, ⟨EVR_RES_TYPE_PULSEGEN, 0⟩⟩
    hw := { no_request with
      output_set := some ⟨⟨1, ⟨EVR_RES_TYPE_OUTPUT, 0⟩, ⟨EVR_RES_TYPE_PULSEGEN, 0⟩⟩, 0⟩ } }

/-- The output stays connected to the pulse generator of a VIRT_DEV that is destroyed. -/
theorem output_source_last_set_destroyed :
    ∃ s₀ s s₁ out t m', evr_mngdev_create PAGE_SIZE none first_mngdev slac_card = .ok s₀ ∧
      run (irq_step PAGE_SIZE none) s₀ ((open_first ++ [evr_create_vdev [0x61],
        evr_alloc_res 1 OUTPUT_NAME 2, evr_alloc_res 1 PULSEGEN_NAME 3]).map .op) = some s ∧
      exec (hw_support_evr PAGE_SIZE none) s
        (.mngdev_ioctl first_inode MNG_DEV_EVR_IOC_OUTSET connect_first) = some (s₁, 0, out) ∧
      run (irq_step PAGE_SIZE none) s₁ [.op (evr_destroy_vdev 1)] = some t ∧
      t.mngdev = some m' ∧ output_source m'.hw (2 : Nat) = some 3 := by
  have hrun : ∃ s₀, evr_mngdev_create PAGE_SIZE none first_mngdev slac_card = .ok s₀ ∧
      ((run (irq_step PAGE_SIZE none) s₀ ((open_first ++ [evr_create_vdev [0x61],
          evr_alloc_res 1 OUTPUT_NAME 2, evr_alloc_res 1 PULSEGEN_NAME 3]).map .op)).any fun s =>
        (s.mngdev.any fun m => m.ref.ref_ptr &&
          match mngdev_hw_resources m connect_first.header connect_first.stack with
          | .ok res => decide (res = (⟨EVR_RES_TYPE_OUTPUT, (2 : Nat)⟩, pulsegen_res 3))
          | .error _ => false) &&
          (exec (hw_support_evr PAGE_SIZE none) s
            (.mngdev_ioctl first_inode MNG_DEV_EVR_IOC_OUTSET connect_first)).any fun r =>
            decide (r.2.1 = 0) &&
              (run (irq_step PAGE_SIZE none) r.1 [.op (evr_destroy_vdev 1)]).any fun t =>
                t.mngdev.any fun m' => m'.ref.ref_ptr) = true :=
    ⟨_, rfl, by decide +kernel⟩
  simp only [Option.any_eq_true, Bool.and_eq_true, decide_eq_true_eq] at hrun
  obtain ⟨s₀, hcreate, s, hbefore, ⟨m, hm, hvalid, hres⟩, ⟨s₁, ret, out⟩, hset, rfl, t, hafter, m',
    hm', hvalid'⟩ := hrun
  split at hres
  · next res hok =>
    rw [decide_eq_true_eq] at hres
    subst hres
    have hfor : HwIoctlFor m MNG_DEV_EVR_IOC_OUTSET connect_first _ :=
      ⟨hvalid, rfl, rfl, by decide, hok⟩
    have hmeet : StepsMeet (irq_step PAGE_SIZE none) (LeavesOutput 2) s₁
        [.op (evr_destroy_vdev 1)] := by
      refine fun u _ => ⟨fun m i cmd arg res heq _ _ => ?_, trivial⟩
      rw [evr_destroy_vdev, irq_system_op.op.injEq, op.mngdev_ioctl.injEq] at heq
      obtain ⟨-, rfl, -⟩ := heq
      have hinit : MNG_DEV_IOC_DESTROY ≠ MNG_DEV_EVR_IOC_INIT := by decide
      have houtset : MNG_DEV_IOC_DESTROY ≠ MNG_DEV_EVR_IOC_OUTSET := by decide
      exact ⟨hinit, fun h => absurd h houtset⟩
    exact ⟨s₀, s, s₁, out, t, m', hcreate, hbefore, hset, hafter, hm',
      output_source_last_set (by simp) ⟨_, s₀, _, hcreate, hbefore⟩ hm (by decide) hfor
        (.inr ⟨rfl, rfl⟩) hset hmeet hafter hm' hvalid'⟩
  · cases hres

end evrma.evr
