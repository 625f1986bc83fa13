import Evrma.Evr.Ioctl

namespace evrma.evr

open evrma.ioctl

variable {P : Type}

/-- The source that the mapping register of the output holds. -/
def output_source (hw : evr_hw_data P) (output : Int) : Option (BitVec 16) :=
  (output_reg hw.evr_type_data output).map hw.io.reg16

/-- The output is one of the card's. -/
def is_output (hw : evr_hw_data P) (output : Int) : Prop :=
  0 ≤ output ∧ output < hw.evr_type_data.out_res_count

section

variable {hw : evr_hw_data P} {output : Int}

theorem output_reg_of_not_output (houtput : ¬ is_output hw output) :
    output_reg hw.evr_type_data output = none := by
  have hout : output < 0 ∨ (hw.evr_type_data.out_res_count : Int) ≤ output := by
    unfold is_output at houtput
    omega
  rw [output_reg, if_pos hout]

theorem output_reg_of_output (houtput : is_output hw output) :
    ∃ reg, output_reg hw.evr_type_data output = some reg := by
  obtain ⟨hnonneg, hlt⟩ := houtput
  obtain ⟨i, rfl⟩ := Int.eq_ofNat_of_zero_le hnonneg
  exact ⟨_, output_reg_eq _ (by omega)⟩

/-- No other output's source is behind the register that is written. -/
theorem output_source_of_ne {reg other : Nat} {val : BitVec 16}
    (hreg : output_reg hw.evr_type_data output = some reg)
    (hother : other < hw.evr_type_data.out_res_count) (hne : (other : Int) ≠ output) :
    output_source { hw with io := evr_write16 hw.io reg val } other = output_source hw other := by
  have houtput : is_output hw output := by
    by_contra hnot
    rw [output_reg_of_not_output hnot] at hreg
    cases hreg
  obtain ⟨hnonneg, hlt⟩ := houtput
  obtain ⟨i, rfl⟩ := Int.eq_ofNat_of_zero_le hnonneg
  obtain ⟨reg', hreg'⟩ : ∃ reg', output_reg hw.evr_type_data other = some reg' :=
    ⟨_, output_reg_eq _ hother⟩
  have hregs : reg' ≠ reg := by
    rintro rfl
    apply hne
    rw [output_reg_inj _ hother (by omega) (hreg'.trans hreg.symm)]
  simp only [output_source, hreg', Option.map_some, evr_write16_reg16,
    Function.update_of_ne hregs]

end

section

variable (hw : evr_hw_data P) (output map : Int)

/-- What setting the source of an output does. -/
theorem evr_set_out_map_of_output (houtput : is_output hw output) :
    (evr_set_out_map hw output map).2 = 0 ∧
      output_source (evr_set_out_map hw output map).1 output = some (BitVec.ofInt 16 map) ∧
      ∀ other : Nat, other < hw.evr_type_data.out_res_count → (other : Int) ≠ output →
        output_source (evr_set_out_map hw output map).1 other = output_source hw other := by
  obtain ⟨reg, hreg⟩ := output_reg_of_output houtput
  simp only [evr_set_out_map, hreg, true_and]
  refine ⟨?_, ?_⟩
  · simp [output_source, hreg]
  · intro other hother hne
    exact output_source_of_ne hreg hother hne

theorem evr_set_out_map_of_not_output (houtput : ¬ is_output hw output) :
    evr_set_out_map hw output map = (hw, -EINVAL) := by
  rw [evr_set_out_map, output_reg_of_not_output houtput]

end

/-- The register keeps an integer of 16 bits, and no other. -/
theorem toNat_ofInt_16_iff (map : Int) :
    ((BitVec.ofInt 16 map).toNat : Int) = map ↔ 0 ≤ map ∧ map < 65536 := by
  rw [BitVec.toNat_ofInt]
  omega

/-- What MNG_DEV_EVR_IOC_OUTSET stands for: a given pulse generator is the source
of exactly this output; without one the source is `misc_func`, and not a pulse
generator; an ioctl that fails changes nothing. -/
structure SetsSource (hw : evr_hw_data P) (resources : hw_resources) (arg : evr_ioctl_arg)
    (hw' : evr_hw_data P) (ret : Int) : Prop where
  pulsegen : ret = 0 → resources.2.type = EVR_RES_TYPE_PULSEGEN →
    ∃ source, output_source hw' resources.1.index = some source ∧
      (source.toNat : Int) = resources.2.index
  misc_func : ret = 0 → resources.2.type ≠ EVR_RES_TYPE_PULSEGEN →
    ∃ set_args source, arg.output_set = some set_args ∧
      output_source hw' resources.1.index = some source ∧
      (source.toNat : Int) = set_args.misc_func ∧ 32 ≤ source.toNat
  others : ∀ other : Nat, other < hw.evr_type_data.out_res_count →
    (other : Int) ≠ resources.1.index → output_source hw' other = output_source hw other
  failed : ret ≠ 0 → hw' = hw

/-- Where `misc_func` is to become the source, it fits the register. -/
def MiscFuncFits (hw : evr_hw_data P) (resources : hw_resources) (arg : evr_ioctl_arg) : Prop :=
  resources.1.type = EVR_RES_TYPE_OUTPUT → is_output hw resources.1.index →
    resources.2.type = MODAC_RES_TYPE_NONE →
    ∀ set_args, arg.output_set = some set_args →
      0 ≤ set_args.misc_func ∧ set_args.misc_func < 65536

theorem SetsSource.of_failed (hw : evr_hw_data P) (resources : hw_resources) (arg : evr_ioctl_arg)
    {ret : Int} (hret : ret ≠ 0) : SetsSource hw resources arg hw ret where
  pulsegen h := absurd h hret
  misc_func h := absurd h hret
  others _ _ _ := rfl
  failed _ := rfl

section

variable {hw : evr_hw_data P} {resources : hw_resources} {arg : evr_ioctl_arg}

/-- A pulse generator of the card becomes the source of the output. -/
theorem SetsSource.of_pulsegen (htype : resources.2.type = EVR_RES_TYPE_PULSEGEN)
    (hindex : 0 ≤ resources.2.index ∧ resources.2.index < 32) :
    SetsSource hw resources arg
      (evr_set_out_map hw resources.1.index (0 + resources.2.index)).1
      (evr_set_out_map hw resources.1.index (0 + resources.2.index)).2 := by
  by_cases houtput : is_output hw resources.1.index
  · obtain ⟨hret, hsource, hothers⟩ :=
      evr_set_out_map_of_output hw resources.1.index (0 + resources.2.index) houtput
    have hsum : 0 + resources.2.index = resources.2.index := Int.zero_add _
    refine ⟨fun _ _ => ⟨_, hsource, ?_⟩, fun _ hnot => absurd htype hnot, hothers,
      fun h => absurd hret h⟩
    rw [hsum, toNat_ofInt_16_iff]
    omega
  · rw [evr_set_out_map_of_not_output _ _ _ houtput]
    exact .of_failed hw resources arg (by simp [EINVAL])

/-- `misc_func` becomes the source of the output, cut to the register. -/
theorem sets_source_misc_func_iff (htype : resources.1.type = EVR_RES_TYPE_OUTPUT)
    (hnone : resources.2.type = MODAC_RES_TYPE_NONE) {set_args : mngdev_evr_output_set}
    (hargs : arg.output_set = some set_args)
    (hmisc : ¬ (0 ≤ set_args.misc_func ∧ set_args.misc_func < 32)) :
    SetsSource hw resources arg (evr_set_out_map hw resources.1.index set_args.misc_func).1
        (evr_set_out_map hw resources.1.index set_args.misc_func).2 ↔
      MiscFuncFits hw resources arg := by
  have hpulsegen : resources.2.type ≠ EVR_RES_TYPE_PULSEGEN := by
    rw [hnone]
    decide
  by_cases houtput : is_output hw resources.1.index
  · obtain ⟨hret, hsource, hothers⟩ :=
      evr_set_out_map_of_output hw resources.1.index set_args.misc_func houtput
    constructor
    · intro hsets _ _ _ set_args' hargs'
      obtain ⟨set_args'', source, hargs'', hsource', heq, -⟩ := hsets.misc_func hret hpulsegen
      obtain rfl := Option.some.inj (hargs.symm.trans hargs')
      obtain rfl := Option.some.inj (hargs.symm.trans hargs'')
      obtain rfl := Option.some.inj (hsource.symm.trans hsource')
      exact (toNat_ofInt_16_iff _).mp heq
    · intro hfits
      have heq := (toNat_ofInt_16_iff _).mpr (hfits htype houtput hnone set_args hargs)
      refine ⟨fun _ h => absurd h hpulsegen, fun _ _ => ⟨set_args, _, hargs, hsource, heq, ?_⟩,
        hothers, fun h => absurd hret h⟩
      omega
  · rw [evr_set_out_map_of_not_output _ _ _ houtput]
    constructor
    · intro _ _ h
      exact absurd h houtput
    · intro _
      exact .of_failed hw resources arg (by simp [EINVAL])

end

/-- The ways that MNG_DEV_EVR_IOC_OUTSET can take. -/
theorem evr_outset_cases (hw : evr_hw_data P) (resources : hw_resources) (arg : evr_ioctl_arg) :
    (∃ err : Int, err ≠ 0 ∧ MiscFuncFits hw resources arg ∧
      evr_outset hw resources arg.output_set = (hw, err)) ∨
    (resources.2.type = EVR_RES_TYPE_PULSEGEN ∧
      (0 ≤ resources.2.index ∧ resources.2.index < 32) ∧
      evr_outset hw resources arg.output_set =
        evr_set_out_map hw resources.1.index (0 + resources.2.index)) ∨
    ∃ set_args, resources.1.type = EVR_RES_TYPE_OUTPUT ∧
      resources.2.type = MODAC_RES_TYPE_NONE ∧ arg.output_set = some set_args ∧
      ¬ (0 ≤ set_args.misc_func ∧ set_args.misc_func < 32) ∧
      evr_outset hw resources arg.output_set =
        evr_set_out_map hw resources.1.index set_args.misc_func := by
  unfold evr_outset
  by_cases htype : resources.1.type = EVR_RES_TYPE_OUTPUT
  · rw [if_neg (not_not_intro htype)]
    cases hargs : arg.output_set with
    | none =>
      refine .inl ⟨-EFAULT, by decide, fun _ _ _ set_args h => ?_, rfl⟩
      rw [hargs] at h
      cases h
    | some set_args =>
      dsimp only
      split_ifs with hpulsegen hrange hcount hnone hmisc
      · exact .inl ⟨-EINVAL, by decide,
          fun _ _ h => absurd (hpulsegen.symm.trans h) (by decide), rfl⟩
      · exact .inl ⟨-EINVAL, by decide,
          fun _ _ h => absurd (hpulsegen.symm.trans h) (by decide), rfl⟩
      · simp only [EVR_OUTPUT_SOURCE_PULSEGEN_FIRST, EVR_OUTPUT_SOURCE_PULSEGEN_COUNT] at hrange
        exact .inr (.inl ⟨hpulsegen, by omega, rfl⟩)
      · refine .inl ⟨-EINVAL, by decide, fun _ _ _ set_args' h => ?_, rfl⟩
        obtain rfl := Option.some.inj (hargs.symm.trans h)
        simp only [EVR_OUTPUT_SOURCE_PULSEGEN_FIRST, EVR_OUTPUT_SOURCE_PULSEGEN_COUNT] at hmisc
        omega
      · exact .inr (.inr ⟨set_args, htype, hnone, rfl, hmisc, rfl⟩)
      · exact .inl ⟨-EINVAL, by decide, fun _ _ h => absurd h hnone, rfl⟩
  · rw [if_pos htype]
    exact .inl ⟨-EINVAL, by decide, fun h => absurd h htype, rfl⟩

/-- MNG_DEV_EVR_IOC_OUTSET does what it stands for exactly when a `misc_func` that
is to become the source fits the register. -/
theorem outset_sets_source_iff (hw : evr_hw_data P) (resources : hw_resources)
    (arg : evr_ioctl_arg) :
    SetsSource hw resources arg
        (hw_support_evr_ioctl hw resources MNG_DEV_EVR_IOC_OUTSET arg).1
        (hw_support_evr_ioctl hw resources MNG_DEV_EVR_IOC_OUTSET arg).2.1 ↔
      MiscFuncFits hw resources arg := by
  rw [ioctl_outset]
  obtain ⟨err, herr, hfits, heq⟩ | ⟨htype, hindex, heq⟩ |
      ⟨set_args, htype, hnone, hargs, hmisc, heq⟩ := evr_outset_cases hw resources arg
  · rw [heq]
    exact iff_of_true (.of_failed hw resources arg herr) hfits
  · rw [heq]
    refine iff_of_true (.of_pulsegen htype hindex) ?_
    intro _ _ hnone
    exact absurd (htype.symm.trans hnone) (by decide)
  · rw [heq]
    exact sets_source_misc_func_iff htype hnone hargs hmisc

/-- A SLAC card whose outputs are all low. -/
def slac_card : evr_hw_data Unit where
  evr_type_data := adhoc_evr_type_slac_general
  fw_version := EVR_TYPE_ADHOC_SLAC_FW_VERSION
  map_ram _ := ⟨0, 0, 0, 0⟩
  io := ⟨fun _ => 0, fun _ => 63, []⟩
  irq := ()

/-- The user asks for the source 0x10005 of the first output. -/
def misc_func_0x10005 : evr_ioctl_arg where
  output_set := some { header := ⟨1, ⟨EVR_RES_TYPE_OUTPUT, 0⟩, ⟨MODAC_RES_TYPE_NONE, -1⟩⟩,
                       misc_func := 0x10005 }
  pulse_param := none
  pulse_properties := none
  pulse_map_ram := none
  pulse_map_ram_for_event := none
  copy_to_user := true
  locals := ⟨⟨⟨0, 0⟩⟩, ⟨⟨0, 0⟩⟩, ⟨⟨0, 0⟩⟩, 0, ⟨⟨0, 0⟩⟩⟩

/-- The ioctl returns 0 and the source of the output is the pulse generator 5. -/
theorem outset_connects_pulsegen :
    ¬ SetsSource slac_card (⟨EVR_RES_TYPE_OUTPUT, 0⟩, modac_rm_vres_none) misc_func_0x10005
      (hw_support_evr_ioctl slac_card (⟨EVR_RES_TYPE_OUTPUT, 0⟩, modac_rm_vres_none)
        MNG_DEV_EVR_IOC_OUTSET misc_func_0x10005).1
      (hw_support_evr_ioctl slac_card (⟨EVR_RES_TYPE_OUTPUT, 0⟩, modac_rm_vres_none)
        MNG_DEV_EVR_IOC_OUTSET misc_func_0x10005).2.1 := by
  intro hsets
  obtain ⟨set_args, source, -, hsource, -, hle⟩ := hsets.misc_func rfl (by decide)
  obtain rfl : (5 : BitVec 16) = source := Option.some.inj hsource
  exact absurd hle (by decide)

end evrma.evr
