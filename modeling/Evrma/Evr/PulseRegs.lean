import Mathlib.Algebra.Group.Nat.Defs
import Evrma.Evr.Outset

namespace evrma.evr

open evrma.ioctl

variable {P : Type}

/-- The value that a property with so many bits may have. -/
def FitsBits (bits : Int) (val : BitVec 32) : Prop :=
  if bits = 0 then val.toNat ≤ 1 else val.toNat ≤ 2 ^ bits.toNat - 1

/-- The lengths of the table are those of 32-bit registers. -/
def BitsInRange (info : evr_pulsegen_bit_info) : Prop :=
  (0 ≤ info.prescaler_bits ∧ info.prescaler_bits ≤ 32) ∧
    (0 ≤ info.delay_bits ∧ info.delay_bits ≤ 32) ∧ (0 ≤ info.width_bits ∧ info.width_bits ≤ 32)

/-- The registers of a pulse generator besides its control word. -/
def is_param_reg (index reg : Nat) : Prop :=
  reg = pulse_start_reg index + EVR_REG_PULSE_PRESC_OFFSET ∨
    reg = pulse_start_reg index + EVR_REG_PULSE_DELAY_OFFSET ∨
    reg = pulse_start_reg index + EVR_REG_PULSE_WIDTH_OFFSET

/-- One of the four registers of a pulse generator. -/
def is_pulse_reg (index reg : Nat) : Prop :=
  reg = pulse_start_reg index + EVR_REG_PULSE_CTRL_OFFSET ∨ is_param_reg index reg

/-- At 32 bits the shift is still one of 64 bits. -/
theorem toNat_MAX_FOR_BIT_INFO {bits : Int} (hbits : 0 ≤ bits ∧ bits ≤ 32) :
    (MAX_FOR_BIT_INFO bits).toNat = if bits = 0 then 1 else 2 ^ bits.toNat - 1 := by
  unfold MAX_FOR_BIT_INFO
  obtain ⟨n, rfl⟩ := Int.eq_ofNat_of_zero_le hbits.1
  have hn : n ≤ 32 := by omega
  split_ifs with hzero
  · rfl
  · have hpow : 2 ^ n ≤ 2 ^ 32 := Nat.pow_le_pow_right (by omega) hn
    have hpos : 0 < 2 ^ n := Nat.two_pow_pos n
    have hshift : (1#64 <<< n).toNat = 2 ^ n := by
      rw [BitVec.toNat_shiftLeft, BitVec.toNat_ofNat, Nat.shiftLeft_eq, Nat.one_mod, Nat.one_mul,
        Nat.mod_eq_of_lt (by omega)]
    have hone : (1 : BitVec 64).toNat = 1 := rfl
    rw [Int.toNat_natCast, BitVec.toNat_setWidth, BitVec.toNat_sub, hshift, hone]
    omega

theorem le_MAX_FOR_BIT_INFO_iff {bits : Int} (hbits : 0 ≤ bits ∧ bits ≤ 32) (val : BitVec 32) :
    val ≤ MAX_FOR_BIT_INFO bits ↔ FitsBits bits val := by
  rw [BitVec.le_def, toNat_MAX_FOR_BIT_INFO hbits, FitsBits]
  split_ifs
  · rfl
  · rfl

theorem fits_iff {info : evr_pulsegen_bit_info} (hinfo : BitsInRange info)
    (params : pulse_params) :
    info.fits params = true ↔ FitsBits info.prescaler_bits params.prescaler ∧
      FitsBits info.delay_bits params.delay ∧ FitsBits info.width_bits params.width := by
  obtain ⟨hprescaler, hdelay, hwidth⟩ := hinfo
  rw [evr_pulsegen_bit_info.fits, Bool.and_eq_true, Bool.and_eq_true, decide_eq_true_eq,
    decide_eq_true_eq, decide_eq_true_eq, le_MAX_FOR_BIT_INFO_iff hprescaler,
    le_MAX_FOR_BIT_INFO_iff hdelay, le_MAX_FOR_BIT_INFO_iff hwidth, and_assoc]

theorem is_param_reg_iff {index reg : Nat} :
    is_param_reg index reg ↔ reg = 0x200 + 16 * index + 4 ∨ reg = 0x200 + 16 * index + 8 ∨
      reg = 0x200 + 16 * index + 12 := Iff.rfl

theorem is_pulse_reg_iff {index reg : Nat} :
    is_pulse_reg index reg ↔ reg = 0x200 + 16 * index ∨ reg = 0x200 + 16 * index + 4 ∨
      reg = 0x200 + 16 * index + 8 ∨ reg = 0x200 + 16 * index + 12 := Iff.rfl

/-- The registers of two pulse generators are apart. -/
theorem is_pulse_reg_inj {i j reg : Nat} (hi : is_pulse_reg i reg) (hj : is_pulse_reg j reg) :
    i = j := by
  rw [is_pulse_reg_iff] at hi hj
  omega

section

variable (io : io_state) (index : Nat) (params : pulse_params)

theorem set_pulse_params_of_not {reg : Nat} (hreg : ¬ is_param_reg index reg) :
    (set_pulse_params io (pulse_start_reg index) params).reg32 reg = io.reg32 reg := by
  simp only [is_param_reg, not_or] at hreg
  obtain ⟨hpresc, hdelay, hwidth⟩ := hreg
  simp only [set_pulse_params, evr_write32_reg32, Function.update_of_ne hwidth,
    Function.update_of_ne hdelay, Function.update_of_ne hpresc]

@[simp]
theorem set_pulse_params_reg16 :
    (set_pulse_params io (pulse_start_reg index) params).reg16 = io.reg16 := rfl

/-- What was set is read back. -/
theorem get_set_pulse_params :
    (get_pulse_params (set_pulse_params io (pulse_start_reg index) params)
      (pulse_start_reg index)).1 = params := by
  have hpresc : pulse_start_reg index + 4 ≠ pulse_start_reg index + 8 := by omega
  have hpresc' : pulse_start_reg index + 4 ≠ pulse_start_reg index + 12 := by omega
  have hdelay : pulse_start_reg index + 8 ≠ pulse_start_reg index + 12 := by omega
  simp only [get_pulse_params, set_pulse_params, evr_read32_val, evr_read32_reg32,
    evr_write32_reg32, Function.update_self, Function.update_of_ne hpresc',
    Function.update_of_ne hpresc, Function.update_of_ne hdelay]

end

/-- A pulse generator of the card as a resource. -/
def pulsegen_res (index : Nat) : modac_rm_vres_desc := ⟨EVR_RES_TYPE_PULSEGEN, index⟩

theorem pulsegen_index_eq {hw : evr_hw_data P} {index : Fin EVR_MAX_PULSEGEN_COUNT}
    (hindex : index < hw.evr_type_data.pulsegen_count) :
    pulsegen_index hw (pulsegen_res index) = some index := by
  have hin : ¬ ((index : Int) < 0 ∨ (hw.evr_pulsegen_count : Int) ≤ index) := by
    rw [evr_hw_data.evr_pulsegen_count]
    omega
  rw [pulsegen_index, pulsegen_res, dif_neg hin]
  rfl

section

variable {hw : evr_hw_data P} {index : Fin EVR_MAX_PULSEGEN_COUNT} {other : modac_rm_vres_desc}
  {arg : evr_ioctl_arg}

theorem param_set_eq (hindex : index < hw.evr_type_data.pulsegen_count)
    {args : vevr_ioctl_pulse_param} (hargs : arg.pulse_param = some args) :
    hw_support_evr_ioctl hw (pulsegen_res index, other) VEVR_IOC_PULSE_PARAM_SET arg =
      if hw.evr_type_data.pulsegen_data[index].fits args.params then
        ({ hw with io := set_pulse_params hw.io (pulse_start_reg index) args.params }, 0, none)
      else (hw, -EINVAL, none) := by
  have htype : ¬ (pulsegen_res index).type ≠ EVR_RES_TYPE_PULSEGEN := not_not_intro rfl
  rw [ioctl_pulse_param_set, evr_pulse_param_set, if_neg htype, hargs, pulsegen_index_eq hindex]
  dsimp only
  split_ifs
  · rfl
  · rfl

theorem param_get_eq (hindex : index < hw.evr_type_data.pulsegen_count) :
    hw_support_evr_ioctl hw (pulsegen_res index, other) VEVR_IOC_PULSE_PARAM_GET arg =
      copy_out { hw with io := (get_pulse_params hw.io (pulse_start_reg index)).2 } arg
        (.pulse_param
          { header := arg.locals.pulse_param_header
            params := (get_pulse_params hw.io (pulse_start_reg index)).1 }) := by
  have htype : ¬ (pulsegen_res index).type ≠ EVR_RES_TYPE_PULSEGEN := not_not_intro rfl
  rw [ioctl_pulse_param_get, evr_pulse_param_get, if_neg htype, pulsegen_index_eq hindex]

end

/-- Setting the parameters: it succeeds exactly when each value has its place in the bits of
the property, otherwise the device is not even accessed; what was set is what is got, and no
register but the three is changed: not the control word, nor those of the other ones. -/
theorem pulse_params_set_get (hw : evr_hw_data P) {index : Fin EVR_MAX_PULSEGEN_COUNT}
    (hindex : index < hw.evr_type_data.pulsegen_count)
    (hbits : BitsInRange hw.evr_type_data.pulsegen_data[index]) (other : modac_rm_vres_desc)
    {arg : evr_ioctl_arg} {args : vevr_ioctl_pulse_param} (hargs : arg.pulse_param = some args) :
    let set := hw_support_evr_ioctl hw (pulsegen_res index, other) VEVR_IOC_PULSE_PARAM_SET arg
    (set.2.1 = 0 ↔
        FitsBits hw.evr_type_data.pulsegen_data[index].prescaler_bits args.params.prescaler ∧
          FitsBits hw.evr_type_data.pulsegen_data[index].delay_bits args.params.delay ∧
          FitsBits hw.evr_type_data.pulsegen_data[index].width_bits args.params.width) ∧
      (set.2.1 ≠ 0 → set.1 = hw) ∧
      (set.2.1 = 0 →
        (∀ get_arg : evr_ioctl_arg, get_arg.copy_to_user = true →
          ∃ got, (hw_support_evr_ioctl set.1 (pulsegen_res index, other)
              VEVR_IOC_PULSE_PARAM_GET get_arg).2 = (0, some (.pulse_param got)) ∧
            got.params = args.params) ∧
        (∀ reg, ¬ is_param_reg index reg → set.1.io.reg32 reg = hw.io.reg32 reg) ∧
        set.1.io.reg32 (0x200 + 16 * index) = hw.io.reg32 (0x200 + 16 * index) ∧
        (∀ i k : Nat, i ≠ index → k < 4 →
          set.1.io.reg32 (0x200 + 16 * i + 4 * k) = hw.io.reg32 (0x200 + 16 * i + 4 * k)) ∧
        set.1.io.reg16 = hw.io.reg16) := by
  intro set
  have hset : set = _ := param_set_eq hindex hargs
  rw [← fits_iff hbits]
  by_cases hfits : hw.evr_type_data.pulsegen_data[index].fits args.params = true
  · rw [if_pos hfits] at hset
    rw [hset]
    have hframe : ∀ reg, ¬ is_param_reg index reg →
        (set_pulse_params hw.io (pulse_start_reg index) args.params).reg32 reg =
          hw.io.reg32 reg :=
      fun _ hreg => set_pulse_params_of_not hw.io index args.params hreg
    refine ⟨iff_of_true rfl hfits, fun h => absurd rfl h, fun _ => ⟨?_, hframe, ?_, ?_, rfl⟩⟩
    · intro get_arg hcopy
      have hindex' : index <
          ({ hw with
              io := set_pulse_params hw.io (pulse_start_reg index) args.params } :
            evr_hw_data P).evr_type_data.pulsegen_count := hindex
      dsimp only
      rw [param_get_eq hindex', copy_out, if_pos hcopy]
      exact ⟨_, rfl, get_set_pulse_params hw.io index args.params⟩
    · apply hframe
      rw [is_param_reg_iff]
      omega
    · intro i k hi hk
      apply hframe
      rw [is_param_reg_iff]
      omega
  · rw [if_neg hfits] at hset
    have herr : -EINVAL ≠ 0 := by decide
    rw [hset]
    exact ⟨iff_of_false herr hfits, fun _ => rfl, fun h => absurd h herr⟩

/-- The user sets the parameters 1, 2 and 3. -/
def params_123 : evr_ioctl_arg :=
  { misc_func_0x10005 with
    pulse_param := some { header := ⟨⟨EVR_RES_TYPE_PULSEGEN, 0⟩⟩, params := ⟨1, 2, 3⟩ } }

theorem pulse_params_set_get_123 :
    let set := hw_support_evr_ioctl slac_card (pulsegen_res (0 : Fin 16), modac_rm_vres_none)
      VEVR_IOC_PULSE_PARAM_SET params_123
    set.2.1 = 0 ∧ ∃ got, (hw_support_evr_ioctl set.1
        (pulsegen_res (0 : Fin 16), modac_rm_vres_none) VEVR_IOC_PULSE_PARAM_GET params_123).2 =
      (0, some (.pulse_param got)) ∧ got.params = ⟨1, 2, 3⟩ := by
  have hbits : BitsInRange slac_card.evr_type_data.pulsegen_data[(0 : Fin 16)] :=
    ⟨by decide, by decide, by decide⟩
  obtain ⟨hret, -, hok⟩ := pulse_params_set_get slac_card (by decide) hbits
    modac_rm_vres_none (rfl : params_123.pulse_param = _)
  have hfits : FitsBits 32 1 ∧ FitsBits 32 2 ∧ FitsBits 32 3 :=
    ⟨by simp [FitsBits], by simp [FitsBits], by simp [FitsBits]⟩
  exact ⟨hret.mpr hfits, (hok (hret.mpr hfits)).1 params_123 rfl⟩

theorem pulse_cfg_bits_eq (bits : BitVec 8) :
    pulse_cfg_bits (bits.getLsbD 0) (bits.getLsbD 1) (bits.getLsbD 2) = bits &&& 7 := by
  decide +revert

/-- The bits of the control word after five of them are set. -/
theorem getLsbD_set_pulse_props (pctrl : BitVec 32) (props : pulse_props) (i : Nat) :
    (set_pulse_props pctrl props).getLsbD i =
      if i = 1 then props.pulse_cfg_bits.getLsbD 2
      else if i = 2 then props.pulse_cfg_bits.getLsbD 1
      else if i = 3 then props.pulse_cfg_bits.getLsbD 0
      else if i = 4 then decide (props.polarity ≠ 0)
      else if i = 0 then decide (props.enable ≠ 0)
      else pctrl.getLsbD i := by
  simp only [set_pulse_props]
  rw [getLsbD_put_bit _ (by decide), getLsbD_put_bit _ (by decide), getLsbD_put_bit _ (by decide),
    getLsbD_put_bit _ (by decide), getLsbD_put_bit _ (by decide)]

theorem ne_zero_iff_getLsbD (word : BitVec 32) : word ≠ 0 ↔ ∃ i, word.getLsbD i = true := by
  constructor
  · intro hne
    by_contra hnone
    apply hne
    apply BitVec.eq_of_getLsbD_eq
    intro i _
    have hclear : word.getLsbD i = false := by
      rw [← Bool.not_eq_true]
      exact fun h => hnone ⟨i, h⟩
    exact hclear.trans BitVec.getLsbD_zero.symm
  · rintro ⟨i, hi⟩ rfl
    exact Bool.false_ne_true (BitVec.getLsbD_zero.symm.trans hi)

/-- A word without one of its bits is not 0 if another bit is set. -/
theorem and_not_bit_ne_zero_iff (word : BitVec 32) (n : Nat) :
    word &&& ~~~bit n ≠ 0 ↔ ∃ i, i ≠ n ∧ word.getLsbD i = true := by
  rw [ne_zero_iff_getLsbD]
  refine exists_congr fun i => ?_
  have hlt := @BitVec.lt_of_getLsbD 32 word i
  rw [BitVec.getLsbD_and, BitVec.getLsbD_not, getLsbD_bit]
  constructor
  · intro h
    rw [Bool.and_eq_true] at h
    refine ⟨?_, h.1⟩
    rintro rfl
    simp [hlt h.1] at h
  · rintro ⟨hne, hi⟩
    simp [hi, hlt hi, hne]

/-- A bit of the control word that the properties don't have is set, or one of the actions is
enabled. -/
def OthersSet (pctrl : BitVec 32) (props : pulse_props) : Prop :=
  (∃ i, 5 ≤ i ∧ pctrl.getLsbD i = true) ∨ props.pulse_cfg_bits &&& 7 ≠ 0

theorem set_pulse_props_bit_iff (pctrl : BitVec 32) (props : pulse_props) (i : Nat) :
    (set_pulse_props pctrl props).getLsbD i = true ↔
      (i = 0 ∧ props.enable ≠ 0) ∨ (i = 4 ∧ props.polarity ≠ 0) ∨
        (5 ≤ i ∧ pctrl.getLsbD i = true) ∨
        (i = 3 ∧ props.pulse_cfg_bits.getLsbD 0 = true) ∨
        (i = 2 ∧ props.pulse_cfg_bits.getLsbD 1 = true) ∨
        (i = 1 ∧ props.pulse_cfg_bits.getLsbD 2 = true) := by
  rw [getLsbD_set_pulse_props]
  split_ifs with h1 h2 h3 h4 h0
  · simp [h1]
  · simp [h2]
  · simp [h3]
  · simp [h4]
  · simp [h0]
  · have hle : 5 ≤ i := by omega
    simp [h0, h1, h2, h3, h4, hle]

theorem cfg_bits_ne_zero_iff (bits : BitVec 8) :
    bits &&& 7 ≠ 0 ↔ bits.getLsbD 0 = true ∨ bits.getLsbD 1 = true ∨ bits.getLsbD 2 = true := by
  decide +revert

/-- After the properties are set, the bits besides the one for enabling tell of everything
but this one. -/
theorem set_pulse_props_enable (pctrl : BitVec 32) (props : pulse_props) :
    set_pulse_props pctrl props &&& ~~~bit C_EVR_PULSE_ENA ≠ 0 ↔
      OthersSet pctrl props ∨ props.polarity ≠ 0 := by
  rw [and_not_bit_ne_zero_iff, OthersSet, cfg_bits_ne_zero_iff]
  simp only [set_pulse_props_bit_iff]
  constructor
  · rintro ⟨i, hne, h | h | h | h | h | h⟩
    · exact absurd h.1 hne
    · exact .inr h.2
    · exact .inl (.inl ⟨i, h⟩)
    · exact .inl (.inr (.inl h.2))
    · exact .inl (.inr (.inr (.inl h.2)))
    · exact .inl (.inr (.inr (.inr h.2)))
  · rintro ((⟨i, hle, hi⟩ | hclear | hset | htrigger) | hpolarity)
    · exact ⟨i, Nat.ne_of_gt (Nat.lt_of_lt_of_le (by decide) hle), .inr (.inr (.inl ⟨hle, hi⟩))⟩
    · exact ⟨3, by decide, .inr (.inr (.inr (.inl ⟨rfl, hclear⟩)))⟩
    · exact ⟨2, by decide, .inr (.inr (.inr (.inr (.inl ⟨rfl, hset⟩))))⟩
    · exact ⟨1, by decide, .inr (.inr (.inr (.inr (.inr ⟨rfl, htrigger⟩))))⟩
    · exact ⟨4, by decide, .inr (.inl ⟨rfl, hpolarity⟩)⟩

/-- So it is with the bit for the polarity. -/
theorem set_pulse_props_polarity (pctrl : BitVec 32) (props : pulse_props) :
    set_pulse_props pctrl props &&& ~~~bit C_EVR_PULSE_POLARITY ≠ 0 ↔
      OthersSet pctrl props ∨ props.enable ≠ 0 := by
  rw [and_not_bit_ne_zero_iff, OthersSet, cfg_bits_ne_zero_iff]
  simp only [set_pulse_props_bit_iff]
  constructor
  · rintro ⟨i, hne, h | h | h | h | h | h⟩
    · exact .inr h.2
    · exact absurd h.1 hne
    · exact .inl (.inl ⟨i, h⟩)
    · exact .inl (.inr (.inl h.2))
    · exact .inl (.inr (.inr (.inl h.2)))
    · exact .inl (.inr (.inr (.inr h.2)))
  · rintro ((⟨i, hle, hi⟩ | hclear | hset | htrigger) | henable)
    · exact ⟨i, Nat.ne_of_gt hle, .inr (.inr (.inl ⟨hle, hi⟩))⟩
    · exact ⟨3, by decide, .inr (.inr (.inr (.inl ⟨rfl, hclear⟩)))⟩
    · exact ⟨2, by decide, .inr (.inr (.inr (.inr (.inl ⟨rfl, hset⟩))))⟩
    · exact ⟨1, by decide, .inr (.inr (.inr (.inr (.inr ⟨rfl, htrigger⟩))))⟩
    · exact ⟨0, by decide, .inl ⟨rfl, henable⟩⟩

/-- What is got after the properties were set. -/
theorem get_set_pulse_props (pctrl : BitVec 32) (props : pulse_props) :
    get_pulse_props (set_pulse_props pctrl props) =
      { enable :=
          if set_pulse_props pctrl props &&& ~~~bit C_EVR_PULSE_ENA ≠ 0 then 1 else 0
        polarity :=
          if set_pulse_props pctrl props &&& ~~~bit C_EVR_PULSE_POLARITY ≠ 0 then 1 else 0
        pulse_cfg_bits := props.pulse_cfg_bits &&& 7 } := by
  rw [get_pulse_props, getLsbD_set_pulse_props, getLsbD_set_pulse_props, getLsbD_set_pulse_props,
    ← pulse_cfg_bits_eq]
  rfl

section

variable {hw : evr_hw_data P} {index : Fin EVR_MAX_PULSEGEN_COUNT} {other : modac_rm_vres_desc}
  {arg : evr_ioctl_arg}

/-- The register of the control word. -/
abbrev pulse_ctrl_reg (index : Nat) : Nat := pulse_start_reg index + EVR_REG_PULSE_CTRL_OFFSET

theorem prop_set_eq (hindex : index < hw.evr_type_data.pulsegen_count)
    {args : vevr_ioctl_pulse_properties} (hargs : arg.pulse_properties = some args) :
    hw_support_evr_ioctl hw (pulsegen_res index, other) VEVR_IOC_PULSE_PROP_SET arg =
      ({ hw with
          io := evr_write32 (evr_read32 hw.io (pulse_ctrl_reg index)).2 (pulse_ctrl_reg index)
            (set_pulse_props (hw.io.reg32 (pulse_ctrl_reg index)) args.props) }, 0, none) := by
  have htype : ¬ (pulsegen_res index).type ≠ EVR_RES_TYPE_PULSEGEN := not_not_intro rfl
  rw [ioctl_pulse_prop_set, evr_pulse_prop_set, if_neg htype, hargs, pulsegen_index_eq hindex]
  rfl

theorem prop_get_eq (hindex : index < hw.evr_type_data.pulsegen_count) :
    hw_support_evr_ioctl hw (pulsegen_res index, other) VEVR_IOC_PULSE_PROP_GET arg =
      copy_out { hw with io := (evr_read32 hw.io (pulse_ctrl_reg index)).2 } arg
        (.pulse_properties
          { header := arg.locals.pulse_prop_header
            props := get_pulse_props (hw.io.reg32 (pulse_ctrl_reg index))
            padding := arg.locals.pulse_prop_padding }) := by
  have htype : ¬ (pulsegen_res index).type ≠ EVR_RES_TYPE_PULSEGEN := not_not_intro rfl
  rw [ioctl_pulse_prop_get, evr_pulse_prop_get, if_neg htype, pulsegen_index_eq hindex]
  rfl

end

/-- What setting the properties and getting them back stands for: they come back as flags and
as the three low bits, and nothing else of the device is changed. -/
structure PropsRoundTrip (hw : evr_hw_data P) (index : Nat) (other : modac_rm_vres_desc)
    (arg get_arg : evr_ioctl_arg) (props : pulse_props) : Prop where
  set_ret : (hw_support_evr_ioctl hw (pulsegen_res index, other) VEVR_IOC_PULSE_PROP_SET arg).2.1 = 0
  got : ∃ got, (hw_support_evr_ioctl
        (hw_support_evr_ioctl hw (pulsegen_res index, other) VEVR_IOC_PULSE_PROP_SET arg).1
        (pulsegen_res index, other) VEVR_IOC_PULSE_PROP_GET get_arg).2 =
      (0, some (.pulse_properties got)) ∧
    got.props.enable = (if props.enable ≠ 0 then 1 else 0) ∧
    got.props.polarity = (if props.polarity ≠ 0 then 1 else 0) ∧
    got.props.pulse_cfg_bits = props.pulse_cfg_bits &&& 7
  other_bits : ∀ i, 5 ≤ i →
    ((hw_support_evr_ioctl hw (pulsegen_res index, other) VEVR_IOC_PULSE_PROP_SET arg).1.io.reg32
        (pulse_ctrl_reg index)).getLsbD i = (hw.io.reg32 (pulse_ctrl_reg index)).getLsbD i
  other_regs : ∀ reg, reg ≠ pulse_ctrl_reg index →
    (hw_support_evr_ioctl hw (pulsegen_res index, other) VEVR_IOC_PULSE_PROP_SET arg).1.io.reg32 reg =
      hw.io.reg32 reg
  outputs : (hw_support_evr_ioctl hw (pulsegen_res index, other)
    VEVR_IOC_PULSE_PROP_SET arg).1.io.reg16 = hw.io.reg16

theorem flag_eq_iff (p q : Prop) [Decidable p] [Decidable q] :
    (if p then (1 : BitVec 8) else 0) = (if q then 1 else 0) ↔ (p ↔ q) := by
  by_cases hp : p
  · by_cases hq : q
    · simp [hp, hq]
    · simp [hp, hq]
  · by_cases hq : q
    · simp [hp, hq]
    · simp [hp, hq]

/-- Getting the properties finds a flag by the other bits of the control word, so they come
back exactly when both flags are set, or none of them and no other bit. -/
theorem props_round_trip_iff (hw : evr_hw_data P) {index : Fin EVR_MAX_PULSEGEN_COUNT}
    (hindex : index < hw.evr_type_data.pulsegen_count) (other : modac_rm_vres_desc)
    {arg get_arg : evr_ioctl_arg} {args : vevr_ioctl_pulse_properties}
    (hargs : arg.pulse_properties = some args) (hcopy : get_arg.copy_to_user = true) :
    PropsRoundTrip hw index other arg get_arg args.props ↔
      (args.props.enable ≠ 0 ↔ args.props.polarity ≠ 0) ∧
        (OthersSet (hw.io.reg32 (pulse_ctrl_reg index)) args.props → args.props.enable ≠ 0) := by
  have hset : hw_support_evr_ioctl hw (pulsegen_res index, other) VEVR_IOC_PULSE_PROP_SET arg = _ :=
    prop_set_eq hindex hargs
  have hget : (hw_support_evr_ioctl
      (hw_support_evr_ioctl hw (pulsegen_res index, other) VEVR_IOC_PULSE_PROP_SET arg).1
      (pulsegen_res index, other) VEVR_IOC_PULSE_PROP_GET get_arg).2 =
      (0, some (.pulse_properties
        { header := get_arg.locals.pulse_prop_header
          props := get_pulse_props
            (set_pulse_props (hw.io.reg32 (pulse_ctrl_reg index)) args.props)
          padding := get_arg.locals.pulse_prop_padding })) := by
    rw [hset, prop_get_eq (by exact hindex), copy_out, if_pos hcopy]
    simp only [evr_write32_reg32, Function.update_self]
  rw [get_set_pulse_props] at hget
  have hflags : (args.props.enable ≠ 0 ↔ args.props.polarity ≠ 0) ∧
        (OthersSet (hw.io.reg32 (pulse_ctrl_reg index)) args.props → args.props.enable ≠ 0) ↔
      (OthersSet (hw.io.reg32 (pulse_ctrl_reg index)) args.props ∨ args.props.polarity ≠ 0 ↔
          args.props.enable ≠ 0) ∧
        (OthersSet (hw.io.reg32 (pulse_ctrl_reg index)) args.props ∨ args.props.enable ≠ 0 ↔
          args.props.polarity ≠ 0) := by
    tauto
  rw [hflags, ← set_pulse_props_enable, ← set_pulse_props_polarity]
  constructor
  · intro h
    obtain ⟨got, hgot, henable, hpolarity, -⟩ := h.got
    rw [hget, Prod.mk.injEq, Option.some.injEq, evr_ioctl_out.pulse_properties.injEq] at hgot
    obtain ⟨-, rfl⟩ := hgot
    exact ⟨(flag_eq_iff _ _).mp henable, (flag_eq_iff _ _).mp hpolarity⟩
  · rintro ⟨henable, hpolarity⟩
    refine ⟨?_, ⟨_, hget, (flag_eq_iff _ _).mpr henable, (flag_eq_iff _ _).mpr hpolarity, rfl⟩,
      ?_, ?_, ?_⟩
    · rw [hset]
    · intro i hi
      rw [hset]
      simp only [evr_write32_reg32, Function.update_self, getLsbD_set_pulse_props]
      rw [if_neg (by omega), if_neg (by omega), if_neg (by omega), if_neg (by omega),
        if_neg (by omega)]
    · intro reg hreg
      rw [hset]
      simp only [evr_write32_reg32, Function.update_of_ne hreg, evr_read32_reg32]
    · rw [hset]
      rfl

/-- The user sets the polarity alone. -/
def polarity_alone : evr_ioctl_arg :=
  { misc_func_0x10005 with
    pulse_properties := some
      { header := ⟨⟨EVR_RES_TYPE_PULSEGEN, 0⟩⟩, props := ⟨0, 1, 0⟩, padding := 0 } }

/-- The pulse generator comes back as enabled, and its polarity as not set. -/
theorem polarity_alone_not_returned :
    ¬ PropsRoundTrip slac_card 0 modac_rm_vres_none polarity_alone polarity_alone ⟨0, 1, 0⟩ := by
  intro h
  obtain ⟨got, hgot, henable, -⟩ := h.got
  have hout : (hw_support_evr_ioctl
      (hw_support_evr_ioctl slac_card (pulsegen_res 0, modac_rm_vres_none)
        VEVR_IOC_PULSE_PROP_SET polarity_alone).1
      (pulsegen_res 0, modac_rm_vres_none) VEVR_IOC_PULSE_PROP_GET polarity_alone).2 =
      (0, some (.pulse_properties
        { header := ⟨⟨0, 0⟩⟩, props := ⟨1, 0, 0⟩, padding := 0 })) := rfl
  rw [hout, Prod.mk.injEq, Option.some.injEq, evr_ioctl_out.pulse_properties.injEq] at hgot
  obtain ⟨-, rfl⟩ := hgot
  exact absurd henable (by decide)

/-- Both flags are set. -/
def both_flags : evr_ioctl_arg :=
  { misc_func_0x10005 with
    pulse_properties := some
      { header := ⟨⟨EVR_RES_TYPE_PULSEGEN, 0⟩⟩, props := ⟨1, 1, 5⟩, padding := 0 } }

theorem props_round_trip_both :
    PropsRoundTrip slac_card (0 : Fin 16) modac_rm_vres_none both_flags both_flags ⟨1, 1, 5⟩ :=
  (props_round_trip_iff slac_card (by decide) modac_rm_vres_none
    (rfl : both_flags.pulse_properties = _) rfl).mpr ⟨by decide, fun _ => by decide⟩

end evrma.evr
