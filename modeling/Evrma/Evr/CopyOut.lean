import Evrma.Evr.Outset

namespace evrma.evr

open evrma.ioctl

variable {P : Type}

abbrev EVRSIM_PULSEGEN_COUNT : Nat := 16

/-- The data of a simulated card. The interrupt flags depend on how often they were read. -/
structure evr_sim where
  pulsegen_params : Fin EVRSIM_PULSEGEN_COUNT → pulse_params
  irqflag_reads : BitVec 32

def be32_to_cpu (val : BitVec 32) : BitVec 32 :=
  (val <<< 24) ||| ((val &&& 0xff00) <<< 8) ||| ((val >>> 8) &&& 0xff00) ||| (val >>> 24)

/-- The flag of an event, three times of four. -/
def evr_sim_read_irqflag (sim : evr_sim) : BitVec 32 × evr_sim :=
  let count := sim.irqflag_reads + 1
  (be32_to_cpu (if count &&& 3 ≠ 0 then bit C_EVR_IRQFLAG_EVENT else 0),
    { sim with irqflag_reads := count })

/-- `none` stands for an error, which leaves the variables of the caller as they are. -/
def evr_sim_get_pulsegen_param (sim : evr_sim) (index : Int) : Option pulse_params :=
  if h : 0 ≤ index ∧ index < EVRSIM_PULSEGEN_COUNT then
    some (sim.pulsegen_params ⟨index.toNat, by omega⟩)
  else none

/-- The stack of a reading ioctl. Only a simulated card can leave the parameters unset. -/
structure get_locals where
  locals : evr_ioctl_locals
  params : pulse_params

/-- The reading ioctls of a simulated card; the error of `evr_sim_get_pulsegen_param` is
dropped. -/
def evr_sim_ioctl_get (sim : evr_sim) (resources : hw_resources) (cmd : ioctl_cmd)
    (copy_to_user : Bool) (stack : get_locals) : evr_sim × Int × Option evr_ioctl_out :=
  if cmd = VEVR_IOC_STATUS_GET then
    let (irq_flags, sim) := evr_sim_read_irqflag sim
    if copy_to_user then
      (sim, 0, some (.status
        { header := stack.locals.status_header
          status := { fpga_version := 0, irq_flags, seconds_shift := 0 } }))
    else (sim, -EFAULT, none)
  else if resources.1.type ≠ EVR_RES_TYPE_PULSEGEN then (sim, -EINVAL, none)
  else if cmd = VEVR_IOC_PULSE_PARAM_GET then
    let params := (evr_sim_get_pulsegen_param sim resources.1.index).getD stack.params
    if copy_to_user then
      (sim, 0, some (.pulse_param { header := stack.locals.pulse_param_header, params }))
    else (sim, -EFAULT, none)
  else (sim, -ENOSYS, none)

/-- A card, which may be simulated. -/
inductive evr_card (P : Type) where
  | real (hw : evr_hw_data P)
  | sim (sim : evr_sim)

/-- The reading ioctls of a VIRT_DEV. -/
inductive vevr_get_cmd : ioctl_cmd → Prop where
  | status : vevr_get_cmd VEVR_IOC_STATUS_GET
  | pulse_param : vevr_get_cmd VEVR_IOC_PULSE_PARAM_GET
  | pulse_prop : vevr_get_cmd VEVR_IOC_PULSE_PROP_GET
  | pulse_map_ram : vevr_get_cmd VEVR_IOC_PULSE_MAP_RAM_GET
  | pulse_map_ram_for_event : vevr_get_cmd VEVR_IOC_PULSE_MAP_RAM_GET_FOR_EVENT

/-- What a reading ioctl copies to the user, from this contents of the stack. -/
def copied_to_user (card : evr_card P) (resources : hw_resources) (cmd : ioctl_cmd)
    (arg : evr_ioctl_arg) (stack : get_locals) : Option evr_ioctl_out :=
  match card with
  | .real hw => (hw_support_evr_ioctl hw resources cmd { arg with locals := stack.locals }).2.2
  | .sim sim => (evr_sim_ioctl_get sim resources cmd arg.copy_to_user stack).2.2

/-- The resource header of the structure that is copied. -/
def evr_ioctl_out.header : evr_ioctl_out → Option vdev_ioctl_hw_header
  | .status args => some args.header
  | .pulse_param args => some args.header
  | .pulse_properties args => some args.header
  | .pulse_map_ram args => some args.header
  | .pulse_map_ram_for_event args => some args.header
  | .word _ => none

/-- What is copied does not depend on the stack, and the header comes back as the user has
it. -/
structure StackIndependent (copied : get_locals → Option evr_ioctl_out)
    (header : vdev_ioctl_hw_header) : Prop where
  same : ∀ stack stack', copied stack = copied stack'
  header : ∀ stack out, copied stack = some out → out.header = some header

/-- The ioctl gets to the place where it copies a structure that it has not filled. -/
def CopiesLocals (card : evr_card P) (resources : hw_resources) (cmd : ioctl_cmd)
    (arg : evr_ioctl_arg) : Prop :=
  arg.copy_to_user = true ∧
    (cmd = VEVR_IOC_STATUS_GET ∨
      match card with
      | .real hw =>
        (cmd = VEVR_IOC_PULSE_PARAM_GET ∨ cmd = VEVR_IOC_PULSE_PROP_GET ∨
            cmd = VEVR_IOC_PULSE_MAP_RAM_GET) ∧
          resources.1.type = EVR_RES_TYPE_PULSEGEN ∧
          0 ≤ resources.1.index ∧ resources.1.index < hw.evr_pulsegen_count
      | .sim _ =>
        cmd = VEVR_IOC_PULSE_PARAM_GET ∧ resources.1.type = EVR_RES_TYPE_PULSEGEN)

/-- A structure whose header is left as the stack has it. -/
theorem stackIndependent_iff_of_header {copied : get_locals → Option evr_ioctl_out} {C : Prop}
    (hdr : get_locals → vdev_ioctl_hw_header)
    (hcopied : C → ∀ stack, ∃ out, copied stack = some out ∧ out.header = some (hdr stack))
    (hnone : ¬ C → ∀ stack, copied stack = none)
    (hdiffer : ∃ stack stack', hdr stack ≠ hdr stack') (header : vdev_ioctl_hw_header) :
    StackIndependent copied header ↔ ¬ C := by
  constructor
  · intro h hC
    obtain ⟨stack, stack', hne⟩ := hdiffer
    obtain ⟨out, hout, hheader⟩ := hcopied hC stack
    obtain ⟨out', hout', hheader'⟩ := hcopied hC stack'
    apply hne
    have hsame := h.same stack stack'
    rw [hout, hout', Option.some.injEq] at hsame
    subst hsame
    exact Option.some.inj (hheader.symm.trans hheader')
  · intro hC
    refine ⟨fun stack stack' => ?_, fun stack o h => ?_⟩
    · rw [hnone hC, hnone hC]
    · rw [hnone hC] at h
      cases h

/-- A stack with this header in all places. -/
def stack_of_header (header : vdev_ioctl_hw_header) : get_locals where
  locals :=
    { status_header := header
      pulse_param_header := header
      pulse_prop_header := header
      pulse_prop_padding := 0
      pulse_map_ram_header := header }
  params := ⟨0, 0, 0⟩

theorem copy_out_copied (hw : evr_hw_data P) (arg : evr_ioctl_arg) (out : evr_ioctl_out) :
    (copy_out hw arg out).2.2 = if arg.copy_to_user = true then some out else none := by
  unfold copy_out
  split_ifs
  · rfl
  · rfl

section

variable {hw : evr_hw_data P} {res_pulsegen : modac_rm_vres_desc}

theorem pulsegen_index_of_range
    (h : 0 ≤ res_pulsegen.index ∧ res_pulsegen.index < hw.evr_pulsegen_count) :
    ∃ index, pulsegen_index hw res_pulsegen = some index := by
  rw [pulsegen_index, dif_neg (by omega)]
  exact ⟨_, rfl⟩

theorem pulsegen_index_of_not_range
    (h : ¬ (0 ≤ res_pulsegen.index ∧ res_pulsegen.index < hw.evr_pulsegen_count)) :
    pulsegen_index hw res_pulsegen = none := by
  rw [pulsegen_index, dif_pos (by omega)]

/-- How the reading ioctls of a pulse generator begin and end. -/
def pulsegen_get (hw : evr_hw_data P) (res_pulsegen : modac_rm_vres_desc) (arg : evr_ioctl_arg)
    (next : Fin EVR_MAX_PULSEGEN_COUNT → evr_hw_data P)
    (out : Fin EVR_MAX_PULSEGEN_COUNT → evr_ioctl_out) :
    evr_hw_data P × Int × Option evr_ioctl_out :=
  if res_pulsegen.type ≠ EVR_RES_TYPE_PULSEGEN then (hw, -EINVAL, none)
  else
    match pulsegen_index hw res_pulsegen with
    | none => (hw, -EINVAL, none)
    | some index => copy_out (next index) arg (out index)

theorem pulsegen_get_copied (arg : evr_ioctl_arg)
    (next : Fin EVR_MAX_PULSEGEN_COUNT → evr_hw_data P)
    (out : Fin EVR_MAX_PULSEGEN_COUNT → evr_ioctl_out) :
    (pulsegen_get hw res_pulsegen arg next out).2.2 =
      if arg.copy_to_user = true ∧ res_pulsegen.type = EVR_RES_TYPE_PULSEGEN then
        (pulsegen_index hw res_pulsegen).map out
      else none := by
  unfold pulsegen_get
  by_cases htype : res_pulsegen.type = EVR_RES_TYPE_PULSEGEN
  · rw [if_neg (not_not_intro htype)]
    cases pulsegen_index hw res_pulsegen with
    | none => simp
    | some index => simp [copy_out_copied, htype]
  · rw [if_pos htype, if_neg fun h => htype h.2]

end

/-- The reading ioctls of a pulse generator that do not read the user's structure first. -/
theorem pulsegen_get_stack_independent_iff {hw : evr_hw_data P} {resources : hw_resources}
    {cmd : ioctl_cmd} {arg : evr_ioctl_arg}
    (hcmd : cmd = VEVR_IOC_PULSE_PARAM_GET ∨ cmd = VEVR_IOC_PULSE_PROP_GET ∨
      cmd = VEVR_IOC_PULSE_MAP_RAM_GET)
    (hstatus : cmd ≠ VEVR_IOC_STATUS_GET) (hdr : get_locals → vdev_ioctl_hw_header)
    {next : get_locals → Fin EVR_MAX_PULSEGEN_COUNT → evr_hw_data P}
    {out : get_locals → Fin EVR_MAX_PULSEGEN_COUNT → evr_ioctl_out}
    (hget : ∀ stack, hw_support_evr_ioctl hw resources cmd { arg with locals := stack.locals } =
      pulsegen_get hw resources.1 { arg with locals := stack.locals } (next stack) (out stack))
    (hout : ∀ stack index, (out stack index).header = some (hdr stack))
    (hdiffer : ∃ stack stack', hdr stack ≠ hdr stack') (header : vdev_ioctl_hw_header) :
    StackIndependent (copied_to_user (.real hw) resources cmd arg) header ↔
      ¬ CopiesLocals (.real hw) resources cmd arg := by
  refine stackIndependent_iff_of_header hdr (fun h stack => ?_) (fun h stack => ?_) hdiffer header
  · obtain ⟨hcopy, hget' | ⟨-, htype, hrange⟩⟩ := h
    · exact absurd hget' hstatus
    · obtain ⟨index, hindex⟩ := pulsegen_index_of_range hrange
      rw [copied_to_user, hget, pulsegen_get_copied, if_pos ⟨hcopy, htype⟩, hindex]
      exact ⟨_, rfl, hout stack index⟩
  · rw [copied_to_user, hget, pulsegen_get_copied]
    split_ifs with hgets
    · obtain ⟨hcopy, htype⟩ := hgets
      by_cases hrange : 0 ≤ resources.1.index ∧ resources.1.index < hw.evr_pulsegen_count
      · exact absurd ⟨hcopy, .inr ⟨hcmd, htype, hrange⟩⟩ h
      · rw [pulsegen_index_of_not_range hrange, Option.map_none]
    · rfl

section

variable {hw : evr_hw_data P} {res_pulsegen : modac_rm_vres_desc} {arg : evr_ioctl_arg}

/-- What the user asks for an event is in a structure that was read as a whole. -/
theorem map_ram_get_for_event_copied (hw : evr_hw_data P) (res_pulsegen : modac_rm_vres_desc)
    (arg : evr_ioctl_arg) (locals locals' : evr_ioctl_locals) :
    (evr_pulse_map_ram_get_for_event hw res_pulsegen { arg with locals }).2.2 =
      (evr_pulse_map_ram_get_for_event hw res_pulsegen { arg with locals := locals' }).2.2 := rfl

theorem map_ram_get_for_event_header {header : vdev_ioctl_hw_header} {out : evr_ioctl_out}
    (hheader : ∀ args, arg.pulse_map_ram_for_event = some args → args.header = header)
    (hout : (evr_pulse_map_ram_get_for_event hw res_pulsegen arg).2.2 = some out) :
    out.header = some header := by
  unfold evr_pulse_map_ram_get_for_event at hout
  by_cases htype : res_pulsegen.type = EVR_RES_TYPE_PULSEGEN
  · rw [if_neg (not_not_intro htype)] at hout
    cases hargs : arg.pulse_map_ram_for_event with
    | none =>
      rw [hargs] at hout
      cases hout
    | some args =>
      rw [hargs] at hout
      cases hindex : pulsegen_index hw res_pulsegen with
      | none =>
        rw [hindex] at hout
        cases hout
      | some index =>
        rw [hindex] at hout
        dsimp only at hout
        rw [copy_out_copied] at hout
        split_ifs at hout
        obtain rfl := Option.some.inj hout
        exact congrArg some (hheader args hargs)
  · rw [if_pos htype] at hout
    cases hout

end

section

variable (sim : evr_sim) (resources : hw_resources) (copy_to_user : Bool) (stack : get_locals)

theorem evr_sim_status_copied :
    (evr_sim_ioctl_get sim resources VEVR_IOC_STATUS_GET copy_to_user stack).2.2 =
      if copy_to_user = true then
        some (.status
          { header := stack.locals.status_header
            status :=
              { fpga_version := 0
                irq_flags := (evr_sim_read_irqflag sim).1
                seconds_shift := 0 } })
      else none := by
  rw [evr_sim_ioctl_get, if_pos rfl]
  dsimp only
  split_ifs
  · rfl
  · rfl

theorem evr_sim_param_copied {cmd : ioctl_cmd} (hstatus : cmd ≠ VEVR_IOC_STATUS_GET) :
    (evr_sim_ioctl_get sim resources cmd copy_to_user stack).2.2 =
      if copy_to_user = true ∧ resources.1.type = EVR_RES_TYPE_PULSEGEN ∧
          cmd = VEVR_IOC_PULSE_PARAM_GET then
        some (.pulse_param
          { header := stack.locals.pulse_param_header
            params :=
              (evr_sim_get_pulsegen_param sim resources.1.index).getD stack.params })
      else none := by
  rw [evr_sim_ioctl_get, if_neg hstatus]
  by_cases htype : resources.1.type = EVR_RES_TYPE_PULSEGEN
  · rw [if_neg (not_not_intro htype)]
    by_cases hparam : cmd = VEVR_IOC_PULSE_PARAM_GET
    · rw [if_pos hparam]
      by_cases hcopy : copy_to_user = true
      · rw [if_pos hcopy, if_pos ⟨hcopy, htype, hparam⟩]
      · have hnot : ¬ (copy_to_user = true ∧ resources.1.type = EVR_RES_TYPE_PULSEGEN ∧
            cmd = VEVR_IOC_PULSE_PARAM_GET) := fun h => hcopy h.1
        rw [if_neg hcopy, if_neg hnot]
    · rw [if_neg hparam, if_neg fun h => hparam h.2.2]
  · rw [if_pos htype, if_neg fun h => htype h.2.1]

end

/-- What a reading ioctl copies is made of the request and the device, with the user's header,
exactly when it does not get to copy a structure that it has filled in part. -/
theorem get_stack_independent_iff (card : evr_card P) (resources : hw_resources)
    {cmd : ioctl_cmd} (hcmd : vevr_get_cmd cmd) (arg : evr_ioctl_arg)
    {header : vdev_ioctl_hw_header}
    (hheader : ∀ args, arg.pulse_map_ram_for_event = some args → args.header = header) :
    StackIndependent (copied_to_user card resources cmd arg) header ↔
      ¬ CopiesLocals card resources cmd arg := by
  have hdiffer : (⟨⟨0, 0⟩⟩ : vdev_ioctl_hw_header) ≠ ⟨⟨1, 0⟩⟩ := by decide
  have hstacks : ∀ hdr : get_locals → vdev_ioctl_hw_header,
      (∀ header, hdr (stack_of_header header) = header) →
      ∃ stack stack', hdr stack ≠ hdr stack' := by
    intro hdr hhdr
    refine ⟨stack_of_header ⟨⟨0, 0⟩⟩, stack_of_header ⟨⟨1, 0⟩⟩, ?_⟩
    rw [hhdr, hhdr]
    exact hdiffer
  cases card with
  | real hw =>
    cases hcmd with
    | status =>
      have hiff : CopiesLocals (.real hw) resources VEVR_IOC_STATUS_GET arg ↔
          arg.copy_to_user = true := and_iff_left (.inl rfl)
      have hioctl : ∀ stack, copied_to_user (.real hw) resources VEVR_IOC_STATUS_GET arg stack =
          if arg.copy_to_user = true then
            some (.status
              { header := stack.locals.status_header
                status :=
                  { fpga_version := hw.io.reg32 EVR_REG_FW_VERSION
                    irq_flags := hw.io.reg32 EVR_REG_IRQFLAG
                    seconds_shift := hw.io.reg32 EVR_REG_SECONDS_SHIFT } })
          else none := by
        intro stack
        rw [copied_to_user, ioctl_status_get, evr_status_get]
        exact copy_out_copied _ _ _
      rw [hiff]
      refine stackIndependent_iff_of_header (fun stack => stack.locals.status_header) ?_ ?_
        (hstacks _ fun _ => rfl) header
      · intro hcopy stack
        rw [hioctl, if_pos hcopy]
        exact ⟨_, rfl, rfl⟩
      · intro hcopy stack
        rw [hioctl, if_neg hcopy]
    | pulse_param =>
      apply pulsegen_get_stack_independent_iff (.inl rfl) (by decide)
        (fun stack => stack.locals.pulse_param_header) (fun stack => ioctl_pulse_param_get _ _ _)
      · intro stack index
        rfl
      · exact hstacks _ fun _ => rfl
    | pulse_prop =>
      apply pulsegen_get_stack_independent_iff (.inr (.inl rfl)) (by decide)
        (fun stack => stack.locals.pulse_prop_header) (fun stack => ioctl_pulse_prop_get _ _ _)
      · intro stack index
        rfl
      · exact hstacks _ fun _ => rfl
    | pulse_map_ram =>
      apply pulsegen_get_stack_independent_iff (.inr (.inr rfl)) (by decide)
        (fun stack => stack.locals.pulse_map_ram_header)
        (fun stack => ioctl_pulse_map_ram_get _ _ _)
      · intro stack index
        rfl
      · exact hstacks _ fun _ => rfl
    | pulse_map_ram_for_event =>
      refine iff_of_true ⟨fun stack stack' => ?_, fun stack out hout => ?_⟩ ?_
      · rw [copied_to_user, copied_to_user, ioctl_pulse_map_ram_get_for_event,
          ioctl_pulse_map_ram_get_for_event]
        exact map_ram_get_for_event_copied hw resources.1 arg stack.locals stack'.locals
      · rw [copied_to_user, ioctl_pulse_map_ram_get_for_event] at hout
        exact map_ram_get_for_event_header hheader hout
      · rintro ⟨-, h | ⟨h | h | h, -⟩⟩
        · exact absurd h (by decide)
        · exact absurd h (by decide)
        · exact absurd h (by decide)
        · exact absurd h (by decide)
  | sim sim =>
    by_cases hstatus : cmd = VEVR_IOC_STATUS_GET
    · subst hstatus
      refine stackIndependent_iff_of_header (fun stack => stack.locals.status_header)
        (fun h stack => ?_) (fun h stack => ?_) (hstacks _ fun _ => rfl) header
      · rw [copied_to_user, evr_sim_status_copied, if_pos h.1]
        exact ⟨_, rfl, rfl⟩
      · rw [copied_to_user, evr_sim_status_copied, if_neg fun hcopy => h ⟨hcopy, .inl rfl⟩]
    · refine stackIndependent_iff_of_header (fun stack => stack.locals.pulse_param_header)
        (fun h stack => ?_) (fun h stack => ?_) (hstacks _ fun _ => rfl) header
      · obtain ⟨hcopy, hget⟩ := h
        have hparam := hget.resolve_left hstatus
        rw [copied_to_user, evr_sim_param_copied sim resources _ stack hstatus,
          if_pos ⟨hcopy, hparam.2, hparam.1⟩]
        exact ⟨_, rfl, rfl⟩
      · have hnot : ¬ (arg.copy_to_user = true ∧ resources.1.type = EVR_RES_TYPE_PULSEGEN ∧
            cmd = VEVR_IOC_PULSE_PARAM_GET) :=
          fun ⟨hcopy, htype, hparam⟩ => h ⟨hcopy, .inr ⟨hparam, htype⟩⟩
        rw [copied_to_user, evr_sim_param_copied sim resources _ stack hstatus, if_neg hnot]

/-- Two stacks, two headers for the user. -/
theorem status_get_shows_stack :
    ¬ StackIndependent (copied_to_user (.real slac_card) (modac_rm_vres_none, modac_rm_vres_none)
      VEVR_IOC_STATUS_GET misc_func_0x10005) ⟨⟨MODAC_RES_TYPE_NONE, -1⟩⟩ := by
  intro h
  have hout : copied_to_user (.real slac_card) (modac_rm_vres_none, modac_rm_vres_none)
      VEVR_IOC_STATUS_GET misc_func_0x10005 (stack_of_header ⟨⟨0, 0⟩⟩) =
      some (.status { header := ⟨⟨0, 0⟩⟩, status := ⟨0, 0, 0⟩ }) := rfl
  exact absurd (h.header _ _ hout) (by decide)

/-- The user asks for the actions of the event 40. -/
def map_ram_of_event_40 : evr_ioctl_arg :=
  { misc_func_0x10005 with
    pulse_map_ram_for_event := some
      { header := ⟨⟨EVR_RES_TYPE_PULSEGEN, 0⟩⟩, event_code := 40, map := 0, padding := 0 } }

theorem get_stack_independent_event_40 :
    StackIndependent (copied_to_user (.real slac_card)
      (⟨EVR_RES_TYPE_PULSEGEN, 0⟩, modac_rm_vres_none) VEVR_IOC_PULSE_MAP_RAM_GET_FOR_EVENT
      map_ram_of_event_40) ⟨⟨EVR_RES_TYPE_PULSEGEN, 0⟩⟩ := by
  refine (get_stack_independent_iff (.real slac_card) _ .pulse_map_ram_for_event
    map_ram_of_event_40 ?_).mpr ?_
  · rintro args hargs
    obtain rfl := Option.some.inj hargs
    rfl
  · rintro ⟨-, h | ⟨h | h | h, -⟩⟩
    · exact absurd h (by decide)
    · exact absurd h (by decide)
    · exact absurd h (by decide)
    · exact absurd h (by decide)

end evrma.evr
