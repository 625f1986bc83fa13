import Evrma.Rm.Runs

namespace evrma.rm

open evrma.ioctl evrma.lib

/-- What the calls of the resource manager do in a state. -/
structure RmExact (hw_res_defs : List modac_hw_res_def) (rm : res_data) : Prop where
  one_owner : ∀ o o' t i, rm.owns o t i → rm.owns o' t i → o = o'
  alloc_ok : ∀ (owner : Nat) resource_name fixed_inx arg_filters rm' index vres_desc,
    modac_rm_alloc rm owner resource_name fixed_inx arg_filters = (rm', .ok (index, vres_desc)) →
    modac_rm_get_owner rm' vres_desc = owner ∧
      ∀ other, other ≠ vres_desc → modac_rm_get_owner rm' other = modac_rm_get_owner rm other
  alloc_failed : ∀ (owner : Nat) resource_name fixed_inx arg_filters rm' err,
    modac_rm_alloc rm owner resource_name fixed_inx arg_filters = (rm', .error err) → rm' = rm
  fixed_in_use : ∀ (owner : Nat) resource_name fixed_inx arg_filters,
    fixed_inx ≠ MODAC_RM_ALLOC_FROM_POOL →
    ((modac_rm_alloc rm owner resource_name fixed_inx arg_filters).2 = .error (-EADDRINUSE) ↔
      ∃ vres_desc, Named hw_res_defs resource_name fixed_inx vres_desc ∧
        0 ≤ modac_rm_get_owner rm vres_desc)
  fixed_missing : ∀ (owner : Nat) resource_name fixed_inx arg_filters,
    fixed_inx ≠ MODAC_RM_ALLOC_FROM_POOL →
    ((modac_rm_alloc rm owner resource_name fixed_inx arg_filters).2 = .error (-EACCES) ↔
      ¬ ∃ vres_desc, Named hw_res_defs resource_name fixed_inx vres_desc)
  freed : ∀ (owner : Nat) vres_desc,
    modac_rm_get_owner (modac_rm_free_owner rm owner) vres_desc =
      if modac_rm_get_owner rm vres_desc = owner then -EACCES
      else modac_rm_get_owner rm vres_desc
  get_owner_undefined : ∀ vres_desc,
    modac_rm_get_owner rm vres_desc = -EINVAL ↔ ¬ Defined hw_res_defs vres_desc
  get_owner_defined : ∀ t i : Nat, Defined hw_res_defs ⟨t, i⟩ →
    ∃ o, rm.owns o t i ∧ modac_rm_get_owner rm ⟨t, i⟩ = if o = NO_OWNER then -EACCES else o

/-- A resource stays with its owner unless the owner frees what it has. -/
def KeepsOwner (rm : res_data) (a : rm_op) : Prop :=
  ∀ rm' vres_desc (o : Nat), rm_step rm a = some rm' → modac_rm_get_owner rm vres_desc = o →
    modac_rm_get_owner rm' vres_desc = if a.leaves = some o then -EACCES else (o : Int)

section

variable {hw_res_defs : List modac_hw_res_def} {rm : res_data}

/-- The types of two entries with the requested name are the same. -/
theorem RmInv.found_unique (h : RmInv hw_res_defs rm) (hnames : NamesDistinct hw_res_defs)
    {resource_name : List (BitVec 8)} {r : res_state} (hr : r ∈ rm.res_states)
    (hname : STRINGS_EQUAL r.hw_res_def.name resource_name = true) {t : Nat}
    {d : modac_hw_res_def} (hd : hw_res_defs[t]? = some d)
    (hname' : STRINGS_EQUAL d.name resource_name = true) : r.hw_res_def.type = t := by
  obtain ⟨d', hd', heq⟩ := h.named r hr
  rw [heq] at hname
  simp only [STRINGS_EQUAL, decide_eq_true_eq] at hname hname'
  obtain ⟨hlt, hget⟩ := List.getElem?_eq_some_iff.mp hd
  obtain ⟨hlt', hget'⟩ := List.getElem?_eq_some_iff.mp hd'
  have hsame : (hw_res_defs.map fun d => c_string d.name)[r.hw_res_def.type]? =
      (hw_res_defs.map fun d => c_string d.name)[t]? := by
    rw [List.getElem?_map, List.getElem?_map, hd, hd', Option.map_some, Option.map_some, hname,
      hname']
  exact (List.getElem?_inj (by simpa using hlt') hnames).mp hsame

/-- An entry that is found by its name and its index is the one of the definitions. -/
theorem RmInv.named_of_found (h : RmInv hw_res_defs rm) {resource_name : List (BitVec 8)}
    {fixed_inx : Int} {r : res_state} (hr : r ∈ rm.res_states)
    (hname : STRINGS_EQUAL r.hw_res_def.name resource_name = true)
    (hindex : (r.array_index : Int) = fixed_inx) :
    Named hw_res_defs resource_name fixed_inx ⟨r.hw_res_def.type, r.array_index⟩ := by
  obtain ⟨d, hd, heq⟩ := h.named r hr
  have hhas : rm.has r.hw_res_def.type r.array_index := List.mem_map_of_mem hr
  obtain ⟨d', hd', hi⟩ := (h.has_iff _ _).mp hhas
  rw [hd] at hd'
  obtain rfl := Option.some.inj hd'
  exact ⟨_, _, d, rfl, hindex.symm, hd, hi, heq ▸ hname⟩

/-- A resource of the definitions is found by its name and its index. -/
theorem RmInv.found_of_named (h : RmInv hw_res_defs rm) {resource_name : List (BitVec 8)}
    {fixed_inx : Int} {vres_desc : modac_rm_vres_desc}
    (hnamed : Named hw_res_defs resource_name fixed_inx vres_desc) :
    ∃ r ∈ rm.res_states, STRINGS_EQUAL r.hw_res_def.name resource_name = true ∧
      (r.array_index : Int) = fixed_inx ∧ vres_desc = ⟨r.hw_res_def.type, r.array_index⟩ := by
  obtain ⟨t, i, d, rfl, rfl, hd, hi, hname⟩ := hnamed
  obtain ⟨r, hr, hkey⟩ := List.mem_map.mp ((h.has_iff t i).mpr ⟨d, hd, hi⟩)
  obtain ⟨htype, hindex⟩ := Prod.mk.inj hkey
  obtain ⟨d', hd', heq⟩ := h.named r hr
  rw [htype, hd] at hd'
  obtain rfl := Option.some.inj hd'
  exact ⟨r, hr, heq ▸ hname, by rw [hindex], by rw [htype, hindex]⟩

/-- What `modac_rm_alloc` returns for a fixed index. -/
theorem RmInv.alloc_fixed (h : RmInv hw_res_defs rm) (owner : Nat)
    (resource_name : List (BitVec 8)) {fixed_inx : Int}
    (arg_filters : Vector Int MNG_DEV_IOCTL_RES_ARG_FILTER_MAX_COUNT)
    (hfixed : fixed_inx ≠ MODAC_RM_ALLOC_FROM_POOL) :
    let ret := (modac_rm_alloc rm owner resource_name fixed_inx arg_filters).2
    (∃ vres_desc, Named hw_res_defs resource_name fixed_inx vres_desc ∧
      0 ≤ modac_rm_get_owner rm vres_desc ∧ ret = .error (-EADDRINUSE)) ∨
    (∃ vres_desc, Named hw_res_defs resource_name fixed_inx vres_desc ∧
      modac_rm_get_owner rm vres_desc < 0 ∧ ∃ result, ret = .ok result) ∨
    ((¬ ∃ vres_desc, Named hw_res_defs resource_name fixed_inx vres_desc) ∧
      ret = .error (-EACCES)) := by
  intro ret
  obtain ⟨r, hr, ⟨hname, hindex⟩, howned, hresult⟩ | ⟨r, hr, ⟨hname, hindex⟩, hfree, index, hresult⟩ |
      ⟨hnone, hresult⟩ := alloc_loop_fixed arg_filters hfixed rm.res_states 0 0
  · refine .inl ⟨_, h.named_of_found hr hname hindex, ?_, ?_⟩
    · rw [modac_rm_get_owner_of_owns ⟨r, hr, rfl, rfl⟩, if_neg howned]
      exact (h.owner hr).resolve_left howned
    · simp only [ret, modac_rm_alloc, hresult]
  · refine .inr (.inl ⟨_, h.named_of_found hr hname hindex, ?_, ?_⟩)
    · rw [modac_rm_get_owner_of_owns ⟨r, hr, rfl, rfl⟩, if_pos hfree]
      decide
    · obtain hbest | ⟨k, r', hk, hindex', -⟩ := alloc_loop_ok hresult
      · cases hbest
      · rw [Nat.zero_add] at hindex'
        subst hindex'
        simp only [ret, modac_rm_alloc, hresult, hk]
        exact ⟨_, rfl⟩
  · refine .inr (.inr ⟨?_, ?_⟩)
    · rintro ⟨vres_desc, hnamed⟩
      obtain ⟨r, hr, hname, hindex, -⟩ := h.found_of_named hnamed
      exact hnone r hr ⟨hname, hindex⟩
    · simp only [ret, modac_rm_alloc, hresult]

/-- A name and an index stand for one resource. -/
theorem RmInv.named_unique (h : RmInv hw_res_defs rm) (hnames : NamesDistinct hw_res_defs)
    {resource_name : List (BitVec 8)} {fixed_inx : Int} {vres_desc other : modac_rm_vres_desc}
    (hnamed : Named hw_res_defs resource_name fixed_inx vres_desc)
    (hother : Named hw_res_defs resource_name fixed_inx other) : vres_desc = other := by
  obtain ⟨r, hr, hname, hindex, rfl⟩ := h.found_of_named hnamed
  obtain ⟨t, i, d, rfl, hi, hd, -, hname'⟩ := hother
  rw [h.found_unique hnames hr hname hd hname', hindex, hi]

theorem RmInv.exact (h : RmInv hw_res_defs rm) (hnames : NamesDistinct hw_res_defs) :
    RmExact hw_res_defs rm where
  one_owner o o' t i := res_data.owns_unique
  alloc_ok owner resource_name fixed_inx arg_filters rm' index vres_desc halloc := by
    have h' : RmInv hw_res_defs rm' := by
      apply h.step (a := .alloc owner resource_name fixed_inx arg_filters)
      rw [rm_step, halloc]
    obtain ⟨err, hfail⟩ | ⟨rm'', index', vres_desc', hok, -, hseize⟩ :=
      modac_rm_alloc_seizes rm owner resource_name fixed_inx arg_filters
    · rw [hfail] at halloc
      cases halloc
    · rw [hok] at halloc
      obtain ⟨rfl, hindex⟩ := Prod.mk.inj halloc
      obtain ⟨rfl, rfl⟩ := Prod.mk.inj (Except.ok.inj hindex)
      constructor
      · apply owner_of_eq_some.mp
        rw [hseize, Ownership.seize, Function.update_self]
      · intro other hne
        apply h.get_owner_congr h'
        rw [hseize, Ownership.seize, Function.update_of_ne hne]
  alloc_failed owner resource_name fixed_inx arg_filters rm' err halloc := by
    obtain ⟨err', hfail⟩ | ⟨rm'', index, vres_desc, hok, -⟩ :=
      modac_rm_alloc_seizes rm owner resource_name fixed_inx arg_filters
    · rw [hfail] at halloc
      exact (Prod.mk.inj halloc).1.symm
    · rw [hok] at halloc
      cases halloc
  fixed_in_use owner resource_name fixed_inx arg_filters hfixed := by
    obtain ⟨vres_desc, hnamed, howned, hret⟩ | ⟨vres_desc, hnamed, hfree, result, hret⟩ |
        ⟨hnone, hret⟩ := h.alloc_fixed owner resource_name arg_filters hfixed
    · rw [hret]
      exact iff_of_true rfl ⟨vres_desc, hnamed, howned⟩
    · rw [hret]
      refine iff_of_false (by simp) ?_
      rintro ⟨other, hother, howned⟩
      obtain rfl := h.named_unique hnames hnamed hother
      omega
    · rw [hret]
      refine iff_of_false (by simp [EACCES, EADDRINUSE]) ?_
      rintro ⟨other, hother, -⟩
      exact hnone ⟨other, hother⟩
  fixed_missing owner resource_name fixed_inx arg_filters hfixed := by
    obtain ⟨vres_desc, hnamed, howned, hret⟩ | ⟨vres_desc, hnamed, hfree, result, hret⟩ |
        ⟨hnone, hret⟩ := h.alloc_fixed owner resource_name arg_filters hfixed
    · rw [hret]
      exact iff_of_false (by simp [EACCES, EADDRINUSE]) (not_not.mpr ⟨vres_desc, hnamed⟩)
    · rw [hret]
      exact iff_of_false (by simp) (not_not.mpr ⟨vres_desc, hnamed⟩)
    · rw [hret]
      exact iff_of_true rfl hnone
  freed owner vres_desc := by
    have h' : RmInv hw_res_defs (modac_rm_free_owner rm owner) :=
      h.step (a := .free_owner owner) rfl
    have hrelease := congrFun (modac_rm_free_owner_releases rm owner) vres_desc
    rw [Ownership.release] at hrelease
    by_cases howner : modac_rm_get_owner rm vres_desc = owner
    · rw [if_pos howner]
      rw [if_pos (owner_of_eq_some.mpr howner)] at hrelease
      have hneg := owner_of_eq_none.mp hrelease
      obtain ⟨t, i, heq, howns⟩ := (modac_rm_get_owner_eq_iff (Int.natCast_nonneg owner)).mp howner
      have hdef := h.defined_iff.mpr (res_data.has_of_owns howns)
      obtain ⟨hnot, -⟩ | ⟨t', i', o, -, -, -, hval⟩ := h'.get_owner_cases vres_desc
      · exact absurd (heq ▸ hdef) hnot
      · omega
    · rw [if_neg howner]
      apply h.get_owner_congr h'
      rw [hrelease, if_neg fun heq => howner (owner_of_eq_some.mp heq)]
  get_owner_undefined vres_desc := by
    have hinval : (-EINVAL : Int) = -22 := rfl
    have haccess : (-EACCES : Int) = -13 := rfl
    obtain ⟨hnot, hval⟩ | ⟨t, i, o, -, hdef, -, hval⟩ := h.get_owner_cases vres_desc
    · exact iff_of_true hval hnot
    · refine iff_of_false ?_ (not_not.mpr hdef)
      omega
  get_owner_defined t i hdef := by
    obtain ⟨o, howns⟩ := res_data.owns_of_has (h.defined_iff.mp hdef)
    exact ⟨o, howns, modac_rm_get_owner_of_owns howns⟩

end

theorem RmInv.keepsOwner {hw_res_defs : List modac_hw_res_def} {rm : res_data}
    (h : RmInv hw_res_defs rm) (a : rm_op) : KeepsOwner rm a := by
  intro rm' vres_desc o hstep howner
  have h' := h.step hstep
  have hkeeps := (rm_step_owner hstep).keeps (owner_of_eq_some.mpr howner)
  by_cases hleaves : a.leaves = some o
  · rw [if_pos hleaves] at hkeeps ⊢
    have hneg := owner_of_eq_none.mp hkeeps
    obtain ⟨t, i, rfl, howns⟩ := (modac_rm_get_owner_eq_iff (Int.natCast_nonneg o)).mp howner
    have hdef := h.defined_iff.mpr (res_data.has_of_owns howns)
    obtain ⟨hnot, -⟩ | ⟨t', i', o', -, -, -, hval⟩ := h'.get_owner_cases ⟨t, i⟩
    · exact absurd hdef hnot
    · omega
  · rw [if_neg hleaves] at hkeeps ⊢
    exact owner_of_eq_some.mp hkeeps

/-- Whatever is allocated and freed after `modac_rm_init`: a resource has one owner and
keeps it until the owner frees it, an allocation changes the owner of one free resource
or nothing, and the errors say what is the case. -/
theorem resources_exclusive {hw_res_defs : List modac_hw_res_def} {kmalloc : Bool}
    {rm : res_data} (hnames : NamesDistinct hw_res_defs)
    (hinit : modac_rm_init hw_res_defs kmalloc = .ok rm) (ops : List rm_op) :
    StatesMeet rm_step (RmExact hw_res_defs) rm ops ∧ StepsMeet rm_step KeepsOwner rm ops := by
  have hkeep : ∀ rm a rm', RmInv hw_res_defs rm → rm_step rm a = some rm' →
      RmInv hw_res_defs rm' := by
    intro rm a rm' h hstep
    exact h.step hstep
  constructor
  · exact statesMeet_of_invariant (fun _ h => h.exact hnames) hkeep (rmInv_init hinit) ops
  · exact stepsMeet_of_invariant hkeep (fun _ a _ h _ => h.keepsOwner a) (rmInv_init hinit) ops

/-- Two pulse generators and no output. -/
def two_res_defs : List modac_hw_res_def :=
  [⟨[0x70], 0, 2, fun _ _ => 1⟩, ⟨[0x6f], 0, 0, fun _ _ => 1⟩]

theorem resources_exclusive_two :
    ∃ rm, modac_rm_init two_res_defs true = .ok rm ∧
      StatesMeet rm_step (RmExact two_res_defs) rm
        [.alloc 1 [0x70] 1 (Vector.replicate _ 0), .free_owner 1] ∧
      StepsMeet rm_step KeepsOwner rm
        [.alloc 1 [0x70] 1 (Vector.replicate _ 0), .free_owner 1] := by
  have hinit : modac_rm_init two_res_defs true = .ok _ := rfl
  exact ⟨_, hinit, resources_exclusive (by decide) hinit _⟩

/-- A resource that is free is in the table, but has no owner to be returned. -/
theorem get_owner_of_free_fails :
    ¬ ∀ (hw_res_defs : List modac_hw_res_def) (rm : res_data) (ops : List rm_op),
      NamesDistinct hw_res_defs → modac_rm_init hw_res_defs true = .ok rm →
      StatesMeet rm_step (fun rm => ∀ vres_desc,
        0 ≤ modac_rm_get_owner rm vres_desc ↔ Defined hw_res_defs vres_desc) rm ops := by
  intro h
  have hiff := (h two_res_defs _ [] (by decide) rfl).head ⟨0, 0⟩
  have hdef : Defined two_res_defs ⟨0, 0⟩ := ⟨0, 0, _, rfl, rfl, by decide⟩
  exact absurd (hiff.mpr hdef) (by decide)

end evrma.rm
