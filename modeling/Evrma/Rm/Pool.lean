import Evrma.Lib.FirstMax
import Evrma.Rm.Runs

namespace evrma.rm

open evrma.ioctl evrma.lib

section

variable (resource_name : List (BitVec 8))
  (arg_filters : Vector Int MNG_DEV_IOCTL_RES_ARG_FILTER_MAX_COUNT)

/-- How suitable an entry of the table is, 0 where it is not to be had. -/
def res_state.suitability (r : res_state) : Int :=
  if STRINGS_EQUAL r.hw_res_def.name resource_name = true ∧ r.owner = NO_OWNER then
    r.hw_res_def.suits r.array_index arg_filters
  else 0

/-- From the pool the loop of `modac_rm_alloc` looks for the first largest suitability. -/
theorem alloc_loop_pool {states : List res_state} {i : Nat} {max_suitability : Int}
    {best : Option Nat} (hmax : 0 ≤ max_suitability) :
    alloc_loop resource_name MODAC_RM_ALLOC_FROM_POOL arg_filters states i max_suitability best =
      match first_max (states.map (res_state.suitability resource_name arg_filters)) i
          max_suitability best with
      | some index => .ok index
      | none => .error (-EACCES) := by
  induction states generalizing i max_suitability best with
  | nil => rfl
  | cons r rest ih =>
    rw [alloc_loop, List.map_cons, first_max, if_pos rfl]
    by_cases hname : STRINGS_EQUAL r.hw_res_def.name resource_name = true
    · rw [if_neg (by rw [hname]; decide)]
      by_cases hfree : r.owner = NO_OWNER
      · have hsuits : r.suitability resource_name arg_filters =
            r.hw_res_def.suits r.array_index arg_filters := if_pos ⟨hname, hfree⟩
        rw [if_neg (not_not.mpr hfree), hsuits]
        by_cases hle : r.hw_res_def.suits r.array_index arg_filters ≤ max_suitability
        · rw [if_pos hle, if_pos hle]
          exact ih hmax
        · rw [if_neg hle, if_neg hle]
          apply ih
          omega
      · have hzero : r.suitability resource_name arg_filters = 0 := if_neg fun h => hfree h.2
        rw [if_pos hfree, hzero, if_pos hmax]
        exact ih hmax
    · have hzero : r.suitability resource_name arg_filters = 0 := if_neg fun h => hname h.1
      rw [if_pos (Bool.eq_false_iff.mpr hname), hzero, if_pos hmax]
      exact ih hmax

/-- An allocation from the pool fails when nothing suits, and else seizes the first of
the most suitable entries. -/
theorem modac_rm_alloc_pool (rm : res_data) (owner : Int) :
    ((∀ r ∈ rm.res_states, r.suitability resource_name arg_filters ≤ 0) ∧
      modac_rm_alloc rm owner resource_name MODAC_RM_ALLOC_FROM_POOL arg_filters =
        (rm, .error (-EACCES))) ∨
    ∃ index r, rm.res_states[index]? = some r ∧
      0 < r.suitability resource_name arg_filters ∧
      FirstMax (rm.res_states.map (res_state.suitability resource_name arg_filters)) index
        (r.suitability resource_name arg_filters) ∧
      modac_rm_alloc rm owner resource_name MODAC_RM_ALLOC_FROM_POOL arg_filters =
        (set_owners rm fun k r => if k = index then owner else r.owner,
          .ok (index, { type := r.hw_res_def.type, index := r.array_index })) := by
  unfold modac_rm_alloc
  rw [alloc_loop_pool resource_name arg_filters (Int.le_refl 0)]
  by_cases hsome : ∃ s ∈ rm.res_states.map (res_state.suitability resource_name arg_filters),
      0 < s
  · obtain ⟨index, s, hscan, hpos, hfirst⟩ := first_max_of_lt 0 none hsome
    rw [Nat.zero_add] at hscan
    have hget := hfirst.get
    rw [List.getElem?_map] at hget
    obtain ⟨r, hr, rfl⟩ := Option.map_eq_some_iff.mp hget
    refine .inr ⟨index, r, hr, hpos, hfirst, ?_⟩
    simp only [hscan, hr]
  · have hle : ∀ s ∈ rm.res_states.map (res_state.suitability resource_name arg_filters),
        s ≤ 0 := fun s hs => Int.not_lt.mp fun hlt => hsome ⟨s, hs, hlt⟩
    refine .inl ⟨?_, ?_⟩
    · intro r hr
      exact hle _ (List.mem_map_of_mem hr)
    · rw [first_max_of_le hle]

end

/-- An entry of the table without its owner. -/
def res_state.entry (r : res_state) : modac_hw_res_def × Nat := (r.hw_res_def, r.array_index)

/-- The table of these definitions, whoever owns the resources. -/
def TableOf (hw_res_defs : List modac_hw_res_def) (rm : res_data) : Prop :=
  rm.res_states.map res_state.entry = (fill_states 0 hw_res_defs).map res_state.entry

theorem tableOf_set_owners {hw_res_defs : List modac_hw_res_def} {rm : res_data}
    (h : TableOf hw_res_defs rm) (f : Nat → res_state → Int) :
    TableOf hw_res_defs (set_owners rm f) := by
  rw [TableOf, ← h]
  ext1 k
  simp only [set_owners, List.getElem?_map, List.getElem?_mapIdx, Option.map_map]
  rfl

theorem tableOf_init {hw_res_defs : List modac_hw_res_def} {kmalloc : Bool} {rm : res_data}
    (h : modac_rm_init hw_res_defs kmalloc = .ok rm) : TableOf hw_res_defs rm := by
  unfold modac_rm_init at h
  split_ifs at h
  simp only [Except.ok.injEq] at h
  subst h
  rfl

theorem tableOf_step {hw_res_defs : List modac_hw_res_def} {rm rm' : res_data} {a : rm_op}
    (h : TableOf hw_res_defs rm) (hstep : rm_step rm a = some rm') : TableOf hw_res_defs rm' := by
  cases a with
  | alloc owner resource_name fixed_inx arg_filters =>
    obtain rfl := Option.some.inj hstep
    unfold modac_rm_alloc
    split
    · exact h
    · split
      · exact h
      · exact tableOf_set_owners h _
  | free_owner owner =>
    obtain rfl := Option.some.inj hstep
    exact tableOf_set_owners h _
  | get_owner vres_desc =>
    obtain rfl := Option.some.inj hstep
    exact h

/-- The table is the one of the definitions in every run of the resource manager. -/
theorem tableOf_run {hw_res_defs : List modac_hw_res_def} {kmalloc : Bool} {rm rm' : res_data}
    {ops : List rm_op} (h : modac_rm_init hw_res_defs kmalloc = .ok rm)
    (hrun : run rm_step rm ops = some rm') : TableOf hw_res_defs rm' :=
  run_invariant (fun _ _ _ hs hstep => tableOf_step hs hstep) hrun (tableOf_init h)

end evrma.rm
