import Evrma.Lib.Ownership
import Evrma.Lib.Run
import Evrma.Rm.Alloc

namespace evrma.rm

open evrma.ioctl evrma.lib

/-- The calls of the resource manager after `modac_rm_init`. -/
inductive rm_op where
  | alloc (owner : Nat) (resource_name : List (BitVec 8)) (fixed_inx : Int)
      (arg_filters : Vector Int MNG_DEV_IOCTL_RES_ARG_FILTER_MAX_COUNT)
  | free_owner (owner : Nat)
  | get_owner (vres_desc : modac_rm_vres_desc)

def rm_step (rm : res_data) : rm_op → Option res_data
  | .alloc owner resource_name fixed_inx arg_filters =>
    some (modac_rm_alloc rm owner resource_name fixed_inx arg_filters).1
  | .free_owner owner => some (modac_rm_free_owner rm owner)
  | .get_owner _ => some rm

/-- The description is a type of the definitions with an index below its count. -/
def Defined (hw_res_defs : List modac_hw_res_def) (vres_desc : modac_rm_vres_desc) : Prop :=
  ∃ (t i : Nat) (d : modac_hw_res_def),
    vres_desc = ⟨t, i⟩ ∧ hw_res_defs[t]? = some d ∧ i < d.count

/-- The resource that is asked for by its name and its index. -/
def Named (hw_res_defs : List modac_hw_res_def) (resource_name : List (BitVec 8))
    (fixed_inx : Int) (vres_desc : modac_rm_vres_desc) : Prop :=
  ∃ (t i : Nat) (d : modac_hw_res_def),
    vres_desc = ⟨t, i⟩ ∧ fixed_inx = i ∧ hw_res_defs[t]? = some d ∧ i < d.count ∧
      STRINGS_EQUAL d.name resource_name = true

/-- No two types have the same name. -/
def NamesDistinct (hw_res_defs : List modac_hw_res_def) : Prop :=
  (hw_res_defs.map fun d => c_string d.name).Nodup

instance (hw_res_defs : List modac_hw_res_def) : Decidable (NamesDistinct hw_res_defs) :=
  inferInstanceAs (Decidable (List.Nodup _))

/-- The table says what the definitions say, and the owners are owners. -/
structure RmInv (hw_res_defs : List modac_hw_res_def) (rm : res_data) : Prop where
  has_iff : ∀ t i, rm.has t i ↔ ∃ d, hw_res_defs[t]? = some d ∧ i < d.count
  named : ∀ r ∈ rm.res_states, ∃ d, hw_res_defs[r.hw_res_def.type]? = some d ∧
    r.hw_res_def.name = d.name
  owners : ∀ o t i, rm.owns o t i → o = NO_OWNER ∨ 0 ≤ o

theorem type_data_count (start : Nat) (defs : List modac_hw_res_def) (t : Nat) :
    ((type_data start defs)[t]?).map resource_type_data.res_state_count =
      (defs[t]?).map modac_hw_res_def.count := by
  induction defs generalizing start t with
  | nil => rfl
  | cons d defs ih =>
    cases t with
    | zero => rfl
    | succ t =>
      rw [type_data, List.getElem?_cons_succ, List.getElem?_cons_succ]
      exact ih _ t

/-- The entries of the table carry the names of the definitions. -/
theorem fill_states_named {ih : Nat} {defs : List modac_hw_res_def} {r : res_state}
    (hr : r ∈ fill_states ih defs) :
    ∃ t d, r.hw_res_def.type = ih + t ∧ defs[t]? = some d ∧ r.hw_res_def.name = d.name := by
  induction defs generalizing ih with
  | nil => cases hr
  | cons d defs ih' =>
    rw [fill_states, List.mem_append] at hr
    obtain hr | hr := hr
    · obtain ⟨ih2, -, rfl⟩ := List.mem_map.mp hr
      exact ⟨0, d, rfl, rfl, rfl⟩
    · obtain ⟨t, d', htype, hd', hname⟩ := ih' hr
      refine ⟨t + 1, d', ?_, ?_, hname⟩
      · omega
      · rw [List.getElem?_cons_succ]
        exact hd'

theorem rmInv_init {hw_res_defs : List modac_hw_res_def} {kmalloc : Bool} {rm : res_data}
    (h : modac_rm_init hw_res_defs kmalloc = .ok rm) : RmInv hw_res_defs rm := by
  have hfree := @modac_rm_init_owns hw_res_defs kmalloc rm h
  unfold modac_rm_init at h
  split_ifs at h
  simp only [Except.ok.injEq] at h
  subst h
  refine ⟨?_, ?_, ?_⟩
  · intro t i
    rw [res_data.has_iff]
    have hcount := type_data_count 0 hw_res_defs t
    dsimp only
    constructor
    · rintro ⟨td, htd, hi⟩
      rw [htd, Option.map_some] at hcount
      obtain ⟨d, hd, heq⟩ := Option.map_eq_some_iff.mp hcount.symm
      exact ⟨d, hd, by omega⟩
    · rintro ⟨d, hd, hi⟩
      rw [hd, Option.map_some] at hcount
      obtain ⟨td, htd, heq⟩ := Option.map_eq_some_iff.mp hcount
      exact ⟨td, htd, by omega⟩
  · intro r hr
    obtain ⟨t, d, htype, hd, hname⟩ := fill_states_named hr
    rw [Nat.zero_add] at htype
    exact ⟨d, by rw [htype, hd], hname⟩
  · intro o t i howns
    exact .inl (hfree howns)

/-- Only the owners change in the table. -/
theorem set_owners_has {rm : res_data} {f : Nat → res_state → Int} {t i : Nat} :
    (set_owners rm f).has t i ↔ rm.has t i := by
  simp only [res_data.has_iff]
  rfl

theorem RmInv.of_set_owners {hw_res_defs : List modac_hw_res_def} {rm : res_data}
    (h : RmInv hw_res_defs rm) {f : Nat → res_state → Int}
    (hf : ∀ k r, r ∈ rm.res_states → f k r = NO_OWNER ∨ 0 ≤ f k r) :
    RmInv hw_res_defs (set_owners rm f) where
  has_iff t i := set_owners_has.trans (h.has_iff t i)
  named r hr := by
    obtain ⟨k, hk⟩ := List.mem_iff_getElem?.mp hr
    simp only [set_owners, List.getElem?_mapIdx, Option.map_eq_some_iff] at hk
    obtain ⟨r', hr', rfl⟩ := hk
    exact h.named r' (List.mem_of_getElem? hr')
  owners o t i howns := by
    obtain ⟨k, r, hr, -, rfl⟩ := set_owners_owns.mp howns
    exact hf k r (List.mem_of_getElem? hr)

/-- The owner of an entry is an owner, or the entry is free. -/
theorem RmInv.owner {hw_res_defs : List modac_hw_res_def} {rm : res_data}
    (h : RmInv hw_res_defs rm) {r : res_state} (hr : r ∈ rm.res_states) :
    r.owner = NO_OWNER ∨ 0 ≤ r.owner :=
  h.owners r.owner r.key.1 r.key.2 ⟨r, hr, rfl, rfl⟩

theorem RmInv.step {hw_res_defs : List modac_hw_res_def} {rm rm' : res_data} {a : rm_op}
    (h : RmInv hw_res_defs rm) (hstep : rm_step rm a = some rm') : RmInv hw_res_defs rm' := by
  cases a with
  | alloc owner resource_name fixed_inx arg_filters =>
    obtain rfl := Option.some.inj hstep
    unfold modac_rm_alloc
    split
    · exact h
    · split
      · exact h
      · apply h.of_set_owners
        intro k r hr
        split_ifs
        · exact .inr (by omega)
        · exact h.owner hr
  | free_owner owner =>
    obtain rfl := Option.some.inj hstep
    apply h.of_set_owners
    intro k r hr
    split_ifs
    · exact .inl rfl
    · exact h.owner hr
  | get_owner vres_desc =>
    obtain rfl := Option.some.inj hstep
    exact h

section

variable {hw_res_defs : List modac_hw_res_def} {rm : res_data} (h : RmInv hw_res_defs rm)
include h

theorem RmInv.defined_iff {t i : Nat} : Defined hw_res_defs ⟨t, i⟩ ↔ rm.has t i := by
  rw [h.has_iff]
  constructor
  · rintro ⟨t', i', d, heq, hd, hi⟩
    obtain ⟨ht, hi'⟩ := modac_rm_vres_desc.mk.inj heq
    obtain rfl := Int.ofNat.inj ht
    obtain rfl := Int.ofNat.inj hi'
    exact ⟨d, hd, hi⟩
  · rintro ⟨d, hd, hi⟩
    exact ⟨t, i, d, rfl, hd, hi⟩

/-- What `modac_rm_get_owner` returns: the description is not defined, or it is free,
or it is owned. -/
theorem RmInv.get_owner_cases (vres_desc : modac_rm_vres_desc) :
    (¬ Defined hw_res_defs vres_desc ∧ modac_rm_get_owner rm vres_desc = -EINVAL) ∨
    ∃ (t i : Nat) (o : Int), vres_desc = ⟨t, i⟩ ∧ Defined hw_res_defs vres_desc ∧
      rm.owns o t i ∧ ((o = NO_OWNER ∧ modac_rm_get_owner rm vres_desc = -EACCES) ∨
        (0 ≤ o ∧ modac_rm_get_owner rm vres_desc = o)) := by
  by_cases hdef : Defined hw_res_defs vres_desc
  · right
    obtain ⟨t, i, d, rfl, hd, hi⟩ := hdef
    obtain ⟨o, howns⟩ := res_data.owns_of_has ((h.has_iff t i).mpr ⟨d, hd, hi⟩)
    refine ⟨t, i, o, rfl, ⟨t, i, d, rfl, hd, hi⟩, howns, ?_⟩
    rw [modac_rm_get_owner_of_owns howns]
    obtain rfl | ho := h.owners o t i howns
    · exact .inl ⟨rfl, if_pos rfl⟩
    · refine .inr ⟨ho, if_neg ?_⟩
      have hno : (NO_OWNER : Int) = -1 := rfl
      omega
  · left
    refine ⟨hdef, ?_⟩
    apply modac_rm_get_owner_of_not_has
    rintro t i rfl hhas
    exact hdef (h.defined_iff.mpr hhas)

end

/-- Who has which resource, as `modac_rm_get_owner` tells it. -/
def owner_of (rm : res_data) : Ownership modac_rm_vres_desc Nat := fun vres_desc =>
  if 0 ≤ modac_rm_get_owner rm vres_desc then some (modac_rm_get_owner rm vres_desc).toNat
  else none

theorem owner_of_eq_some {rm : res_data} {vres_desc : modac_rm_vres_desc} {o : Nat} :
    owner_of rm vres_desc = some o ↔ modac_rm_get_owner rm vres_desc = o := by
  unfold owner_of
  split_ifs with hle
  · rw [Option.some.injEq]
    omega
  · constructor
    · intro heq
      cases heq
    · intro heq
      omega

theorem owner_of_eq_none {rm : res_data} {vres_desc : modac_rm_vres_desc} :
    owner_of rm vres_desc = none ↔ modac_rm_get_owner rm vres_desc < 0 := by
  unfold owner_of
  split_ifs with hle
  · simp only [false_iff]
    omega
  · simp only [true_iff]
    omega

/-- The owner that lets go of its resources in a call. -/
def rm_op.leaves : rm_op → Option Nat
  | .free_owner owner => some owner
  | _ => none

/-- Where two tables of the same resources agree on who owns what, they agree on what
`modac_rm_get_owner` returns. -/
theorem RmInv.get_owner_congr {hw_res_defs : List modac_hw_res_def} {rm rm' : res_data}
    (h : RmInv hw_res_defs rm) (h' : RmInv hw_res_defs rm') {vres_desc : modac_rm_vres_desc}
    (heq : owner_of rm' vres_desc = owner_of rm vres_desc) :
    modac_rm_get_owner rm' vres_desc = modac_rm_get_owner rm vres_desc := by
  have hinval : (-EINVAL : Int) = -22 := rfl
  have haccess : (-EACCES : Int) = -13 := rfl
  cases howner : owner_of rm vres_desc with
  | some o =>
    rw [howner] at heq
    rw [owner_of_eq_some.mp heq, owner_of_eq_some.mp howner]
  | none =>
    rw [howner] at heq
    have hneg := owner_of_eq_none.mp heq
    have hneg' := owner_of_eq_none.mp howner
    obtain ⟨hnot, hval⟩ | ⟨t, i, o, -, hdef, -, hval⟩ := h.get_owner_cases vres_desc
    · obtain ⟨-, hval'⟩ | ⟨t', i', o', -, hdef', -⟩ := h'.get_owner_cases vres_desc
      · rw [hval, hval']
      · exact absurd hdef' hnot
    · obtain ⟨hnot', -⟩ | ⟨t', i', o', -, -, -, hval'⟩ := h'.get_owner_cases vres_desc
      · exact absurd hdef hnot'
      · omega

/-- The owner that an entry of the table has, through `owner_of`. -/
theorem owner_of_owns {rm : res_data} {t i : Nat} {o : Nat} :
    owner_of rm ⟨t, i⟩ = some o ↔ rm.owns o t i := by
  rw [owner_of_eq_some, modac_rm_get_owner_eq_iff (Int.natCast_nonneg o)]
  constructor
  · rintro ⟨t', i', heq, howns⟩
    obtain ⟨ht, hi⟩ := modac_rm_vres_desc.mk.inj heq
    obtain rfl := Int.ofNat.inj ht
    obtain rfl := Int.ofNat.inj hi
    exact howns
  · intro howns
    exact ⟨t, i, rfl, howns⟩

/-- No description with an owner but one of the table. -/
theorem owner_of_desc {rm : res_data} {vres_desc : modac_rm_vres_desc} {o : Nat}
    (h : owner_of rm vres_desc = some o) : ∃ t i : Nat, vres_desc = ⟨t, i⟩ := by
  obtain ⟨t, i, heq, -⟩ :=
    (modac_rm_get_owner_eq_iff (Int.natCast_nonneg o)).mp (owner_of_eq_some.mp h)
  exact ⟨t, i, heq⟩

/-- Who has a resource is told by the entries of the table. -/
theorem owner_of_ext {rm' : res_data} {vres_desc : modac_rm_vres_desc} {own : Option Nat}
    (h : ∀ t i o : Nat, vres_desc = ⟨t, i⟩ → (rm'.owns o t i ↔ own = some o))
    (hown : (∀ t i : Nat, vres_desc ≠ ⟨t, i⟩) → own = none) : owner_of rm' vres_desc = own := by
  by_cases hdesc : ∃ t i : Nat, vres_desc = ⟨t, i⟩
  · obtain ⟨t, i, rfl⟩ := hdesc
    ext o
    exact owner_of_owns.trans (h t i o rfl)
  · push Not at hdesc
    rw [hown hdesc]
    cases hnone : owner_of rm' vres_desc with
    | none => rfl
    | some o =>
      obtain ⟨t, i, heq⟩ := owner_of_desc hnone
      exact absurd heq (hdesc t i)

/-- An allocation seizes a free resource, or changes nothing. -/
theorem modac_rm_alloc_seizes (rm : res_data) (owner : Nat) (resource_name : List (BitVec 8))
    (fixed_inx : Int) (arg_filters : Vector Int MNG_DEV_IOCTL_RES_ARG_FILTER_MAX_COUNT) :
    (∃ err, modac_rm_alloc rm owner resource_name fixed_inx arg_filters = (rm, .error err)) ∨
    ∃ (rm' : res_data) (index : Nat) (vres_desc : modac_rm_vres_desc),
      modac_rm_alloc rm owner resource_name fixed_inx arg_filters =
        (rm', .ok (index, vres_desc)) ∧
      owner_of rm vres_desc = none ∧ owner_of rm' = (owner_of rm).seize vres_desc owner := by
  obtain ⟨err, -, hfail⟩ | ⟨rm', index, t, i, hok, hfree, -, -, howns⟩ :=
    modac_rm_alloc_cases rm owner resource_name fixed_inx arg_filters
  · exact .inl ⟨err, hfail⟩
  · refine .inr ⟨rm', index, ⟨t, i⟩, hok, ?_, ?_⟩
    · cases hnone : owner_of rm ⟨t, i⟩ with
      | none => rfl
      | some o =>
        have heq := res_data.owns_unique hfree (owner_of_owns.mp hnone)
        have hno : (NO_OWNER : Int) = -1 := rfl
        omega
    · funext vres_desc
      apply owner_of_ext
      · rintro t' i' o rfl
        rw [howns, Ownership.seize]
        by_cases hti : t' = t ∧ i' = i
        · obtain ⟨rfl, rfl⟩ := hti
          rw [if_pos ⟨rfl, rfl⟩, Function.update_self, Option.some.injEq]
          omega
        · have hne : (⟨t', i'⟩ : modac_rm_vres_desc) ≠ ⟨t, i⟩ := by
            intro heq
            obtain ⟨ht, hi⟩ := modac_rm_vres_desc.mk.inj heq
            exact hti ⟨Int.ofNat.inj ht, Int.ofNat.inj hi⟩
          rw [if_neg hti, Function.update_of_ne hne, owner_of_owns]
      · intro hdesc
        rw [Ownership.seize, Function.update_of_ne (hdesc t i)]
        cases hnone : owner_of rm vres_desc with
        | none => rfl
        | some o =>
          obtain ⟨t', i', heq⟩ := owner_of_desc hnone
          exact absurd heq (hdesc t' i')

theorem modac_rm_free_owner_releases (rm : res_data) (owner : Nat) :
    owner_of (modac_rm_free_owner rm owner) = (owner_of rm).release owner := by
  funext vres_desc
  apply owner_of_ext
  · rintro t i o rfl
    have ho : (o : Int) ≠ NO_OWNER := by
      have hno : (NO_OWNER : Int) = -1 := rfl
      omega
    rw [modac_rm_free_owner_owns ho, Ownership.release, ← owner_of_owns]
    by_cases howner : owner_of rm ⟨t, i⟩ = some owner
    · rw [if_pos howner, howner]
      constructor
      · rintro ⟨heq, hne⟩
        exact absurd (congrArg Int.ofNat (Option.some.inj heq)).symm hne
      · intro heq
        cases heq
    · rw [if_neg howner]
      constructor
      · rintro ⟨heq, -⟩
        exact heq
      · intro heq
        refine ⟨heq, ?_⟩
        intro hsame
        rw [Int.ofNat.inj hsame] at heq
        exact howner heq
  · intro hdesc
    rw [Ownership.release]
    cases hnone : owner_of rm vres_desc with
    | none => simp
    | some o =>
      obtain ⟨t, i, heq⟩ := owner_of_desc hnone
      exact absurd heq (hdesc t i)

/-- Every call is a step of exclusive ownership. -/
theorem rm_step_owner {rm rm' : res_data} {a : rm_op} (hstep : rm_step rm a = some rm') :
    (owner_of rm).Step a.leaves (owner_of rm') := by
  cases a with
  | alloc owner resource_name fixed_inx arg_filters =>
    obtain rfl := Option.some.inj hstep
    obtain ⟨err, hfail⟩ | ⟨rm', index, vres_desc, hok, hfree, hseize⟩ :=
      modac_rm_alloc_seizes rm owner resource_name fixed_inx arg_filters
    · rw [hfail]
      exact .same
    · rw [hok, hseize]
      exact .seize vres_desc owner hfree
  | free_owner owner =>
    obtain rfl := Option.some.inj hstep
    rw [modac_rm_free_owner_releases]
    exact .release owner
  | get_owner vres_desc =>
    obtain rfl := Option.some.inj hstep
    exact .same

/-- Whether a fixed index is found in the table, and free. -/
theorem alloc_loop_fixed {resource_name : List (BitVec 8)} {fixed_inx : Int}
    (arg_filters : Vector Int MNG_DEV_IOCTL_RES_ARG_FILTER_MAX_COUNT)
    (hfixed : fixed_inx ≠ MODAC_RM_ALLOC_FROM_POOL) (states : List res_state) (i : Nat)
    (max_suitability : Int) :
    let found := fun r : res_state =>
      STRINGS_EQUAL r.hw_res_def.name resource_name = true ∧ (r.array_index : Int) = fixed_inx
    let result := alloc_loop resource_name fixed_inx arg_filters states i max_suitability none
    (∃ r ∈ states, found r ∧ r.owner ≠ NO_OWNER ∧ result = .error (-EADDRINUSE)) ∨
    (∃ r ∈ states, found r ∧ r.owner = NO_OWNER ∧ ∃ index, result = .ok index) ∨
    ((∀ r ∈ states, ¬ found r) ∧ result = .error (-EACCES)) := by
  intro found result
  induction states generalizing i with
  | nil =>
    refine .inr (.inr ⟨?_, rfl⟩)
    intro r hr
    cases hr
  | cons r rest ih =>
    by_cases hfound : found r
    · obtain ⟨hname, hindex⟩ := hfound
      have hresult : result = if r.owner ≠ NO_OWNER then .error (-EADDRINUSE) else .ok i := by
        simp only [result, alloc_loop]
        rw [if_neg (by simp [hname]), if_neg hfixed, if_neg (not_not.mpr hindex)]
      by_cases hfree : r.owner = NO_OWNER
      · rw [if_neg (not_not.mpr hfree)] at hresult
        exact .inr (.inl ⟨r, List.mem_cons_self, ⟨hname, hindex⟩, hfree, i, hresult⟩)
      · rw [if_pos hfree] at hresult
        exact .inl ⟨r, List.mem_cons_self, ⟨hname, hindex⟩, hfree, hresult⟩
    · have hresult : result =
          alloc_loop resource_name fixed_inx arg_filters rest (i + 1) max_suitability none := by
        simp only [result, alloc_loop]
        by_cases hname : STRINGS_EQUAL r.hw_res_def.name resource_name = false
        · rw [if_pos hname]
        · have hindex : (r.array_index : Int) ≠ fixed_inx := by
            intro hindex
            exact hfound ⟨by simpa using hname, hindex⟩
          rw [if_neg hname, if_neg hfixed, if_pos hindex]
      rw [hresult]
      obtain ⟨r', hr', hrest⟩ | ⟨r', hr', hrest⟩ | ⟨hnone, hrest⟩ := ih (i + 1)
      · exact .inl ⟨r', List.mem_cons_of_mem _ hr', hrest⟩
      · exact .inr (.inl ⟨r', List.mem_cons_of_mem _ hr', hrest⟩)
      · refine .inr (.inr ⟨?_, hrest⟩)
        intro r' hr'
        obtain rfl | hr' := List.mem_cons.mp hr'
        · exact hfound
        · exact hnone r' hr'

end evrma.rm
