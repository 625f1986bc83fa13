import Evrma.Devref
import Evrma.Lib.Run

namespace evrma

open lib

variable {I : Type*} [DecidableEq I]

/-- The holders are the creator, others without an inode, and open files by their inodes.
`gets` counts the gets that succeeded, `puts` the puts, and `zeros` the puts that returned
0. -/
structure devref_holders (I : Type*) where
  ref : devref I
  creator : Bool
  nulls : Nat
  inodes : Multiset I
  gets : Nat
  puts : Nat
  zeros : Nat

inductive devref_op (I : Type*) where
  | get (inod : Option I) (kmalloc : Bool)
  /-- By a holder that is not the creator. -/
  | put (inod : Option I)
  /-- The creator's own. -/
  | put_creator
  | invalidate

def devref_holders_init : devref_holders I where
  ref := devref_init
  creator := true
  nulls := 0
  inodes := 0
  gets := 0
  puts := 0
  zeros := 0

/-- A put of this reference, by a holder who is no longer one. -/
def devref_holders.put (s : devref_holders I) (inod : Option I) : devref_holders I :=
  let (ref, count) := devref_put s.ref inod
  { s with ref, puts := s.puts + 1, zeros := if count = 0 then s.zeros + 1 else s.zeros }

/-- Only a holder puts the reference. -/
def devref_step (s : devref_holders I) : devref_op I → Option (devref_holders I)
  | .get inod kmalloc =>
    let (ref, ret) := devref_get s.ref inod kmalloc
    if ret ≠ 0 then some { s with ref }
    else
      match inod with
      | none => some { s with ref, gets := s.gets + 1, nulls := s.nulls + 1 }
      | some i => some { s with ref, gets := s.gets + 1, inodes := i ::ₘ s.inodes }
  | .put none => if 0 < s.nulls then some { s.put none with nulls := s.nulls - 1 } else none
  | .put (some i) =>
    if i ∈ s.inodes then some { s.put (some i) with inodes := s.inodes.erase i } else none
  | .put_creator => if s.creator then some { s.put none with creator := false } else none
  | .invalidate => some { s with ref := devref_invalidate s.ref }

/-- The reference is the exact multiset of its holders. -/
structure CountsHolders (s : devref_holders I) : Prop where
  ref_cnt : s.ref.ref_cnt = 1 + s.gets - s.puts
  holders : s.ref.ref_cnt = s.creator.toNat + s.nulls + Multiset.card s.inodes
  inodes : InodesHold s.ref s.inodes

/-- A get that succeeds takes a valid reference; one that fails finds an invalid reference
or no memory, and changes nothing. -/
def GetsExact (s : devref_holders I) (a : devref_op I) : Prop :=
  ∀ inod kmalloc, a = .get inod kmalloc →
    (s.ref.ref_ptr = true ∧ (devref_get s.ref inod kmalloc).2 = 0) ∨
    (((devref_get s.ref inod kmalloc).2 = -ENODEV ∧ s.ref.ref_ptr = false ∨
        (devref_get s.ref inod kmalloc).2 = -ENOMEM ∧ kmalloc = false) ∧
      (devref_get s.ref inod kmalloc).1 = s.ref)

/-- The count has been 0 once if it is 0, and never if it is not. -/
def ZeroOnce (s : devref_holders I) : Prop := s.zeros = if s.ref.ref_cnt = 0 then 1 else 0

/-- The creator puts a reference that it has invalidated before. -/
def PutsInvalid (s : devref_holders I) (a : devref_op I) : Prop :=
  a = .put_creator → s.ref.ref_ptr = false

theorem getsExact (s : devref_holders I) (a : devref_op I) : GetsExact s a := by
  rintro inod kmalloc -
  unfold devref_get
  by_cases hptr : s.ref.ref_ptr = false
  · rw [if_pos hptr]
    exact .inr ⟨.inl ⟨rfl, hptr⟩, rfl⟩
  · rw [if_neg hptr]
    have hvalid : s.ref.ref_ptr = true := by simpa using hptr
    cases inod with
    | none => exact .inl ⟨hvalid, rfl⟩
    | some i =>
      dsimp only
      cases devref_get_loop i s.ref.ref_lhd with
      | some ref_lhd => exact .inl ⟨hvalid, rfl⟩
      | none =>
        cases kmalloc with
        | true => exact .inl ⟨hvalid, rfl⟩
        | false => exact .inr ⟨.inr ⟨rfl, rfl⟩, rfl⟩

theorem countsHolders_init : CountsHolders (devref_holders_init : devref_holders I) :=
  ⟨rfl, rfl, inodesHold_init⟩

/-- A get without an inode leaves the list. -/
theorem devref_get_null {ref : devref I} {kmalloc : Bool}
    (hret : (devref_get ref none kmalloc).2 = 0) :
    (devref_get ref none kmalloc).1 = { ref with ref_cnt := ref.ref_cnt + 1 } ∧
      ref.ref_ptr = true := by
  unfold devref_get at hret ⊢
  by_cases hptr : ref.ref_ptr = false
  · rw [if_pos hptr] at hret
    cases hret
  · rw [if_neg hptr]
    exact ⟨rfl, by simpa using hptr⟩

/-- What a step does, with the reasons for which it does it. -/
inductive devref_effect (s : devref_holders I) : devref_op I → devref_holders I → Prop where
  | get_fails (inod : Option I) (kmalloc : Bool) : devref_effect s (.get inod kmalloc) s
  | get_null (kmalloc : Bool) (hvalid : s.ref.ref_ptr = true) :
      devref_effect s (.get none kmalloc)
        { s with
          ref := { s.ref with ref_cnt := s.ref.ref_cnt + 1 }
          gets := s.gets + 1
          nulls := s.nulls + 1 }
  | get_inode (i : I) (kmalloc : Bool) (ref : devref I) (hvalid : s.ref.ref_ptr = true)
      (hptr : ref.ref_ptr = true) (hcnt : ref.ref_cnt = s.ref.ref_cnt + 1)
      (hinodes : InodesHold s.ref s.inodes → InodesHold ref (i ::ₘ s.inodes)) :
      devref_effect s (.get (some i) kmalloc)
        { s with ref, gets := s.gets + 1, inodes := i ::ₘ s.inodes }
  | put_null (hnulls : 0 < s.nulls) :
      devref_effect s (.put none) { s.put none with nulls := s.nulls - 1 }
  | put_inode (i : I) (hi : i ∈ s.inodes) :
      devref_effect s (.put (some i)) { s.put (some i) with inodes := s.inodes.erase i }
  | put_creator (hcreator : s.creator = true) :
      devref_effect s .put_creator { s.put none with creator := false }
  | invalidate :
      devref_effect s .invalidate { s with ref := devref_invalidate s.ref }

theorem devref_effect_of_step {s t : devref_holders I} {a : devref_op I}
    (hinodes : InodesHold s.ref s.inodes) (h : devref_step s a = some t) :
    devref_effect s a t := by
  cases a with
  | get inod kmalloc =>
    simp only [devref_step] at h
    by_cases hret : (devref_get s.ref inod kmalloc).2 = 0
    · rw [if_neg (not_not_intro hret)] at h
      cases inod with
      | none =>
        obtain ⟨heq, hvalid⟩ := devref_get_null hret
        rw [heq] at h
        obtain rfl := Option.some.inj h
        exact .get_null kmalloc hvalid
      | some i =>
        obtain ⟨-, hheld, hcnt, hptr, hvalid⟩ | ⟨hlt, -⟩ := devref_get_inode hinodes i kmalloc
        · obtain rfl := Option.some.inj h
          exact .get_inode i kmalloc _ hvalid (hptr.trans hvalid) hcnt fun _ => hheld
        · omega
    · rw [if_pos hret, devref_get_of_ne_zero hret] at h
      obtain rfl := Option.some.inj h
      exact .get_fails inod kmalloc
  | put inod =>
    cases inod with
    | none =>
      simp only [devref_step] at h
      split_ifs at h with hnulls
      obtain rfl := Option.some.inj h
      exact .put_null hnulls
    | some i =>
      simp only [devref_step] at h
      split_ifs at h with hi
      obtain rfl := Option.some.inj h
      exact .put_inode i hi
  | put_creator =>
    simp only [devref_step] at h
    split_ifs at h with hcreator
    obtain rfl := Option.some.inj h
    exact .put_creator hcreator
  | invalidate =>
    obtain rfl := Option.some.inj h
    exact .invalidate

theorem CountsHolders.step {s t : devref_holders I} {a : devref_op I} (h : CountsHolders s)
    (hstep : devref_step s a = some t) : CountsHolders t := by
  obtain ⟨hcnt, hholders, hinodes⟩ := h
  cases devref_effect_of_step hinodes hstep with
  | get_fails inod kmalloc => exact ⟨hcnt, hholders, hinodes⟩
  | get_null kmalloc hvalid =>
    refine ⟨?_, ?_, hinodes⟩
    · dsimp only
      omega
    · dsimp only
      omega
  | get_inode i kmalloc ref hvalid hptr hcnt' hheld =>
    refine ⟨?_, ?_, hheld hinodes⟩
    · dsimp only
      omega
    · dsimp only
      rw [Multiset.card_cons]
      omega
  | put_null hnulls =>
    refine ⟨?_, ?_, hinodes⟩
    · simp only [devref_holders.put, devref_put_ref_cnt]
      omega
    · simp only [devref_holders.put, devref_put_ref_cnt]
      omega
  | put_inode i hi =>
    have hcard := Multiset.card_erase_add_one hi
    refine ⟨?_, ?_, devref_put_inode hinodes hi⟩
    · simp only [devref_holders.put, devref_put_ref_cnt]
      omega
    · simp only [devref_holders.put, devref_put_ref_cnt]
      omega
  | put_creator hcreator =>
    rw [hcreator, Bool.toNat_true] at hholders
    refine ⟨?_, ?_, hinodes⟩
    · simp only [devref_holders.put, devref_put_ref_cnt]
      omega
    · simp only [devref_holders.put, devref_put_ref_cnt, Bool.toNat_false]
      omega
  | invalidate => exact ⟨hcnt, hholders, hinodes⟩

/-- In a run where the creator only puts an invalid reference: a reference that the creator
has put is invalid. -/
structure ZeroInv (s : devref_holders I) : Prop where
  counts : CountsHolders s
  invalid : s.creator = false → s.ref.ref_ptr = false
  once : ZeroOnce s

/-- A put of a holder: the count was not 0, and becomes 0 where this is the last holder. -/
theorem ZeroInv.put_once {s : devref_holders I} (h : ZeroInv s) (hpos : 0 < s.ref.ref_cnt)
    (inod : Option I) : ZeroOnce (s.put inod) := by
  have honce := h.once
  unfold ZeroOnce at honce ⊢
  rw [if_neg (by omega)] at honce
  simp only [devref_holders.put, devref_put_ref_cnt, devref_put_ret, honce, Nat.zero_add]

theorem ZeroInv.step {s t : devref_holders I} {a : devref_op I} (h : ZeroInv s)
    (hinvalid : PutsInvalid s a) (hstep : devref_step s a = some t) : ZeroInv t := by
  have hcounts := h.counts.step hstep
  have hholders := h.counts.holders
  have hget : s.ref.ref_ptr = true → s.ref.ref_cnt ≠ 0 := by
    intro hvalid hzero
    cases hcreator : s.creator with
    | true =>
      rw [hcreator, Bool.toNat_true] at hholders
      omega
    | false =>
      rw [h.invalid hcreator] at hvalid
      cases hvalid
  have honce := h.once
  unfold ZeroOnce at honce
  cases devref_effect_of_step h.counts.inodes hstep with
  | get_fails inod kmalloc => exact h
  | get_null kmalloc hvalid =>
    refine ⟨hcounts, h.invalid, ?_⟩
    rw [if_neg (hget hvalid)] at honce
    unfold ZeroOnce
    dsimp only
    rw [if_neg (by omega), honce]
  | get_inode i kmalloc ref hvalid hptr hcnt =>
    refine ⟨hcounts, fun hcreator => ?_, ?_⟩
    · rw [h.invalid hcreator] at hvalid
      cases hvalid
    · rw [if_neg (hget hvalid)] at honce
      unfold ZeroOnce
      dsimp only
      rw [if_neg (by omega), honce]
  | put_null hnulls =>
    have hpos : 0 < s.ref.ref_cnt := by omega
    exact ⟨hcounts, h.invalid, h.put_once hpos none⟩
  | put_inode i hi =>
    have hcard := Multiset.card_erase_add_one hi
    have hpos : 0 < s.ref.ref_cnt := by omega
    exact ⟨hcounts, h.invalid, h.put_once hpos (some i)⟩
  | put_creator hcreator =>
    have hpos : 0 < s.ref.ref_cnt := by
      rw [hcreator, Bool.toNat_true] at hholders
      omega
    exact ⟨hcounts, fun _ => hinvalid rfl, h.put_once hpos none⟩
  | invalidate => exact ⟨hcounts, fun _ => rfl, honce⟩

/-- Nothing makes an invalid reference valid again. -/
theorem ref_ptr_of_step {s t : devref_holders I} {a : devref_op I}
    (hinvalid : s.ref.ref_ptr = false) (hstep : devref_step s a = some t) :
    t.ref.ref_ptr = false := by
  cases a with
  | get inod kmalloc =>
    have hfails : devref_get s.ref inod kmalloc = (s.ref, -ENODEV) := if_pos hinvalid
    have herr : -ENODEV ≠ 0 := by decide
    simp only [devref_step, hfails, if_pos herr] at hstep
    obtain rfl := Option.some.inj hstep
    exact hinvalid
  | put inod =>
    cases inod with
    | none =>
      simp only [devref_step] at hstep
      split_ifs at hstep
      obtain rfl := Option.some.inj hstep
      exact hinvalid
    | some i =>
      simp only [devref_step] at hstep
      split_ifs at hstep
      obtain rfl := Option.some.inj hstep
      exact hinvalid
  | put_creator =>
    simp only [devref_step] at hstep
    split_ifs at hstep
    obtain rfl := Option.some.inj hstep
    exact hinvalid
  | invalidate =>
    obtain rfl := Option.some.inj hstep
    rfl

theorem ref_ptr_of_run {s t : devref_holders I} {ops : List (devref_op I)}
    (hinvalid : s.ref.ref_ptr = false) (hrun : run devref_step s ops = some t) :
    t.ref.ref_ptr = false :=
  run_invariant (I := fun s : devref_holders I => s.ref.ref_ptr = false)
    (fun _ _ _ h hstep => ref_ptr_of_step h hstep) hrun hinvalid

/-- The reference is the multiset of its holders in every run, a get that fails changes
nothing, and once invalid the reference stays so. Where the creator invalidates the reference
before its own put, the count reaches 0 once: with the put of the last holder, which no get
follows. -/
theorem devref_counts_holders (ops : List (devref_op I)) :
    StatesMeet devref_step CountsHolders devref_holders_init ops ∧
    StepsMeet devref_step GetsExact devref_holders_init ops ∧
    (StepsMeet devref_step PutsInvalid devref_holders_init ops →
      StatesMeet devref_step ZeroOnce devref_holders_init ops) ∧
    ∀ before s t, run devref_step devref_holders_init before = some s → s.ref.ref_ptr = false →
      run devref_step s ops = some t → t.ref.ref_ptr = false := by
  refine ⟨?_, ?_, fun hinvalid => ?_, fun _ _ _ _ => ref_ptr_of_run⟩
  · exact statesMeet_of_invariant (fun _ h => h) (fun _ _ _ h hstep => h.step hstep)
      countsHolders_init ops
  · exact stepsMeet_of_invariant (I := fun _ => True) (fun _ _ _ _ _ => trivial)
      (fun s a _ _ _ => getsExact s a) trivial ops
  · have hinit : ZeroInv (devref_holders_init : devref_holders I) :=
      ⟨countsHolders_init, nofun, rfl⟩
    exact statesMeet_of_stepsMeet (I := ZeroInv) (fun _ h => h.once)
      (fun _ _ _ h hinvalid hstep => h.step hinvalid hstep) hinit hinvalid

def puts_invalid (s : devref_holders I) : devref_op I → Bool
  | .put_creator => !s.ref.ref_ptr
  | _ => true

omit [DecidableEq I] in
theorem putsInvalid_of_check (s : devref_holders I) (op : devref_op I)
    (hcheck : puts_invalid s op = true) : PutsInvalid s op := by
  rintro rfl
  simpa [puts_invalid] using hcheck

/-- A file opens and closes between the invalidation and the put of the creator. -/
theorem devref_counts_holders_closed :
    StatesMeet devref_step ZeroOnce (devref_holders_init : devref_holders Nat)
      [.get (some 3) true, .invalidate, .put_creator, .put (some 3)] :=
  (devref_counts_holders _).2.2.1 (stepsMeet_of_check putsInvalid_of_check rfl)

/-- The creator puts its reference without invalidating it. A get that follows succeeds, and
the count reaches 0 once more. -/
theorem get_after_zero_reaches_zero_again :
    ¬ StatesMeet devref_step (fun s => s.zeros ≤ 1) (devref_holders_init : devref_holders Nat)
      [.put_creator, .get none true, .put none] :=
  not_statesMeet_of_last
    (fun u (hmore : decide (1 < u.zeros) = true) hle => by
      simp only [decide_eq_true_eq] at hmore; omega) rfl

end evrma
