import Evrma.Errno
import Evrma.Lib.Tally

namespace evrma

open lib

variable {I : Type*} [DecidableEq I]

structure inod_ref (I : Type*) where
  l_inod : I
  l_rcnt : Int

/-- `ref_ptr` is only compared with NULL. The caller of the operations holds the mutex all the
time. -/
structure devref (I : Type*) where
  ref_ptr : Bool
  ref_cnt : Int
  ref_lhd : List (inod_ref I)

/-- The creator holds the reference. -/
def devref_init : devref I := { ref_ptr := true, ref_cnt := 1, ref_lhd := [] }

/-- The loop of `devref_get`; `none` when the inode is not listed. -/
def devref_get_loop (inod : I) : List (inod_ref I) → Option (List (inod_ref I))
  | [] => none
  | l :: rest =>
    if l.l_inod = inod then some ({ l with l_rcnt := l.l_rcnt + 1 } :: rest)
    else (devref_get_loop inod rest).map (l :: ·)

/-- `kmalloc` tells whether there is memory for a new list element. -/
def devref_get (ref : devref I) (inod : Option I) (kmalloc : Bool) : devref I × Int :=
  if ref.ref_ptr = false then (ref, -ENODEV)
  else
    match inod with
    | none => ({ ref with ref_cnt := ref.ref_cnt + 1 }, 0)
    | some i =>
      match devref_get_loop i ref.ref_lhd with
      | some ref_lhd => ({ ref with ref_cnt := ref.ref_cnt + 1, ref_lhd }, 0)
      | none =>
        if kmalloc then
          ({ ref with
            ref_cnt := ref.ref_cnt + 1
            ref_lhd := { l_inod := i, l_rcnt := 1 } :: ref.ref_lhd }, 0)
        else (ref, -ENOMEM)

/-- The loop of `devref_put`. -/
def devref_put_loop (inod : I) : List (inod_ref I) → List (inod_ref I)
  | [] => []
  | l :: rest =>
    if l.l_inod = inod then
      if l.l_rcnt - 1 = 0 then rest else { l with l_rcnt := l.l_rcnt - 1 } :: rest
    else l :: devref_put_loop inod rest

/-- The new count is returned. -/
def devref_put (ref : devref I) (inod : Option I) : devref I × Int :=
  let ref := { ref with
    ref_cnt := ref.ref_cnt - 1
    ref_lhd := inod.elim ref.ref_lhd fun i => devref_put_loop i ref.ref_lhd }
  (ref, ref.ref_cnt)

def devref_invalidate (ref : devref I) : devref I := { ref with ref_ptr := false }

theorem devref_get_loop_eq_none {i : I} {ls : List (inod_ref I)} (h : devref_get_loop i ls = none) :
    i ∉ ls.map inod_ref.l_inod := by
  induction ls with
  | nil => simp
  | cons l rest ih =>
    simp only [devref_get_loop] at h
    split_ifs at h with heq
    rw [Option.map_eq_none_iff] at h
    rw [List.map_cons, List.mem_cons, not_or]
    exact ⟨Ne.symm heq, ih h⟩

theorem devref_get_loop_eq_some {i : I} {ls ls' : List (inod_ref I)} (h : devref_get_loop i ls = some ls') :
    ∃ before l after, ls = before ++ l :: after ∧ l.l_inod = i ∧
      ls' = before ++ { l with l_rcnt := l.l_rcnt + 1 } :: after := by
  induction ls generalizing ls' with
  | nil => cases h
  | cons l rest ih =>
    simp only [devref_get_loop] at h
    split_ifs at h with heq
    · simp only [Option.some.injEq] at h
      exact ⟨[], l, rest, rfl, heq, h.symm⟩
    · obtain ⟨rest', hrest, rfl⟩ := Option.map_eq_some_iff.mp h
      obtain ⟨before, l', after, rfl, hl', rfl⟩ := ih hrest
      exact ⟨l :: before, l', after, rfl, hl', rfl⟩

/-- The first element of an inode is the one that `devref_put` changes. -/
theorem devref_put_loop_append {before after : List (inod_ref I)} {l : inod_ref I}
    (hbefore : l.l_inod ∉ before.map inod_ref.l_inod) :
    devref_put_loop l.l_inod (before ++ l :: after) =
      if l.l_rcnt - 1 = 0 then before ++ after
      else before ++ { l with l_rcnt := l.l_rcnt - 1 } :: after := by
  induction before with
  | nil => simp [devref_put_loop]
  | cons b before ih =>
    rw [List.map_cons, List.mem_cons, not_or] at hbefore
    simp only [List.cons_append, devref_put_loop, if_neg (Ne.symm hbefore.1), ih hbefore.2]
    split_ifs <;> rfl

/-- A reference that can't be had is not changed. -/
theorem devref_get_of_ne_zero {ref : devref I} {inod : Option I} {kmalloc : Bool}
    (h : (devref_get ref inod kmalloc).2 ≠ 0) : (devref_get ref inod kmalloc).1 = ref := by
  unfold devref_get at h ⊢
  by_cases hptr : ref.ref_ptr = false
  · rw [if_pos hptr]
  · rw [if_neg hptr] at h ⊢
    cases inod with
    | none => exact absurd rfl h
    | some i =>
      dsimp only at h ⊢
      cases hloop : devref_get_loop i ref.ref_lhd with
      | some ref_lhd =>
        rw [hloop] at h
        exact absurd rfl h
      | none =>
        rw [hloop] at h
        cases kmalloc with
        | true => exact absurd rfl h
        | false => rfl

/-- A reference that is had is counted. -/
theorem devref_get_count (ref : devref I) (inod : Option I) (kmalloc : Bool) :
    (devref_get ref inod kmalloc).1.ref_ptr = ref.ref_ptr ∧
    (devref_get ref inod kmalloc).1.ref_cnt =
      if (devref_get ref inod kmalloc).2 = 0 then ref.ref_cnt + 1 else ref.ref_cnt := by
  by_cases hret : (devref_get ref inod kmalloc).2 = 0
  · rw [if_pos hret]
    unfold devref_get at hret ⊢
    by_cases hptr : ref.ref_ptr = false
    · rw [if_pos hptr] at hret
      cases hret
    rw [if_neg hptr] at hret ⊢
    cases inod with
    | none => exact ⟨rfl, rfl⟩
    | some i =>
      dsimp only at hret ⊢
      cases hloop : devref_get_loop i ref.ref_lhd with
      | some ref_lhd => exact ⟨rfl, rfl⟩
      | none =>
        rw [hloop] at hret
        cases kmalloc with
        | true => exact ⟨rfl, rfl⟩
        | false => cases hret
  · rw [if_neg hret, devref_get_of_ne_zero hret]
    exact ⟨rfl, rfl⟩

/-- The inodes of the files that hold the reference, each listed once with the
number of its files. -/
abbrev InodesHold (ref : devref I) (inodes : Multiset I) : Prop :=
  Tallies inod_ref.l_inod inod_ref.l_rcnt ref.ref_lhd inodes

theorem inodesHold_init : InodesHold (devref_init : devref I) 0 := tallies_nil

section

variable {ref : devref I} {inodes : Multiset I} (hinodes : InodesHold ref inodes)
include hinodes

/-- A file takes the reference, or nothing is changed. -/
theorem devref_get_inode (i : I) (kmalloc : Bool) :
    ((devref_get ref (some i) kmalloc).2 = 0 ∧
      InodesHold (devref_get ref (some i) kmalloc).1 (i ::ₘ inodes) ∧
      (devref_get ref (some i) kmalloc).1.ref_cnt = ref.ref_cnt + 1 ∧
      (devref_get ref (some i) kmalloc).1.ref_ptr = ref.ref_ptr ∧ ref.ref_ptr = true) ∨
    ((devref_get ref (some i) kmalloc).2 < 0 ∧ (devref_get ref (some i) kmalloc).1 = ref) := by
  by_cases hptr : ref.ref_ptr = false
  · simp [devref_get, hptr, ENODEV]
  · have hptr : ref.ref_ptr = true := by simpa using hptr
    cases hloop : devref_get_loop i ref.ref_lhd with
    | some ref_lhd =>
      obtain ⟨before, l, after, heq, rfl, rfl⟩ := devref_get_loop_eq_some hloop
      have hget : devref_get ref (some l.l_inod) kmalloc =
          ({ ref with
            ref_cnt := ref.ref_cnt + 1
            ref_lhd := before ++ { l with l_rcnt := l.l_rcnt + 1 } :: after }, 0) := by
        simp [devref_get, hptr, hloop]
      rw [hget]
      refine .inl ⟨rfl, ?_, rfl, rfl, hptr⟩
      unfold InodesHold at hinodes
      rw [heq] at hinodes
      exact hinodes.increment rfl rfl
    | none =>
      have hnew := devref_get_loop_eq_none hloop
      cases kmalloc with
      | false => simp [devref_get, hptr, hloop, ENOMEM]
      | true =>
        have hget : devref_get ref (some i) true =
            ({ ref with
              ref_cnt := ref.ref_cnt + 1
              ref_lhd := { l_inod := i, l_rcnt := 1 } :: ref.ref_lhd }, 0) := by
          simp [devref_get, hptr, hloop]
        rw [hget]
        refine .inl ⟨rfl, ?_, rfl, rfl, hptr⟩
        exact Tallies.cons (a := { l_inod := i, l_rcnt := 1 }) hinodes hnew rfl

/-- A file that holds the reference gives it back. -/
theorem devref_put_inode {i : I} (hi : i ∈ inodes) :
    InodesHold (devref_put ref (some i)).1 (inodes.erase i) := by
  rw [← hinodes.mem_iff] at hi
  obtain ⟨l, hl, rfl⟩ := List.mem_map.mp hi
  obtain ⟨before, after, heq⟩ := List.append_of_mem hl
  unfold InodesHold at hinodes ⊢
  rw [heq] at hinodes
  have hbefore : l.l_inod ∉ before.map inod_ref.l_inod := by
    intro hmem
    obtain ⟨b, hb, hkey⟩ := List.mem_map.mp hmem
    exact hinodes.ne_of_mem_append (List.mem_append_left _ hb) hkey
  simp only [devref_put, Option.elim_some, heq, devref_put_loop_append hbefore]
  split_ifs with hone
  · exact hinodes.remove (by omega)
  · exact hinodes.decrement rfl rfl (by omega)

end

@[simp]
theorem devref_put_ref_cnt (ref : devref I) (inod : Option I) :
    (devref_put ref inod).1.ref_cnt = ref.ref_cnt - 1 := rfl

@[simp]
theorem devref_put_ref_ptr (ref : devref I) (inod : Option I) :
    (devref_put ref inod).1.ref_ptr = ref.ref_ptr := rfl

@[simp]
theorem devref_put_ret (ref : devref I) (inod : Option I) :
    (devref_put ref inod).2 = ref.ref_cnt - 1 := rfl

end evrma
