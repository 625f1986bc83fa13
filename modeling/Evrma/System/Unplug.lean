import Evrma.Devref
import Evrma.Lib.Run
import Evrma.Lib.Walk

namespace evrma.unplug

open evrma.lib

variable {I : Type*} [DecidableEq I]

/-- How far `modac_mngdev_destroy` has come. In the loop the inode that it is at and the
successor of its node are kept while the mutex is free; no node is added to the list then, so a
node is known by its inode. Afterwards `devref_put` has returned `rval`. -/
inductive destroy_progress (I : Type*) where
  | bound
  | unlisted
  | unlocked (l : I) (n : Option I)
  | called (n : Option I)
  | put (rval : Int)
  | done
  | lost

/-- Memory that was freed when it was read. -/
inductive freed_read (I : Type*) where
  | inod_ref (i : I)
  | mngdev_data

/-- `last_closes` counts the closes that have given the last reference back and are about to
destroy the MNG_DEV. -/
structure unplug_state (I : Type*) where
  ref : devref I
  files : Multiset I
  destroyer : destroy_progress I
  last_closes : Nat
  freed : Bool
  visited : List I
  freed_reads : List (freed_read I)

/-- The steps, from one lock or unlock of the mutex of the reference to the next: for each callback
`devref_forall_inodes` lets go of the mutex, and `drvdat_put` goes on after `devref_put` has let go
of it. A file is given by its inode. -/
inductive unplug_op (I : Type*) where
  | open_file (i : I) (kmalloc : Bool)
  /-- `modac_mngdev_destroy` up to the release of the mutex of the table. -/
  | destroy_unlist
  /-- The mutex of the reference is taken, up to its first release. -/
  | destroy_lock
  | destroy_callback
  /-- The mutex is taken again after the callback, up to its next release. -/
  | destroy_next
  /-- The rest of `drvdat_put`. -/
  | destroy_tail
  /-- The close of a file of the MNG_DEV or of a VIRT_DEV, up to the release of the mutex. -/
  | close (i : I)
  /-- The rest of the close. -/
  | close_destroy

def inodes (ref : devref I) : List I := ref.ref_lhd.map inod_ref.l_inod

/-- The loop is at a node, which is read, or at its end. -/
def forall_inodes_at (s : unplug_state I) : Option I → unplug_state I
  | some n =>
    if n ∈ inodes s.ref then
      { s with destroyer := .unlocked n (next_of n (inodes s.ref)) }
    else { s with destroyer := .lost, freed_reads := .inod_ref n :: s.freed_reads }
  | none =>
    let (ref, rval) := devref_put s.ref none
    { s with ref, destroyer := .put rval }

theorem forall_inodes_at_some {s : unplug_state I} {n : I} (hn : n ∈ inodes s.ref) :
    forall_inodes_at s (some n) =
      { s with destroyer := .unlocked n (next_of n (inodes s.ref)) } := if_pos hn

/-- A node that was freed is read. -/
theorem forall_inodes_at_freed {s : unplug_state I} {n : I} (hn : n ∉ inodes s.ref) :
    forall_inodes_at s (some n) =
      { s with destroyer := .lost, freed_reads := .inod_ref n :: s.freed_reads } := if_neg hn

def unplug_step (s : unplug_state I) : unplug_op I → Option (unplug_state I)
  | .open_file i kmalloc =>
    match s.destroyer with
    | .bound =>
      let (ref, ret) := devref_get s.ref (some i) kmalloc
      some { s with ref, files := if ret = 0 then i ::ₘ s.files else s.files }
    | _ => none
  | .destroy_unlist =>
    match s.destroyer with
    | .bound => some { s with destroyer := .unlisted }
    | _ => none
  | .destroy_lock =>
    match s.destroyer with
    | .unlisted =>
      some (forall_inodes_at { s with ref := devref_invalidate s.ref } (inodes s.ref).head?)
    | _ => none
  | .destroy_callback =>
    match s.destroyer with
    | .unlocked l n => some { s with destroyer := .called n, visited := s.visited ++ [l] }
    | _ => none
  | .destroy_next =>
    match s.destroyer with
    | .called n => some (forall_inodes_at s n)
    | _ => none
  | .destroy_tail =>
    match s.destroyer with
    | .put rval =>
      if s.freed then
        some { s with destroyer := .done, freed_reads := .mngdev_data :: s.freed_reads }
      else some { s with destroyer := .done, freed := rval = 0 }
    | _ => none
  | .close i =>
    if i ∉ s.files then none
    else if s.freed then some { s with freed_reads := .mngdev_data :: s.freed_reads }
    else
      let (ref, rval) := devref_put s.ref (some i)
      some { s with
        ref
        files := s.files.erase i
        last_closes := if rval = 0 then s.last_closes + 1 else s.last_closes }
  | .close_destroy =>
    if s.last_closes = 0 then none
    else if s.freed then some { s with freed_reads := .mngdev_data :: s.freed_reads }
    else some { s with freed := true, last_closes := s.last_closes - 1 }

/-- The MNG_DEV has just been created. -/
def unplug_init : unplug_state I where
  ref := devref_init
  files := 0
  destroyer := .bound
  last_closes := 0
  freed := false
  visited := []
  freed_reads := []

/-- The creator's reference is not given back yet. -/
def destroy_progress.holds : destroy_progress I → Bool
  | .bound | .unlisted | .unlocked _ _ | .called _ => true
  | _ => false

/-- The successor that the loop goes on with. -/
def destroy_progress.saved : destroy_progress I → Option I
  | .unlocked _ n | .called n => n
  | _ => none

/-- Where the loop stands in the list. -/
def WalkInv (s : unplug_state I) : Prop :=
  match s.destroyer with
  | .bound | .unlisted => s.visited = []
  | .unlocked l n => Walk (inodes s.ref) (s.visited ++ [l]) n
  | .called n => Walk (inodes s.ref) s.visited n
  | .put _ | .done => s.visited.Nodup ∧ ∀ i ∈ s.files, i ∈ s.visited
  | .lost => False

/-- The references are those of the files and of the creator. Who gives the last one back, and
nobody else, is going to free the MNG_DEV. -/
structure UnplugInv (s : unplug_state I) : Prop where
  held : InodesHold s.ref s.files
  ref_cnt : s.ref.ref_cnt = s.files.card + (if s.destroyer.holds then 1 else 0)
  put : ∀ rval, s.destroyer = .put rval →
    0 ≤ rval ∧ s.freed = false ∧ (rval = 0 → s.ref.ref_cnt = 0 ∧ s.last_closes = 0)
  last : s.last_closes ≠ 0 → s.last_closes = 1 ∧ s.ref.ref_cnt = 0 ∧ s.freed = false
  freed : s.freed = true → s.ref.ref_cnt = 0 ∧ s.last_closes = 0 ∧ s.destroyer = .done
  walk : WalkInv s
  no_freed_read : s.freed_reads = []

theorem unplugInv_init : UnplugInv (unplug_init : unplug_state I) where
  held := inodesHold_init
  ref_cnt := rfl
  put _ h := by cases h
  last h := absurd rfl h
  freed h := by cases h
  walk := rfl
  no_freed_read := rfl

theorem mem_inodes {ref : devref I} {files : Multiset I} (hheld : InodesHold ref files) {i : I} :
    i ∈ inodes ref ↔ i ∈ files := hheld.mem_iff i

/-- The node of an inode goes with its last file. -/
theorem inodes_put {ref : devref I} {files : Multiset I} (hheld : InodesHold ref files) {i : I}
    (hi : i ∈ files) :
    inodes (devref_put ref (some i)).1 =
      if files.count i = 1 then (inodes ref).erase i else inodes ref := by
  rw [← mem_inodes hheld] at hi
  obtain ⟨l, hl, rfl⟩ := List.mem_map.mp hi
  have hcount := hheld.count_eq l hl
  obtain ⟨before, after, heq⟩ := List.append_of_mem hl
  have hbefore : l.l_inod ∉ before.map inod_ref.l_inod := by
    unfold InodesHold at hheld
    rw [heq] at hheld
    intro hmem
    obtain ⟨b, hb, hkey⟩ := List.mem_map.mp hmem
    exact hheld.ne_of_mem_append (List.mem_append_left _ hb) hkey
  unfold inodes
  simp only [devref_put, Option.elim_some, heq, devref_put_loop_append hbefore]
  by_cases hone : files.count l.l_inod = 1
  · rw [if_pos hone, if_pos (by omega), List.map_append, List.map_append, List.map_cons,
      List.erase_append_right _ hbefore, List.erase_cons_head]
  · rw [if_neg hone, if_neg (by omega), List.map_append, List.map_append, List.map_cons,
      List.map_cons]

/-- No close frees the node that the loop is going to read next, and none frees the MNG_DEV
between the last release of the mutex in `modac_mngdev_destroy` and its end. -/
def ClosesSafely (s : unplug_state I) (a : unplug_op I) : Prop :=
  (∀ i, a = .close i → s.files.count i = 1 → s.destroyer.saved ≠ some i) ∧
  (a = .close_destroy → ∀ rval, s.destroyer ≠ .put rval)

section

variable {s t : unplug_state I} (hinv : UnplugInv s)
include hinv

/-- The MNG_DEV lives as long as the creator's reference is held. -/
theorem UnplugInv.of_holds (hholds : s.destroyer.holds = true) :
    s.freed = false ∧ s.last_closes = 0 ∧ s.ref.ref_cnt = s.files.card + 1 := by
  have hcnt := hinv.ref_cnt
  rw [if_pos hholds] at hcnt
  refine ⟨?_, ?_, hcnt⟩
  · by_contra hfreed
    have hdone := (hinv.freed (by simpa using hfreed)).2.2
    rw [hdone] at hholds
    cases hholds
  · by_contra hne
    have hzero := (hinv.last hne).2.1
    omega

/-- The loop reads a node that is listed, or ends. -/
theorem UnplugInv.forall_inodes_at {n : Option I} (hwalk : Walk (inodes s.ref) s.visited n)
    (hholds : s.destroyer.holds = true) : UnplugInv (forall_inodes_at s n) := by
  obtain ⟨hfreed, hlast, hcnt⟩ := hinv.of_holds hholds
  cases n with
  | some n =>
    rw [forall_inodes_at_some hwalk.mem_of_next]
    exact
      { held := hinv.held
        ref_cnt := hcnt
        put := fun _ h => by cases h
        last := hinv.last
        freed := fun h => by simp [hfreed] at h
        walk := hwalk.advance
        no_freed_read := hinv.no_freed_read }
  | none =>
    unfold unplug.forall_inodes_at
    exact
      { held := hinv.held
        ref_cnt := by
          rw [devref_put_ref_cnt, hcnt]
          simp [destroy_progress.holds]
        put := by
          rintro rval ⟨⟩
          refine ⟨?_, hfreed, fun hzero => ⟨hzero, hlast⟩⟩
          change 0 ≤ s.ref.ref_cnt - 1
          omega
        last := fun hne => absurd hlast hne
        freed := fun h => by simp [hfreed] at h
        walk := ⟨hwalk.seen_nodup, fun i hi => hwalk.all_seen ((mem_inodes hinv.held).mpr hi)⟩
        no_freed_read := hinv.no_freed_read }

theorem UnplugInv.open_file {i : I} {kmalloc : Bool} (hbound : s.destroyer = .bound)
    (h : unplug_step s (.open_file i kmalloc) = some t) : UnplugInv t := by
  obtain ⟨hfreed, hlast, hcnt⟩ := hinv.of_holds (by rw [hbound]; rfl)
  have hwalk := hinv.walk
  unfold WalkInv at hwalk
  simp only [unplug_step, hbound, Option.some.injEq] at h
  subst h
  rw [hbound] at hwalk
  obtain ⟨hret, hheld, hget_cnt, _, _⟩ | ⟨hret, heq⟩ := devref_get_inode hinv.held i kmalloc
  · rw [if_pos hret]
    exact
      { held := hheld
        ref_cnt := by
          dsimp only
          rw [hget_cnt, hcnt, Multiset.card_cons, if_pos (by rfl)]
          push_cast
          omega
        put := fun _ h => by cases h
        last := fun hne => absurd hlast hne
        freed := fun h => by simp [hfreed] at h
        walk := hwalk
        no_freed_read := hinv.no_freed_read }
  · have hne : (devref_get s.ref (some i) kmalloc).2 ≠ 0 := by omega
    rw [if_neg hne, heq]
    exact
      { held := hinv.held
        ref_cnt := hcnt
        put := fun _ h => by cases h
        last := hinv.last
        freed := fun h => by simp [hfreed] at h
        walk := hwalk
        no_freed_read := hinv.no_freed_read }

/-- The first of the steps on the list begins at its head. -/
theorem UnplugInv.lock (hunlisted : s.destroyer = .unlisted) :
    UnplugInv (unplug.forall_inodes_at { s with ref := devref_invalidate s.ref }
      (inodes s.ref).head?) := by
  have hvisited : s.visited = [] := by
    have hwalk := hinv.walk
    unfold WalkInv at hwalk
    rwa [hunlisted] at hwalk
  have hinvalid : UnplugInv { s with ref := devref_invalidate s.ref } :=
    { held := hinv.held
      ref_cnt := hinv.ref_cnt
      put := hinv.put
      last := hinv.last
      freed := hinv.freed
      walk := hinv.walk
      no_freed_read := hinv.no_freed_read }
  refine hinvalid.forall_inodes_at ?_ (by rw [hunlisted]; rfl)
  rw [hvisited]
  exact walk_start hinv.held.nodup

/-- A close that frees the kept node is not needed for the walk. -/
theorem UnplugInv.walk_close {i : I} (hi : i ∈ s.files)
    (hsaved : s.files.count i = 1 → s.destroyer.saved ≠ some i) {next : Option I} {seen : List I}
    (hnext : next = s.destroyer.saved) (hwalk : Walk (inodes s.ref) seen next) :
    Walk (inodes (devref_put s.ref (some i)).1) seen next := by
  rw [inodes_put hinv.held hi]
  split_ifs with hone
  · exact hwalk.remove (hnext ▸ hsaved hone)
  · exact hwalk

/-- A close frees a node that the loop is not going to read, or none. -/
theorem UnplugInv.close {i : I} (hi : i ∈ s.files)
    (hsaved : s.files.count i = 1 → s.destroyer.saved ≠ some i)
    (h : unplug_step s (.close i) = some t) : UnplugInv t := by
  have hcnt := hinv.ref_cnt
  have hcard : s.files.card = (s.files.erase i).card + 1 := (Multiset.card_erase_add_one hi).symm
  have hfreed : s.freed = false := by
    by_contra hfreed
    have hzero := (hinv.freed (by simpa using hfreed)).1
    split_ifs at hcnt <;> omega
  have hlast : s.last_closes = 0 := by
    by_contra hne
    have hzero := (hinv.last hne).2.1
    split_ifs at hcnt <;> omega
  have hret : (devref_put s.ref (some i)).2 = s.ref.ref_cnt - 1 := devref_put_ret s.ref (some i)
  simp only [unplug_step, hi, not_true_eq_false, if_false, hfreed, Bool.false_eq_true,
    Option.some.injEq] at h
  subst h
  refine ⟨devref_put_inode hinv.held hi, ?_, ?_, ?_, ?_, ?_, hinv.no_freed_read⟩
  · dsimp only
    rw [devref_put_ref_cnt]
    omega
  · intro rval hput
    obtain ⟨hnonneg, _, hzero⟩ := hinv.put rval hput
    refine ⟨hnonneg, rfl, fun hrval => ?_⟩
    have := (hzero hrval).1
    split_ifs at hcnt <;> omega
  · intro hne
    dsimp only at hne ⊢
    by_cases hrval : (devref_put s.ref (some i)).2 = 0
    · rw [if_pos hrval, hlast]
      exact ⟨rfl, hrval, rfl⟩
    · rw [if_neg hrval] at hne
      exact absurd hlast hne
  · intro hfreed'
    cases hfreed'
  · have hwalk := hinv.walk
    unfold WalkInv at hwalk ⊢
    dsimp only
    cases hd : s.destroyer with
    | bound => rwa [hd] at hwalk
    | unlisted => rwa [hd] at hwalk
    | unlocked l n =>
      rw [hd] at hwalk
      exact hinv.walk_close hi hsaved (by rw [hd]; rfl) hwalk
    | called n =>
      rw [hd] at hwalk
      exact hinv.walk_close hi hsaved (by rw [hd]; rfl) hwalk
    | put rval =>
      rw [hd] at hwalk
      exact ⟨hwalk.1, fun j hj => hwalk.2 j (Multiset.mem_of_mem_erase hj)⟩
    | done =>
      rw [hd] at hwalk
      exact ⟨hwalk.1, fun j hj => hwalk.2 j (Multiset.mem_of_mem_erase hj)⟩
    | lost => rwa [hd] at hwalk

/-- The MNG_DEV is freed when `modac_mngdev_destroy` is through. -/
theorem UnplugInv.close_destroy (hput : ∀ rval, s.destroyer ≠ .put rval)
    (h : unplug_step s .close_destroy = some t) : UnplugInv t := by
  simp only [unplug_step] at h
  by_cases hlast : s.last_closes = 0
  · rw [if_pos hlast] at h
    cases h
  rw [if_neg hlast] at h
  obtain ⟨hone, hzero, hfreed⟩ := hinv.last hlast
  simp only [hfreed, Bool.false_eq_true, if_false, Option.some.injEq] at h
  subst h
  have hdone : s.destroyer = .done := by
    have hcnt := hinv.ref_cnt
    have hwalk := hinv.walk
    unfold WalkInv at hwalk
    cases hd : s.destroyer with
    | put rval => exact absurd hd (hput rval)
    | done => rfl
    | lost => simp [hd] at hwalk
    | _ =>
      rw [hd, if_pos (by rfl)] at hcnt
      omega
  refine ⟨hinv.held, hinv.ref_cnt, ?_, ?_, ?_, hinv.walk, hinv.no_freed_read⟩
  · intro rval hrval
    exact absurd hrval (hput rval)
  · intro hne
    dsimp only at hne
    omega
  · intro _
    refine ⟨hzero, ?_, hdone⟩
    dsimp only
    omega

theorem UnplugInv.callback {l : I} {n : Option I} (hd : s.destroyer = .unlocked l n) :
    UnplugInv { s with destroyer := .called n, visited := s.visited ++ [l] } := by
  obtain ⟨hfreed, hlast, hcnt⟩ := hinv.of_holds (by rw [hd]; rfl)
  have hwalk := hinv.walk
  unfold WalkInv at hwalk
  rw [hd] at hwalk
  exact
    { held := hinv.held
      ref_cnt := hcnt
      put := fun _ h => by cases h
      last := hinv.last
      freed := fun h => by simp [hfreed] at h
      walk := hwalk
      no_freed_read := hinv.no_freed_read }

theorem UnplugInv.tail {rval : Int} (hd : s.destroyer = .put rval)
    (h : unplug_step s .destroy_tail = some t) : UnplugInv t := by
  obtain ⟨hnonneg, hfreed, hzero⟩ := hinv.put rval hd
  have hwalk := hinv.walk
  have hcnt := hinv.ref_cnt
  unfold WalkInv at hwalk
  rw [hd] at hwalk hcnt
  simp only [unplug_step, hd, hfreed, Bool.false_eq_true, if_false, Option.some.injEq] at h
  subst h
  refine ⟨hinv.held, hcnt, ?_, ?_, ?_, hwalk, hinv.no_freed_read⟩
  · intro rval hrval
    cases hrval
  · intro hne
    obtain ⟨hone, hcnt', _⟩ := hinv.last hne
    refine ⟨hone, hcnt', decide_eq_false fun hrval => ?_⟩
    exact hne (hzero hrval).2
  · intro hrval
    rw [decide_eq_true_eq] at hrval
    obtain ⟨hcnt', hlast⟩ := hzero hrval
    exact ⟨hcnt', hlast, rfl⟩

end

variable {s t : unplug_state I}

theorem unplugInv_step {a : unplug_op I} (hinv : UnplugInv s) (hsafe : ClosesSafely s a)
    (h : unplug_step s a = some t) : UnplugInv t := by
  cases a with
  | open_file i kmalloc =>
    cases hd : s.destroyer with
    | bound => exact hinv.open_file hd h
    | _ => simp [unplug_step, hd] at h
  | destroy_unlist =>
    cases hd : s.destroyer with
    | bound =>
      obtain ⟨hfreed, _, hcnt⟩ := hinv.of_holds (by rw [hd]; rfl)
      have hwalk := hinv.walk
      unfold WalkInv at hwalk
      rw [hd] at hwalk
      simp only [unplug_step, hd, Option.some.injEq] at h
      subst h
      exact
        { held := hinv.held
          ref_cnt := hcnt
          put := fun _ h => by cases h
          last := hinv.last
          freed := fun h => by simp [hfreed] at h
          walk := hwalk
          no_freed_read := hinv.no_freed_read }
    | _ => simp [unplug_step, hd] at h
  | destroy_lock =>
    cases hd : s.destroyer with
    | unlisted =>
      simp only [unplug_step, hd, Option.some.injEq] at h
      subst h
      have hnext := hinv.lock hd
      rw [hd] at hnext
      exact hnext
    | _ => simp [unplug_step, hd] at h
  | destroy_callback =>
    cases hd : s.destroyer with
    | unlocked l n =>
      simp only [unplug_step, hd, Option.some.injEq] at h
      subst h
      exact hinv.callback hd
    | _ => simp [unplug_step, hd] at h
  | destroy_next =>
    cases hd : s.destroyer with
    | called n =>
      have hwalk := hinv.walk
      unfold WalkInv at hwalk
      rw [hd] at hwalk
      simp only [unplug_step, hd, Option.some.injEq] at h
      subst h
      exact hinv.forall_inodes_at hwalk (by rw [hd]; rfl)
    | _ => simp [unplug_step, hd] at h
  | destroy_tail =>
    cases hd : s.destroyer with
    | put rval => exact hinv.tail hd h
    | _ => simp [unplug_step, hd] at h
  | close i =>
    by_cases hi : i ∈ s.files
    · exact hinv.close hi (hsafe.1 i rfl) h
    · simp [unplug_step, hi] at h
  | close_destroy => exact hinv.close_destroy (hsafe.2 rfl) h

/-- The loop of `devref_forall_inodes` is through. -/
def destroy_progress.loop_over : destroy_progress I → Bool
  | .put _ | .done => true
  | _ => false

/-- Nothing was read that was freed before. No inode is visited twice, and after the loop each
inode that has been held up to then was visited. -/
def UnplugSafe (s : unplug_state I) : Prop :=
  s.freed_reads = [] ∧ s.visited.Nodup ∧
    (s.destroyer.loop_over = true → ∀ i ∈ s.files, s.visited.count i = 1)

theorem UnplugInv.unplugSafe (hinv : UnplugInv s) : UnplugSafe s := by
  have hwalk := hinv.walk
  unfold WalkInv at hwalk
  refine ⟨hinv.no_freed_read, ?_⟩
  cases hd : s.destroyer with
  | bound =>
    rw [hd] at hwalk
    exact ⟨hwalk ▸ List.nodup_nil, fun h => by cases h⟩
  | unlisted =>
    rw [hd] at hwalk
    exact ⟨hwalk ▸ List.nodup_nil, fun h => by cases h⟩
  | unlocked l n =>
    rw [hd] at hwalk
    exact ⟨(List.nodup_append.mp hwalk.seen_nodup).1, fun h => by cases h⟩
  | called n =>
    rw [hd] at hwalk
    exact ⟨hwalk.seen_nodup, fun h => by cases h⟩
  | put rval =>
    rw [hd] at hwalk
    exact ⟨hwalk.1, fun _ i hi => List.count_eq_one_of_mem hwalk.1 (hwalk.2 i hi)⟩
  | done =>
    rw [hd] at hwalk
    exact ⟨hwalk.1, fun _ i hi => List.count_eq_one_of_mem hwalk.1 (hwalk.2 i hi)⟩
  | lost => simp [hd] at hwalk

/-- When the kept node is not listed anymore, the loop reads it all the same. -/
theorem loop_reads_freed {n : I} (hsaved : s.destroyer.saved = some n) (hn : n ∉ inodes s.ref) :
    ∃ more, ¬ StatesMeet unplug_step UnplugSafe s more := by
  cases hd : s.destroyer with
  | unlocked l n' =>
    rw [hd] at hsaved
    obtain rfl : n' = some n := hsaved
    refine ⟨[.destroy_callback, .destroy_next], fun hmeet => ?_⟩
    let u : unplug_state I := { s with destroyer := .called (some n), visited := s.visited ++ [l] }
    have hcallback : unplug_step s .destroy_callback = some u := by
      simp only [unplug_step, hd, u]
    have hrun : run unplug_step s [.destroy_callback, .destroy_next] =
        some (forall_inodes_at u (some n)) :=
      run_cons_eq_some.mpr ⟨u, hcallback, run_cons_eq_some.mpr ⟨_, rfl, rfl⟩⟩
    have hsafe := (hmeet.last hrun).1
    rw [forall_inodes_at_freed (s := u) hn] at hsafe
    cases hsafe
  | called n' =>
    rw [hd] at hsaved
    obtain rfl : n' = some n := hsaved
    refine ⟨[.destroy_next], fun hmeet => ?_⟩
    have hnext : unplug_step s .destroy_next = some (forall_inodes_at s (some n)) := by
      simp only [unplug_step, hd]
    have hsafe := (hmeet.last (run_cons_eq_some.mpr ⟨_, hnext, rfl⟩)).1
    rw [forall_inodes_at_freed hn] at hsafe
    cases hsafe
  | _ =>
    rw [hd] at hsaved
    cases hsaved

/-- After a close that is not safe, `modac_mngdev_destroy` goes on to read what was freed. -/
theorem UnplugInv.unsafe_close (hinv : UnplugInv s) {a : unplug_op I} (hsafe : ¬ ClosesSafely s a)
    (h : unplug_step s a = some t) : ∃ more, ¬ StatesMeet unplug_step UnplugSafe t more := by
  unfold ClosesSafely at hsafe
  rw [not_and_or] at hsafe
  push Not at hsafe
  obtain ⟨i, rfl, hone, hsaved⟩ | ⟨rfl, rval, hput⟩ := hsafe
  · have hi : i ∈ s.files := by
      rw [← Multiset.count_pos]
      omega
    have hfreed : s.freed = false := by
      by_contra hfreed
      have hdone := (hinv.freed (by simpa using hfreed)).2.2
      rw [hdone] at hsaved
      cases hsaved
    simp only [unplug_step, hi, not_true_eq_false, if_false, hfreed, Bool.false_eq_true,
      Option.some.injEq] at h
    subst h
    refine loop_reads_freed hsaved ?_
    rw [mem_inodes (devref_put_inode hinv.held hi), ← Multiset.count_pos, Multiset.count_erase_self]
    omega
  · simp only [unplug_step] at h
    by_cases hlast : s.last_closes = 0
    · rw [if_pos hlast] at h
      cases h
    have hfreed := (hinv.last hlast).2.2
    simp only [if_neg hlast, hfreed, Bool.false_eq_true, if_false, Option.some.injEq] at h
    subst h
    refine ⟨[.destroy_tail], fun hmeet => ?_⟩
    have htail : unplug_step
        { s with freed := true, last_closes := s.last_closes - 1 } .destroy_tail =
        some { s with
          freed := true
          last_closes := s.last_closes - 1
          destroyer := .done
          freed_reads := .mngdev_data :: s.freed_reads } := by
      simp only [unplug_step, hput, if_true]
    cases (hmeet.last (run_cons_eq_some.mpr ⟨_, htail, rfl⟩)).1

/-- In every interleaving of `modac_mngdev_destroy` with closes that free neither the node that
the loop goes on with nor, before `modac_mngdev_destroy` is through, the MNG_DEV: nothing is read
that was freed, and each inode that is held during the whole loop is visited exactly once. A
close that does free one of them can be followed by the read of it. -/
theorem unplug_with_closes (ops : List (unplug_op I)) :
    (StepsMeet unplug_step ClosesSafely unplug_init ops →
      StatesMeet unplug_step UnplugSafe unplug_init ops) ∧
    ∀ s a t, run unplug_step unplug_init ops = some s →
      StepsMeet unplug_step ClosesSafely unplug_init ops → ¬ ClosesSafely s a →
      unplug_step s a = some t → ∃ more, ¬ StatesMeet unplug_step UnplugSafe t more := by
  constructor
  · intro hsafe
    exact statesMeet_of_stepsMeet (fun _ hinv => UnplugInv.unplugSafe hinv)
      (fun _ _ _ hinv hsafe h => unplugInv_step hinv hsafe h) unplugInv_init hsafe
  · intro s a t hrun hsafe hunsafe h
    have hinv : UnplugInv s := run_invariant_of_stepsMeet
      (fun _ _ _ hinv hsafe h => unplugInv_step hinv hsafe h) hsafe hrun unplugInv_init
    exact hinv.unsafe_close hunsafe h

/-- Two files; the second in the list is closed during the callback for the first. -/
def close_during_callback : List (unplug_op Nat) :=
  [.open_file 1 true, .open_file 2 true, .destroy_unlist, .destroy_lock, .close 1,
    .destroy_callback, .destroy_next]

theorem close_during_callback_fails :
    ¬ (∀ ops : List (unplug_op Nat), StatesMeet unplug_step UnplugSafe unplug_init ops) := by
  intro hall
  have hbad : ∀ u : unplug_state Nat, (!u.freed_reads.isEmpty) = true → ¬ UnplugSafe u := by
    intro u hu hsafe
    rw [hsafe.1] at hu
    cases hu
  exact not_statesMeet_of_last hbad (by decide +kernel) (hall close_during_callback)

end evrma.unplug
