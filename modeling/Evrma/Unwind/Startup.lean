import Evrma.Lib.Account
import Evrma.MngDev.Data

namespace evrma.unwind

open evrma.lib evrma.mng_dev

inductive startup_item where
  | chrdev_region
  | mngdev_class
  | mngdev_table
  | mngdev_cdev (i : Nat)
  | vdev_class
  | vdev_table
  | vdev_cdev (i : Nat)
deriving DecidableEq

abbrev startup_actions := List (Action startup_item)

/-- What one of the two files sets up, and how the steps turn out. -/
structure sys where
  cls : startup_item
  table : startup_item
  cdev : Nat → startup_item
  cls_ne_table : cls ≠ table
  cdev_ne_cls : ∀ i, cdev i ≠ cls
  cdev_ne_table : ∀ i, cdev i ≠ table
  cdev_injective : Function.Injective cdev
  class_create : kernel_call
  kzalloc_table : Bool
  cdev_add : Nat → kernel_call

inductive clean_sys where
  | CLEAN_SYS_CLASS
  | CLEAN_SYS_TABLE
  | CLEAN_SYS_CDEV
  | CLEAN_SYS_VDEV
deriving DecidableEq

/-- The loop of `cleanup_sys` over the table, from the entry `i` on. -/
def del_cdevs (s : sys) (have_cdev : Nat → Bool) : (left i : Nat) → startup_actions
  | 0, _ => []
  | left + 1, i =>
    .use s.table :: (if have_cdev i then [.release (s.cdev i)] else []) ++
      del_cdevs s have_cdev left (i + 1)

/-- `modac_vdev_fini` is only there for the MNG_DEVs. -/
def cleanup_sys (s : sys) (table_size : Nat) (have_cdev : Nat → Bool)
    (modac_vdev_fini : startup_actions) : clean_sys → startup_actions :=
  fall_through [
    (.CLEAN_SYS_VDEV, modac_vdev_fini),
    (.CLEAN_SYS_CDEV, del_cdevs s have_cdev table_size 0),
    (.CLEAN_SYS_TABLE, [.release s.table]),
    (.CLEAN_SYS_CLASS, [.release s.cls])]

structure sys_result where
  actions : startup_actions
  have_cdev : Nat → Bool
  ret : Int

/-- The loop of the initialisation from the entry `i` on, with the clean-up inside of it. -/
def add_cdevs (s : sys) (table_size : Nat) : (left i : Nat) → (have_cdev : Nat → Bool) → sys_result
  | 0, _, have_cdev => ⟨[], have_cdev, 0⟩
  | left + 1, i, have_cdev =>
    match s.cdev_add i with
    | .error err =>
      ⟨.use s.table :: cleanup_sys s table_size have_cdev [] .CLEAN_SYS_TABLE, have_cdev, err⟩
    | .ok () =>
      let rest := add_cdevs s table_size left (i + 1) (Function.update have_cdev i true)
      { rest with actions := .use s.table :: .acquire (s.cdev i) :: rest.actions }

/-- What the two initialisations have in common. -/
def sys_init (s : sys) (table_size : Nat) : sys_result :=
  let have_cdev := fun _ => false
  match s.class_create with
  | .error err => ⟨[], have_cdev, err⟩
  | .ok () =>
    if s.kzalloc_table = false then
      ⟨.acquire s.cls :: cleanup_sys s table_size have_cdev [] .CLEAN_SYS_CLASS, have_cdev, -ENOMEM⟩
    else
      let loop := add_cdevs s table_size table_size 0 have_cdev
      let actions := .acquire s.cls :: .acquire s.table :: loop.actions
      if loop.ret ≠ 0 then
        ⟨actions ++ cleanup_sys s table_size loop.have_cdev [] .CLEAN_SYS_CDEV, loop.have_cdev,
          loop.ret⟩
      else ⟨actions, loop.have_cdev, 0⟩

structure startup_steps where
  alloc_chrdev_region : kernel_call
  mngdev_class_create : kernel_call
  mngdev_kzalloc : Bool
  mngdev_cdev_add : Nat → kernel_call
  vdev_class_create : kernel_call
  vdev_kzalloc : Bool
  vdev_cdev_add : Nat → kernel_call

def mngdev_sys (o : startup_steps) : sys where
  cls := .mngdev_class
  table := .mngdev_table
  cdev := .mngdev_cdev
  cls_ne_table := nofun
  cdev_ne_cls := nofun
  cdev_ne_table := nofun
  cdev_injective i j h := by cases h; rfl
  class_create := o.mngdev_class_create
  kzalloc_table := o.mngdev_kzalloc
  cdev_add := o.mngdev_cdev_add

def vdev_sys (o : startup_steps) : sys where
  cls := .vdev_class
  table := .vdev_table
  cdev := .vdev_cdev
  cls_ne_table := nofun
  cdev_ne_cls := nofun
  cdev_ne_table := nofun
  cdev_injective i j h := by cases h; rfl
  class_create := o.vdev_class_create
  kzalloc_table := o.vdev_kzalloc
  cdev_add := o.vdev_cdev_add

def modac_vdev_init (o : startup_steps) (count : Nat) : sys_result :=
  sys_init (vdev_sys o) (count / MINOR_MULTIPLICATOR.toNat)

/-- The flags `have_cdev` of the table are what `modac_vdev_init` left. -/
def modac_vdev_fini (o : startup_steps) (count : Nat) : startup_actions :=
  cleanup_sys (vdev_sys o) (count / MINOR_MULTIPLICATOR.toNat) (modac_vdev_init o count).have_cdev
    [] .CLEAN_SYS_CDEV

def modac_mngdev_init (o : startup_steps) (first_minor count : Nat) : sys_result :=
  if first_minor % MINOR_MULTIPLICATOR.toNat ≠ 0 then ⟨[], fun _ => false, -EINVAL⟩
  else if count % MINOR_MULTIPLICATOR.toNat ≠ 0 then ⟨[], fun _ => false, -EINVAL⟩
  else
    let mngdev := sys_init (mngdev_sys o) (count / MINOR_MULTIPLICATOR.toNat)
    if mngdev.ret ≠ 0 then mngdev
    else
      let vdev := modac_vdev_init o count
      if vdev.ret < 0 then
        ⟨mngdev.actions ++ vdev.actions ++
          cleanup_sys (mngdev_sys o) (count / MINOR_MULTIPLICATOR.toNat) mngdev.have_cdev []
            .CLEAN_SYS_CDEV, mngdev.have_cdev, vdev.ret⟩
      else ⟨mngdev.actions ++ vdev.actions, mngdev.have_cdev, 0⟩

def modac_mngdev_fini (o : startup_steps) (first_minor count : Nat) : startup_actions :=
  cleanup_sys (mngdev_sys o) (count / MINOR_MULTIPLICATOR.toNat)
    (modac_mngdev_init o first_minor count).have_cdev (modac_vdev_fini o count) .CLEAN_SYS_VDEV

/-- The region starts at the minor 0. The MNG_DEVs that are created afterwards keep what they
acquire to themselves. -/
def evrma_init (o : startup_steps) (NUM_MINORS : Nat) : startup_actions × Int :=
  match o.alloc_chrdev_region with
  | .error err => ([], err)
  | .ok () =>
    let mngdev := modac_mngdev_init o 0 NUM_MINORS
    (.acquire .chrdev_region :: mngdev.actions, mngdev.ret)

def evrma_fini (o : startup_steps) (NUM_MINORS : Nat) : startup_actions :=
  modac_mngdev_fini o 0 NUM_MINORS ++ [.release .chrdev_region]

section

variable {s : sys} {held : Finset startup_item} {table_size left i : Nat}
  {have_cdev : Nat → Bool}

/-- The devices of `left` entries from the entry `i` on. -/
def cdevs (s : sys) : (left i : Nat) → Finset startup_item
  | 0, _ => ∅
  | left + 1, i => insert (s.cdev i) (cdevs s left (i + 1))

theorem mem_cdevs {item : startup_item} :
    item ∈ cdevs s left i ↔ ∃ j, i ≤ j ∧ j < i + left ∧ item = s.cdev j := by
  induction left generalizing i with
  | zero =>
    rw [cdevs]
    constructor
    · nofun
    · rintro ⟨j, hge, hlt, -⟩
      omega
  | succ left ih =>
    rw [cdevs, Finset.mem_insert, ih]
    constructor
    · rintro (rfl | ⟨j, hge, hlt, rfl⟩)
      · exact ⟨i, Nat.le_refl i, by omega, rfl⟩
      · exact ⟨j, by omega, by omega, rfl⟩
    · rintro ⟨j, hge, hlt, rfl⟩
      by_cases hj : j = i
      · exact .inl (hj ▸ rfl)
      · exact .inr ⟨j, by omega, by omega, rfl⟩

/-- Nothing of the class and the table is held. -/
structure Fresh (s : sys) (held : Finset startup_item) : Prop where
  cls : s.cls ∉ held
  table : s.table ∉ held
  cdev : ∀ i, s.cdev i ∉ held

theorem add_cdevs_ok (hadd : ∀ j, i ≤ j → j < i + left → s.cdev_add j = .ok ())
    (htable : s.table ∈ held) (hcdev : ∀ j, i ≤ j → s.cdev j ∉ held) :
    (add_cdevs s table_size left i have_cdev).ret = 0 ∧
    (∀ j, (add_cdevs s table_size left i have_cdev).have_cdev j =
      (have_cdev j || decide (i ≤ j ∧ j < i + left))) ∧
    account held (add_cdevs s table_size left i have_cdev).actions =
      some (held ∪ cdevs s left i) := by
  induction left generalizing i held have_cdev with
  | zero =>
    refine ⟨rfl, fun j => ?_, by simp [add_cdevs, cdevs]⟩
    rw [decide_eq_false (by omega), Bool.or_false]
    rfl
  | succ left ih =>
    have hrest := @ih (insert (s.cdev i) held) (i + 1) (Function.update have_cdev i true)
      (fun j hge hlt => hadd j (by omega) (by omega)) (Finset.mem_insert_of_mem htable)
      (fun j hge hmem => by
        obtain heq | hmem := Finset.mem_insert.mp hmem
        · have := s.cdev_injective heq
          omega
        · exact hcdev j (by omega) hmem)
    obtain ⟨hret, hhave, haccount⟩ := hrest
    rw [add_cdevs, hadd i (Nat.le_refl i) (by omega)]
    refine ⟨hret, fun j => ?_, ?_⟩
    · dsimp only
      rw [hhave, Function.update_apply]
      by_cases hj : j = i
      · rw [if_pos hj, decide_eq_true (p := i ≤ j ∧ j < i + (left + 1)) (by omega)]
        simp
      · rw [if_neg hj]
        congr 1
        rw [decide_eq_decide]
        omega
    · rw [account_use htable, account_acquire (hcdev i (Nat.le_refl i)), haccount, cdevs,
        Finset.insert_union, Finset.union_insert]

/-- Where an entry fails inside of the loop, the table is gone after it. -/
theorem add_cdevs_failed (hadd : ∃ j, i ≤ j ∧ j < i + left ∧ s.cdev_add j ≠ .ok ()) :
    (add_cdevs s table_size left i have_cdev).ret < 0 ∧
    ∀ held held', account held (add_cdevs s table_size left i have_cdev).actions = some held' →
      s.table ∉ held' := by
  induction left generalizing i have_cdev with
  | zero =>
    obtain ⟨j, hge, hlt, -⟩ := hadd
    omega
  | succ left ih =>
    rw [add_cdevs]
    cases hentry : s.cdev_add i with
    | error err =>
      refine ⟨err.property, fun held held' haccount => ?_⟩
      have hcleanup : cleanup_sys s table_size have_cdev [] .CLEAN_SYS_TABLE =
          [.release s.table, .release s.cls] := rfl
      simp only [hcleanup, account] at haccount
      split_ifs at haccount with htable hcls
      obtain rfl := Option.some.inj haccount
      simp
    | ok _ =>
      obtain ⟨j, hge, hlt, hfails⟩ := hadd
      have hne : j ≠ i := by
        rintro rfl
        exact hfails hentry
      obtain ⟨hret, haccount⟩ := @ih (i + 1) (Function.update have_cdev i true)
        ⟨j, by omega, by omega, hfails⟩
      refine ⟨hret, fun held held' hheld => ?_⟩
      simp only [account] at hheld
      split_ifs at hheld with htable hcdev
      exact haccount _ held' hheld

theorem del_cdevs_account (hhave : ∀ j, i ≤ j → j < i + left → have_cdev j = true)
    (htable : s.table ∈ held) (hcdev : ∀ j, s.cdev j ∉ held) :
    account (held ∪ cdevs s left i) (del_cdevs s have_cdev left i) = some held := by
  induction left generalizing i with
  | zero => simp [del_cdevs, cdevs]
  | succ left ih =>
    have hnot : s.cdev i ∉ held ∪ cdevs s left (i + 1) := by
      rw [Finset.mem_union, not_or]
      refine ⟨hcdev i, fun hmem => ?_⟩
      obtain ⟨j, hge, -, heq⟩ := mem_cdevs.mp hmem
      have := s.cdev_injective heq
      omega
    rw [del_cdevs, hhave i (Nat.le_refl i) (by omega), if_pos rfl, List.cons_append,
      account_use (Finset.mem_union_left _ htable), List.singleton_append, cdevs,
      Finset.union_insert, account_release (Finset.mem_insert_self _ _), Finset.erase_insert hnot]
    exact ih fun j hge hlt => hhave j (by omega) (by omega)

/-- What an initialisation that succeeds holds. -/
def sys_held (s : sys) (table_size : Nat) : Finset startup_item :=
  insert s.cls (insert s.table (cdevs s table_size 0))

theorem cleanup_sys_account (hfresh : Fresh s held)
    (hhave : ∀ j, j < table_size → have_cdev j = true) :
    account (held ∪ sys_held s table_size) (cleanup_sys s table_size have_cdev [] .CLEAN_SYS_CDEV) =
      some held := by
  have hcleanup : cleanup_sys s table_size have_cdev [] .CLEAN_SYS_CDEV =
      del_cdevs s have_cdev table_size 0 ++ [.release s.table, .release s.cls] := rfl
  have hheld : held ∪ sys_held s table_size =
      insert s.table (insert s.cls held) ∪ cdevs s table_size 0 := by
    rw [sys_held, Finset.union_insert, Finset.union_insert, Finset.insert_union,
      Finset.insert_union, Finset.insert_comm]
  have htable : s.table ∉ insert s.cls held := by
    rw [Finset.mem_insert, not_or]
    exact ⟨s.cls_ne_table.symm, hfresh.table⟩
  have hcdev : ∀ j, s.cdev j ∉ insert s.table (insert s.cls held) := by
    intro j hmem
    simp only [Finset.mem_insert, s.cdev_ne_table, s.cdev_ne_cls, hfresh.cdev, or_self] at hmem
  rw [hcleanup, hheld, account_append_of_some (del_cdevs_account (fun j _ hlt => hhave j (by omega))
    (Finset.mem_insert_self _ _) hcdev), account_release (Finset.mem_insert_self _ _),
    Finset.erase_insert htable, account_release (Finset.mem_insert_self _ _),
    Finset.erase_insert hfresh.cls, account_nil]

/-- All steps of one initialisation succeed. -/
structure SysSucceeds (s : sys) (table_size : Nat) : Prop where
  cls : s.class_create = .ok ()
  table : s.kzalloc_table = true
  cdevs : ∀ i < table_size, s.cdev_add i = .ok ()

/-- It gets to the loop, and a device fails there. -/
structure CdevFails (s : sys) (table_size : Nat) : Prop where
  cls : s.class_create = .ok ()
  table : s.kzalloc_table = true
  cdev : ∃ i < table_size, s.cdev_add i ≠ .ok ()

theorem sys_init_ok (hok : SysSucceeds s table_size) (hfresh : Fresh s held) :
    (sys_init s table_size).ret = 0 ∧
    (∀ j, j < table_size → (sys_init s table_size).have_cdev j = true) ∧
    account held (sys_init s table_size).actions = some (held ∪ sys_held s table_size) := by
  have htable : s.table ∉ insert s.cls held := by
    rw [Finset.mem_insert, not_or]
    exact ⟨s.cls_ne_table.symm, hfresh.table⟩
  have hcdev : ∀ j, s.cdev j ∉ insert s.table (insert s.cls held) := by
    intro j hmem
    simp only [Finset.mem_insert, s.cdev_ne_table, s.cdev_ne_cls, hfresh.cdev, or_self] at hmem
  obtain ⟨hret, hhave, haccount⟩ := @add_cdevs_ok s (insert s.table (insert s.cls held)) table_size
    table_size 0 (fun _ => false) (fun j _ hlt => hok.cdevs j (by omega))
    (Finset.mem_insert_self _ _) (fun j _ => hcdev j)
  unfold sys_init
  rw [hok.cls]
  dsimp only
  rw [if_neg (by rw [hok.table]; decide), if_neg (not_not_intro hret)]
  refine ⟨rfl, fun j hlt => ?_, ?_⟩
  · rw [hhave, decide_eq_true (by omega), Bool.or_true]
  · rw [account_acquire hfresh.cls, account_acquire htable, haccount, sys_held,
      Finset.union_insert, Finset.union_insert, Finset.insert_union, Finset.insert_union,
      Finset.insert_comm]

/-- A device that fails makes the clean-up touch the table that is freed already. -/
theorem sys_init_cdev_fails (hfails : CdevFails s table_size) :
    (sys_init s table_size).ret < 0 ∧
    ∀ held, account held (sys_init s table_size).actions = none := by
  obtain ⟨i, hlt, hi⟩ := hfails.cdev
  obtain ⟨hret, haccount⟩ := @add_cdevs_failed s table_size table_size 0 (fun _ => false)
    ⟨i, Nat.zero_le i, by omega, hi⟩
  unfold sys_init
  rw [hfails.cls]
  dsimp only
  rw [if_neg (by rw [hfails.table]; decide), if_pos (by omega)]
  refine ⟨hret, fun held => ?_⟩
  simp only [List.cons_append, account]
  split_ifs
  · rfl
  · rfl
  · cases hloop : account (insert s.table (insert s.cls held))
        (add_cdevs s table_size table_size 0 fun _ => false).actions with
    | none => exact account_append_of_none hloop
    | some held' =>
      have htable := haccount _ held' hloop
      obtain ⟨n, rfl⟩ : ∃ n, table_size = n + 1 := ⟨table_size - 1, by omega⟩
      rw [account_append_of_some hloop]
      exact account_use_of_notMem htable

/-- Before the loop an initialisation fails cleanly. -/
theorem sys_init_fails_early (hnot : ¬ SysSucceeds s table_size) (hcdev : ¬ CdevFails s table_size)
    (hfresh : s.cls ∉ held) :
    (sys_init s table_size).ret < 0 ∧
    account held (sys_init s table_size).actions = some held := by
  unfold sys_init
  cases hcls : s.class_create with
  | error err => exact ⟨err.property, rfl⟩
  | ok _ =>
    dsimp only
    by_cases htable : s.kzalloc_table = false
    · rw [if_pos htable]
      refine ⟨(by decide : (-ENOMEM : Int) < 0), ?_⟩
      rw [account_acquire hfresh]
      change account _ [.release s.cls] = _
      rw [account_release (Finset.mem_insert_self _ _), Finset.erase_insert hfresh, account_nil]
    · rw [Bool.not_eq_false] at htable
      by_cases hadd : ∀ i < table_size, s.cdev_add i = .ok ()
      · exact absurd ⟨hcls, htable, hadd⟩ hnot
      · refine absurd ⟨hcls, htable, ?_⟩ hcdev
        simpa using hadd

end

section

variable {o : startup_steps} {n : Nat}

/-- What the claim of a clean start-up asks for the `n` rows of the tables. -/
structure StartupClean (o : startup_steps) (n : Nat) : Prop where
  failed : (evrma_init o (n * 32)).2 ≠ 0 → account ∅ (evrma_init o (n * 32)).1 = some ∅
  mngdev_fini : (evrma_init o (n * 32)).2 = 0 →
    account ∅ ((evrma_init o (n * 32)).1 ++ modac_mngdev_fini o 0 (n * 32)) =
      some {.chrdev_region}
  fini : (evrma_init o (n * 32)).2 = 0 →
    account ∅ ((evrma_init o (n * 32)).1 ++ evrma_fini o (n * 32)) = some ∅

/-- The same for `modac_mngdev_init` alone, which finds the region acquired. -/
def MngdevInitClean (o : startup_steps) (n : Nat) : Prop :=
  (modac_mngdev_init o 0 (n * 32)).ret ≠ 0 →
    account {.chrdev_region} (modac_mngdev_init o 0 (n * 32)).actions = some {.chrdev_region}

/-- A device of one of the two tables fails to be added. -/
def CdevAddFails (o : startup_steps) (n : Nat) : Prop :=
  CdevFails (mngdev_sys o) n ∨ SysSucceeds (mngdev_sys o) n ∧ CdevFails (vdev_sys o) n

theorem modac_vdev_init_eq : modac_vdev_init o (n * 32) = sys_init (vdev_sys o) n := by
  rw [modac_vdev_init, show MINOR_MULTIPLICATOR.toNat = 32 from rfl, Nat.mul_div_cancel n (by decide)]

theorem modac_mngdev_init_eq : modac_mngdev_init o 0 (n * 32) =
    if (sys_init (mngdev_sys o) n).ret ≠ 0 then sys_init (mngdev_sys o) n
    else if (sys_init (vdev_sys o) n).ret < 0 then
      ⟨(sys_init (mngdev_sys o) n).actions ++ (sys_init (vdev_sys o) n).actions ++
        cleanup_sys (mngdev_sys o) n (sys_init (mngdev_sys o) n).have_cdev [] .CLEAN_SYS_CDEV,
        (sys_init (mngdev_sys o) n).have_cdev, (sys_init (vdev_sys o) n).ret⟩
    else
      ⟨(sys_init (mngdev_sys o) n).actions ++ (sys_init (vdev_sys o) n).actions,
        (sys_init (mngdev_sys o) n).have_cdev, 0⟩ := by
  rw [modac_mngdev_init, show MINOR_MULTIPLICATOR.toNat = 32 from rfl, if_neg (by simp),
    if_neg (by simp), Nat.mul_div_cancel n (by decide), modac_vdev_init_eq]

theorem fresh_region : Fresh (mngdev_sys o) {.chrdev_region} where
  cls := by simp [mngdev_sys]
  table := by simp [mngdev_sys]
  cdev i := by simp [mngdev_sys]

theorem fresh_mngdev :
    Fresh (vdev_sys o) ({.chrdev_region} ∪ sys_held (mngdev_sys o) n) where
  cls := by simp [sys_held, mem_cdevs, mngdev_sys, vdev_sys]
  table := by simp [sys_held, mem_cdevs, mngdev_sys, vdev_sys]
  cdev i := by simp [sys_held, mem_cdevs, mngdev_sys, vdev_sys]

/-- Both initialisations succeed: everything is held. -/
theorem modac_mngdev_init_ok (hmngdev : SysSucceeds (mngdev_sys o) n)
    (hvdev : SysSucceeds (vdev_sys o) n) :
    (modac_mngdev_init o 0 (n * 32)).ret = 0 ∧
    (modac_mngdev_init o 0 (n * 32)).have_cdev = (sys_init (mngdev_sys o) n).have_cdev ∧
    account {.chrdev_region} (modac_mngdev_init o 0 (n * 32)).actions =
      some ({.chrdev_region} ∪ sys_held (mngdev_sys o) n ∪ sys_held (vdev_sys o) n) := by
  obtain ⟨hret, -, haccount⟩ := sys_init_ok hmngdev fresh_region
  obtain ⟨hvret, -, hvaccount⟩ := sys_init_ok hvdev (fresh_mngdev (o := o) (n := n))
  rw [modac_mngdev_init_eq, if_neg (not_not_intro hret), if_neg (by omega)]
  refine ⟨rfl, rfl, ?_⟩
  dsimp only
  rw [account_append_of_some haccount, hvaccount]

/-- Where no device fails to be added, a failure leaves the region as the only thing. -/
theorem modac_mngdev_init_clean (hnot : ¬ CdevAddFails o n)
    (hfails : ¬ (SysSucceeds (mngdev_sys o) n ∧ SysSucceeds (vdev_sys o) n)) :
    (modac_mngdev_init o 0 (n * 32)).ret ≠ 0 ∧
    account {.chrdev_region} (modac_mngdev_init o 0 (n * 32)).actions = some {.chrdev_region} := by
  rw [CdevAddFails, not_or] at hnot
  rw [modac_mngdev_init_eq]
  by_cases hmngdev : SysSucceeds (mngdev_sys o) n
  · obtain ⟨hret, hhave, haccount⟩ := sys_init_ok hmngdev fresh_region
    obtain ⟨hvret, hvaccount⟩ := sys_init_fails_early (s := vdev_sys o)
      (fun hvdev => hfails ⟨hmngdev, hvdev⟩) (fun hvdev => hnot.2 ⟨hmngdev, hvdev⟩)
      (fresh_mngdev (o := o) (n := n)).cls
    rw [if_neg (not_not_intro hret), if_pos hvret]
    refine ⟨by dsimp only; omega, ?_⟩
    dsimp only
    rw [List.append_assoc, account_append_of_some haccount, account_append_of_some hvaccount]
    exact cleanup_sys_account fresh_region hhave
  · obtain ⟨hret, haccount⟩ := sys_init_fails_early hmngdev hnot.1 (fresh_region (o := o)).cls
    rw [if_pos (by omega)]
    exact ⟨by omega, haccount⟩

/-- A device that fails to be added leaves no account. -/
theorem modac_mngdev_init_unclean (hfails : CdevAddFails o n) :
    (modac_mngdev_init o 0 (n * 32)).ret ≠ 0 ∧
    account {.chrdev_region} (modac_mngdev_init o 0 (n * 32)).actions = none := by
  rw [modac_mngdev_init_eq]
  obtain hcdev | ⟨hmngdev, hcdev⟩ := hfails
  · obtain ⟨hret, haccount⟩ := sys_init_cdev_fails hcdev
    rw [if_pos (by omega)]
    exact ⟨by omega, haccount _⟩
  · obtain ⟨hret, -, haccount⟩ := sys_init_ok hmngdev fresh_region
    obtain ⟨hvret, hvaccount⟩ := sys_init_cdev_fails hcdev
    rw [if_neg (not_not_intro hret), if_pos hvret]
    refine ⟨by dsimp only; omega, ?_⟩
    dsimp only
    rw [List.append_assoc, account_append_of_some haccount,
      account_append_of_none (hvaccount _)]

/-- After a successful start the end releases what is held, the devices first. -/
theorem modac_mngdev_fini_account (hmngdev : SysSucceeds (mngdev_sys o) n)
    (hvdev : SysSucceeds (vdev_sys o) n) :
    account ({.chrdev_region} ∪ sys_held (mngdev_sys o) n ∪ sys_held (vdev_sys o) n)
      (modac_mngdev_fini o 0 (n * 32)) = some {.chrdev_region} := by
  obtain ⟨-, hhave, -⟩ := sys_init_ok hmngdev fresh_region
  obtain ⟨-, hvhave, -⟩ := sys_init_ok hvdev (fresh_mngdev (o := o) (n := n))
  obtain ⟨-, hkept, -⟩ := modac_mngdev_init_ok hmngdev hvdev
  have hfini : modac_mngdev_fini o 0 (n * 32) = modac_vdev_fini o (n * 32) ++
      cleanup_sys (mngdev_sys o) n (sys_init (mngdev_sys o) n).have_cdev [] .CLEAN_SYS_CDEV := by
    rw [modac_mngdev_fini, hkept, show MINOR_MULTIPLICATOR.toNat = 32 from rfl,
      Nat.mul_div_cancel n (by decide)]
    rfl
  have hvfini : modac_vdev_fini o (n * 32) =
      cleanup_sys (vdev_sys o) n (sys_init (vdev_sys o) n).have_cdev [] .CLEAN_SYS_CDEV := by
    rw [modac_vdev_fini, modac_vdev_init_eq, show MINOR_MULTIPLICATOR.toNat = 32 from rfl,
      Nat.mul_div_cancel n (by decide)]
  rw [hfini, hvfini, account_append_of_some (cleanup_sys_account fresh_mngdev hvhave)]
  exact cleanup_sys_account fresh_region hhave

end

/-- A failing start-up never gives the region back, and it is clean before that only as long as
no device fails to be added. A start-up that succeeds ends clean. -/
theorem startup_clean_iff (o : startup_steps) (n : Nat) :
    (StartupClean o n ↔
      o.alloc_chrdev_region ≠ .ok () ∨
        SysSucceeds (mngdev_sys o) n ∧ SysSucceeds (vdev_sys o) n) ∧
    (MngdevInitClean o n ↔ ¬ CdevAddFails o n) := by
  constructor
  · cases halloc : o.alloc_chrdev_region with
    | error err =>
      have hinit : evrma_init o (n * 32) = ([], err.val) := by rw [evrma_init, halloc]
      refine iff_of_true ?_ (.inl nofun)
      have herr := err.property
      exact {
        failed := fun _ => by rw [hinit]; rfl
        mngdev_fini := fun hret => by rw [hinit] at hret; dsimp only at hret; omega
        fini := fun hret => by rw [hinit] at hret; dsimp only at hret; omega }
    | ok _ =>
      have hinit : evrma_init o (n * 32) = (.acquire .chrdev_region ::
          (modac_mngdev_init o 0 (n * 32)).actions, (modac_mngdev_init o 0 (n * 32)).ret) := by
        rw [evrma_init, halloc]
      have hregion : ∀ as : startup_actions,
          account ∅ (.acquire .chrdev_region :: as) = account {.chrdev_region} as :=
        fun as => account_acquire (Finset.notMem_empty _)
      by_cases hok : SysSucceeds (mngdev_sys o) n ∧ SysSucceeds (vdev_sys o) n
      · obtain ⟨hret, -, haccount⟩ := modac_mngdev_init_ok hok.1 hok.2
        have hfini := modac_mngdev_fini_account hok.1 hok.2
        refine iff_of_true ?_ (.inr hok)
        exact {
          failed := fun hfails => by rw [hinit] at hfails; exact absurd hret hfails
          mngdev_fini := fun _ => by
            rw [hinit, List.cons_append, hregion, account_append_of_some haccount, hfini]
          fini := fun _ => by
            rw [hinit, List.cons_append, hregion, account_append_of_some haccount, evrma_fini,
              account_append_of_some hfini]
            rfl }
      · refine iff_of_false (fun hclean => ?_) (not_or.mpr ⟨not_not_intro rfl, hok⟩)
        have hfailed := hclean.failed
        rw [hinit, hregion] at hfailed
        by_cases hcdev : CdevAddFails o n
        · obtain ⟨hret, haccount⟩ := modac_mngdev_init_unclean hcdev
          rw [haccount] at hfailed
          cases hfailed hret
        · obtain ⟨hret, haccount⟩ := modac_mngdev_init_clean hcdev hok
          rw [haccount] at hfailed
          have hempty := Option.some.inj (hfailed hret)
          exact Finset.singleton_ne_empty _ hempty
  · by_cases hcdev : CdevAddFails o n
    · obtain ⟨hret, haccount⟩ := modac_mngdev_init_unclean hcdev
      refine iff_of_false (fun hclean => ?_) (not_not_intro hcdev)
      have hnone := hclean hret
      rw [haccount] at hnone
      cases hnone
    · refine iff_of_true (fun hret => ?_) hcdev
      by_cases hok : SysSucceeds (mngdev_sys o) n ∧ SysSucceeds (vdev_sys o) n
      · exact absurd (modac_mngdev_init_ok hok.1 hok.2).1 hret
      · exact (modac_mngdev_init_clean hcdev hok).2

/-- The device of the fourth VIRT_DEV table entry can't be added. -/
def vdev_cdev_3_fails : startup_steps where
  alloc_chrdev_region := .ok ()
  mngdev_class_create := .ok ()
  mngdev_kzalloc := true
  mngdev_cdev_add _ := .ok ()
  vdev_class_create := .ok ()
  vdev_kzalloc := true
  vdev_cdev_add i := if i = 3 then .error ⟨-ENOMEM, by decide⟩ else .ok ()

theorem vdev_cdev_fails_unclean : ¬ StartupClean vdev_cdev_3_fails 8 := by
  intro hclean
  have hnone : account ∅ (evrma_init vdev_cdev_3_fails (8 * 32)).1 = none := by decide +kernel
  have hfailed := hclean.failed (by decide +kernel)
  rw [hnone] at hfailed
  cases hfailed

end evrma.unwind
