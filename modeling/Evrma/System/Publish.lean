import Evrma.Lib.Run
import Evrma.System.Step

namespace evrma.system

open evrma.lib evrma.mng_dev

/-- How far `modac_mngdev_create` has come with a descriptor, and the address of the new
`mngdev_data`. What is left to do after `failed` is the cleanup. -/
inductive create_progress where
  | idle
  | cleared
  | allocated (mngdev : Nat)
  | hw_ready (mngdev : Nat)
  | rm_ready (mngdev : Nat)
  | device_ready (mngdev : Nat)
  | failed (mngdev : Option Nat) (ret : Int)
  | listed (mngdev : Nat)
  | assigned (mngdev : Nat)
  | created (mngdev : Nat)

/-- What an open uses of a `mngdev_data`. The descriptor is not set from the beginning. -/
structure mngdev_object (D : Type) where
  des : Option D
  ref : devref inode

/-- An open keeps the mutex of the table from the lookup to the end of its check; it keeps
it forever when it stops at a NULL pointer. -/
inductive table_mutex where
  | unlocked
  | looked_up (i : inode) (mngdev : Nat)
  | dead

/-- The MNG_DEV that an open found in the table, and the one that its check took the
reference of: the check gets there by `mngdev->des->priv`. -/
structure open_check where
  found : Nat
  priv : Option Nat
deriving DecidableEq

/-- The minors of the driver's table and of the descriptors. -/
structure mngdev_minors (D : Type) where
  mngdev_first_minor : Int
  mngdev_table_size : Nat
  minor : D → Int

/-- The table is only used under its mutex; `priv` of a descriptor is written without. -/
structure publish_state (D : Type) where
  priv : D → Option Nat
  create : D → create_progress
  mngdevs : Nat → Option (mngdev_object D)
  table : Nat → Option Nat
  mutex : table_mutex
  checks : List open_check

/-- The steps. A function that is called by the creation returns what the operation says. -/
inductive publish_op (D : Type) where
  | create_begin (d : D)
  | create_kmalloc (d : D) (mngdev : Option Nat)
  | create_hw_init (d : D) (ret : Int)
  | create_rm_init (d : D) (ret : Int)
  | create_device (d : D) (result : Except {err : Int // err < 0} Unit)
  | create_enter_table (d : D)
  | create_cleanup (d : D)
  | create_set_priv (d : D)
  | create_subscribe (d : D)
  /-- `modac_mngdev_destroy` up to the release of the mutex of the table. -/
  | destroy_unlist (d : D)
  | open_lookup (i : inode)
  | open_check (kmalloc : Bool)

variable {D : Type} [DecidableEq D]

def table_row (ms : mngdev_minors D) (minor : Int) : Option Nat :=
  let imngdev := (minor - ms.mngdev_first_minor).tdiv MINOR_MULTIPLICATOR
  if imngdev < 0 ∨ ms.mngdev_table_size ≤ imngdev then none else some imngdev.toNat

/-- The row that an open looks in. -/
def open_row (ms : mngdev_minors D) (minor : Int) : Option Nat :=
  if minor.tmod MINOR_MULTIPLICATOR ≠ 0 then none else table_row ms minor

/-- The creation goes on, or leaves with the error. -/
def publish_state.goes_on (s : publish_state D) (d : D) (mngdev : Nat) (ret : Int)
    (next : create_progress) : publish_state D :=
  { s with create := Function.update s.create d (if ret ≠ 0 then .failed (some mngdev) ret else next) }

/-- `modac_mng_check_on_open` on the MNG_DEV in the table. -/
def check_on_open (s : publish_state D) (i : inode) (mngdev : Nat) (kmalloc : Bool) :
    publish_state D :=
  match ((s.mngdevs mngdev).bind fun m => m.des).bind s.priv with
  | none => { s with mutex := .dead, checks := ⟨mngdev, none⟩ :: s.checks }
  | some priv =>
    { s with
      mngdevs := Function.update s.mngdevs priv
        ((s.mngdevs priv).map fun m => { m with ref := (devref_get m.ref (some i) kmalloc).1 })
      mutex := .unlocked
      checks := ⟨mngdev, some priv⟩ :: s.checks }

def publish_step (ms : mngdev_minors D) (s : publish_state D) :
    publish_op D → Option (publish_state D)
  | .create_begin d =>
    match s.create d, table_row ms (ms.minor d) with
    | .idle, none => some s
    | .idle, some _ =>
      some { s with
        priv := Function.update s.priv d none
        create := Function.update s.create d .cleared }
    | _, _ => none
  | .create_kmalloc d mngdev =>
    match s.create d, mngdev with
    | .cleared, none =>
      some { s with create := Function.update s.create d (.failed none (-ENOMEM)) }
    | .cleared, some m =>
      if (s.mngdevs m).isSome then none
      else
        some { s with
          mngdevs := Function.update s.mngdevs m (some ⟨none, devref_init⟩)
          create := Function.update s.create d (.allocated m) }
    | _, _ => none
  | .create_hw_init d ret =>
    match s.create d with
    | .allocated m => some (s.goes_on d m ret (.hw_ready m))
    | _ => none
  | .create_rm_init d ret =>
    match s.create d with
    | .hw_ready m => some (s.goes_on d m ret (.rm_ready m))
    | _ => none
  | .create_device d result =>
    match s.create d with
    | .rm_ready m =>
      let s := { s with
        mngdevs := Function.update s.mngdevs m
          ((s.mngdevs m).map fun r : mngdev_object D => { r with des := some d }) }
      match result with
      | .error err => some (s.goes_on d m err (.device_ready m))
      | .ok _ => some (s.goes_on d m 0 (.device_ready m))
    | _ => none
  | .create_enter_table d =>
    match s.create d, table_row ms (ms.minor d), s.mutex with
    | .device_ready m, some imngdev, .unlocked =>
      if s.table imngdev ≠ none then
        some { s with create := Function.update s.create d (.failed (some m) (-EEXIST)) }
      else
        some { s with
          table := Function.update s.table imngdev (some m)
          create := Function.update s.create d (.listed m) }
    | _, _, _ => none
  | .create_cleanup d =>
    match s.create d with
    | .failed m _ =>
      some { s with
        mngdevs := m.elim s.mngdevs fun m => Function.update s.mngdevs m none
        create := Function.update s.create d .idle }
    | _ => none
  | .create_set_priv d =>
    match s.create d with
    | .listed m =>
      some { s with
        priv := Function.update s.priv d (some m)
        create := Function.update s.create d (.assigned m) }
    | _ => none
  | .create_subscribe d =>
    match s.create d with
    | .assigned m => some { s with create := Function.update s.create d (.created m) }
    | _ => none
  | .destroy_unlist d =>
    match s.create d, table_row ms (ms.minor d), s.mutex with
    | .created _, some imngdev, .unlocked =>
      some { s with
        table := Function.update s.table imngdev none
        create := Function.update s.create d .idle }
    | _, _, _ => none
  | .open_lookup i =>
    match s.mutex, (open_row ms i.iminor).bind s.table with
    | .unlocked, none => some s
    | .unlocked, some m => some { s with mutex := .looked_up i m }
    | _, _ => none
  | .open_check kmalloc =>
    match s.mutex with
    | .looked_up i m => some (check_on_open s i m kmalloc)
    | _ => none

/-- No MNG_DEV exists yet. -/
def publish_init : publish_state D where
  priv _ := none
  create _ := .idle
  mngdevs _ := none
  table _ := none
  mutex := .unlocked
  checks := []

/-- The `mngdev_data` that the creation works on. -/
@[simp, grind =]
def create_progress.mngdev : create_progress → Option Nat
  | .idle | .cleared => none
  | .failed m _ => m
  | .allocated m | .hw_ready m | .rm_ready m | .device_ready m => some m
  | .listed m | .assigned m | .created m => some m

/-- The `mngdev_data` that is in the table. -/
@[simp, grind =]
def create_progress.in_table : create_progress → Option Nat
  | .listed m | .assigned m | .created m => some m
  | _ => none

/-- The `mngdev_data` that `priv` points to. -/
@[simp, grind =]
def create_progress.priv : create_progress → Option Nat
  | .assigned m | .created m => some m
  | _ => none

theorem create_progress.mngdev_of_in_table {p : create_progress} {m : Nat}
    (h : p = .device_ready m ∨ p.in_table = some m) : p.mngdev = some m := by
  cases p <;> simp_all

/-- A MNG_DEV in the table is one that a creation has put there, or is just putting there.
Its descriptor points to it as soon as the creation has set `priv`. -/
structure PublishInv (ms : mngdev_minors D) (s : publish_state D) : Prop where
  held : ∀ d m, (s.create d).mngdev = some m → (s.mngdevs m).isSome
  held_once : ∀ d d' m, (s.create d).mngdev = some m → (s.create d').mngdev = some m → d = d'
  described : ∀ d m, s.create d = .device_ready m ∨ (s.create d).in_table = some m →
    (s.mngdevs m).bind mngdev_object.des = some d
  priv : ∀ d, s.create d ≠ .idle → s.priv d = (s.create d).priv
  entry : ∀ r m, s.table r = some m →
    ∃ d, (s.create d).in_table = some m ∧ table_row ms (ms.minor d) = some r
  listed : ∀ d m, (s.create d).in_table = some m →
    ∃ r, s.table r = some m ∧ table_row ms (ms.minor d) = some r
  found : ∀ i m, s.mutex = .looked_up i m → ∃ r, s.table r = some m

omit [DecidableEq D] in
theorem publishInv_init (ms : mngdev_minors D) : PublishInv ms publish_init where
  held _ _ h := by cases h
  held_once _ _ _ h := by cases h
  described _ _ h := by simp [publish_init, create_progress.in_table] at h
  priv _ h := absurd rfl h
  entry _ _ h := by cases h
  listed _ _ h := by cases h
  found _ _ h := by cases h

section

variable {ms : mngdev_minors D} {s : publish_state D} (hinv : PublishInv ms s)
include hinv

/-- The creation of a descriptor moves on and neither enters the table nor leaves it. -/
theorem PublishInv.advance {d : D} {next : create_progress} {p : Option Nat}
    (hmngdev : ∀ m, next.mngdev = some m → (s.create d).mngdev = some m)
    (htable : next.in_table = (s.create d).in_table)
    (hdes : ∀ m, next = .device_ready m → (s.mngdevs m).bind mngdev_object.des = some d)
    (hpriv : next ≠ .idle → p = next.priv) :
    PublishInv ms { s with
      priv := Function.update s.priv d p
      create := Function.update s.create d next } := by
  obtain ⟨hheld, honce, hdescribed, hset, hentry, hlisted, hfound⟩ := hinv
  refine ⟨?_, ?_, ?_, ?_, ?_, ?_, hfound⟩
  · grind [Function.update_apply]
  · grind [Function.update_apply]
  · grind [Function.update_apply]
  · grind [Function.update_apply]
  · grind [Function.update_apply]
  · grind [Function.update_apply]

/-- As above, where `priv` is as it should be. -/
theorem PublishInv.advance_same_priv {d : D} {next : create_progress}
    (hbusy : s.create d ≠ .idle)
    (hmngdev : ∀ m, next.mngdev = some m → (s.create d).mngdev = some m)
    (htable : next.in_table = (s.create d).in_table)
    (hdes : ∀ m, next = .device_ready m → (s.mngdevs m).bind mngdev_object.des = some d)
    (hpriv : next.priv = (s.create d).priv) :
    PublishInv ms { s with create := Function.update s.create d next } := by
  have hnext := hinv.advance hmngdev htable hdes
    (fun _ => (hinv.priv d hbusy).trans hpriv.symm)
  rwa [Function.update_eq_self] at hnext

/-- A function that the creation calls before it enters the table returns. -/
theorem PublishInv.goes_on {d : D} {m : Nat} {next : create_progress}
    (hmngdev : (s.create d).mngdev = some m) (htable : (s.create d).in_table = none)
    (hpriv : (s.create d).priv = none) (hnext : next.mngdev = some m)
    (hnext_table : next.in_table = none) (hnext_priv : next.priv = none)
    (hdes : ∀ m, next = .device_ready m → (s.mngdevs m).bind mngdev_object.des = some d) (ret : Int) :
    PublishInv ms (s.goes_on d m ret next) := by
  have hbusy : s.create d ≠ .idle := by
    intro hidle
    rw [hidle] at hmngdev
    cases hmngdev
  unfold publish_state.goes_on
  by_cases hret : ret ≠ 0
  · rw [if_pos hret]
    refine hinv.advance_same_priv hbusy ?_ htable.symm ?_ hpriv.symm
    · intro m' hm'
      exact hmngdev.trans hm'
    · intro m' hm'
      cases hm'
  · rw [if_neg hret]
    refine hinv.advance_same_priv hbusy ?_ (hnext_table.trans htable.symm) hdes
      (hnext_priv.trans hpriv.symm)
    intro m' hm'
    exact hmngdev.trans (hnext.symm.trans hm')

theorem PublishInv.kmalloc {d : D} {m : Nat} (hd : s.create d = .cleared)
    (hfree : (s.mngdevs m).isSome = false) :
    PublishInv ms { s with
      mngdevs := Function.update s.mngdevs m (some ⟨none, devref_init⟩)
      create := Function.update s.create d (.allocated m) } := by
  obtain ⟨hheld, honce, hdescribed, hset, hentry, hlisted, hfound⟩ := hinv
  have hnew : ∀ d', (s.create d').mngdev ≠ some m := by
    intro d' hd'
    rw [hheld d' m hd'] at hfree
    cases hfree
  refine ⟨?_, ?_, ?_, ?_, ?_, ?_, hfound⟩
  · grind [Function.update_apply]
  · grind [Function.update_apply]
  · grind [Function.update_apply, create_progress.mngdev_of_in_table]
  · grind [Function.update_apply]
  · grind [Function.update_apply]
  · grind [Function.update_apply]

omit [DecidableEq D] in
theorem PublishInv.describe {d : D} {m : Nat} (hd : s.create d = .rm_ready m) :
    PublishInv ms { s with
      mngdevs := Function.update s.mngdevs m
        ((s.mngdevs m).map fun r : mngdev_object D => { r with des := some d }) } := by
  obtain ⟨hheld, honce, hdescribed, hset, hentry, hlisted, hfound⟩ := hinv
  refine ⟨?_, honce, ?_, hset, hentry, hlisted, hfound⟩
  · grind [Function.update_apply]
  · intro d' m' hd'
    have hmngdev := create_progress.mngdev_of_in_table hd'
    have hne : m' ≠ m := by
      rintro rfl
      have hdd' := honce d' d m' hmngdev (by rw [hd]; rfl)
      grind
    dsimp only
    rw [Function.update_of_ne hne]
    exact hdescribed d' m' hd'

theorem PublishInv.enter_table {d : D} {m imngdev : Nat} (hd : s.create d = .device_ready m)
    (hrow : table_row ms (ms.minor d) = some imngdev) (hfree : s.table imngdev = none)
    (hmutex : s.mutex = .unlocked) :
    PublishInv ms { s with
      table := Function.update s.table imngdev (some m)
      create := Function.update s.create d (.listed m) } := by
  obtain ⟨hheld, honce, hdescribed, hset, hentry, hlisted, hfound⟩ := hinv
  refine ⟨?_, ?_, ?_, ?_, ?_, ?_, ?_⟩
  · grind [Function.update_apply]
  · grind [Function.update_apply]
  · grind [Function.update_apply]
  · grind [Function.update_apply]
  · grind [Function.update_apply]
  · grind [Function.update_apply]
  · grind

theorem PublishInv.cleanup {d : D} {m : Option Nat} {ret : Int} (hd : s.create d = .failed m ret) :
    PublishInv ms { s with
      mngdevs := m.elim s.mngdevs fun m => Function.update s.mngdevs m none
      create := Function.update s.create d .idle } := by
  obtain ⟨hheld, honce, hdescribed, hset, hentry, hlisted, hfound⟩ := hinv
  have hother : ∀ d' m', d' ≠ d → (s.create d').mngdev = some m' →
      (m.elim s.mngdevs fun m => Function.update s.mngdevs m none) m' = s.mngdevs m' := by
    intro d' m' hne hd'
    cases m with
    | none => rfl
    | some m => exact Function.update_of_ne (by grind) _ _
  refine ⟨?_, ?_, ?_, ?_, ?_, ?_, hfound⟩
  · grind [Function.update_apply]
  · grind [Function.update_apply]
  · intro d' m' hd'
    by_cases hne : d' = d
    · simp [hne] at hd'
    · dsimp only at hd' ⊢
      rw [Function.update_of_ne hne] at hd'
      rw [hother d' m' hne (create_progress.mngdev_of_in_table hd')]
      exact hdescribed d' m' hd'
  · grind [Function.update_apply]
  · grind [Function.update_apply]
  · grind [Function.update_apply]

theorem PublishInv.unlist {d : D} {m imngdev : Nat} (hd : s.create d = .created m)
    (hrow : table_row ms (ms.minor d) = some imngdev) (hmutex : s.mutex = .unlocked) :
    PublishInv ms { s with
      table := Function.update s.table imngdev none
      create := Function.update s.create d .idle } := by
  obtain ⟨hheld, honce, hdescribed, hset, hentry, hlisted, hfound⟩ := hinv
  -- No other MNG_DEV is in the row that is cleared.
  have hrows : ∀ d' r, d' ≠ d → table_row ms (ms.minor d') = some r →
      (s.create d').in_table.isSome → r ≠ imngdev := by
    rintro d' r hne hr hsome rfl
    obtain ⟨m', hm'⟩ := Option.isSome_iff_exists.mp hsome
    obtain ⟨r₁, hr₁, hrow₁⟩ := hlisted d' m' hm'
    obtain ⟨r₂, hr₂, hrow₂⟩ := hlisted d m (by rw [hd]; rfl)
    obtain rfl : r₁ = r₂ := Option.some.inj (hrow₁.symm.trans (hr.trans (hrow.symm.trans hrow₂)))
    obtain rfl : m' = m := Option.some.inj (hr₁.symm.trans hr₂)
    exact hne (honce d' d m' (create_progress.mngdev_of_in_table (.inr hm')) (by rw [hd]; rfl))
  refine ⟨?_, ?_, ?_, ?_, ?_, ?_, ?_⟩
  · grind [Function.update_apply]
  · grind [Function.update_apply]
  · grind [Function.update_apply]
  · grind [Function.update_apply]
  · grind [Function.update_apply]
  · grind [Function.update_apply]
  · grind

omit [DecidableEq D] in
theorem PublishInv.lookup {r m : Nat} (hr : s.table r = some m) (i : inode) :
    PublishInv ms { s with mutex := .looked_up i m } := by
  obtain ⟨hheld, honce, hdescribed, hset, hentry, hlisted, hfound⟩ := hinv
  refine ⟨hheld, honce, hdescribed, hset, hentry, hlisted, ?_⟩
  intro i' m' hmutex
  cases hmutex
  exact ⟨r, hr⟩

omit [DecidableEq D] in
theorem PublishInv.check (i : inode) (m : Nat) (kmalloc : Bool) :
    PublishInv ms (check_on_open s i m kmalloc) := by
  obtain ⟨hheld, honce, hdescribed, hset, hentry, hlisted, hfound⟩ := hinv
  unfold check_on_open
  cases ((s.mngdevs m).bind fun m => m.des).bind s.priv with
  | none => exact ⟨hheld, honce, hdescribed, hset, hentry, hlisted, fun _ _ h => by cases h⟩
  | some priv =>
    refine ⟨?_, honce, ?_, hset, hentry, hlisted, fun _ _ h => by cases h⟩
    · grind [Function.update_apply]
    · intro d' m' hd'
      rw [← hdescribed d' m' hd']
      dsimp only
      by_cases hm' : m' = priv
      · rw [hm', Function.update_self]
        cases s.mngdevs priv <;> rfl
      · rw [Function.update_of_ne hm']

end

variable {ms : mngdev_minors D} {s t : publish_state D}

theorem publishInv_step {a : publish_op D} (hinv : PublishInv ms s)
    (h : publish_step ms s a = some t) : PublishInv ms t := by
  cases a with
  | create_begin d =>
    simp only [publish_step] at h
    split at h
    next hd _ =>
      cases h
      exact hinv
    next hd _ =>
      cases h
      exact hinv.advance (fun m hm => by cases hm) (by rw [hd]; rfl) (fun m hm => by cases hm)
        fun _ => rfl
    next => cases h
  | create_kmalloc d mngdev =>
    simp only [publish_step] at h
    split at h
    next hd =>
      cases h
      refine hinv.advance_same_priv (by simp [hd]) (fun m hm => by cases hm) (by rw [hd]; rfl)
        (fun m hm => by cases hm) (by rw [hd]; rfl)
    next m hd =>
      split_ifs at h with hfree
      cases h
      exact hinv.kmalloc hd (by simpa using hfree)
    next => cases h
  | create_hw_init d ret =>
    simp only [publish_step] at h
    split at h
    next m hd =>
      cases h
      exact hinv.goes_on (by rw [hd]; rfl) (by rw [hd]; rfl) (by rw [hd]; rfl) rfl rfl rfl
        (fun m hm => by cases hm) ret
    next => cases h
  | create_rm_init d ret =>
    simp only [publish_step] at h
    split at h
    next m hd =>
      cases h
      exact hinv.goes_on (by rw [hd]; rfl) (by rw [hd]; rfl) (by rw [hd]; rfl) rfl rfl rfl
        (fun m hm => by cases hm) ret
    next => cases h
  | create_device d result =>
    simp only [publish_step] at h
    split at h
    next m hd =>
      have hdescribe := hinv.describe hd
      have hdes : ∀ m', create_progress.device_ready m = .device_ready m' →
          ((Function.update s.mngdevs m ((s.mngdevs m).map fun r : mngdev_object D =>
            { r with des := some d })) m').bind mngdev_object.des = some d := by
        rintro m' ⟨⟩
        obtain ⟨r, hr⟩ := Option.isSome_iff_exists.mp (hinv.held d m (by rw [hd]; rfl))
        rw [Function.update_self, hr]
        rfl
      have hready : (create_progress.device_ready m).mngdev = some m := rfl
      have hnext := hdescribe.goes_on (by rw [hd]; rfl) (by rw [hd]; rfl) (by rw [hd]; rfl) hready
        rfl rfl hdes
      cases result with
      | error err =>
        cases h
        exact hnext err
      | ok _ =>
        cases h
        exact hnext 0
    next => cases h
  | create_enter_table d =>
    simp only [publish_step] at h
    split at h
    next m imngdev hd hrow hmutex =>
      split_ifs at h with hentry
      · cases h
        exact hinv.advance_same_priv (by simp [hd]) (fun m' hm' => by rw [hd]; exact hm')
          (by rw [hd]; rfl) (fun m' hm' => by cases hm') (by rw [hd]; rfl)
      · cases h
        exact hinv.enter_table hd hrow (by simpa using hentry) hmutex
    next => cases h
  | create_cleanup d =>
    simp only [publish_step] at h
    split at h
    next m ret hd =>
      cases h
      exact hinv.cleanup hd
    next => cases h
  | create_set_priv d =>
    simp only [publish_step] at h
    split at h
    next m hd =>
      cases h
      exact hinv.advance (fun m' hm' => by rw [hd]; exact hm') (by rw [hd]; rfl)
        (fun m' hm' => by cases hm') fun _ => rfl
    next => cases h
  | create_subscribe d =>
    simp only [publish_step] at h
    split at h
    next m hd =>
      cases h
      exact hinv.advance_same_priv (by simp [hd]) (fun m' hm' => by rw [hd]; exact hm')
        (by rw [hd]; rfl) (fun m' hm' => by cases hm') (by rw [hd]; rfl)
    next => cases h
  | destroy_unlist d =>
    simp only [publish_step] at h
    split at h
    next m imngdev hd hrow hmutex =>
      cases h
      exact hinv.unlist hd hrow hmutex
    next => cases h
  | open_lookup i =>
    simp only [publish_step] at h
    split at h
    next =>
      cases h
      exact hinv
    next m _ hm =>
      cases h
      obtain ⟨r, _, hr⟩ := Option.bind_eq_some_iff.mp hm
      exact hinv.lookup hr i
    next => cases h
  | open_check kmalloc =>
    simp only [publish_step] at h
    split at h
    next i m hmutex =>
      cases h
      exact hinv.check i m kmalloc
    next => cases h

/-- The descriptor of a MNG_DEV in the table points to it. -/
def TableComplete (s : publish_state D) : Prop :=
  ∀ r m, s.table r = some m →
    ∃ d, (s.mngdevs m).bind mngdev_object.des = some d ∧ s.priv d = some m

/-- Each check took the reference of the MNG_DEV in the table. -/
def ChecksOwn (s : publish_state D) : Prop := ∀ c ∈ s.checks, c.priv = some c.found

/-- The step is not the one of a creation that enters a free row of the table. -/
def StaysUnlisted (ms : mngdev_minors D) (s : publish_state D) (a : publish_op D) : Prop :=
  ∀ d r, a = .create_enter_table d → table_row ms (ms.minor d) = some r → s.table r ≠ none

/-- The step is not the check of an open on a MNG_DEV whose creation has entered it into the
table and has not set `priv` yet. -/
def ChecksAssigned (s : publish_state D) (a : publish_op D) : Prop :=
  ∀ kmalloc i m d, a = .open_check kmalloc → s.mutex = .looked_up i m → s.create d ≠ .listed m

omit [DecidableEq D] in
theorem PublishInv.priv_of_in_table (hinv : PublishInv ms s) {d : D} {m : Nat}
    (hd : (s.create d).in_table = some m) (hlisted : s.create d ≠ .listed m) :
    s.priv d = some m := by
  rw [hinv.priv d (by rintro hidle; simp [hidle] at hd)]
  cases hc : s.create d <;> simp_all

omit [DecidableEq D] in
theorem PublishInv.priv_of_listed (hinv : PublishInv ms s) {d : D} {m : Nat}
    (hd : s.create d = .listed m) : s.priv d = none := by
  rw [hinv.priv d (by simp [hd]), hd]
  rfl

omit [DecidableEq D] in
/-- The table is complete whenever no creation is between entering it and setting `priv`. -/
theorem PublishInv.tableComplete_iff (hinv : PublishInv ms s) :
    TableComplete s ↔ ∀ d m, s.create d ≠ .listed m := by
  constructor
  · intro hcomplete d m hd
    obtain ⟨r, hr, _⟩ := hinv.listed d m (by rw [hd]; rfl)
    obtain ⟨d', hdes, hpriv⟩ := hcomplete r m hr
    have hdescribed := hinv.described d m (.inr (by rw [hd]; rfl))
    obtain rfl : d = d' := Option.some.inj (hdescribed.symm.trans hdes)
    rw [hinv.priv_of_listed hd] at hpriv
    cases hpriv
  · intro hlisted r m hr
    obtain ⟨d, hd, _⟩ := hinv.entry r m hr
    exact ⟨d, hinv.described d m (.inr hd), hinv.priv_of_in_table hd (hlisted d m)⟩

theorem publish_step_enter_table {d : D} {r : Nat} (hr : table_row ms (ms.minor d) = some r)
    (hfree : s.table r = none) (h : publish_step ms s (.create_enter_table d) = some t) :
    ∃ m, s.create d = .device_ready m ∧
      t = { s with
        table := Function.update s.table r (some m)
        create := Function.update s.create d (.listed m) } := by
  simp only [publish_step] at h
  grind

/-- A creation gets listed only by entering a free row of the table. -/
theorem publish_step_create {a : publish_op D} (hstay : StaysUnlisted ms s a)
    (h : publish_step ms s a = some t) :
    t.create = s.create ∨
    ∃ d next, t.create = Function.update s.create d next ∧ ∀ m, next ≠ .listed m := by
  unfold StaysUnlisted at hstay
  cases a <;> simp only [publish_step, publish_state.goes_on, check_on_open] at h <;> grind

/-- Only the check of an open leaves a record. -/
theorem publish_step_checks {a : publish_op D} (h : publish_step ms s a = some t) :
    t.checks = s.checks ∨
    ∃ kmalloc i m, a = .open_check kmalloc ∧ s.mutex = .looked_up i m ∧
      t = check_on_open s i m kmalloc := by
  cases a <;> simp only [publish_step, publish_state.goes_on] at h <;> grind

omit [DecidableEq D] in
/-- The check gets to the MNG_DEV in the table when `priv` is set. -/
theorem check_on_open_eq {i : inode} {m : Nat} (kmalloc : Bool) {d : D}
    (hdes : (s.mngdevs m).bind mngdev_object.des = some d) (hpriv : s.priv d = some m) :
    check_on_open s i m kmalloc =
      { s with
        mngdevs := Function.update s.mngdevs m
          ((s.mngdevs m).map fun r => { r with ref := (devref_get r.ref (some i) kmalloc).1 })
        mutex := .unlocked
        checks := ⟨m, some m⟩ :: s.checks } := by
  have hreach : ((s.mngdevs m).bind fun m => m.des).bind s.priv = some m :=
    Option.bind_eq_some_iff.mpr ⟨d, hdes, hpriv⟩
  unfold check_on_open
  rw [hreach]

omit [DecidableEq D] in
/-- The check stops at a NULL pointer when `priv` is not set. -/
theorem check_on_open_null {i : inode} {m : Nat} (kmalloc : Bool) {d : D}
    (hdes : (s.mngdevs m).bind mngdev_object.des = some d) (hpriv : s.priv d = none) :
    check_on_open s i m kmalloc =
      { s with mutex := .dead, checks := ⟨m, none⟩ :: s.checks } := by
  have hreach : ((s.mngdevs m).bind fun m => m.des).bind s.priv = none := by
    refine (congrArg (Option.bind · s.priv) hdes).trans ?_
    exact hpriv
  unfold check_on_open
  rw [hreach]

/-- The descriptor of every MNG_DEV in the table is complete as long as no creation has
entered the table. -/
theorem statesMeet_tableComplete_iff (ms : mngdev_minors D) (as : List (publish_op D)) :
    StatesMeet (publish_step ms) TableComplete publish_init as ↔
      StepsMeet (publish_step ms) (StaysUnlisted ms) publish_init as := by
  apply statesMeet_iff_stepsMeet (I := fun s => PublishInv ms s ∧ ∀ d m, s.create d ≠ .listed m)
  · intro s hs
    exact hs.1.tableComplete_iff.mpr hs.2
  · rintro s a t ⟨hinv, hlisted⟩ hstay h
    refine ⟨publishInv_step hinv h, ?_⟩
    obtain heq | ⟨d, next, heq, hnext⟩ := publish_step_create hstay h
    · rw [heq]
      exact hlisted
    · intro d' m
      rw [heq, Function.update_apply]
      split_ifs with hd
      · exact hnext m
      · exact hlisted d' m
  · rintro s a t ⟨hinv, _⟩ hstay h hcomplete
    unfold StaysUnlisted at hstay
    push Not at hstay
    obtain ⟨d, r, rfl, hr, hfree⟩ := hstay
    have hlisted := (publishInv_step hinv h).tableComplete_iff.mp hcomplete
    obtain ⟨m, _, rfl⟩ := publish_step_enter_table hr hfree h
    exact hlisted d m (Function.update_self d (.listed m) s.create)
  · exact ⟨publishInv_init ms, fun _ _ h => by cases h⟩

/-- The checks take their own references exactly when none of them runs in the middle of a
creation that has entered the table. -/
theorem statesMeet_checksOwn_iff (ms : mngdev_minors D) (as : List (publish_op D)) :
    StatesMeet (publish_step ms) ChecksOwn publish_init as ↔
      StepsMeet (publish_step ms) ChecksAssigned publish_init as := by
  apply statesMeet_iff_stepsMeet (I := fun s => PublishInv ms s ∧ ChecksOwn s)
  · intro s hs
    exact hs.2
  · rintro s a t ⟨hinv, hown⟩ hassigned h
    refine ⟨publishInv_step hinv h, ?_⟩
    obtain heq | ⟨kmalloc, i, m, rfl, hmutex, rfl⟩ := publish_step_checks h
    · unfold ChecksOwn
      rw [heq]
      exact hown
    · obtain ⟨r, hr⟩ := hinv.found i m hmutex
      obtain ⟨d, hd, _⟩ := hinv.entry r m hr
      have hpriv := hinv.priv_of_in_table hd (hassigned kmalloc i m d rfl hmutex)
      rw [check_on_open_eq kmalloc (hinv.described d m (.inr hd)) hpriv]
      intro c hc
      obtain rfl | hc := List.mem_cons.mp hc
      · rfl
      · exact hown c hc
  · rintro s a t ⟨hinv, _⟩ hassigned h hown
    unfold ChecksAssigned at hassigned
    push Not at hassigned
    obtain ⟨kmalloc, i, m, d, rfl, hmutex, hd⟩ := hassigned
    have ht : t = check_on_open s i m kmalloc := by
      simp only [publish_step, hmutex, Option.some.injEq] at h
      exact h.symm
    have hdes := hinv.described d m (.inr (by rw [hd]; rfl))
    rw [ht, check_on_open_null kmalloc hdes (hinv.priv_of_listed hd)] at hown
    cases hown ⟨m, none⟩ List.mem_cons_self
  · exact ⟨publishInv_init ms, fun _ h => by cases h⟩

/-- In every interleaving of creations and opens, a MNG_DEV in the table has an incomplete
descriptor in the states between the two steps of a creation that enter the table and set
`priv`, hence in some state as soon as a creation enters the table; and no open gets to NULL
or to another MNG_DEV exactly when none checks a MNG_DEV between these two steps. -/
theorem open_finds_complete_mngdev (ms : mngdev_minors D) (ops : List (publish_op D)) :
    StatesMeet (publish_step ms) (fun s => TableComplete s ↔ ∀ d m, s.create d ≠ .listed m)
      publish_init ops ∧
    (StatesMeet (publish_step ms) TableComplete publish_init ops ↔
      StepsMeet (publish_step ms) (StaysUnlisted ms) publish_init ops) ∧
    (StatesMeet (publish_step ms) ChecksOwn publish_init ops ↔
      StepsMeet (publish_step ms) ChecksAssigned publish_init ops) :=
  ⟨statesMeet_of_invariant (fun _ hinv => PublishInv.tableComplete_iff hinv)
      (fun _ _ _ hinv h => publishInv_step hinv h) (publishInv_init ms) ops,
    statesMeet_tableComplete_iff ms ops, statesMeet_checksOwn_iff ms ops⟩

/-- One descriptor, with the first minor. -/
def first_minor : mngdev_minors Unit where
  mngdev_first_minor := 0
  mngdev_table_size := 8
  minor _ := 0

/-- The MNG_DEV is opened when it is in the table. -/
def open_before_priv : List (publish_op Unit) :=
  [.create_begin (), .create_kmalloc () (some 1), .create_hw_init () 0, .create_rm_init () 0,
    .create_device () (.ok ()), .create_enter_table (), .open_lookup first_inode, .open_check true]

/-- A MNG_DEV that has just entered the table is not complete, and an open that finds it
there dereferences NULL. -/
theorem open_before_priv_fails :
    ¬ (∀ ops : List (publish_op Unit),
      StatesMeet (publish_step first_minor) (fun s => TableComplete s ∧ ChecksOwn s)
        publish_init ops) := by
  intro hall
  have hbad : ∀ u : publish_state Unit, decide (u.checks = [⟨1, none⟩]) = true →
      ¬ (TableComplete u ∧ ChecksOwn u) := by
    rintro u hu ⟨_, hown⟩
    rw [decide_eq_true_eq] at hu
    cases hown ⟨1, none⟩ (hu ▸ List.mem_cons_self)
  exact not_statesMeet_of_last hbad (by decide +kernel) (hall open_before_priv)

/-- An open that is not interrupted, of a MNG_DEV whose creation is through, takes a
reference as `mngdev_open` does. -/
theorem open_steps {i : inode} {r m : Nat} {d : D} {o : mngdev_object D} (kmalloc : Bool)
    (hmutex : s.mutex = .unlocked) (hrow : open_row ms i.iminor = some r)
    (hr : s.table r = some m) (hm : s.mngdevs m = some o) (hdes : o.des = some d)
    (hpriv : s.priv d = some m) :
    run (publish_step ms) s [.open_lookup i, .open_check kmalloc] =
      some { s with
        mngdevs := Function.update s.mngdevs m
          (some { o with ref := (devref_get o.ref (some i) kmalloc).1 })
        checks := ⟨m, some m⟩ :: s.checks } := by
  have hlookup : publish_step ms s (.open_lookup i) = some { s with mutex := .looked_up i m } := by
    simp only [publish_step, hmutex, hrow, Option.bind_some, hr]
  refine run_cons_eq_some.mpr ⟨_, hlookup, run_cons_eq_some.mpr ⟨_, rfl, ?_⟩⟩
  have hbind : (s.mngdevs m).bind mngdev_object.des = some d := by
    rw [hm]
    exact hdes
  simp only [run, Option.some.injEq]
  rw [check_on_open_eq (s := { s with mutex := .looked_up i m }) kmalloc hbind hpriv]
  simp only [hm, Option.map_some, hmutex]

end evrma.system
