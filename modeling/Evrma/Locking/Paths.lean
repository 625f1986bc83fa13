import Evrma.Lib.Locks

namespace evrma.locking

open evrma.lib

/-- The mutexes of the driver, where `D` names the devices. Where an operation branches, the
arguments of its path say which way it goes. -/
inductive mutex (D : Type*) where
  | mngdev_table_mutex
  | vdev_table_mutex
  | ref_mtx (d : D)
  | pci_mutex
deriving DecidableEq

variable {D : Type*}

/-- It returns with the reference locked if it succeeds. -/
def devref_get (d : D) (ok : Bool) : List (LockAct (mutex D)) :=
  .lock (.ref_mtx d) :: if ok then [] else [.unlock (.ref_mtx d)]

/-- Each inode is unmapped with the reference unlocked. -/
def devref_forall_inodes (d : D) (inodes : Nat) : List (LockAct (mutex D)) :=
  (List.replicate inodes [.unlock (.ref_mtx d), .lock (.ref_mtx d)]).flatten

def modac_mng_check_on_open (d : D) (ok : Bool) : List (LockAct (mutex D)) :=
  devref_get d ok ++ if ok then [.unlock (.ref_mtx d)] else []

def modac_c_vdev_on_open (d : D) (ok : Bool) : List (LockAct (mutex D)) :=
  modac_mng_check_on_open d ok ++ if ok then locked (.ref_mtx d) [] else []

/-- `pci` says whether the device has an interrupt of the PCI layer and its
hardware is asked at all. -/
def on_subscribe_change (pci : Bool) : List (LockAct (mutex D)) :=
  if pci then locked .pci_mutex [] else []

def mngdev_event_dispatch_list_remove_all (pci : Bool) : List (LockAct (mutex D)) :=
  on_subscribe_change pci

/-- The table is only entered after the checks and the allocations. -/
def modac_vdev_create (entered : Bool) : List (LockAct (mutex D)) :=
  if entered then locked .vdev_table_mutex [] else []

def modac_vdev_destroy : List (LockAct (mutex D)) := locked .vdev_table_mutex []

def modac_vdev_table_reset : List (LockAct (mutex D)) := locked .vdev_table_mutex []

def list_destroy_vdev (pci : Bool) : List (LockAct (mutex D)) :=
  mngdev_event_dispatch_list_remove_all pci ++ modac_vdev_destroy

def mngdev_destroy_now (vdevs : List Bool) : List (LockAct (mutex D)) :=
  (vdevs.map list_destroy_vdev).flatten

/-- Whether the reference that is put was the last one, and then the VIRT_DEVs
that are destroyed with the device. -/
def drvdat_put (d : D) (last : Option (List Bool)) : List (LockAct (mutex D)) :=
  .unlock (.ref_mtx d) ::
    match last with
    | none => []
    | some vdevs => mngdev_destroy_now vdevs

/-- How an open goes, by the slot of the table that its minor number selects. -/
inductive open_branch (D : Type*) where
  | no_slot
  | empty_slot
  | device (d : D) (ok : Bool)

def mngdev_open : open_branch D → List (LockAct (mutex D))
  | .no_slot => []
  | .empty_slot => locked .mngdev_table_mutex []
  | .device d ok =>
    locked .mngdev_table_mutex (modac_mng_check_on_open d ok) ++
      if ok then locked (.ref_mtx d) [] else []

def mngdev_release (d : D) (last : Option (List Bool)) : List (LockAct (mutex D)) :=
  .lock (.ref_mtx d) :: drvdat_put d last

def vdev_open : open_branch D → List (LockAct (mutex D))
  | .no_slot => []
  | .empty_slot => locked .vdev_table_mutex []
  | .device d ok => locked .vdev_table_mutex (modac_c_vdev_on_open d ok)

/-- `unused` says whether the VIRT_DEV's usage counter drops to zero, and then
whether the PCI layer is reached. -/
def vdev_release (d : D) (unused : Option Bool) (last : Option (List Bool)) :
    List (LockAct (mutex D)) :=
  .lock (.ref_mtx d) ::
    ((match unused with
      | none => []
      | some pci => mngdev_event_dispatch_list_remove_all pci) ++ drvdat_put d last)

/-- The parts of an ioctl on the MNG_DEV that the mutexes see. -/
inductive mngdev_ioctl where
  | create (entered : Bool)
  | destroy (pci : Bool)
  | alloc
  /-- Any other command, a command that an early check rejects, or any command
  on a device that is gone. -/
  | other

def mngdev_unlocked_ioctl (d : D) (cmd : mngdev_ioctl) : List (LockAct (mutex D)) :=
  locked (.ref_mtx d)
    (match cmd with
    | .create entered => modac_vdev_create entered
    | .destroy pci => list_destroy_vdev pci
    | .alloc => []
    | .other => [])

inductive vdev_ioctl where
  /-- Rejected before the mutex, or in the direct range. -/
  | unprotected
  | subscribe (pci : Bool)
  | other

def vdev_unlocked_ioctl (d : D) : vdev_ioctl → List (LockAct (mutex D))
  | .unprotected => []
  | .subscribe pci => locked (.ref_mtx d) (on_subscribe_change pci)
  | .other => locked (.ref_mtx d) []

def modac_mngdev_destroy (d : D) (inodes : Nat) (last : Option (List Bool)) :
    List (LockAct (mutex D)) :=
  locked .mngdev_table_mutex modac_vdev_table_reset ++
    .lock (.ref_mtx d) :: (devref_forall_inodes d inodes ++ drvdat_put d last)

/-- One call into the driver, with the way it goes. -/
inductive operation (D : Type*) where
  | mngdev_open (branch : open_branch D)
  | mngdev_release (d : D) (last : Option (List Bool))
  | mngdev_unlocked_ioctl (d : D) (cmd : mngdev_ioctl)
  | vdev_open (branch : open_branch D)
  | vdev_release (d : D) (unused : Option Bool) (last : Option (List Bool))
  | vdev_unlocked_ioctl (d : D) (cmd : vdev_ioctl)
  | modac_mngdev_destroy (d : D) (inodes : Nat) (last : Option (List Bool))

def operation.path : operation D → List (LockAct (mutex D))
  | .mngdev_open branch => locking.mngdev_open branch
  | .mngdev_release d last => locking.mngdev_release d last
  | .mngdev_unlocked_ioctl d cmd => locking.mngdev_unlocked_ioctl d cmd
  | .vdev_open branch => locking.vdev_open branch
  | .vdev_release d unused last => locking.vdev_release d unused last
  | .vdev_unlocked_ioctl d cmd => locking.vdev_unlocked_ioctl d cmd
  | .modac_mngdev_destroy d inodes last => locking.modac_mngdev_destroy d inodes last

/-- The mutex on the right is acquired somewhere while the one on the left is
held. -/
inductive nests : mutex D → mutex D → Prop where
  | table_table : nests .mngdev_table_mutex .vdev_table_mutex
  | table_ref (d : D) : nests .mngdev_table_mutex (.ref_mtx d)
  | vdev_table_ref (d : D) : nests .vdev_table_mutex (.ref_mtx d)
  | ref_vdev_table (d : D) : nests (.ref_mtx d) .vdev_table_mutex
  | ref_pci (d : D) : nests (.ref_mtx d) .pci_mutex

theorem locked_of_top (l : mutex D) {body : List (LockAct (mutex D))}
    (hbody : Neutral nests {l} body) : Neutral nests ∅ (locked l body) := by
  refine Neutral.locked (by simp) (by simp) ?_
  rwa [insert_empty_eq]

theorem locked_under {l m : mutex D} (hne : m ≠ l) (hnests : nests l m) :
    Neutral nests {l} (locked m []) :=
  Neutral.locked (by simpa using hnests) (by simpa using hne) neutral_nil

theorem modac_mng_check_on_open_eq (d : D) (ok : Bool) :
    modac_mng_check_on_open d ok = locked (.ref_mtx d) [] := by
  cases ok <;> rfl

theorem on_subscribe_change_neutral (d : D) (pci : Bool) :
    Neutral nests {mutex.ref_mtx d} (on_subscribe_change pci) := by
  cases pci with
  | false => exact neutral_nil
  | true => exact locked_under (by simp) (.ref_pci d)

theorem list_destroy_vdev_neutral (d : D) (pci : Bool) :
    Neutral nests {mutex.ref_mtx d} (list_destroy_vdev pci) :=
  (on_subscribe_change_neutral d pci).append (locked_under (by simp) (.ref_vdev_table d))

/-- The last put destroys the VIRT_DEVs with no mutex held. -/
theorem mngdev_destroy_now_neutral (vdevs : List Bool) :
    Neutral nests ∅ (mngdev_destroy_now vdevs : List (LockAct (mutex D))) := by
  induction vdevs with
  | nil => exact neutral_nil
  | cons pci vdevs ih =>
    refine Neutral.append (Neutral.append ?_ (locked_of_top _ neutral_nil)) ih
    cases pci with
    | false => exact neutral_nil
    | true => exact locked_of_top _ neutral_nil

/-- A section of the reference that ends by putting it. -/
theorem put_neutral (d : D) (last : Option (List Bool)) {body : List (LockAct (mutex D))}
    (hbody : Neutral nests {mutex.ref_mtx d} body) :
    Neutral nests ∅ (.lock (.ref_mtx d) :: (body ++ drvdat_put d last)) := by
  have hsplit : .lock (.ref_mtx d) :: (body ++ drvdat_put d last) =
      locked (.ref_mtx d) body ++
        (match last with
        | none => []
        | some vdevs => mngdev_destroy_now vdevs) := by
    simp [locked, drvdat_put]
  rw [hsplit]
  refine (locked_of_top _ hbody).append ?_
  cases last with
  | none => exact neutral_nil
  | some vdevs => exact mngdev_destroy_now_neutral vdevs

theorem modac_c_vdev_on_open_neutral (d : D) (ok : Bool) :
    Neutral nests {mutex.vdev_table_mutex} (modac_c_vdev_on_open d ok) := by
  have hsection : Neutral nests {mutex.vdev_table_mutex} (locked (.ref_mtx d) []) :=
    locked_under (by simp) (.vdev_table_ref d)
  rw [modac_c_vdev_on_open, modac_mng_check_on_open_eq]
  refine hsection.append ?_
  cases ok with
  | false => exact neutral_nil
  | true => exact hsection

theorem devref_forall_inodes_neutral (d : D) (inodes : Nat) :
    Neutral nests {mutex.ref_mtx d} (devref_forall_inodes d inodes) := by
  refine Neutral.flatten_replicate ?_ inodes
  have hgap : Neutral nests (insert (mutex.ref_mtx d) ∅) [.unlock (.ref_mtx d), .lock (.ref_mtx d)] :=
    Neutral.gap (by simp) (by simp)
  rwa [insert_empty_eq] at hgap

/-- Every operation gives back what it takes, and takes no mutex under another
but as `nests` lists. -/
theorem path_nested (o : operation D) : Nested nests ∅ o.path := by
  apply Neutral.nested
  cases o with
  | mngdev_open branch =>
    cases branch with
    | no_slot => exact neutral_nil
    | empty_slot => exact locked_of_top _ neutral_nil
    | device d ok =>
      simp only [operation.path, mngdev_open, modac_mng_check_on_open_eq]
      refine (locked_of_top _ (locked_under (by simp) (.table_ref d))).append ?_
      cases ok with
      | false => exact neutral_nil
      | true => exact locked_of_top _ neutral_nil
  | mngdev_release d last => exact put_neutral d last neutral_nil
  | mngdev_unlocked_ioctl d cmd =>
    refine locked_of_top _ ?_
    cases cmd with
    | create entered =>
      cases entered with
      | false => exact neutral_nil
      | true => exact locked_under (by simp) (.ref_vdev_table d)
    | destroy pci => exact list_destroy_vdev_neutral d pci
    | alloc => exact neutral_nil
    | other => exact neutral_nil
  | vdev_open branch =>
    cases branch with
    | no_slot => exact neutral_nil
    | empty_slot => exact locked_of_top _ neutral_nil
    | device d ok => exact locked_of_top _ (modac_c_vdev_on_open_neutral d ok)
  | vdev_release d unused last =>
    refine put_neutral d last ?_
    cases unused with
    | none => exact neutral_nil
    | some pci => exact on_subscribe_change_neutral d pci
  | vdev_unlocked_ioctl d cmd =>
    cases cmd with
    | unprotected => exact neutral_nil
    | subscribe pci => exact locked_of_top _ (on_subscribe_change_neutral d pci)
    | other => exact locked_of_top _ neutral_nil
  | modac_mngdev_destroy d inodes last =>
    exact (locked_of_top _ (locked_under (by simp) .table_table)).append
      (put_neutral d last (devref_forall_inodes_neutral d inodes))

end evrma.locking
