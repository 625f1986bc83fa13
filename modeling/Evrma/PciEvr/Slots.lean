import Evrma.Lib.Run
import Evrma.MngDev.Data

namespace evrma.pci_evr

open evrma.lib evrma.mng_dev

abbrev MAX_MNG_DEVS : Nat := 8

abbrev MAX_PCI_MRF_DEVICES : Nat := MAX_MNG_DEVS - 1

/-- A slot, with `priv` of its `mngdev_des`. -/
structure pci_mrf_data (P E : Type) where
  used : Bool
  pcidev : Option P
  external_device : Option E
  priv : Option Nat

/-- The thread at work in a slot: a probe before the end of `modac_mngdev_create`, or a
removal that has destroyed the MNG_DEV. -/
inductive slot_progress where
  | idle
  | probing
  | bound
  | removing
deriving DecidableEq

/-- A `mngdev_data` with the slot that its `des` points into. -/
structure mngdev_instance where
  des : Fin MAX_PCI_MRF_DEVICES
  pid_set : Bool
  ref : devref inode

inductive file_kind where
  | mngdev
  | vdev (ivdev : Fin MAX_VIRT_DEVS_PER_MNG_DEV)
deriving DecidableEq

/-- An open file, with the MNG_DEV it was opened on and the descriptor of that MNG_DEV. The
`private_data` of a MNG_DEV's file is the MNG_DEV itself; a VIRT_DEV's file only leads to the
descriptor. -/
structure slot_file where
  inode : inode
  kind : file_kind
  mngdev : Nat
  des : Fin MAX_PCI_MRF_DEVICES
deriving DecidableEq

/-- What is done with a file: operations under the mutex of the reference, operations that do
not take it, and the last step, the close. -/
inductive file_op where
  | locked
  | unlocked
  | release
deriving DecidableEq

/-- An operation on a file and the MNG_DEV whose memory it got to. It was `gone` when the
removal of the file's MNG_DEV was before. -/
structure file_access where
  file : slot_file
  op : file_op
  reached : Option Nat
  gone : Bool
  ret : Int
deriving DecidableEq

structure slots_state (P E : Type) where
  pci_mrf_data : Fin MAX_PCI_MRF_DEVICES → pci_mrf_data P E
  progress : Fin MAX_PCI_MRF_DEVICES → slot_progress
  mngdevs : Nat → Option mngdev_instance
  mngdev_table : Fin MAX_PCI_MRF_DEVICES → Option Nat
  vdev_table : Fin MAX_PCI_MRF_DEVICES → Fin MAX_VIRT_DEVS_PER_MNG_DEV → Option Nat
  files : List slot_file
  accesses : List file_access

/-- The operations. Where a probe fails is not told apart; `modac_mngdev_create`, which is one step
here, gets its memory at an address or fails. -/
inductive slots_op (P E : Type) where
  | evrma_pci_probe (pcidev : P)
  | external_probe (dev_data : E)
  | probe_fails (id : Fin MAX_PCI_MRF_DEVICES)
  | finish_probe (id : Fin MAX_PCI_MRF_DEVICES) (mngdev : Option Nat)
  | evrma_pci_remove (pcidev : P)
  | external_remove (dev_data : E)
  | cleanup_slot (id : Fin MAX_PCI_MRF_DEVICES)
  | mngdev_open (id : Fin MAX_PCI_MRF_DEVICES) (i : inode) (kmalloc : Bool)
  | vdev_create (id : Fin MAX_PCI_MRF_DEVICES) (ivdev : Fin MAX_VIRT_DEVS_PER_MNG_DEV)
  | vdev_open (id : Fin MAX_PCI_MRF_DEVICES) (ivdev : Fin MAX_VIRT_DEVS_PER_MNG_DEV) (i : inode)
      (kmalloc : Bool)
  | file_locked (f : slot_file)
  | file_unlocked (f : slot_file)
  | release (f : slot_file)

variable {P E : Type}

/-- The first unused slot. -/
def sease_a_slot (slots : Fin MAX_PCI_MRF_DEVICES → pci_mrf_data P E) :
    Option (Fin MAX_PCI_MRF_DEVICES) :=
  (List.finRange MAX_PCI_MRF_DEVICES).find? fun i => !(slots i).used

/-- The slot is cleared and gets the device. -/
def start_probe (s : slots_state P E) (pcidev : Option P) (external_device : Option E) :
    slots_state P E :=
  match sease_a_slot s.pci_mrf_data with
  | none => s
  | some id =>
    { s with
      pci_mrf_data := Function.update s.pci_mrf_data id
        { used := true, pcidev, external_device, priv := none }
      progress := Function.update s.progress id .probing }

/-- The end of `cleanup`. -/
def free_slot (s : slots_state P E) (id : Fin MAX_PCI_MRF_DEVICES) : slots_state P E :=
  { s with
    pci_mrf_data := Function.update s.pci_mrf_data id { s.pci_mrf_data id with used := false }
    progress := Function.update s.progress id .idle }

def set_priv (s : slots_state P E) (id : Fin MAX_PCI_MRF_DEVICES) (priv : Option Nat) :
    slots_state P E :=
  { s with pci_mrf_data := Function.update s.pci_mrf_data id { s.pci_mrf_data id with priv } }

/-- The entry in the table must be free. -/
def modac_mngdev_create (s : slots_state P E) (id : Fin MAX_PCI_MRF_DEVICES)
    (mngdev : Option Nat) : Option (slots_state P E) :=
  match mngdev with
  | none => none
  | some m =>
    if (s.mngdevs m).isSome ∨ s.mngdev_table id ≠ none then none
    else
      some { set_priv s id (some m) with
        mngdevs := Function.update s.mngdevs m (some ⟨id, false, devref_init⟩)
        mngdev_table := Function.update s.mngdev_table id (some m) }

def finish_probe (s : slots_state P E) (id : Fin MAX_PCI_MRF_DEVICES) (mngdev : Option Nat) :
    slots_state P E :=
  match modac_mngdev_create s id mngdev with
  | none => free_slot (set_priv s id none) id
  | some s => { s with progress := Function.update s.progress id .bound }

/-- A reference is given back, and the memory is freed after the last one. -/
def drvdat_put (s : slots_state P E) (m : Nat) (o : mngdev_instance) (i : Option inode) :
    slots_state P E :=
  let (ref, count) := devref_put o.ref i
  { s with
    mngdevs := Function.update s.mngdevs m (if count = 0 then none else some { o with ref }) }

/-- The MNG_DEV is the one that `priv` of the descriptor points to. -/
def modac_mngdev_destroy (s : slots_state P E) (id : Fin MAX_PCI_MRF_DEVICES) :
    Option (slots_state P E) :=
  (s.pci_mrf_data id).priv.bind fun m => (s.mngdevs m).map fun o =>
    drvdat_put
      { s with
        mngdev_table := Function.update s.mngdev_table id none
        vdev_table := Function.update s.vdev_table id fun _ => none }
      m { o with ref := devref_invalidate o.ref } none

/-- `cleanup` up to the end of the destruction. The device was probed before, and its probe
is through. -/
def start_remove (s : slots_state P E) (id : Fin MAX_PCI_MRF_DEVICES) : Option (slots_state P E) :=
  if s.progress id = .bound then
    (modac_mngdev_destroy s id).map fun s =>
      { s with progress := Function.update s.progress id .removing }
  else none

/-- `modac_mng_check_on_open` with a descriptor: the MNG_DEV behind it gives a reference. -/
def modac_mng_check_on_open (s : slots_state P E) (des : Fin MAX_PCI_MRF_DEVICES) (i : inode)
    (kmalloc : Bool) : Option (slots_state P E × Int) :=
  (s.pci_mrf_data des).priv.bind fun m => (s.mngdevs m).map fun o =>
    let (ref, ret) := devref_get o.ref (some i) kmalloc
    ({ s with mngdevs := Function.update s.mngdevs m (some { o with ref }) }, ret)

/-- The reference is kept when the MNG_DEV is open already. -/
def mngdev_open (s : slots_state P E) (m : Nat) (i : inode) (kmalloc : Bool) :
    Option (slots_state P E) :=
  (s.mngdevs m).bind fun o =>
    (modac_mng_check_on_open s o.des i kmalloc).bind fun (s, ret) =>
      if ret ≠ 0 then some s
      else
        (s.mngdevs m).map fun o =>
          if o.pid_set then s
          else
            { s with
              mngdevs := Function.update s.mngdevs m (some { o with pid_set := true })
              files := ⟨i, .mngdev, m, o.des⟩ :: s.files }

/-- From the VIRT_DEV to the descriptor of its MNG_DEV, from there to the MNG_DEV, and to the
reference by the MNG_DEV's descriptor. -/
def vdev_open (s : slots_state P E) (des : Fin MAX_PCI_MRF_DEVICES)
    (ivdev : Fin MAX_VIRT_DEVS_PER_MNG_DEV) (opened_on : Nat) (i : inode) (kmalloc : Bool) :
    Option (slots_state P E) :=
  (s.pci_mrf_data des).priv.bind fun m => (s.mngdevs m).bind fun o =>
    (modac_mng_check_on_open s o.des i kmalloc).map fun (s, ret) =>
      if ret ≠ 0 then s else { s with files := ⟨i, .vdev ivdev, opened_on, des⟩ :: s.files }

/-- The MNG_DEV that an operation on the file works on. -/
def slot_file.target (s : slots_state P E) (f : slot_file) : Option Nat :=
  match f.kind with
  | .mngdev => some f.mngdev
  | .vdev _ => (s.pci_mrf_data f.des).priv

/-- The tables no longer lead to the file's MNG_DEV. -/
def slot_file.gone (s : slots_state P E) (f : slot_file) : Prop :=
  s.mngdev_table f.des ≠ some f.mngdev

instance (s : slots_state P E) (f : slot_file) : Decidable (f.gone s) :=
  inferInstanceAs (Decidable (_ ≠ _))

def access (s : slots_state P E) (f : slot_file) (op : file_op) (ret : Int) : slots_state P E :=
  { s with accesses := ⟨f, op, f.target s, f.gone s, ret⟩ :: s.accesses }

/-- `mngdev_devref_lock` of the MNG_DEV, and the rest returns what it likes. -/
def file_locked (s : slots_state P E) (f : slot_file) : slots_state P E :=
  access s f .locked
    (((f.target s).bind s.mngdevs).elim 0 fun o => if o.ref.ref_ptr then 0 else -ENODEV)

/-- The close of a file. Nothing more happens after a pointer that leads nowhere. -/
def release (s : slots_state P E) (f : slot_file) : slots_state P E :=
  let t := access s f .release 0
  match f.target s with
  | none => t
  | some m =>
    match s.mngdevs m with
    | none => t
    | some o =>
      drvdat_put { t with files := s.files.erase f } m
        { o with pid_set := o.pid_set && f.kind ≠ .mngdev } (some f.inode)

section

variable [DecidableEq P] [DecidableEq E]

def find_pcidev (s : slots_state P E) (pcidev : P) : Option (Fin MAX_PCI_MRF_DEVICES) :=
  (List.finRange MAX_PCI_MRF_DEVICES).find? fun i =>
    (s.pci_mrf_data i).used && (s.pci_mrf_data i).pcidev = some pcidev

def find_external_device (s : slots_state P E) (dev_data : E) :
    Option (Fin MAX_PCI_MRF_DEVICES) :=
  (List.finRange MAX_PCI_MRF_DEVICES).find? fun i =>
    (s.pci_mrf_data i).used && (s.pci_mrf_data i).external_device = some dev_data

def slots_step (s : slots_state P E) : slots_op P E → Option (slots_state P E)
  | .evrma_pci_probe pcidev => some (start_probe s (some pcidev) none)
  | .external_probe dev_data => some (start_probe s none (some dev_data))
  | .probe_fails id => if s.progress id = .probing then some (free_slot s id) else none
  | .finish_probe id mngdev =>
    if s.progress id = .probing then some (finish_probe s id mngdev) else none
  | .evrma_pci_remove pcidev =>
    match find_pcidev s pcidev with
    | none => some s
    | some id => start_remove s id
  | .external_remove dev_data => (find_external_device s dev_data).bind (start_remove s)
  | .cleanup_slot id => if s.progress id = .removing then some (free_slot s id) else none
  | .mngdev_open id i kmalloc =>
    match s.mngdev_table id with
    | none => some s
    | some m => mngdev_open s m i kmalloc
  | .vdev_create id ivdev =>
    (s.mngdev_table id).map fun m =>
      { s with
        vdev_table := Function.update s.vdev_table id
          (Function.update (s.vdev_table id) ivdev (some m)) }
  | .vdev_open id ivdev i kmalloc =>
    match s.vdev_table id ivdev with
    | none => some s
    | some m => vdev_open s id ivdev m i kmalloc
  | .file_locked f => if f ∈ s.files then some (file_locked s f) else none
  | .file_unlocked f => if f ∈ s.files then some (access s f .unlocked 0) else none
  | .release f => if f ∈ s.files then some (release s f) else none

end

/-- No device yet. -/
def slots_init : slots_state P E where
  pci_mrf_data _ := ⟨false, none, none, none⟩
  progress _ := .idle
  mngdevs _ := none
  mngdev_table _ := none
  vdev_table _ _ := none
  files := []
  accesses := []

/-- The files that are open on a MNG_DEV. -/
def open_files (s : slots_state P E) (m : Nat) : Nat :=
  s.files.countP fun f => f.mngdev = m

/-- A slot whose probe has succeeded has a MNG_DEV in the table, other slots do not. A MNG_DEV
has a reference for each of its files and one for the table. -/
structure SlotsInv (s : slots_state P E) : Prop where
  used : ∀ id, s.progress id = .idle ↔ (s.pci_mrf_data id).used = false
  bound : ∀ id, s.progress id = .bound →
    ∃ m o, s.mngdev_table id = some m ∧ (s.pci_mrf_data id).priv = some m ∧
      s.mngdevs m = some o ∧ o.des = id ∧ o.ref.ref_ptr = true
  unbound : ∀ id, s.progress id ≠ .bound → s.mngdev_table id = none
  probing : ∀ id, s.progress id = .probing → (s.pci_mrf_data id).priv = none
  vdev_listed : ∀ id ivdev m, s.vdev_table id ivdev = some m → s.mngdev_table id = some m
  priv_kept : ∀ f ∈ s.files, (s.pci_mrf_data f.des).priv = some f.mngdev
  file_mngdev : ∀ f ∈ s.files, ∃ o, s.mngdevs f.mngdev = some o ∧ o.des = f.des
  referenced : ∀ m o, s.mngdevs m = some o →
    (open_files s m : Int) + (if o.ref.ref_ptr then 1 else 0) ≤ o.ref.ref_cnt
  listed : ∀ m o, s.mngdevs m = some o → o.ref.ref_ptr = true → s.mngdev_table o.des = some m
  reached : ∀ a ∈ s.accesses, a.reached = some a.file.mngdev ∧
    (a.op = .locked → a.gone = true → a.ret = -ENODEV)

theorem slotsInv_init : SlotsInv (slots_init : slots_state P E) where
  used _ := by simp [slots_init]
  bound _ h := by cases h
  unbound _ _ := rfl
  probing _ h := by cases h
  vdev_listed _ _ _ h := by cases h
  priv_kept _ h := by cases h
  file_mngdev _ h := by cases h
  referenced _ _ h := by cases h
  listed _ _ h := by cases h
  reached _ h := by cases h

section

variable {s : slots_state P E} (hinv : SlotsInv s)
include hinv

theorem SlotsInv.start_probe {pcidev : Option P} {external_device : Option E}
    (hfiles : ∀ id, sease_a_slot s.pci_mrf_data = some id → ∀ f ∈ s.files, f.des ≠ id) :
    SlotsInv (start_probe s pcidev external_device) := by
  unfold pci_evr.start_probe
  cases hseased : sease_a_slot s.pci_mrf_data with
  | none => exact hinv
  | some id =>
    have hunused : (s.pci_mrf_data id).used = false := by
      simpa using List.find?_some hseased
    have hidle := (hinv.used id).mpr hunused
    have hnew := hfiles id hseased
    obtain ⟨hused, hbound, hunbound, hprobing, hvdev, hpriv, hmngdev, hreferenced, hlisted, hreached⟩ :=
      hinv
    refine ⟨?_, ?_, ?_, ?_, hvdev, ?_, hmngdev, hreferenced, hlisted, hreached⟩
    · grind [Function.update_apply]
    · grind [Function.update_apply]
    · grind [Function.update_apply]
    · grind [Function.update_apply]
    · grind [Function.update_apply]

theorem SlotsInv.free_slot {id : Fin MAX_PCI_MRF_DEVICES} (hbusy : s.progress id ≠ .bound) :
    SlotsInv (free_slot s id) := by
  unfold pci_evr.free_slot
  obtain ⟨hused, hbound, hunbound, hprobing, hvdev, hpriv, hmngdev, hreferenced, hlisted, hreached⟩ :=
    hinv
  refine ⟨?_, ?_, ?_, ?_, hvdev, ?_, hmngdev, hreferenced, hlisted, hreached⟩
  · grind [Function.update_apply]
  · grind [Function.update_apply]
  · grind [Function.update_apply]
  · grind [Function.update_apply]
  · grind [Function.update_apply]

theorem SlotsInv.create {id : Fin MAX_PCI_MRF_DEVICES} {m : Nat}
    (hprobe : s.progress id = .probing) (hfree : s.mngdevs m = none) :
    SlotsInv { set_priv s id (some m) with
      mngdevs := Function.update s.mngdevs m (some ⟨id, false, devref_init⟩)
      mngdev_table := Function.update s.mngdev_table id (some m)
      progress := Function.update s.progress id .bound } := by
  have hno : open_files s m = 0 := by
    refine List.countP_eq_zero.mpr fun f hf => ?_
    obtain ⟨o, ho, _⟩ := hinv.file_mngdev f hf
    grind
  have htable := hinv.unbound id (by simp [hprobe])
  unfold set_priv
  obtain ⟨hused, hbound, hunbound, hprobing, hvdev, hpriv, hmngdev, hreferenced, hlisted, hreached⟩ :=
    hinv
  refine ⟨?_, ?_, ?_, ?_, ?_, ?_, ?_, ?_, ?_, hreached⟩
  · grind [Function.update_apply]
  · intro id' hid'
    by_cases hid : id' = id
    · subst hid
      exact ⟨m, ⟨id', false, devref_init⟩, by simp, by simp, by simp, rfl, rfl⟩
    · grind [Function.update_apply]
  · grind [Function.update_apply]
  · grind [Function.update_apply]
  · grind [Function.update_apply]
  · grind [Function.update_apply]
  · grind [Function.update_apply]
  · grind [Function.update_apply, devref_init, open_files]
  · grind [Function.update_apply]

theorem SlotsInv.finish_probe {id : Fin MAX_PCI_MRF_DEVICES} {mngdev : Option Nat}
    (hprobe : s.progress id = .probing) : SlotsInv (finish_probe s id mngdev) := by
  have hunset : set_priv s id none = s := by
    unfold set_priv
    rw [← hinv.probing id hprobe, Function.update_eq_self]
  have hfail : SlotsInv (pci_evr.free_slot (set_priv s id none) id) := by
    rw [hunset]
    exact hinv.free_slot (by simp [hprobe])
  unfold pci_evr.finish_probe modac_mngdev_create
  cases mngdev with
  | none => exact hfail
  | some m =>
    dsimp only
    split_ifs with hbad
    · exact hfail
    · rw [not_or] at hbad
      exact hinv.create hprobe (by simpa using hbad.1)

/-- The memory of a MNG_DEV changes, with references enough. -/
theorem SlotsInv.update_mngdev {m : Nat} {o o' : mngdev_instance} (ho : s.mngdevs m = some o)
    (hdes : o'.des = o.des) (hptr : o'.ref.ref_ptr = o.ref.ref_ptr)
    (hroom : (open_files s m : Int) + (if o.ref.ref_ptr then 1 else 0) ≤ o'.ref.ref_cnt) :
    SlotsInv { s with mngdevs := Function.update s.mngdevs m (some o') } := by
  obtain ⟨hused, hbound, hunbound, hprobing, hvdev, hpriv, hmngdev, hreferenced, hlisted, hreached⟩ :=
    hinv
  refine ⟨hused, ?_, hunbound, hprobing, hvdev, hpriv, ?_, ?_, ?_, hreached⟩
  · intro id hid
    obtain ⟨m', o'', htable, hpriv', ho'', rfl, hptr'⟩ := hbound id hid
    by_cases hm : m' = m
    · subst hm
      obtain rfl : o = o'' := Option.some.inj (ho.symm.trans ho'')
      exact ⟨m', o', htable, hpriv', by simp, hdes, hptr.trans hptr'⟩
    · exact ⟨m', o'', htable, hpriv', (Function.update_of_ne hm _ _).trans ho'', rfl, hptr'⟩
  · grind [Function.update_apply]
  · intro m' o'' ho''
    by_cases hm : m' = m
    · subst hm
      obtain rfl : o' = o'' := by simpa using ho''
      rw [hptr]
      exact hroom
    · exact hreferenced m' o'' ((Function.update_of_ne hm _ _).symm.trans ho'')
  · grind [Function.update_apply]

theorem SlotsInv.add_file {f : slot_file} {o : mngdev_instance} (ho : s.mngdevs f.mngdev = some o)
    (hdes : f.des = o.des) (hpriv : (s.pci_mrf_data f.des).priv = some f.mngdev)
    (hroom : (open_files s f.mngdev : Int) + 1 + (if o.ref.ref_ptr then 1 else 0) ≤ o.ref.ref_cnt) :
    SlotsInv { s with files := f :: s.files } := by
  obtain ⟨hused, hbound, hunbound, hprobing, hvdev, hkept, hmngdev, hreferenced, hlisted, hreached⟩ :=
    hinv
  refine ⟨hused, hbound, hunbound, hprobing, hvdev, ?_, ?_, ?_, hlisted, hreached⟩
  · grind
  · grind
  · intro m' o' ho'
    have hold := hreferenced m' o' ho'
    simp only [open_files, List.countP_cons, decide_eq_true_eq]
    by_cases hm : f.mngdev = m'
    · subst hm
      obtain rfl : o = o' := Option.some.inj (ho.symm.trans ho')
      rw [if_pos rfl]
      unfold open_files at hroom
      omega
    · rw [if_neg hm]
      exact hold

theorem SlotsInv.remove_file {f : slot_file} (hf : f ∈ s.files) :
    SlotsInv { s with files := s.files.erase f } ∧
    ∀ o, s.mngdevs f.mngdev = some o →
      (open_files { s with files := s.files.erase f } f.mngdev : Int) + 1 +
        (if o.ref.ref_ptr then 1 else 0) ≤ o.ref.ref_cnt := by
  have hcount : ∀ m, open_files s m =
      open_files { s with files := s.files.erase f } m + if f.mngdev = m then 1 else 0 := by
    intro m
    unfold open_files
    rw [(List.perm_cons_erase hf).countP_eq, List.countP_cons]
    simp only [decide_eq_true_eq]
  obtain ⟨hused, hbound, hunbound, hprobing, hvdev, hkept, hmngdev, hreferenced, hlisted, hreached⟩ :=
    hinv
  refine ⟨⟨hused, hbound, hunbound, hprobing, hvdev, ?_, ?_, ?_, hlisted, hreached⟩, ?_⟩
  · exact fun f' hf' => hkept f' (List.mem_of_mem_erase hf')
  · exact fun f' hf' => hmngdev f' (List.mem_of_mem_erase hf')
  · intro m o ho
    have hold := hreferenced m o ho
    rw [hcount m] at hold
    push_cast at hold
    omega
  · intro o ho
    have hold := hreferenced f.mngdev o ho
    rw [hcount f.mngdev, if_pos rfl] at hold
    push_cast at hold
    omega

/-- The MNG_DEV is only freed when it is not in the table and has no files. -/
theorem SlotsInv.drvdat_put {m : Nat} {o o' : mngdev_instance} {i : Option inode}
    (ho : s.mngdevs m = some o) (hdes : o'.des = o.des) (hptr : o'.ref.ref_ptr = o.ref.ref_ptr)
    (hcnt : o'.ref.ref_cnt = o.ref.ref_cnt)
    (hroom : (open_files s m : Int) + 1 + (if o.ref.ref_ptr then 1 else 0) ≤ o.ref.ref_cnt) :
    SlotsInv (drvdat_put s m o' i) := by
  unfold pci_evr.drvdat_put
  simp only [devref_put_ret, hcnt]
  by_cases hlast : o.ref.ref_cnt - 1 = 0
  · rw [if_pos hlast]
    have hinvalid : o.ref.ref_ptr = false := by
      by_contra hvalid
      rw [Bool.not_eq_false] at hvalid
      rw [if_pos hvalid] at hroom
      omega
    have hno : open_files s m = 0 := by
      rw [if_neg (by simp [hinvalid])] at hroom
      omega
    have hother : ∀ f ∈ s.files, f.mngdev ≠ m := by
      simpa [open_files] using hno
    obtain ⟨hused, hbound, hunbound, hprobing, hvdev, hkept, hmngdev, hreferenced, hlisted,
      hreached⟩ := hinv
    refine ⟨hused, ?_, hunbound, hprobing, hvdev, hkept, ?_, ?_, ?_, hreached⟩
    · intro id hid
      obtain ⟨m', o'', htable, hpriv', ho'', hid', hptr'⟩ := hbound id hid
      have hm : m' ≠ m := by
        rintro rfl
        obtain rfl : o = o'' := Option.some.inj (ho.symm.trans ho'')
        rw [hinvalid] at hptr'
        cases hptr'
      exact ⟨m', o'', htable, hpriv', (Function.update_of_ne hm _ _).trans ho'', hid', hptr'⟩
    · intro f hf
      obtain ⟨o'', ho'', hdes'⟩ := hmngdev f hf
      exact ⟨o'', (Function.update_of_ne (hother f hf) _ _).trans ho'', hdes'⟩
    · intro m' o'' ho''
      by_cases hm : m' = m
      · simp [hm] at ho''
      · exact hreferenced m' o'' ((Function.update_of_ne hm _ _).symm.trans ho'')
    · intro m' o'' ho''
      by_cases hm : m' = m
      · simp [hm] at ho''
      · exact hlisted m' o'' ((Function.update_of_ne hm _ _).symm.trans ho'')
  · rw [if_neg hlast]
    refine hinv.update_mngdev ho hdes hptr ?_
    rw [devref_put_ref_cnt, hcnt]
    omega

theorem SlotsInv.start_remove {id : Fin MAX_PCI_MRF_DEVICES} {t : slots_state P E}
    (h : start_remove s id = some t) : SlotsInv t := by
  unfold pci_evr.start_remove modac_mngdev_destroy at h
  split_ifs at h with hid
  obtain ⟨m, o, htable, hpriv, ho, rfl, hptr⟩ := hinv.bound id hid
  have hcount := hinv.referenced m o ho
  rw [if_pos hptr] at hcount
  simp only [hpriv, Option.bind_some, ho, Option.map_some, Option.some.injEq] at h
  subst h
  have hfree : SlotsInv { s with
      mngdevs := Function.update s.mngdevs m (some { o with ref := devref_invalidate o.ref })
      mngdev_table := Function.update s.mngdev_table o.des none
      vdev_table := Function.update s.vdev_table o.des fun _ => none
      progress := Function.update s.progress o.des .removing } := by
    obtain ⟨hused, hbound, hunbound, hprobing, hvdev, hkept, hmngdev, hreferenced, hlisted,
      hreached⟩ := hinv
    refine ⟨?_, ?_, ?_, ?_, ?_, hkept, ?_, ?_, ?_, hreached⟩
    · grind [Function.update_apply]
    · intro id' hid'
      have hne : id' ≠ o.des := by
        rintro rfl
        simp at hid'
      obtain ⟨m', o', htable', hpriv', ho', rfl, hptr'⟩ :=
        hbound id' ((Function.update_of_ne hne _ _).symm.trans hid')
      have hm : m' ≠ m := by
        rintro rfl
        exact hne (congrArg mngdev_instance.des (Option.some.inj (ho'.symm.trans ho)))
      exact ⟨m', o', (Function.update_of_ne hne _ _).trans htable', hpriv',
        (Function.update_of_ne hm _ _).trans ho', rfl, hptr'⟩
    · grind [Function.update_apply]
    · grind [Function.update_apply]
    · intro id' ivdev m' hm'
      by_cases hne : id' = o.des
      · simp [hne] at hm'
      · dsimp only at hm' ⊢
        rw [Function.update_of_ne hne] at hm' ⊢
        exact hvdev id' ivdev m' hm'
    · grind [Function.update_apply]
    · grind [Function.update_apply, devref_invalidate, open_files]
    · grind [Function.update_apply, devref_invalidate]
  have hput := hfree.drvdat_put (m := m) (i := none) (Function.update_self m _ s.mngdevs) rfl rfl rfl
    (by simpa [open_files, devref_invalidate] using hcount)
  simp only [pci_evr.drvdat_put, Function.update_idem] at hput
  exact hput

theorem SlotsInv.check_on_open {des : Fin MAX_PCI_MRF_DEVICES} {i : inode} {kmalloc : Bool}
    {t : slots_state P E} {ret : Int} (h : modac_mng_check_on_open s des i kmalloc = some (t, ret)) :
    SlotsInv t ∧ t.files = s.files ∧ t.pci_mrf_data = s.pci_mrf_data ∧ ∃ m o o',
      (s.pci_mrf_data des).priv = some m ∧ s.mngdevs m = some o ∧ t.mngdevs m = some o' ∧
      o'.des = o.des ∧
      (ret = 0 → (open_files t m : Int) + 1 + (if o'.ref.ref_ptr then 1 else 0) ≤ o'.ref.ref_cnt) := by
  unfold modac_mng_check_on_open at h
  obtain ⟨m, hpriv, h⟩ := Option.bind_eq_some_iff.mp h
  obtain ⟨o, ho, h⟩ := Option.map_eq_some_iff.mp h
  have hcount := hinv.referenced m o ho
  have hget := devref_get_count o.ref (some i) kmalloc
  generalize devref_get o.ref (some i) kmalloc = got at h hget
  obtain ⟨ref, ret'⟩ := got
  dsimp only at h hget
  obtain ⟨rfl, rfl⟩ := Prod.mk.inj h
  refine ⟨hinv.update_mngdev ho rfl hget.1 ?_, rfl, rfl, m, o, { o with ref }, hpriv, ho,
    Function.update_self .., rfl, ?_⟩
  · dsimp only
    split_ifs at hget with hret <;> omega
  · intro hret
    rw [if_pos hret] at hget
    dsimp only [open_files] at hcount ⊢
    rw [hget.1]
    omega

theorem SlotsInv.bound_of_listed {id : Fin MAX_PCI_MRF_DEVICES} {m : Nat}
    (hm : s.mngdev_table id = some m) :
    ∃ o, (s.pci_mrf_data id).priv = some m ∧ s.mngdevs m = some o ∧ o.des = id := by
  have hid : s.progress id = .bound := by
    by_contra hid
    rw [hinv.unbound id hid] at hm
    cases hm
  obtain ⟨m', o, htable, hpriv, ho, hdes, _⟩ := hinv.bound id hid
  obtain rfl : m = m' := Option.some.inj (hm.symm.trans htable)
  exact ⟨o, hpriv, ho, hdes⟩

theorem SlotsInv.mngdev_open {id : Fin MAX_PCI_MRF_DEVICES} {m : Nat} {i : inode} {kmalloc : Bool}
    {t : slots_state P E} (hm : s.mngdev_table id = some m)
    (h : mngdev_open s m i kmalloc = some t) : SlotsInv t := by
  obtain ⟨o, hpriv, ho, rfl⟩ := hinv.bound_of_listed hm
  unfold pci_evr.mngdev_open at h
  rw [ho, Option.bind_some] at h
  obtain ⟨⟨u, ret⟩, hcheck, h⟩ := Option.bind_eq_some_iff.mp h
  obtain ⟨hinv', hfiles, hslots, m', o₁, o', hpriv', ho₁, ho', hdes, hroom⟩ :=
    hinv.check_on_open hcheck
  obtain rfl : m = m' := Option.some.inj (hpriv.symm.trans hpriv')
  obtain rfl : o = o₁ := Option.some.inj (ho.symm.trans ho₁)
  dsimp only at h
  by_cases hret : ret ≠ 0
  · rw [if_pos hret] at h
    cases h
    exact hinv'
  · rw [if_neg hret, ho', Option.map_some, Option.some.injEq] at h
    rw [not_not] at hret
    have hroom := hroom hret
    split_ifs at h with hpid
    · cases h
      exact hinv'
    · have hset : SlotsInv { u with
          mngdevs := Function.update u.mngdevs m (some { o' with pid_set := true }) } := by
        refine hinv'.update_mngdev ho' rfl rfl ?_
        dsimp only
        omega
      subst h
      exact hset.add_file (f := ⟨i, .mngdev, m, o'.des⟩) (Function.update_self ..) rfl
        (by rw [hdes]; exact (congrArg (fun d => (d o.des).priv) hslots).trans hpriv) hroom

theorem SlotsInv.vdev_open {des : Fin MAX_PCI_MRF_DEVICES}
    {ivdev : Fin MAX_VIRT_DEVS_PER_MNG_DEV} {m : Nat} {i : inode} {kmalloc : Bool}
    {t : slots_state P E} (hm : s.vdev_table des ivdev = some m)
    (h : vdev_open s des ivdev m i kmalloc = some t) : SlotsInv t := by
  obtain ⟨o, hpriv, ho, rfl⟩ := hinv.bound_of_listed (hinv.vdev_listed des ivdev m hm)
  unfold pci_evr.vdev_open at h
  rw [hpriv, Option.bind_some, ho, Option.bind_some] at h
  obtain ⟨⟨u, ret⟩, hcheck, h⟩ := Option.map_eq_some_iff.mp h
  obtain ⟨hinv', hfiles, hslots, m', o₁, o', hpriv', ho₁, ho', hdes, hroom⟩ :=
    hinv.check_on_open hcheck
  obtain rfl : m = m' := Option.some.inj (hpriv.symm.trans hpriv')
  obtain rfl : o = o₁ := Option.some.inj (ho.symm.trans ho₁)
  dsimp only at h
  split_ifs at h with hret
  · cases h
    exact hinv'
  · subst h
    exact hinv'.add_file (f := ⟨i, .vdev ivdev, m, o.des⟩) ho' hdes.symm
      ((congrArg (fun d => (d o.des).priv) hslots).trans hpriv) (hroom (not_not.mp hret))

theorem SlotsInv.vdev_create {id : Fin MAX_PCI_MRF_DEVICES} {m : Nat}
    (hm : s.mngdev_table id = some m) (ivdev : Fin MAX_VIRT_DEVS_PER_MNG_DEV) :
    SlotsInv { s with
      vdev_table := Function.update s.vdev_table id
        (Function.update (s.vdev_table id) ivdev (some m)) } := by
  refine { hinv with vdev_listed := ?_ }
  intro id' ivdev' m' hm'
  by_cases hid : id' = id
  · subst hid
    dsimp only at hm' ⊢
    rw [Function.update_self, Function.update_apply] at hm'
    split_ifs at hm' with hivdev
    · cases hm'
      exact hm
    · exact hinv.vdev_listed id' ivdev' m' hm'
  · dsimp only at hm' ⊢
    rw [Function.update_of_ne hid] at hm'
    exact hinv.vdev_listed id' ivdev' m' hm'

/-- An operation on a file gets to the file's MNG_DEV. -/
theorem SlotsInv.target_eq {f : slot_file} (hf : f ∈ s.files) : f.target s = some f.mngdev := by
  unfold slot_file.target
  cases f.kind with
  | mngdev => rfl
  | vdev ivdev => exact hinv.priv_kept f hf

theorem SlotsInv.access {f : slot_file} (hf : f ∈ s.files) {op : file_op} {ret : Int}
    (hret : op = .locked → f.gone s → ret = -ENODEV) : SlotsInv (access s f op ret) := by
  refine { hinv with reached := ?_ }
  intro a ha
  obtain rfl | ha := List.mem_cons.mp ha
  · exact ⟨hinv.target_eq hf, fun hop hgone => hret hop (of_decide_eq_true hgone)⟩
  · exact hinv.reached a ha

theorem SlotsInv.file_locked {f : slot_file} (hf : f ∈ s.files) : SlotsInv (file_locked s f) := by
  refine hinv.access hf fun _ hgone => ?_
  obtain ⟨o, ho, hdes⟩ := hinv.file_mngdev f hf
  have hinvalid : o.ref.ref_ptr = false := by
    by_contra hvalid
    rw [Bool.not_eq_false] at hvalid
    exact hgone (hdes ▸ hinv.listed f.mngdev o ho hvalid)
  rw [hinv.target_eq hf, Option.bind_some, ho, Option.elim_some, hinvalid]
  rfl

theorem SlotsInv.release {f : slot_file} (hf : f ∈ s.files) : SlotsInv (release s f) := by
  obtain ⟨o, ho, _⟩ := hinv.file_mngdev f hf
  have hlogged : SlotsInv (pci_evr.access s f .release 0) := hinv.access hf fun hop => by cases hop
  obtain ⟨hremoved, hroom⟩ := hlogged.remove_file hf
  unfold pci_evr.release
  rw [hinv.target_eq hf]
  dsimp only
  rw [ho]
  exact hremoved.drvdat_put ho rfl rfl rfl (hroom o ho)

end

/-- A probe does not take a slot that the files of an earlier MNG_DEV still lead to. -/
def TakesFreeSlot (s : slots_state P E) (a : slots_op P E) : Prop :=
  (∃ pcidev, a = .evrma_pci_probe pcidev) ∨ (∃ dev_data, a = .external_probe dev_data) →
    ∀ id, sease_a_slot s.pci_mrf_data = some id → ∀ f ∈ s.files, f.des ≠ id

/-- The descriptor that a file of a removed MNG_DEV leads to still points to this MNG_DEV, and
no other one is created with it. -/
def PrivKept (s : slots_state P E) : Prop :=
  ∀ f ∈ s.files, f.gone s →
    (s.pci_mrf_data f.des).priv = some f.mngdev ∧ s.mngdev_table f.des = none

/-- The operations on files, the closes among them, got to the MNG_DEVs the files were opened
on, and those under the mutex failed when it was removed. -/
def AccessesOwn (s : slots_state P E) : Prop :=
  ∀ a ∈ s.accesses, a.reached = some a.file.mngdev ∧
    (a.op = .locked → a.gone = true → a.ret = -ENODEV)

theorem SlotsInv.privKept {s : slots_state P E} (hinv : SlotsInv s) : PrivKept s := by
  intro f hf hgone
  have hpriv := hinv.priv_kept f hf
  refine ⟨hpriv, ?_⟩
  cases htable : s.mngdev_table f.des with
  | none => rfl
  | some m =>
    obtain ⟨o, hpriv', _⟩ := hinv.bound_of_listed htable
    rw [hpriv] at hpriv'
    exact absurd (htable.trans hpriv'.symm) hgone

theorem start_probe_pci_mrf_data {s : slots_state P E} {pcidev : Option P}
    {external_device : Option E} {id : Fin MAX_PCI_MRF_DEVICES}
    (hid : sease_a_slot s.pci_mrf_data = some id) :
    ((start_probe s pcidev external_device).pci_mrf_data id).priv = none := by
  unfold start_probe
  rw [hid]
  simp

theorem start_probe_files (s : slots_state P E) (pcidev : Option P) (external_device : Option E) :
    (start_probe s pcidev external_device).files = s.files ∧
      (start_probe s pcidev external_device).mngdev_table = s.mngdev_table := by
  unfold start_probe
  cases sease_a_slot s.pci_mrf_data <;> exact ⟨rfl, rfl⟩

/-- A probe that clears the descriptor of a file's MNG_DEV. -/
theorem start_probe_not_privKept {s : slots_state P E} (hinv : SlotsInv s) {pcidev : Option P}
    {external_device : Option E} {f : slot_file} (hf : f ∈ s.files)
    (hid : sease_a_slot s.pci_mrf_data = some f.des) :
    ¬ PrivKept (start_probe s pcidev external_device) := by
  intro hkept
  have hunused : (s.pci_mrf_data f.des).used = false := by
    simpa using List.find?_some hid
  have hidle := (hinv.used f.des).mpr hunused
  obtain ⟨hfiles, htable⟩ := start_probe_files s pcidev external_device
  have hgone : f.gone (start_probe s pcidev external_device) := by
    unfold slot_file.gone
    rw [htable, hinv.unbound f.des (by simp [hidle])]
    exact (Option.some_ne_none _).symm
  have hpriv := (hkept f (hfiles ▸ hf) hgone).1
  rw [start_probe_pci_mrf_data hid] at hpriv
  cases hpriv

variable [DecidableEq P] [DecidableEq E]

theorem slotsInv_step {s t : slots_state P E} {a : slots_op P E} (hinv : SlotsInv s)
    (hfree : TakesFreeSlot s a) (h : slots_step s a = some t) : SlotsInv t := by
  cases a with
  | evrma_pci_probe pcidev =>
    cases h
    exact hinv.start_probe (hfree (.inl ⟨pcidev, rfl⟩))
  | external_probe dev_data =>
    cases h
    exact hinv.start_probe (hfree (.inr ⟨dev_data, rfl⟩))
  | probe_fails id =>
    simp only [slots_step] at h
    split_ifs at h with hid
    cases h
    exact hinv.free_slot (by simp [hid])
  | finish_probe id mngdev =>
    simp only [slots_step] at h
    split_ifs at h with hid
    cases h
    exact hinv.finish_probe hid
  | evrma_pci_remove pcidev =>
    simp only [slots_step] at h
    split at h
    · cases h
      exact hinv
    · exact hinv.start_remove h
  | external_remove dev_data =>
    obtain ⟨id, _, h⟩ := Option.bind_eq_some_iff.mp h
    exact hinv.start_remove h
  | cleanup_slot id =>
    simp only [slots_step] at h
    split_ifs at h with hid
    cases h
    exact hinv.free_slot (by simp [hid])
  | mngdev_open id i kmalloc =>
    simp only [slots_step] at h
    split at h
    next =>
      cases h
      exact hinv
    next m hm => exact hinv.mngdev_open hm h
  | vdev_create id ivdev =>
    obtain ⟨m, hm, rfl⟩ := Option.map_eq_some_iff.mp h
    exact hinv.vdev_create hm ivdev
  | vdev_open id ivdev i kmalloc =>
    simp only [slots_step] at h
    split at h
    next =>
      cases h
      exact hinv
    next m hm => exact hinv.vdev_open hm h
  | file_locked f =>
    simp only [slots_step] at h
    split_ifs at h with hf
    cases h
    exact hinv.file_locked hf
  | file_unlocked f =>
    simp only [slots_step] at h
    split_ifs at h with hf
    cases h
    exact hinv.access hf fun hop => by cases hop
  | release f =>
    simp only [slots_step] at h
    split_ifs at h with hf
    cases h
    exact hinv.release hf

/-- In every run of probes, removals, opens, closes and other operations on files, the
descriptors that the files of removed MNG_DEVs lead to are kept, and all operations on files get
to their own MNG_DEVs, exactly when no probe takes a slot that such a file still leads to. -/
theorem old_files_keep_mngdev (ops : List (slots_op P E)) :
    StatesMeet slots_step (fun s => PrivKept s ∧ AccessesOwn s) slots_init ops ↔
      StepsMeet slots_step TakesFreeSlot slots_init ops := by
  apply statesMeet_iff_stepsMeet (I := SlotsInv)
  · intro s hinv
    exact ⟨hinv.privKept, hinv.reached⟩
  · intro s a t hinv hfree h
    exact slotsInv_step hinv hfree h
  · intro s a t hinv htaken h hgood
    unfold TakesFreeSlot at htaken
    push Not at htaken
    obtain ⟨hprobe, id, hid, f, hf, rfl⟩ := htaken
    obtain ⟨pcidev, rfl⟩ | ⟨dev_data, rfl⟩ := hprobe
    · cases h
      exact start_probe_not_privKept hinv hf hid hgood.1
    · cases h
      exact start_probe_not_privKept hinv hf hid hgood.1
  · exact slotsInv_init

def first_slot : Fin MAX_PCI_MRF_DEVICES := ⟨0, by decide⟩

/-- A file of the first VIRT_DEV of the MNG_DEV at address 1. -/
def first_vdev_file : slot_file := ⟨⟨2, 1⟩, .vdev 0, 1, first_slot⟩

/-- Two devices, one after the other, while a VIRT_DEV of the first one is open. -/
def replug_while_open : List (slots_op Bool Unit) :=
  [.evrma_pci_probe false, .finish_probe first_slot (some 1), .mngdev_open first_slot ⟨1, 0⟩ true,
    .vdev_create first_slot 0, .vdev_open first_slot 0 first_vdev_file.inode true,
    .evrma_pci_remove false, .cleanup_slot first_slot,
    .evrma_pci_probe true, .finish_probe first_slot (some 2), .release first_vdev_file]

/-- The close of the VIRT_DEV gives back a reference of the second device. -/
theorem replug_while_open_fails :
    ¬ (∀ ops : List (slots_op Bool Unit),
      StatesMeet slots_step (fun s => PrivKept s ∧ AccessesOwn s) slots_init ops) := by
  intro hall
  have hbad : ∀ u : slots_state Bool Unit,
      decide (u.accesses = [⟨first_vdev_file, .release, some 2, true, 0⟩]) = true →
      ¬ (PrivKept u ∧ AccessesOwn u) := by
    rintro u hu ⟨_, hown⟩
    rw [decide_eq_true_eq] at hu
    cases (hown _ (hu ▸ List.mem_cons_self)).1
  exact not_statesMeet_of_last hbad (by decide +kernel) (hall replug_while_open)

end evrma.pci_evr
