import Mathlib.Algebra.Group.Nat.Defs
import Evrma.MngDev.Ioctl

namespace evrma.pci_evr

open evrma.mng_dev

/-- `pci_resource_start` and `pci_resource_end` -/
structure pci_bar where
  start : BitVec 64
  last : BitVec 64

/-- The fields of `pci_mrf_data` about the BAR of the EVR, zero in a new slot. -/
structure evr_bar where
  bar : Nat
  start : BitVec 64
  last : BitVec 64
  length : BitVec 64

def evr_bar_zero : evr_bar := ⟨0, 0, 0, 0⟩

/-- One round of the search; the first BAR of at least 32k is kept. -/
def probe_bar (ev_device : evr_bar) (bar : Nat) (r : pci_bar) : evr_bar :=
  if r.start ≠ 0 then
    let length := r.last - r.start + 1
    if 0x8000 ≤ length ∧ ev_device.length = 0 then ⟨bar, r.start, r.last, length⟩
    else ev_device
  else ev_device

/-- The search from a BAR on; its result is of no use with the length 0. -/
def probe_bars (ev_device : evr_bar) : (bar : Nat) → List pci_bar → evr_bar
  | _, [] => ev_device
  | bar, r :: rest => probe_bars (probe_bar ev_device bar r) (bar + 1) rest

abbrev PAGE_SHIFT : Nat := 12

/-- What `finish_probe` tells the MNG_DEV of the BAR. The physical address is kept in 32 bits. -/
def finish_probe_des (ev_device : evr_bar) (des : modac_mngdev_des) : modac_mngdev_des :=
  { des with
    io_start_phys := (ev_device.start.setWidth 32).toNat
    io_size := ev_device.length.toNat }

/-- The part of the address space of the process that is to be mapped. -/
structure vm_area where
  vm_start : BitVec 64
  vm_end : BitVec 64
  vm_pgoff : BitVec 64

def vm_area.offset (vma : vm_area) : Nat := (vma.vm_pgoff <<< PAGE_SHIFT).toNat

def vm_area.vsize (vma : vm_area) : Nat := (vma.vm_end - vma.vm_start).toNat

/-- The physical addresses that `io_remap_pfn_range` maps, page after page. -/
def mapped (des : modac_mngdev_des) (vma : vm_area) : Set Nat :=
  let physical := des.io_start_phys >>> PAGE_SHIFT <<< PAGE_SHIFT
  {a | physical ≤ a ∧ a < physical + vma.vsize}

def evr_bar.addresses (ev_device : evr_bar) : Set Nat :=
  {a | ev_device.start.toNat ≤ a ∧ a < ev_device.start.toNat + ev_device.length.toNat}

/-- A page boundary is its own page. -/
theorem page_of_aligned {a : Nat} (ha : a % 2 ^ PAGE_SHIFT = 0) :
    a >>> PAGE_SHIFT <<< PAGE_SHIFT = a := by
  rw [Nat.shiftRight_eq_div_pow, Nat.shiftLeft_eq]
  exact Nat.div_mul_cancel (Nat.dvd_of_mod_eq_zero ha)

/-- A mapping that succeeds starts at the address in 32 bits, and is no longer than the BAR. -/
theorem mngdev_mmap_ok {H : Type} {m : mngdev_data H} {offset vsize : Nat} {remap : Bool}
    (h : mngdev_mmap m offset vsize remap = 0) : vsize ≤ m.des.io_size := by
  unfold mngdev_mmap at h
  split_ifs at h with href hsize
  · cases h
  · cases h
  · cases h
  · exact Nat.not_lt.mp hsize
  · cases h

/-- What is mapped lies in the BAR exactly where the BAR starts below 4 GB. -/
theorem mmap_inside_bar_iff {H : Type} {m : mngdev_data H} {des : modac_mngdev_des}
    (bars : List pci_bar)
    (hpage : (probe_bars evr_bar_zero 0 bars).start.toNat % 2 ^ PAGE_SHIFT = 0)
    (hdes : m.des = finish_probe_des (probe_bars evr_bar_zero 0 bars) des) (vma : vm_area)
    (hvsize : 0 < vma.vsize) (remap : Bool)
    (hmmap : mngdev_mmap m vma.offset vma.vsize remap = 0) :
    mapped m.des vma ⊆ (probe_bars evr_bar_zero 0 bars).addresses ↔
      (probe_bars evr_bar_zero 0 bars).start.toNat < 2 ^ 32 := by
  have hsize := mngdev_mmap_ok hmmap
  rw [hdes] at hsize ⊢
  generalize probe_bars evr_bar_zero 0 bars = ev_device at hpage hsize ⊢
  have hphysical : (finish_probe_des ev_device des).io_start_phys =
      ev_device.start.toNat % 2 ^ 32 := BitVec.toNat_setWidth _ _
  have haligned : ev_device.start.toNat % 2 ^ 32 % 2 ^ PAGE_SHIFT = 0 := by
    rw [PAGE_SHIFT] at hpage ⊢
    omega
  have hlength : (finish_probe_des ev_device des).io_size = ev_device.length.toNat := rfl
  constructor
  · intro hsub
    have hfirst : ev_device.start.toNat % 2 ^ 32 ∈ mapped (finish_probe_des ev_device des) vma := by
      rw [mapped, hphysical, page_of_aligned haligned]
      exact ⟨Nat.le_refl _, by omega⟩
    obtain ⟨hge, -⟩ := hsub hfirst
    omega
  · rintro hlt a ha
    rw [mapped, hphysical, page_of_aligned haligned, Nat.mod_eq_of_lt hlt] at ha
    obtain ⟨hge, hend⟩ := ha
    exact ⟨hge, by omega⟩

/-- A card with its 256 kB at `start`. -/
def bar_at (start : BitVec 64) : List pci_bar := [⟨start, start + 0x3ffff⟩]

def mngdev_of_bar (start : BitVec 64) : mngdev_data Unit :=
  init_dev (finish_probe_des (probe_bars evr_bar_zero 0 (bar_at start)) first_mngdev) ()
    no_resources

def first_page : vm_area := ⟨0x7f0000000000, 0x7f0000001000, 0⟩

theorem mmap_inside_bar_low :
    mapped (mngdev_of_bar 0xf0000000).des first_page ⊆
        (probe_bars evr_bar_zero 0 (bar_at 0xf0000000)).addresses ↔
      (probe_bars evr_bar_zero 0 (bar_at 0xf0000000)).start.toNat < 2 ^ 32 :=
  mmap_inside_bar_iff (m := mngdev_of_bar 0xf0000000) (bar_at 0xf0000000) (by decide) rfl
    first_page (by decide) true (by decide)

/-- A card at 4 GB: the first page that is mapped is the page 0. -/
theorem mmap_outside_bar :
    mngdev_mmap (mngdev_of_bar 0x100000000) first_page.offset first_page.vsize true = 0 ∧
    ¬ mapped (mngdev_of_bar 0x100000000).des first_page ⊆
      (probe_bars evr_bar_zero 0 (bar_at 0x100000000)).addresses := by
  refine ⟨by decide, fun hsub => ?_⟩
  have hzero : 0 ∈ mapped (mngdev_of_bar 0x100000000).des first_page :=
    ⟨by decide, by decide⟩
  obtain ⟨hge, -⟩ := hsub hzero
  exact absurd hge (by decide)

end evrma.pci_evr
