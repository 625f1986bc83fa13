import Evrma.Lib.Account
import Evrma.PciEvr.Bar

namespace evrma.unwind

open evrma.lib evrma.pci_evr

inductive probe_item where
  | slot
  | pci_device
  | plx_region
  | plx_map
  | evr_region
  | evr_map
  | mngdev
deriving DecidableEq

abbrev probe_actions := List (Action probe_item)

/-- How the steps of the probe turn out, and the BARs of the device. -/
structure probe_steps where
  free_slot : Bool
  pci_enable_device : kernel_call
  bars : List pci_bar
  plx_request_mem_region : Bool
  plx_ioremap : Bool
  request_mem_region : Bool
  ioremap : Bool
  modac_mngdev_create : kernel_call

inductive clean_probe where
  | CLEAN_SLOT
  | CLEAN_PCI_ENABLE
  | CLEAN_REQUEST_MEM
  | CLEAN_PLX_STUFF
  | CLEAN_IOREMAP
  | CLEAN_MNG_DEV_CREATE
deriving DecidableEq

/-- The PLX chip is active where the pointer to its registers is not NULL. -/
structure plx_result where
  actions : probe_actions
  active : Bool

/-- `plx_bar` is negative where there is no PLX chip. -/
def evr_plx_init (o : probe_steps) (plx_bar : Int) : plx_result :=
  if 0 ≤ plx_bar then
    if o.plx_request_mem_region then
      if o.plx_ioremap then ⟨[.acquire .plx_region, .acquire .plx_map], true⟩
      else ⟨[.acquire .plx_region], false⟩
    else ⟨[], false⟩
  else ⟨[], false⟩

def evr_plx_fini (active : Bool) : probe_actions :=
  if active then [.release .plx_map, .release .plx_region] else []

/-- Without `pcidev` the device is an external one, which only has its slot and its MNG_DEV. -/
def cleanup_probe (pcidev plx_active : Bool) : clean_probe → probe_actions :=
  fall_through [
    (.CLEAN_MNG_DEV_CREATE, [.release .mngdev]),
    (.CLEAN_IOREMAP, if pcidev then [.release .evr_map] else []),
    (.CLEAN_REQUEST_MEM, if pcidev then [.release .evr_region] else []),
    (.CLEAN_PLX_STUFF, if pcidev then evr_plx_fini plx_active else []),
    (.CLEAN_PCI_ENABLE, if pcidev then [.release .pci_device] else []),
    (.CLEAN_SLOT, [.release .slot])]

structure probe_result where
  actions : probe_actions
  plx_active : Bool
  ret : Int

def finish_probe (o : probe_steps) (actions : probe_actions) (plx_active : Bool)
    (current_clean : clean_probe) : probe_result :=
  match o.modac_mngdev_create with
  | .error err => ⟨actions ++ cleanup_probe true plx_active current_clean, plx_active, err⟩
  | .ok () => ⟨actions ++ [.acquire .mngdev], plx_active, 0⟩

def enabled : probe_actions := [.acquire .slot, .acquire .pci_device]

/-- The probe once the PLX chip is set up. Without one the version of the firmware is read from
the card. -/
def probe_regions (o : probe_steps) (plx : plx_result) : probe_result :=
  let actions := enabled ++ plx.actions
  if o.request_mem_region = false then
    ⟨actions ++ cleanup_probe true plx.active .CLEAN_PLX_STUFF, plx.active, - ENXIO⟩
  else
    let actions := actions ++ [.acquire .evr_region]
    if o.ioremap = false then
      ⟨actions ++ cleanup_probe true plx.active .CLEAN_REQUEST_MEM, plx.active, - ENXIO⟩
    else
      let actions := actions ++ .acquire .evr_map ::
        (if plx.active then [] else [.use .evr_map])
      finish_probe o actions plx.active .CLEAN_IOREMAP

def evrma_pci_probe (o : probe_steps) : probe_result :=
  if o.free_slot = false then ⟨[], false, -EMFILE⟩
  else
    match o.pci_enable_device with
    | .error err => ⟨.acquire .slot :: cleanup_probe true false .CLEAN_SLOT, false, err⟩
    | .ok () =>
      let ev_device := probe_bars evr_bar_zero 0 o.bars
      if ev_device.length = 0 then
        ⟨enabled ++ cleanup_probe true false .CLEAN_PCI_ENABLE, false, - ENXIO⟩
      else probe_regions o (evr_plx_init o (if ev_device.bar = 2 then 0 else -1))

/-- The removal, with no file open that would keep the MNG_DEV. -/
def evrma_pci_remove (plx_active : Bool) : probe_actions :=
  cleanup_probe true plx_active .CLEAN_MNG_DEV_CREATE

/-- Of a result: a failure has released everything that was acquired, once and while it was
held, and a removal after a success does. Only `left` stays behind. -/
structure ReleasedBut (left : Finset probe_item) (r : probe_result) : Prop where
  failed : r.ret ≠ 0 → account ∅ r.actions = some left
  removed : r.ret = 0 → account ∅ (r.actions ++ evrma_pci_remove r.plx_active) = some left

def ProbeClean (o : probe_steps) : Prop := ReleasedBut ∅ (evrma_pci_probe o)

/-- The probe comes to a card with a PLX chip, gets the region of the chip and can't map it. -/
structure PlxMapFails (o : probe_steps) : Prop where
  slot : o.free_slot = true
  enabled : o.pci_enable_device = .ok ()
  found : (probe_bars evr_bar_zero 0 o.bars).length ≠ 0
  plx : (probe_bars evr_bar_zero 0 o.bars).bar = 2
  region : o.plx_request_mem_region = true
  map : o.plx_ioremap = false

section

variable {o : probe_steps} {left : Finset probe_item} {r : probe_result}

theorem releasedBut_of_failed (hret : r.ret ≠ 0) (haccount : account ∅ r.actions = some left) :
    ReleasedBut left r :=
  ⟨fun _ => haccount, fun hzero => absurd hzero hret⟩

theorem releasedBut_of_ok (hret : r.ret = 0)
    (haccount : account ∅ (r.actions ++ evrma_pci_remove r.plx_active) = some left) :
    ReleasedBut left r :=
  ⟨fun hfails => absurd hret hfails, fun _ => haccount⟩

/-- No result leaves two different sets behind. -/
theorem ReleasedBut.unique {left' : Finset probe_item} (h : ReleasedBut left r)
    (h' : ReleasedBut left' r) : left = left' := by
  by_cases hret : r.ret = 0
  · exact Option.some.inj ((h.removed hret).symm.trans (h'.removed hret))
  · exact Option.some.inj ((h.failed hret).symm.trans (h'.failed hret))

/-- What comes of the PLX chip, and what of it the clean-up leaves behind: the region, where the
chip could not be mapped. -/
def plx_outcomes : List (plx_result × Finset probe_item) :=
  [ (⟨[], false⟩, ∅),
    (⟨[.acquire .plx_region, .acquire .plx_map], true⟩, ∅),
    (⟨[.acquire .plx_region], false⟩, {.plx_region}) ]

theorem evr_plx_init_clean {plx_bar : Int}
    (h : ¬ (0 ≤ plx_bar ∧ o.plx_request_mem_region = true ∧ o.plx_ioremap = false)) :
    (evr_plx_init o plx_bar, ∅) ∈ plx_outcomes := by
  unfold evr_plx_init
  split_ifs with hplx hregion hmap
  · exact .tail _ (.head _)
  · exact absurd ⟨hplx, hregion, by simpa using hmap⟩ h
  · exact .head _
  · exact .head _

theorem evr_plx_init_left {plx_bar : Int} (hplx : 0 ≤ plx_bar)
    (hregion : o.plx_request_mem_region = true) (hmap : o.plx_ioremap = false) :
    (evr_plx_init o plx_bar, {.plx_region}) ∈ plx_outcomes := by
  unfold evr_plx_init
  rw [if_pos hplx, if_pos hregion, if_neg (by simp [hmap])]
  exact .tail _ (.tail _ (.head _))

theorem account_slot :
    account ∅ (.acquire .slot :: cleanup_probe true false .CLEAN_SLOT) = some ∅ := by
  decide

theorem account_plx_stuff : ∀ plx ∈ plx_outcomes,
    account ∅ (enabled ++ plx.1.actions ++ cleanup_probe true plx.1.active .CLEAN_PLX_STUFF) =
      some plx.2 := by
  decide

theorem account_request_mem : ∀ plx ∈ plx_outcomes,
    account ∅ (enabled ++ plx.1.actions ++ [.acquire .evr_region] ++
      cleanup_probe true plx.1.active .CLEAN_REQUEST_MEM) = some plx.2 := by
  decide

theorem account_ioremap : ∀ plx ∈ plx_outcomes,
    account ∅ (enabled ++ plx.1.actions ++ [.acquire .evr_region] ++
      (.acquire .evr_map :: if plx.1.active then [] else [.use .evr_map]) ++
      cleanup_probe true plx.1.active .CLEAN_IOREMAP) = some plx.2 := by
  decide

theorem account_remove : ∀ plx ∈ plx_outcomes,
    account ∅ (enabled ++ plx.1.actions ++ [.acquire .evr_region] ++
      (.acquire .evr_map :: if plx.1.active then [] else [.use .evr_map]) ++ [.acquire .mngdev] ++
      evrma_pci_remove plx.1.active) = some plx.2 := by
  decide

theorem probe_regions_releasedBut {plx : plx_result} (hplx : (plx, left) ∈ plx_outcomes) :
    ReleasedBut left (probe_regions o plx) := by
  unfold probe_regions
  dsimp only
  by_cases hregion : o.request_mem_region = false
  · rw [if_pos hregion]
    exact releasedBut_of_failed (by decide : - ENXIO ≠ 0) (account_plx_stuff _ hplx)
  rw [if_neg hregion]
  by_cases hmap : o.ioremap = false
  · rw [if_pos hmap]
    exact releasedBut_of_failed (by decide : - ENXIO ≠ 0) (account_request_mem _ hplx)
  rw [if_neg hmap, finish_probe]
  cases o.modac_mngdev_create with
  | error err =>
    have herr := err.property
    exact releasedBut_of_failed (show err.val ≠ 0 by omega) (account_ioremap _ hplx)
  | ok _ => exact releasedBut_of_ok rfl (account_remove _ hplx)

end

/-- The probe and the removal are clean unless the PLX chip can't be mapped: the clean-up takes a
chip without a mapping for one that is not there, and leaves its region. -/
theorem probe_clean_iff (o : probe_steps) : ProbeClean o ↔ ¬ PlxMapFails o := by
  unfold ProbeClean
  cases hslot : o.free_slot with
  | false =>
    refine iff_of_true ?_ fun h => by rw [h.slot] at hslot; cases hslot
    rw [evrma_pci_probe, if_pos hslot]
    exact releasedBut_of_failed (by decide : -EMFILE ≠ 0) rfl
  | true =>
    cases henable : o.pci_enable_device with
    | error err =>
      refine iff_of_true ?_ fun h => by rw [h.enabled] at henable; cases henable
      have herr := err.property
      rw [evrma_pci_probe, if_neg (by simp [hslot]), henable]
      exact releasedBut_of_failed (show err.val ≠ 0 by omega) account_slot
    | ok _ =>
      by_cases hfound : (probe_bars evr_bar_zero 0 o.bars).length = 0
      · refine iff_of_true ?_ fun h => h.found hfound
        rw [evrma_pci_probe, if_neg (by simp [hslot]), henable]
        dsimp only
        rw [if_pos hfound]
        exact releasedBut_of_failed (by decide : - ENXIO ≠ 0) (by decide)
      · have hprobe : evrma_pci_probe o = probe_regions o (evr_plx_init o
            (if (probe_bars evr_bar_zero 0 o.bars).bar = 2 then 0 else -1)) := by
          rw [evrma_pci_probe, if_neg (by simp [hslot]), henable]
          dsimp only
          rw [if_neg hfound]
        rw [hprobe]
        by_cases hplx : PlxMapFails o
        · refine iff_of_false (fun hclean => ?_) (not_not_intro hplx)
          have hleft := hclean.unique (probe_regions_releasedBut
            (evr_plx_init_left (by rw [if_pos hplx.plx]) hplx.region hplx.map))
          exact Finset.singleton_ne_empty _ hleft.symm
        · refine iff_of_true (probe_regions_releasedBut (evr_plx_init_clean ?_)) hplx
          rintro ⟨hbar, hregion, hmap⟩
          apply hplx
          refine ⟨hslot, henable, hfound, ?_, hregion, hmap⟩
          by_contra hne
          rw [if_neg hne] at hbar
          cases hbar

/-- The EVR on BAR 2, and a PLX chip on BAR 0 that can't be mapped; all else succeeds. -/
def plx_map_fails : probe_steps where
  free_slot := true
  pci_enable_device := .ok ()
  bars := [⟨0xf0000000, 0xf000007f⟩, ⟨0, 0⟩, ⟨0xf0010000, 0xf001ffff⟩]
  plx_request_mem_region := true
  plx_ioremap := false
  request_mem_region := true
  ioremap := true
  modac_mngdev_create := .ok ()

theorem plx_region_left_behind : ¬ ProbeClean plx_map_fails := by
  intro hclean
  have hleft : account ∅ ((evrma_pci_probe plx_map_fails).actions ++
      evrma_pci_remove (evrma_pci_probe plx_map_fails).plx_active) = some {.plx_region} := by
    decide +kernel
  have hremoved := hclean.removed (by decide +kernel)
  rw [hleft] at hremoved
  exact Finset.singleton_ne_empty _ (Option.some.inj hremoved)

end evrma.unwind
