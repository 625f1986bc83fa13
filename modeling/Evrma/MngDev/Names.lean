import Evrma.MngDev.Effect
import Mathlib.Data.List.TakeWhile

namespace evrma.ioctl

variable {l : List (BitVec 8)}

theorem isPrefix_c_string (l : List (BitVec 8)) : c_string l <+: l :=
  List.takeWhile_prefix _

theorem c_string_append_zero {l : List (BitVec 8)} (hl : ∀ c ∈ l, c ≠ 0) (n : Nat) :
    c_string (l ++ List.replicate n 0) = l := by
  rw [c_string, List.takeWhile_append_of_pos (by simpa using hl)]
  cases n with
  | zero => simp
  | succ n => simp [List.replicate_succ]

theorem ne_zero_of_mem_c_string {c : BitVec 8} (hc : c ∈ c_string l) : c ≠ 0 := by
  simpa using List.mem_takeWhile_imp hc

/-- A field has a terminating zero where its string is shorter than the field. -/
theorem zero_mem_iff_c_string_length : 0 ∈ l ↔ (c_string l).length < l.length := by
  have hle := (isPrefix_c_string l).length_le
  constructor
  · intro hzero
    by_contra hlt
    have hall := (isPrefix_c_string l).eq_of_length (by omega)
    rw [← hall] at hzero
    exact ne_zero_of_mem_c_string hzero rfl
  · intro hlt
    by_contra hzero
    have hall : c_string l = l := by
      rw [c_string, List.takeWhile_eq_self_iff]
      intro c hc
      simpa using fun h : c = 0 => hzero (h ▸ hc)
    rw [hall] at hlt
    exact Nat.lt_irrefl _ hlt

theorem strncpy_toList (src : name_field) :
    (strncpy src).toList =
      c_string src.toList ++
        List.replicate (MODAC_ID_MAX_NAME + 1 - (c_string src.toList).length) 0 := by
  have hprefix := isPrefix_c_string src.toList
  have hle : (c_string src.toList).length ≤ MODAC_ID_MAX_NAME + 1 := by
    simpa using hprefix.length_le
  apply List.ext_getElem
  · simp only [Vector.length_toList, List.length_append, List.length_replicate]
    omega
  · intro i h1 h2
    rw [List.getElem_append]
    by_cases hi : i < (c_string src.toList).length
    · rw [dif_pos hi, hprefix.getElem hi]
      simp [strncpy, hi]
    · rw [dif_neg hi]
      simp [strncpy, hi]

/-- The copy has the string of the source. -/
@[simp]
theorem c_string_strncpy (src : name_field) :
    c_string (strncpy src).toList = c_string src.toList := by
  rw [strncpy_toList, c_string_append_zero fun c hc => ne_zero_of_mem_c_string hc]

/-- The copy is terminated where the source is. -/
theorem zero_mem_strncpy {src : name_field} :
    0 ∈ (strncpy src).toList ↔ 0 ∈ src.toList := by
  rw [zero_mem_iff_c_string_length, zero_mem_iff_c_string_length, c_string_strncpy]
  simp

theorem strings_equal_iff {s1 s2 : List (BitVec 8)} :
    STRINGS_EQUAL s1 s2 = true ↔ c_string s1 = c_string s2 := by
  simp [STRINGS_EQUAL]

end evrma.ioctl

namespace evrma.mng_dev

open evrma.ioctl evrma.virt_dev

variable {H : Type} {m : mngdev_data H} {name : name_field} {v : modac_vdev_des}

/-- The name of a VIRT_DEV as a string. -/
def vdev_name (v : modac_vdev_des) : List (BitVec 8) := c_string v.name.toList

theorem list_find_vdev_by_name_eq_none :
    list_find_vdev_by_name m name = none ↔
      ∀ v ∈ m.vdev_list, vdev_name v ≠ c_string name.toList := by
  simp [list_find_vdev_by_name, STRINGS_EQUAL, vdev_name]

/-- Only the strings of the fields are compared. -/
theorem list_find_vdev_by_name_congr {name' : name_field}
    (h : c_string name.toList = c_string name'.toList) :
    list_find_vdev_by_name m name = list_find_vdev_by_name m name' := by
  unfold list_find_vdev_by_name STRINGS_EQUAL
  rw [h]

theorem list_find_vdev_by_name_mem (h : list_find_vdev_by_name m name = some v) :
    v ∈ m.vdev_list ∧ vdev_name v = c_string name.toList := by
  unfold list_find_vdev_by_name at h
  have hequal := List.find?_some h
  exact ⟨List.mem_of_find?_eq_some h, strings_equal_iff.mp hequal⟩

end evrma.mng_dev
