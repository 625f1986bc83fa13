import Mathlib.Algebra.Order.Ring.Nat

namespace evrma.lib

/-- The value of a digit, of either case. -/
def hex_digit (c : BitVec 8) : Option Nat :=
  if 0x30 ≤ c ∧ c ≤ 0x39 then some (c.toNat - 0x30)
  else if 0x41 ≤ c ∧ c ≤ 0x46 then some (c.toNat - 0x41 + 10)
  else if 0x61 ≤ c ∧ c ≤ 0x66 then some (c.toNat - 0x61 + 10)
  else none

/-- The number after one more digit. -/
def hex_append (n : Option Nat) (c : BitVec 8) : Option Nat :=
  n.bind fun n => (hex_digit c).map fun d => 16 * n + d

/-- The number that all these characters are the digits of, the most significant one first. -/
def hex_number (cs : List (BitVec 8)) : Option Nat := cs.foldl hex_append (some 0)

/-- The bytes that are written one after the other, with two digits each. -/
def hex_bytes : List (BitVec 8) → Option (List (BitVec 8))
  | [] => some []
  | [_] => none
  | h :: l :: cs =>
    (hex_number [h, l]).bind fun b => (hex_bytes cs).map fun bs => BitVec.ofNat 8 b :: bs

/-- The text begins with the two digits of a byte. -/
def begins_byte : List (BitVec 8) → Bool
  | h :: l :: _ => (hex_number [h, l]).isSome
  | _ => false

theorem hex_digit_lt {c : BitVec 8} {d : Nat} (h : hex_digit c = some d) : d < 16 := by
  unfold hex_digit at h
  simp only [BitVec.le_def, BitVec.reduceToNat] at h
  split_ifs at h
  · obtain rfl := Option.some.inj h
    omega
  · obtain rfl := Option.some.inj h
    omega
  · obtain rfl := Option.some.inj h
    omega

/-- The digits are shifted to their places and joined. -/
theorem hex_append_eq_lor {n d : Nat} (hd : d < 16) : 16 * n + d = (n <<< 4) ||| d := by
  rw [← Nat.shiftLeft_add_eq_or_of_lt (show d < 2 ^ 4 from hd), Nat.shiftLeft_eq, Nat.mul_comm]

/-- Two digits, as shifts and joins. -/
theorem hex_number_pair (h l : BitVec 8) :
    hex_number [h, l] = (hex_digit h).bind fun h => (hex_digit l).map fun l => (h <<< 4) ||| l := by
  have hfirst : hex_number [h, l] = hex_append ((hex_digit h).map fun d => 16 * 0 + d) l := rfl
  rw [hfirst, hex_append]
  cases hex_digit h with
  | none => rfl
  | some n =>
    cases hl : hex_digit l with
    | none => rfl
    | some d =>
      simp only [Option.map_some, Option.bind_some, Nat.mul_zero, Nat.zero_add,
        hex_append_eq_lor (hex_digit_lt hl)]

/-- Three digits, as shifts and joins. -/
theorem hex_number_triple (hh h l : BitVec 8) :
    hex_number [hh, h, l] = (hex_digit hh).bind fun hh => (hex_digit h).bind fun h =>
      (hex_digit l).map fun l => (hh <<< 8) ||| (h <<< 4) ||| l := by
  have hlast : hex_number [hh, h, l] = hex_append (hex_number [hh, h]) l := rfl
  rw [hlast, hex_number_pair, hex_append]
  cases hex_digit hh with
  | none => rfl
  | some n =>
    cases hex_digit h with
    | none => rfl
    | some k =>
      cases hl : hex_digit l with
      | none => rfl
      | some d =>
        simp only [Option.map_some, Option.bind_some, hex_append_eq_lor (hex_digit_lt hl),
          Nat.shiftLeft_or_distrib, ← Nat.shiftLeft_add]

theorem hex_bytes_cons_eq_some {h l : BitVec 8} {cs bs : List (BitVec 8)} :
    hex_bytes (h :: l :: cs) = some bs ↔ ∃ b bs', hex_number [h, l] = some b ∧
      hex_bytes cs = some bs' ∧ bs = BitVec.ofNat 8 b :: bs' := by
  rw [hex_bytes, Option.bind_eq_some_iff]
  constructor
  · rintro ⟨b, hb, hmap⟩
    obtain ⟨bs', hbs, rfl⟩ := Option.map_eq_some_iff.mp hmap
    exact ⟨b, bs', hb, hbs, rfl⟩
  · rintro ⟨b, bs', hb, hbs, rfl⟩
    exact ⟨b, hb, by rw [hbs, Option.map_some]⟩

/-- A text that does not begin with a byte has no bytes, but the empty one may be there. -/
theorem hex_bytes_begins {cs rest bs : List (BitVec 8)} (h : hex_bytes cs = some bs)
    (hbs : bs ≠ []) : begins_byte (cs ++ rest) = true := by
  match cs, h with
  | [], h => exact absurd (Option.some.inj h).symm hbs
  | h :: l :: cs, heq =>
    obtain ⟨b, bs', hb, -, -⟩ := hex_bytes_cons_eq_some.mp heq
    rw [List.cons_append, List.cons_append, begins_byte, hb]
    rfl

end evrma.lib
