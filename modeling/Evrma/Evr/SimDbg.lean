import Evrma.Lib.Hex

namespace evrma.evr

open evrma.lib

/-- The events that the simulation can be told to put. -/
inductive sim_event where
  | put_event (event : Int) (data : List (BitVec 8))
  | notify (event : Int)
deriving DecidableEq

/-- `none` stands for -1. The index is behind the character, also where it is no digit. -/
def extract_hex4 (buf : List (BitVec 8)) (i : Nat) : Option Nat × Nat :=
  match buf[i]? with
  | none => (none, i)
  | some v => (hex_digit v, i + 1)

def extract_hex8 (buf : List (BitVec 8)) (i : Nat) : Option Nat × Nat :=
  match extract_hex4 buf i with
  | (none, i) => (none, i)
  | (some h, i) =>
    match extract_hex4 buf i with
    | (none, i) => (none, i)
    | (some l, i) => (some ((h <<< 4) ||| l), i)

def extract_hex12 (buf : List (BitVec 8)) (i : Nat) : Option Nat × Nat :=
  match extract_hex4 buf i with
  | (none, i) => (none, i)
  | (some hh, i) =>
    match extract_hex4 buf i with
    | (none, i) => (none, i)
    | (some h, i) =>
      match extract_hex4 buf i with
      | (none, i) => (none, i)
      | (some l, i) => (some ((hh <<< 8) ||| (h <<< 4) ||| l), i)

/-- The loop over the bytes of the data, which ends where there is no byte. -/
def extract_data (buf : List (BitVec 8)) : (bound i : Nat) → List (BitVec 8)
  | 0, _ => []
  | bound + 1, i =>
    match extract_hex8 buf i with
    | (none, _) => []
    | (some v, i) => BitVec.ofNat 8 v :: extract_data buf bound i

/-- 'i' -/
abbrev DBG_EVENT : BitVec 8 := 0x69

/-- 'n' -/
abbrev DBG_NOTIFY : BitVec 8 := 0x6e

/-- The call that the text leads to. What is returned is the length of the text in any case. -/
def evr_sim_dbg (buf : List (BitVec 8)) : Option sim_event :=
  match buf[0]? with
  | none => none
  | some cmd =>
    if cmd = DBG_EVENT then
      match extract_hex8 buf 1 with
      | (none, _) => none
      | (some code, i) => some (.put_event code (extract_data buf 16 i))
    else if cmd = DBG_NOTIFY then
      match extract_hex12 buf 1 with
      | (none, _) => none
      | (some code, _) => some (.notify code)
    else none

/-- The texts of the events. The data are all bytes that follow, but 16 at most; anything may
stand after them. -/
inductive DbgText : List (BitVec 8) → sim_event → Prop where
  | put_event (h l : BitVec 8) (code : Nat) (data_text rest data : List (BitVec 8))
      (hcode : hex_number [h, l] = some code) (hdata : hex_bytes data_text = some data)
      (hend : data.length = 16 ∨ data.length < 16 ∧ begins_byte rest = false) :
      DbgText (DBG_EVENT :: h :: l :: (data_text ++ rest)) (.put_event code data)
  | notify (hh h l : BitVec 8) (code : Nat) (rest : List (BitVec 8))
      (hcode : hex_number [hh, h, l] = some code) :
      DbgText (DBG_NOTIFY :: hh :: h :: l :: rest) (.notify code)

section

variable {buf cs : List (BitVec 8)} {i : Nat} {c h l : BitVec 8}

theorem extract_hex4_end (hdrop : buf.drop i = []) : extract_hex4 buf i = (none, i) := by
  rw [extract_hex4, List.getElem?_eq_none (List.drop_eq_nil_iff.mp hdrop)]

theorem extract_hex4_cons (hdrop : buf.drop i = c :: cs) :
    extract_hex4 buf i = (hex_digit c, i + 1) := by
  have hget : buf[i]? = some c := by
    rw [← List.head?_drop, hdrop, List.head?_cons]
  rw [extract_hex4, hget]

theorem drop_succ_of_cons (hdrop : buf.drop i = c :: cs) : buf.drop (i + 1) = cs := by
  rw [← List.tail_drop, hdrop, List.tail_cons]

/-- Two digits, and the index behind them. -/
theorem extract_hex8_some (hdrop : buf.drop i = h :: l :: cs) {b : Nat}
    (hb : hex_number [h, l] = some b) : extract_hex8 buf i = (some b, i + 2) := by
  rw [hex_number_pair, Option.bind_eq_some_iff] at hb
  obtain ⟨n, hn, hmap⟩ := hb
  obtain ⟨d, hd, rfl⟩ := Option.map_eq_some_iff.mp hmap
  rw [extract_hex8, extract_hex4_cons hdrop, hn]
  dsimp only
  rw [extract_hex4_cons (drop_succ_of_cons hdrop), hd]

/-- There are no two digits. -/
theorem extract_hex8_none (hnot : begins_byte (buf.drop i) = false) :
    (extract_hex8 buf i).1 = none := by
  rw [extract_hex8]
  match hdrop : buf.drop i with
  | [] => rw [extract_hex4_end hdrop]
  | [c] =>
    rw [extract_hex4_cons hdrop]
    cases hex_digit c with
    | none => rfl
    | some n =>
      dsimp only
      rw [extract_hex4_end (drop_succ_of_cons hdrop)]
  | h :: l :: cs =>
    rw [hdrop, begins_byte, hex_number_pair] at hnot
    rw [extract_hex4_cons hdrop]
    cases hn : hex_digit h with
    | none => rfl
    | some n =>
      dsimp only
      rw [extract_hex4_cons (drop_succ_of_cons hdrop)]
      cases hd : hex_digit l with
      | none => rfl
      | some d =>
        rw [hn, hd] at hnot
        cases hnot

theorem begins_byte_cases (text : List (BitVec 8)) :
    begins_byte text = false ∨
      ∃ h l b cs, text = h :: l :: cs ∧ hex_number [h, l] = some b := by
  match text with
  | [] => exact .inl rfl
  | [_] => exact .inl rfl
  | h :: l :: cs =>
    cases hb : hex_number [h, l] with
    | none => exact .inl (by rw [begins_byte, hb]; rfl)
    | some b => exact .inr ⟨h, l, b, cs, rfl, hb⟩

/-- The loop takes as many bytes as there are, up to its bound. -/
theorem extract_data_iff (buf : List (BitVec 8)) (bound i : Nat) (data : List (BitVec 8)) :
    extract_data buf bound i = data ↔ ∃ data_text rest, buf.drop i = data_text ++ rest ∧
      hex_bytes data_text = some data ∧
      (data.length = bound ∨ data.length < bound ∧ begins_byte rest = false) := by
  induction bound generalizing i data with
  | zero =>
    rw [extract_data]
    constructor
    · rintro rfl
      exact ⟨[], buf.drop i, rfl, rfl, .inl rfl⟩
    · rintro ⟨data_text, rest, -, -, hlen | ⟨hlen, -⟩⟩
      · exact (List.length_eq_zero_iff.mp hlen).symm
      · exact absurd hlen (Nat.not_lt_zero _)
  | succ bound ih =>
    obtain hnot | ⟨h, l, b, cs, hdrop, hb⟩ := begins_byte_cases (buf.drop i)
    · have hempty : extract_data buf (bound + 1) i = [] := by
        have hnone := extract_hex8_none hnot
        rw [extract_data]
        generalize extract_hex8 buf i = next at hnone ⊢
        obtain ⟨v, j⟩ := next
        obtain rfl : v = none := hnone
        rfl
      rw [hempty]
      constructor
      · rintro rfl
        exact ⟨[], buf.drop i, rfl, rfl, .inr ⟨Nat.succ_pos bound, hnot⟩⟩
      · rintro ⟨data_text, rest, hdrop, hbytes, -⟩
        by_contra hdata
        rw [hdrop, hex_bytes_begins hbytes (Ne.symm hdata)] at hnot
        cases hnot
    · have hrest : buf.drop (i + 2) = cs := by
        rw [← List.drop_drop, hdrop]
        rfl
      rw [extract_data, extract_hex8_some hdrop hb]
      dsimp only
      constructor
      · rintro rfl
        obtain ⟨data_text, rest, hdrop', hbytes, hend⟩ := (ih (i + 2) _).mp rfl
        refine ⟨h :: l :: data_text, rest, ?_,
          hex_bytes_cons_eq_some.mpr ⟨b, _, hb, hbytes, rfl⟩, ?_⟩
        · rw [hdrop, List.cons_append, List.cons_append, ← hdrop', hrest]
        · rw [List.length_cons]
          exact hend.imp (congrArg Nat.succ) (And.imp_left Nat.succ_lt_succ)
      · rintro ⟨data_text, rest, hdrop', hbytes, hend⟩
        rw [hdrop] at hdrop'
        obtain - | ⟨h', - | ⟨l', data_text⟩⟩ := data_text
        · obtain rfl := Option.some.inj hbytes
          rw [List.nil_append] at hdrop'
          obtain hlen | ⟨-, hnot⟩ := hend
          · cases hlen
          · rw [← hdrop', begins_byte, hb] at hnot
            cases hnot
        · cases hbytes
        · obtain ⟨b', data', hb', hbytes', rfl⟩ := hex_bytes_cons_eq_some.mp hbytes
          obtain ⟨rfl, htail⟩ := List.cons.inj hdrop'
          obtain ⟨rfl, rfl⟩ := List.cons.inj htail
          obtain rfl := Option.some.inj (hb.symm.trans hb')
          rw [List.length_cons] at hend
          have htail := (ih (i + 2) data').mpr ⟨data_text, rest, hrest, hbytes',
            hend.imp Nat.succ.inj (And.imp_left Nat.lt_of_succ_lt_succ)⟩
          rw [htail]

/-- Three digits. -/
theorem extract_hex12_iff (code : Nat) :
    (extract_hex12 buf i).1 = some code ↔ ∃ hh h l rest, buf.drop i = hh :: h :: l :: rest ∧
      hex_number [hh, h, l] = some code := by
  rw [extract_hex12]
  match hdrop : buf.drop i with
  | [] =>
    rw [extract_hex4_end hdrop]
    simp
  | c :: cs =>
    have hdrop₁ := drop_succ_of_cons hdrop
    rw [extract_hex4_cons hdrop]
    match cs, hdrop₁ with
    | [], hdrop₁ =>
      cases hex_digit c with
      | none => simp
      | some n =>
        dsimp only
        rw [extract_hex4_end hdrop₁]
        simp
    | c' :: cs, hdrop₁ =>
      have hdrop₂ := drop_succ_of_cons hdrop₁
      match cs, hdrop₂ with
      | [], hdrop₂ =>
        cases hex_digit c with
        | none => simp
        | some n =>
          dsimp only
          rw [extract_hex4_cons hdrop₁]
          cases hex_digit c' with
          | none => simp
          | some k =>
            dsimp only
            rw [extract_hex4_end hdrop₂]
            simp
      | c'' :: cs, hdrop₂ =>
        have hiff : (∃ hh h l rest, c :: c' :: c'' :: cs = hh :: h :: l :: rest ∧
            hex_number [hh, h, l] = some code) ↔ hex_number [c, c', c''] = some code := by
          constructor
          · rintro ⟨hh, h, l, rest, heq, hcode⟩
            simp only [List.cons.injEq] at heq
            obtain ⟨rfl, rfl, rfl, -⟩ := heq
            exact hcode
          · exact fun hcode => ⟨c, c', c'', cs, rfl, hcode⟩
        rw [hiff, hex_number_triple]
        cases hex_digit c with
        | none => rfl
        | some n =>
          dsimp only
          rw [extract_hex4_cons hdrop₁]
          cases hex_digit c' with
          | none => rfl
          | some k =>
            dsimp only
            rw [extract_hex4_cons hdrop₂]
            cases hex_digit c'' with
            | none => rfl
            | some d => rfl

/-- A text that begins with an 'i'. -/
theorem evr_sim_dbg_event (cs : List (BitVec 8)) (e : sim_event) :
    evr_sim_dbg (DBG_EVENT :: cs) = some e ↔ DbgText (DBG_EVENT :: cs) e := by
  have hdrop : (DBG_EVENT :: cs).drop 1 = cs := rfl
  rw [evr_sim_dbg]
  simp only [List.getElem?_cons_zero, if_pos]
  constructor
  · intro h
    obtain hnot | ⟨d, d', code, rest, rfl, hcode⟩ := begins_byte_cases cs
    · have hnone := @extract_hex8_none (DBG_EVENT :: cs) 1 hnot
      generalize extract_hex8 (DBG_EVENT :: cs) 1 = next at h hnone
      obtain ⟨v, j⟩ := next
      obtain rfl : v = none := hnone
      cases h
    · rw [extract_hex8_some hdrop hcode] at h
      obtain rfl := Option.some.inj h
      obtain ⟨data_text, rest', hrest, hbytes, hend⟩ :=
        (extract_data_iff (DBG_EVENT :: d :: d' :: rest) 16 3 _).mp rfl
      obtain rfl : rest = data_text ++ rest' := hrest
      exact .put_event d d' code data_text rest' _ hcode hbytes hend
  · intro h
    cases h with
    | put_event d d' code data_text rest data hcode hdata hend =>
      rw [extract_hex8_some hdrop hcode]
      dsimp only
      rw [(extract_data_iff _ 16 3 data).mpr ⟨data_text, rest, rfl, hdata, hend⟩]

/-- A text that begins with an 'n'. -/
theorem evr_sim_dbg_notify (cs : List (BitVec 8)) (e : sim_event) :
    evr_sim_dbg (DBG_NOTIFY :: cs) = some e ↔ DbgText (DBG_NOTIFY :: cs) e := by
  have hne : ¬ DBG_NOTIFY = DBG_EVENT := by decide
  have hiff := fun code => @extract_hex12_iff (DBG_NOTIFY :: cs) 1 code
  rw [evr_sim_dbg]
  simp only [List.getElem?_cons_zero, if_neg hne, if_pos]
  generalize extract_hex12 (DBG_NOTIFY :: cs) 1 = next at hiff ⊢
  obtain ⟨v, j⟩ := next
  constructor
  · intro h
    cases v with
    | none => cases h
    | some code =>
      obtain rfl := Option.some.inj h
      obtain ⟨hh, d, d', rest, hrest, hcode⟩ := (hiff code).mp rfl
      obtain rfl : cs = hh :: d :: d' :: rest := hrest
      exact .notify hh d d' code rest hcode
  · intro h
    cases h with
    | notify hh d d' code rest hcode =>
      obtain rfl : v = some code := (hiff code).mpr ⟨hh, d, d', rest, rfl, hcode⟩
      rfl

end

/-- The simulation understands exactly the texts of the events, with digits of either case, and
nothing else makes it put an event. -/
theorem evr_sim_dbg_iff (buf : List (BitVec 8)) (e : sim_event) :
    evr_sim_dbg buf = some e ↔ DbgText buf e := by
  match buf with
  | [] =>
    constructor
    · intro h
      cases h
    · intro h
      cases h
  | cmd :: cs =>
    by_cases hevent : cmd = DBG_EVENT
    · rw [hevent]
      exact evr_sim_dbg_event cs e
    · by_cases hnotify : cmd = DBG_NOTIFY
      · rw [hnotify]
        exact evr_sim_dbg_notify cs e
      · have hnone : evr_sim_dbg (cmd :: cs) = none := by
          rw [evr_sim_dbg]
          simp only [List.getElem?_cons_zero, if_neg hevent, if_neg hnotify]
        rw [hnone]
        constructor
        · intro h
          cases h
        · intro h
          cases h with
          | put_event => exact absurd rfl hevent
          | notify => exact absurd rfl hnotify

end evrma.evr
