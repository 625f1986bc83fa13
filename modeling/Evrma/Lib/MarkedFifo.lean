import Mathlib.Data.List.Basic
import Mathlib.Tactic.Common

namespace evrma.lib

/-- One entry of the queue: a value that was put, or the mark of a gap. -/
inductive Item (β : Type*) where
  | own (b : β)
  | overflow
deriving DecidableEq

/-- Everything that was ever appended, oldest first, and how many of these
entries the reader has taken. -/
structure MarkedFifo (β : Type*) where
  appended : List (Item β)
  taken : Nat

namespace MarkedFifo

variable {β : Type*}

def empty : MarkedFifo β := ⟨[], 0⟩

def pending (f : MarkedFifo β) : List (Item β) := f.appended.drop f.taken

def delivered (f : MarkedFifo β) : List (Item β) := f.appended.take f.taken

/-- The last appended entry is a mark. -/
def marked (f : MarkedFifo β) : Bool :=
  match f.appended.getLast? with
  | some .overflow => true
  | _ => false

def append (f : MarkedFifo β) (x : Item β) : MarkedFifo β :=
  { f with appended := f.appended ++ [x] }

/-- A value goes in while two places are free; with one place left a mark goes in
instead, unless the last entry is one already. -/
def put (capacity : Nat) (f : MarkedFifo β) (b : β) : MarkedFifo β :=
  if 2 ≤ capacity - f.pending.length then f.append (.own b)
  else if capacity - f.pending.length = 1 then
    if f.marked then f else f.append .overflow
  else f

def get (f : MarkedFifo β) : MarkedFifo β :=
  if f.pending = [] then f else { f with taken := f.taken + 1 }

/-- The reader has taken no more than was appended. -/
def Valid (f : MarkedFifo β) : Prop := f.taken ≤ f.appended.length

@[simp]
theorem append_pending {f : MarkedFifo β} (hf : f.Valid) (x : Item β) :
    (f.append x).pending = f.pending ++ [x] := by
  simp [append, pending, List.drop_append_of_le_length hf]

@[simp]
theorem append_delivered {f : MarkedFifo β} (hf : f.Valid) (x : Item β) :
    (f.append x).delivered = f.delivered := by
  simp [append, delivered, List.take_append_of_le_length hf]

@[simp]
theorem append_marked (f : MarkedFifo β) (x : Item β) :
    (f.append x).marked = match x with | .overflow => true | .own _ => false := by
  cases x <;> simp [append, marked]

theorem append_valid {f : MarkedFifo β} (hf : f.Valid) (x : Item β) : (f.append x).Valid := by
  simp only [Valid, append, List.length_append, List.length_singleton] at hf ⊢
  omega

theorem put_of_room {capacity : Nat} (f : MarkedFifo β) (hroom : f.pending.length + 2 ≤ capacity)
    (b : β) : f.put capacity b = f.append (.own b) :=
  if_pos (by omega)

theorem put_of_last_place {capacity : Nat} (f : MarkedFifo β)
    (hlast : f.pending.length + 1 = capacity) (b : β) :
    f.put capacity b = if f.marked then f else f.append .overflow := by
  unfold put
  rw [if_neg (by omega), if_pos (by omega)]

theorem put_of_full {capacity : Nat} (f : MarkedFifo β) (hfull : capacity ≤ f.pending.length)
    (b : β) : f.put capacity b = f := by
  unfold put
  rw [if_neg (by omega), if_neg (by omega)]

/-- Taking moves the oldest pending entry to the delivered ones. -/
theorem get_of_pending_cons {f : MarkedFifo β} {x : Item β} {rest : List (Item β)}
    (hpending : f.pending = x :: rest) :
    f.get.pending = rest ∧ f.get.delivered = f.delivered ++ [x] := by
  have hget : f.get = { f with taken := f.taken + 1 } := by simp [get, hpending]
  have hdrop : f.appended.drop f.taken = x :: rest := hpending
  have hlt : f.taken < f.appended.length := by
    by_contra hnot
    rw [List.drop_eq_nil_of_le (by omega)] at hdrop
    exact List.cons_ne_nil _ _ hdrop.symm
  have hx : f.appended[f.taken] = x := by
    have h := List.drop_eq_getElem_cons hlt
    rw [hdrop, List.cons.injEq] at h
    exact h.1.symm
  constructor
  · rw [hget]
    simp only [pending]
    rw [← List.drop_drop, hdrop, List.drop_one, List.tail_cons]
  · rw [hget]
    simp only [delivered, List.take_succ_eq_append_getElem hlt, hx]

theorem get_valid {f : MarkedFifo β} (hf : f.Valid) : f.get.Valid := by
  unfold get
  split_ifs with hnil
  · exact hf
  · have hne : f.appended.drop f.taken ≠ [] := hnil
    simp only [Valid] at hf ⊢
    by_contra hnot
    exact hne (List.drop_eq_nil_of_le (by omega))

@[simp]
theorem get_marked (f : MarkedFifo β) : f.get.marked = f.marked := by
  unfold get
  split_ifs <;> rfl

end MarkedFifo

end evrma.lib
