import Mathlib.Data.List.Basic
import Mathlib.Tactic.Common

namespace evrma.lib

variable {β : Type*}

/-- What waits in the queue, oldest first, and all that was ever put into it. -/
structure Feed (β : Type*) where
  waiting : List β
  saved : List β

namespace Feed

variable {f g h : Feed β} {taken taken' : List β}

/-- From `f` to `g` the values `taken` were taken, in order, and nothing was thrown away. -/
def Drains (f : Feed β) (taken : List β) (g : Feed β) : Prop :=
  ∃ more, g.saved = f.saved ++ more ∧ f.waiting ++ more = taken ++ g.waiting

/-- What waited was thrown away. -/
def Discards (f g : Feed β) : Prop := ∃ more, g = ⟨more, f.saved ++ more⟩

/-- From `f` to `g` the values `taken` were taken, in order, but some may be missing. -/
def Yields (f : Feed β) (taken : List β) (g : Feed β) : Prop :=
  ∃ more, g.saved = f.saved ++ more ∧ (taken ++ g.waiting).Sublist (f.waiting ++ more)

theorem Drains.refl (f : Feed β) : f.Drains [] f := ⟨[], by simp⟩

theorem Drains.trans (hfg : f.Drains taken g) (hgh : g.Drains taken' h) :
    f.Drains (taken ++ taken') h := by
  obtain ⟨more, hsaved, hwaiting⟩ := hfg
  obtain ⟨more', hsaved', hwaiting'⟩ := hgh
  refine ⟨more ++ more', ?_, ?_⟩
  · rw [hsaved', hsaved, List.append_assoc]
  · rw [← List.append_assoc, hwaiting, List.append_assoc, hwaiting', List.append_assoc]

/-- The first value that waits is taken. -/
theorem Drains.of_cons {b : β} {rest more : List β} (hwaiting : f.waiting = b :: rest)
    (hwaiting' : g.waiting = rest ++ more) (hsaved : g.saved = f.saved ++ more) :
    f.Drains [b] g := by
  refine ⟨more, hsaved, ?_⟩
  rw [hwaiting, hwaiting']
  rfl

/-- What waits at first is still there, behind it what came in. -/
theorem Drains.waiting_of_nil (hfg : f.Drains [] g) : f.waiting <+: g.waiting := by
  obtain ⟨more, -, hwaiting⟩ := hfg
  exact ⟨more, hwaiting⟩

/-- All that waits is taken when all that is left then is taken after it. -/
theorem Drains.prefix_append (hfg : f.Drains taken g) (hleft : g.waiting <+: taken') :
    f.waiting <+: taken ++ taken' := by
  obtain ⟨more, -, hwaiting⟩ := hfg
  obtain ⟨later, rfl⟩ := hleft
  refine ⟨more ++ later, ?_⟩
  rw [← List.append_assoc, hwaiting, List.append_assoc]

theorem Drains.yields (hfg : f.Drains taken g) : f.Yields taken g := by
  obtain ⟨more, hsaved, hwaiting⟩ := hfg
  exact ⟨more, hsaved, by rw [hwaiting]⟩

theorem Discards.yields (hfg : f.Discards g) : f.Yields [] g := by
  obtain ⟨more, rfl⟩ := hfg
  exact ⟨more, rfl, List.sublist_append_right f.waiting more⟩

theorem Yields.trans (hfg : f.Yields taken g) (hgh : g.Yields taken' h) :
    f.Yields (taken ++ taken') h := by
  obtain ⟨more, hsaved, hsub⟩ := hfg
  obtain ⟨more', hsaved', hsub'⟩ := hgh
  refine ⟨more ++ more', ?_, ?_⟩
  · rw [hsaved', hsaved, List.append_assoc]
  · calc
      (taken ++ taken' ++ h.waiting).Sublist (taken ++ (g.waiting ++ more')) := by
        rw [List.append_assoc]
        exact hsub'.append_left taken
      _ = (taken ++ g.waiting) ++ more' := (List.append_assoc _ _ _).symm
      List.Sublist _ ((f.waiting ++ more) ++ more') := hsub.append_right more'
      _ = f.waiting ++ (more ++ more') := List.append_assoc _ _ _

end Feed

end evrma.lib
