import Mathlib.Logic.Function.Iterate
import Mathlib.Logic.Relation
import Mathlib.Order.BooleanAlgebra.Set
import Mathlib.Order.Monotone.Basic
import Mathlib.Tactic.Common

namespace evrma.lib

inductive LockAct (L : Type*) where
  | lock (l : L)
  | unlock (l : L)
deriving DecidableEq

/-- The critical section of `l` with the given body. -/
def locked {L : Type*} (l : L) (body : List (LockAct L)) : List (LockAct L) :=
  .lock l :: (body ++ [.unlock l])

/-- On the way the path acquires `m` before it gives `l` back. -/
def will_lock {L : Type*} [DecidableEq L] (l m : L) (path : List (LockAct L)) : Prop :=
  .lock m ∈ path.takeWhile (· ≠ .unlock l)

/-- The owner of each mutex, and what each thread has still to do. -/
structure LockState (T L : Type*) where
  owner : L → Option T
  todo : T → List (LockAct L)

/-- A thread starts an operation, or takes the next step of the one it is in. -/
inductive LockLabel (T O : Type*) where
  | start (t : T) (o : O)
  | act (t : T)

section

variable {T L O : Type*}

namespace LockState

/-- All mutexes are free and no thread is in an operation. -/
def init : LockState T L := ⟨fun _ => none, fun _ => []⟩

def held (s : LockState T L) (t : T) : Set L := {l | s.owner l = some t}

/-- The mutex that the thread's next step acquires, if it is an acquisition. -/
def wanted (s : LockState T L) (t : T) : Option L :=
  match s.todo t with
  | .lock l :: _ => some l
  | _ => none

/-- The thread `t` waits for a mutex that `u` holds. -/
def WaitsFor (s : LockState T L) (t u : T) : Prop :=
  ∃ l, s.wanted t = some l ∧ s.owner l = some u

/-- A cycle of threads each of which waits for a mutex that the next one holds. -/
def Deadlock (s : LockState T L) : Prop := ∃ t, Relation.TransGen s.WaitsFor t t

end LockState

variable [DecidableEq T] [DecidableEq L]

/-- A thread runs one operation at a time, and acquires only a free mutex. -/
def lock_step (path : O → List (LockAct L)) (s : LockState T L) :
    LockLabel T O → Option (LockState T L)
  | .start t o =>
    if s.todo t = [] then some { s with todo := Function.update s.todo t (path o) } else none
  | .act t =>
    match s.todo t with
    | [] => none
    | .lock l :: rest =>
      match s.owner l with
      | none =>
        some { owner := Function.update s.owner l (some t)
               todo := Function.update s.todo t rest }
      | some _ => none
    | .unlock l :: rest =>
      some { owner := Function.update s.owner l none
             todo := Function.update s.todo t rest }

omit [DecidableEq T] [DecidableEq L] in
theorem LockState.wanted_eq_some {s : LockState T L} {t : T} {l : L} :
    s.wanted t = some l ↔ ∃ rest, s.todo t = .lock l :: rest := by
  unfold LockState.wanted
  split
  · simp_all
  · rename_i h
    simp only [reduceCtorEq, false_iff, not_exists]
    exact fun rest hrest => h l rest hrest

/-- What one step can do: begin an operation, take a free mutex, or give one
back. -/
theorem lock_step_cases {path : O → List (LockAct L)} {s s' : LockState T L} {a : LockLabel T O}
    (hstep : lock_step path s a = some s') :
    (∃ t o, a = .start t o ∧ s.todo t = [] ∧
      s' = { s with todo := Function.update s.todo t (path o) }) ∨
    (∃ t l rest, a = .act t ∧ s.todo t = .lock l :: rest ∧ s.owner l = none ∧
      s' = ⟨Function.update s.owner l (some t), Function.update s.todo t rest⟩) ∨
    (∃ t l rest, a = .act t ∧ s.todo t = .unlock l :: rest ∧
      s' = ⟨Function.update s.owner l none, Function.update s.todo t rest⟩) := by
  cases a with
  | start t o =>
    simp only [lock_step] at hstep
    split_ifs at hstep with hidle
    exact .inl ⟨t, o, rfl, hidle, by simpa using hstep.symm⟩
  | act t =>
    simp only [lock_step] at hstep
    split at hstep
    · cases hstep
    · rename_i l rest htodo
      split at hstep
      · rename_i hfree
        exact .inr (.inl ⟨t, l, rest, rfl, htodo, hfree, by simpa using hstep.symm⟩)
      · cases hstep
    · rename_i l rest htodo
      exact .inr (.inr ⟨t, l, rest, rfl, htodo, by simpa using hstep.symm⟩)

end

section

variable {L : Type*} (order : L → L → Prop)

/-- From the mutexes in `held` on, the path gives back only what it holds, holds
nothing at its end, and takes a mutex only while `order` allows it under every
mutex then held. -/
def Nested (held : Set L) : List (LockAct L) → Prop
  | [] => held = ∅
  | .lock l :: rest => (∀ h ∈ held, order h l) ∧ l ∉ held ∧ Nested (insert l held) rest
  | .unlock l :: rest => l ∈ held ∧ Nested (held \ {l}) rest

/-- The path is nested wherever `held` is held, and ends there as it began. -/
def Neutral (held : Set L) (path : List (LockAct L)) : Prop :=
  ∀ rest, Nested order held rest → Nested order held (path ++ rest)

variable {order}

theorem Neutral.nested {path : List (LockAct L)} (hpath : Neutral order ∅ path) :
    Nested order ∅ path := by
  have h := hpath [] rfl
  rwa [List.append_nil] at h

@[simp]
theorem neutral_nil {held : Set L} : Neutral order held [] := fun _ hrest => hrest

theorem Neutral.append {held : Set L} {p q : List (LockAct L)} (hp : Neutral order held p)
    (hq : Neutral order held q) : Neutral order held (p ++ q) := by
  intro rest hrest
  rw [List.append_assoc]
  exact hp _ (hq _ hrest)

theorem Neutral.locked {held : Set L} {l : L} {body : List (LockAct L)}
    (horder : ∀ h ∈ held, order h l) (hfree : l ∉ held)
    (hbody : Neutral order (insert l held) body) : Neutral order held (locked l body) := by
  intro rest hrest
  rw [evrma.lib.locked, List.cons_append, List.append_assoc]
  refine ⟨horder, hfree, hbody _ ⟨Set.mem_insert l held, ?_⟩⟩
  rwa [Set.insert_sdiff_self_of_notMem hfree]

/-- A mutex that is given back and taken again. -/
theorem Neutral.gap {held : Set L} {l : L} (horder : ∀ h ∈ held, order h l) (hfree : l ∉ held) :
    Neutral order (insert l held) [.unlock l, .lock l] := by
  intro rest hrest
  refine ⟨Set.mem_insert l held, ?_⟩
  rw [Set.insert_sdiff_self_of_notMem hfree]
  exact ⟨horder, hfree, hrest⟩

theorem Neutral.flatten_replicate {held : Set L} {p : List (LockAct L)}
    (hp : Neutral order held p) (k : Nat) :
    Neutral order held (List.replicate k p).flatten := by
  induction k with
  | zero => exact neutral_nil
  | succ k ih =>
    rw [List.replicate_succ, List.flatten_cons]
    exact hp.append ih

end

section

variable {T L O : Type*} {order : L → L → Prop} {s s' : LockState T L}

/-- Every thread's rest of path is nested from what it holds on. -/
def LocksNested (order : L → L → Prop) (s : LockState T L) : Prop :=
  ∀ t, Nested order (s.held t) (s.todo t)

theorem locksNested_init : LocksNested order (LockState.init : LockState T L) := by
  intro t
  simp [Nested, LockState.init, LockState.held]

theorem LocksNested.step [DecidableEq T] [DecidableEq L] {path : O → List (LockAct L)}
    {a : LockLabel T O} (hs : LocksNested order s) (hpath : ∀ o, Nested order ∅ (path o))
    (hstep : lock_step path s a = some s') : LocksNested order s' := by
  intro u
  have hu := hs u
  obtain ⟨t, o, rfl, hidle, rfl⟩ | ⟨t, l, rest, rfl, htodo, hfree, rfl⟩ |
    ⟨t, l, rest, rfl, htodo, rfl⟩ := lock_step_cases hstep
  · rcases eq_or_ne u t with rfl | hne
    · rw [hidle] at hu
      have hempty : s.held u = ∅ := hu
      have hheld : LockState.held { s with todo := Function.update s.todo u (path o) } u = ∅ :=
        hempty
      simpa [hheld] using hpath o
    · simpa [LockState.held, Function.update_of_ne hne] using hu
  · rcases eq_or_ne u t with rfl | hne
    · rw [htodo] at hu
      have hheld : LockState.held (⟨Function.update s.owner l (some u),
          Function.update s.todo u rest⟩ : LockState T L) u = insert l (s.held u) := by
        ext m
        by_cases hm : m = l <;> simp [LockState.held, hm]
      simpa [hheld] using hu.2.2
    · have hheld : LockState.held (⟨Function.update s.owner l (some t),
          Function.update s.todo t rest⟩ : LockState T L) u = s.held u := by
        ext m
        by_cases hm : m = l <;> simp [LockState.held, hm, hfree, hne.symm]
      simpa [hheld, Function.update_of_ne hne] using hu
  · have ht := hs t
    rw [htodo] at ht
    have howner : s.owner l = some t := ht.1
    rcases eq_or_ne u t with rfl | hne
    · have hheld : LockState.held (⟨Function.update s.owner l none,
          Function.update s.todo u rest⟩ : LockState T L) u = s.held u \ {l} := by
        ext m
        by_cases hm : m = l <;> simp [LockState.held, hm]
      simpa [hheld] using ht.2
    · have hheld : LockState.held (⟨Function.update s.owner l none,
          Function.update s.todo t rest⟩ : LockState T L) u = s.held u := by
        ext m
        by_cases hm : m = l <;> simp [LockState.held, hm, howner, hne.symm]
      simpa [hheld, Function.update_of_ne hne] using hu

/-- What a holder waits for may be taken under what it holds. -/
theorem LocksNested.order_of_wanted (hs : LocksNested order s) {t : T} {h l : L}
    (hheld : s.owner h = some t) (hwant : s.wanted t = some l) : order h l := by
  obtain ⟨rest, htodo⟩ := LockState.wanted_eq_some.mp hwant
  have ht := hs t
  rw [htodo] at ht
  exact ht.1 h hheld

/-- A deadlock is walked round for ever. Where `order` never descends in `level`,
the mutexes waited for on the way are all of one level. -/
theorem LocksNested.walk_of_deadlock (hs : LocksNested order s) (level : L → Nat)
    (hlevel : ∀ h l, order h l → level h ≤ level l) (hdead : s.Deadlock) :
    ∃ (f : Nat → T) (w : Nat → L), ∀ n, s.wanted (f n) = some (w n) ∧
      s.owner (w n) = some (f (n + 1)) ∧ level (w n) = level (w (n + 1)) := by
  obtain ⟨t, hcycle⟩ := hdead
  -- every thread from which the cycle is reached waits, so the walk never ends
  have hwaits : ∀ x, Relation.ReflTransGen s.WaitsFor x t →
      ∃ y, s.WaitsFor x y ∧ Relation.ReflTransGen s.WaitsFor y t := by
    intro x hx
    rcases Relation.ReflTransGen.cases_head hx with rfl | hstep
    · exact Relation.TransGen.head'_iff.mp hcycle
    · exact hstep
  choose! next hnext hreach using hwaits
  let f : Nat → T := fun n => next^[n] t
  have hf : ∀ n, Relation.ReflTransGen s.WaitsFor (f n) t := by
    intro n
    induction n with
    | zero => exact .refl
    | succ n ih =>
      simp only [f, Function.iterate_succ_apply']
      exact hreach _ ih
  have hstep : ∀ n, s.WaitsFor (f n) (f (n + 1)) := by
    intro n
    simp only [f, Function.iterate_succ_apply']
    exact hnext _ (hf n)
  choose w hwant howner using hstep
  have hup : ∀ n, level (w n) ≤ level (w (n + 1)) := fun n =>
    hlevel _ _ (hs.order_of_wanted (howner n) (hwant (n + 1)))
  have hstart : ∀ n, level (w 0) ≤ level (w n) := fun n =>
    monotone_nat_of_le_succ hup (Nat.zero_le n)
  have hback : ∀ x, Relation.ReflTransGen s.WaitsFor x t →
      ∀ l, s.wanted x = some l → level l ≤ level (w 0) := by
    intro x hx
    induction hx using Relation.ReflTransGen.head_induction_on with
    | refl =>
      intro l hl
      have h0 : s.wanted t = some (w 0) := hwant 0
      rw [hl, Option.some.injEq] at h0
      rw [h0]
    | head hxy hyt ih =>
      intro l hl
      obtain ⟨l', hl', hown⟩ := hxy
      obtain ⟨m, hm, -⟩ := hnext _ hyt
      rw [hl, Option.some.injEq] at hl'
      subst hl'
      exact Nat.le_trans (hlevel _ _ (hs.order_of_wanted hown hm)) (ih m hm)
  refine ⟨f, w, fun n => ⟨hwant n, howner n, ?_⟩⟩
  have hn := hback _ (hf n) _ (hwant n)
  have hn1 := hback _ (hf (n + 1)) _ (hwant (n + 1))
  have := hstart n
  have := hstart (n + 1)
  omega

section

variable [DecidableEq L]

/-- The thread holds `l` and acquires `m` before it gives `l` back. -/
def LockState.HoldsAndNeeds (s : LockState T L) (t : T) (l m : L) : Prop :=
  s.owner l = some t ∧ will_lock l m (s.todo t)

/-- Two threads each hold a mutex that the other one needs first. -/
def LockState.Opposed (s : LockState T L) : Prop :=
  ∃ l m t u, l ≠ m ∧ t ≠ u ∧ s.HoldsAndNeeds t l m ∧ s.HoldsAndNeeds u m l

/-- The step takes a mutex `l` that the holder of some `m` needs first, in an
operation that needs this `m` before it gives `l` back. -/
def Opposes (s : LockState T L) (a : LockLabel T O) : Prop :=
  ∃ t l m u rest, a = .act t ∧ s.todo t = .lock l :: rest ∧ will_lock l m rest ∧ l ≠ m ∧
    t ≠ u ∧ s.HoldsAndNeeds u m l

/-- Nobody who holds a mutex that is still to be taken in the operation needs the one that the step
takes. -/
def yields (s : LockState T L) : LockLabel T O → Bool
  | .start _ _ => true
  | .act t =>
    match s.todo t with
    | .lock l :: rest =>
      rest.all fun a =>
        match a with
        | .lock m => (s.owner m).all fun u => !decide (.lock l ∈ (s.todo u).takeWhile (· ≠ .unlock m))
        | .unlock _ => true
    | _ => true

theorem not_opposes_of_yields (s : LockState T L) (a : LockLabel T O) (hyields : yields s a = true) :
    ¬ Opposes s a := by
  rintro ⟨t, l, m, u, rest, rfl, htodo, hwill, -, -, howner, hneeds⟩
  have hm : LockAct.lock m ∈ rest := (List.takeWhile_prefix _).subset hwill
  simp only [yields, htodo, List.all_eq_true] at hyields
  have hnot := hyields _ hm
  simp only [howner, Option.all_some, Bool.not_eq_true', decide_eq_false_iff_not] at hnot
  exact hnot hneeds

theorem will_lock_cons {l m : L} {a : LockAct L} {path : List (LockAct L)} (ha : a ≠ .unlock l)
    (hpath : will_lock l m path) : will_lock l m (a :: path) := by
  rw [will_lock, List.takeWhile_cons_of_pos (by simpa using ha)]
  exact List.mem_cons_of_mem _ hpath

theorem LocksNested.not_opposed [DecidableEq T] {path : O → List (LockAct L)}
    {a : LockLabel T O} (hs : LocksNested order s) (hfree : ¬ s.Opposed) (hgood : ¬ Opposes s a)
    (hstep : lock_step path s a = some s') : ¬ s'.Opposed := by
  rintro ⟨l, m, t, u, hne, htu, ht, hu⟩
  obtain ⟨x, o, rfl, hidle, rfl⟩ | ⟨x, k, rest, rfl, htodo, hk, rfl⟩ |
    ⟨x, k, rest, rfl, htodo, rfl⟩ := lock_step_cases hstep
  · -- an idle thread holds nothing
    have hempty : s.held x = ∅ := by
      have h := hs x
      rwa [hidle] at h
    have old : ∀ {t l m}, LockState.HoldsAndNeeds
        { s with todo := Function.update s.todo x (path o) } t l m → s.HoldsAndNeeds t l m := by
      rintro t l m ⟨howner, hwill⟩
      have hx : t ≠ x := by
        rintro rfl
        exact Set.notMem_empty l (hempty ▸ howner)
      refine ⟨howner, ?_⟩
      simpa [Function.update_of_ne hx] using hwill
    exact hfree ⟨l, m, t, u, hne, htu, old ht, old hu⟩
  · -- a thread that holds and needs did so before, or the mutex just taken is held
    have old : ∀ {t l m}, LockState.HoldsAndNeeds (⟨Function.update s.owner k (some x),
        Function.update s.todo x rest⟩ : LockState T L) t l m →
        s.HoldsAndNeeds t l m ∨ (t = x ∧ l = k ∧ will_lock k m rest) := by
      rintro t l m ⟨howner, hwill⟩
      dsimp only at howner hwill
      rcases eq_or_ne l k with rfl | hlk
      · rw [Function.update_self, Option.some.injEq] at howner
        subst howner
        rw [Function.update_self] at hwill
        exact .inr ⟨rfl, rfl, hwill⟩
      · rw [Function.update_of_ne hlk] at howner
        refine .inl ⟨howner, ?_⟩
        rcases eq_or_ne t x with rfl | htx
        · rw [Function.update_self] at hwill
          rw [htodo]
          exact will_lock_cons (by simp) hwill
        · rwa [Function.update_of_ne htx] at hwill
    rcases old ht with hold | ⟨rfl, rfl, hnew⟩
    · rcases old hu with hold' | ⟨rfl, rfl, hnew⟩
      · exact hfree ⟨l, m, t, u, hne, htu, hold, hold'⟩
      · exact hgood ⟨u, m, l, t, rest, rfl, htodo, hnew, hne.symm, htu.symm, hold⟩
    · rcases old hu with hold | ⟨-, rfl, -⟩
      · exact hgood ⟨t, l, m, u, rest, rfl, htodo, hnew, hne, htu, hold⟩
      · exact hne rfl
  · have old : ∀ {t l m}, LockState.HoldsAndNeeds (⟨Function.update s.owner k none,
        Function.update s.todo x rest⟩ : LockState T L) t l m → s.HoldsAndNeeds t l m := by
      rintro t l m ⟨howner, hwill⟩
      dsimp only at howner hwill
      have hlk : l ≠ k := by
        rintro rfl
        simp at howner
      rw [Function.update_of_ne hlk] at howner
      refine ⟨howner, ?_⟩
      rcases eq_or_ne t x with rfl | htx
      · rw [Function.update_self] at hwill
        rw [htodo]
        exact will_lock_cons (by simpa using hlk.symm) hwill
      · rwa [Function.update_of_ne htx] at hwill
    exact hfree ⟨l, m, t, u, hne, htu, old ht, old hu⟩

theorem will_lock_of_cons {l m : L} {a : LockAct L} {path : List (LockAct L)}
    (hwill : will_lock l m (a :: path)) (hlock : a ≠ .lock m) :
    a ≠ .unlock l ∧ will_lock l m path := by
  have ha : a ≠ .unlock l := by
    rintro rfl
    simp [will_lock] at hwill
  rw [will_lock, List.takeWhile_cons_of_pos (by simpa using ha)] at hwill
  refine ⟨ha, (List.mem_cons.mp hwill).resolve_left ?_⟩
  exact fun h => hlock h.symm

/-- A thread that needs a mutex which is held keeps what it holds until then. -/
theorem LocksNested.holdsAndNeeds_step [DecidableEq T] {path : O → List (LockAct L)}
    {a : LockLabel T O} (hs : LocksNested order s) (hstep : lock_step path s a = some s')
    {t u : T} {l m : L} (ht : s.HoldsAndNeeds t l m) (hm : s.owner m = some u) :
    s'.HoldsAndNeeds t l m := by
  obtain ⟨howner, hwill⟩ := ht
  obtain ⟨x, o, rfl, hidle, rfl⟩ | ⟨x, k, rest, rfl, htodo, hk, rfl⟩ |
    ⟨x, k, rest, rfl, htodo, rfl⟩ := lock_step_cases hstep
  · refine ⟨howner, ?_⟩
    rcases eq_or_ne t x with rfl | htx
    · rw [hidle] at hwill
      simp [will_lock] at hwill
    · simpa [Function.update_of_ne htx] using hwill
  · have hlk : l ≠ k := by
      rintro rfl
      rw [hk] at howner
      cases howner
    have hmk : m ≠ k := by
      rintro rfl
      rw [hk] at hm
      cases hm
    refine ⟨by simpa [Function.update_of_ne hlk] using howner, ?_⟩
    rcases eq_or_ne t x with rfl | htx
    · rw [htodo] at hwill
      simpa using (will_lock_of_cons hwill (by simpa using hmk.symm)).2
    · simpa [Function.update_of_ne htx] using hwill
  · rcases eq_or_ne t x with rfl | htx
    · rw [htodo] at hwill
      obtain ⟨hkl, hrest⟩ := will_lock_of_cons hwill (by simp)
      have hlk : l ≠ k := fun h => hkl (h ▸ rfl)
      exact ⟨by simpa [Function.update_of_ne hlk] using howner, by simpa using hrest⟩
    · have hx := hs x
      rw [htodo] at hx
      have hlk : l ≠ k := by
        rintro rfl
        have hown : s.owner l = some x := hx.1
        rw [howner, Option.some.injEq] at hown
        exact htx hown
      exact ⟨by simpa [Function.update_of_ne hlk] using howner,
        by simpa [Function.update_of_ne htx] using hwill⟩

/-- Two opposed threads stay opposed whatever happens, so neither of them ends. -/
theorem LocksNested.opposed_step [DecidableEq T] {path : O → List (LockAct L)}
    {a : LockLabel T O} (hs : LocksNested order s) (hstep : lock_step path s a = some s')
    (hopposed : s.Opposed) : s'.Opposed := by
  obtain ⟨l, m, t, u, hne, htu, ht, hu⟩ := hopposed
  exact ⟨l, m, t, u, hne, htu, hs.holdsAndNeeds_step hstep ht hu.1,
    hs.holdsAndNeeds_step hstep hu ht.1⟩

/-- A step that opposes ends in an opposed state. -/
theorem LockState.opposed_of_opposes [DecidableEq T] {path : O → List (LockAct L)}
    {a : LockLabel T O} (hstep : lock_step path s a = some s') (hopposes : Opposes s a) :
    s'.Opposed := by
  obtain ⟨t, l, m, u, rest, rfl, htodo, hwill, hne, htu, hm, hneeds⟩ := hopposes
  obtain ⟨x, o, ha, -⟩ | ⟨x, k, rest', ha, htodo', hk, rfl⟩ | ⟨x, k, rest', ha, htodo', -⟩ :=
    lock_step_cases hstep
  · cases ha
  · obtain rfl : t = x := by simpa using ha
    rw [htodo, List.cons.injEq, LockAct.lock.injEq] at htodo'
    obtain ⟨rfl, rfl⟩ := htodo'
    refine ⟨l, m, t, u, hne, htu, ⟨by simp, by simpa using hwill⟩, ?_, ?_⟩
    · simpa [Function.update_of_ne hne.symm] using hm
    · simpa [Function.update_of_ne htu.symm] using hneeds
  · obtain rfl : t = x := by simpa using ha
    rw [htodo] at htodo'
    cases htodo'

/-- What is waited for is needed first. -/
theorem LockState.holdsAndNeeds_of_wanted {t : T} {l m : L} (hheld : s.owner l = some t)
    (hwant : s.wanted t = some m) : s.HoldsAndNeeds t l m := by
  obtain ⟨rest, htodo⟩ := LockState.wanted_eq_some.mp hwant
  refine ⟨hheld, ?_⟩
  rw [htodo, will_lock, List.takeWhile_cons_of_pos (by simp)]
  exact List.mem_cons_self

end

end

end evrma.lib
