import Mathlib.Data.List.Nodup
import Mathlib.Data.List.ReduceOption
import Evrma.EventList

namespace evrma.event_list

variable {S : Type*} [DecidableEq S]

/-- The array holds the subscribers `xs`, each once, and then only NULLs. -/
def Filled (entries : List (Option S)) (xs : List S) : Prop :=
  xs.Nodup ∧ ∃ k, entries = xs.map some ++ List.replicate k none

omit [DecidableEq S] in
theorem Filled.mem {entries : List (Option S)} {xs : List S} (h : Filled entries xs) {x : S} :
    some x ∈ entries ↔ x ∈ xs := by
  obtain ⟨-, k, rfl⟩ := h
  simp [List.mem_replicate]

omit [DecidableEq S] in
/-- The first entry tells whether there is a subscriber at all. -/
theorem Filled.head_isSome {entries : List (Option S)} {xs : List S} (h : Filled entries xs) :
    entries.head?.join.isSome = true ↔ ∃ x, some x ∈ entries := by
  have hmem := @h.mem
  obtain ⟨-, k, rfl⟩ := h
  simp only [hmem]
  cases xs with
  | nil => cases k <;> simp [List.replicate_succ]
  | cons x xs => simp

theorem add_loop_of_mem {x : S} {xs : List S} (k : Nat) (hx : x ∈ xs) :
    add_loop x (xs.map some ++ List.replicate k none) =
      some (xs.map some ++ List.replicate k none) := by
  induction xs with
  | nil => cases hx
  | cons y ys ih =>
    simp only [List.map_cons, List.cons_append, add_loop]
    split_ifs with heq
    · rfl
    · have hys : x ∈ ys := (List.mem_cons.mp hx).resolve_left (Ne.symm heq)
      rw [ih hys, Option.map_some]

theorem add_loop_of_notMem {x : S} {xs : List S} (k : Nat) (hx : x ∉ xs) :
    add_loop x (xs.map some ++ List.replicate (k + 1) none) =
      some ((xs ++ [x]).map some ++ List.replicate k none) := by
  induction xs with
  | nil => simp [add_loop, List.replicate_succ]
  | cons y ys ih =>
    obtain ⟨hne, hys⟩ : x ≠ y ∧ x ∉ ys := by simpa only [List.mem_cons, not_or] using hx
    simp only [List.map_cons, List.cons_append, add_loop, if_neg hne.symm]
    rw [ih hys, Option.map_some]

/-- A full array has no room for another subscriber. -/
theorem add_loop_of_full {x : S} {xs : List S} (hx : x ∉ xs) :
    add_loop x (xs.map some) = none := by
  induction xs with
  | nil => rfl
  | cons y ys ih =>
    obtain ⟨hne, hys⟩ : x ≠ y ∧ x ∉ ys := by simpa only [List.mem_cons, not_or] using hx
    simp only [List.map_cons, add_loop, if_neg hne.symm]
    rw [ih hys, Option.map_none]

theorem remove_loop_of_notMem {x : S} {xs : List S} (k : Nat) (hx : x ∉ xs) :
    remove_loop x (xs.map some ++ List.replicate k none) =
      xs.map some ++ List.replicate k none := by
  induction xs with
  | nil => cases k <;> rfl
  | cons y ys ih =>
    obtain ⟨hne, hys⟩ : x ≠ y ∧ x ∉ ys := by simpa only [List.mem_cons, not_or] using hx
    simp only [List.map_cons, List.cons_append, remove_loop, if_neg hne.symm]
    rw [ih hys]

theorem remove_loop_of_mem {x : S} {xs : List S} (k : Nat) (hx : x ∈ xs) :
    remove_loop x (xs.map some ++ List.replicate k none) =
      (xs.erase x).map some ++ List.replicate (k + 1) none := by
  induction xs with
  | nil => cases hx
  | cons y ys ih =>
    simp only [List.map_cons, List.cons_append, remove_loop]
    split_ifs with heq
    · subst heq
      simp [List.replicate_succ']
    · have hys : x ∈ ys := (List.mem_cons.mp hx).resolve_left (Ne.symm heq)
      rw [ih hys, List.erase_cons_tail (by simpa using heq), List.map_cons, List.cons_append]

/-- Adding puts the subscriber at the end unless it is there; it fails only on a
full array. -/
theorem Filled.add {x : S} {entries entries' : List (Option S)} {xs : List S}
    (h : Filled entries xs) (hadd : add_loop x entries = some entries') :
    Filled entries' (if x ∈ xs then xs else xs ++ [x]) := by
  obtain ⟨hnodup, k, rfl⟩ := h
  split_ifs with hx
  · rw [add_loop_of_mem k hx, Option.some.injEq] at hadd
    exact ⟨hnodup, k, hadd.symm⟩
  · cases k with
    | zero =>
      simp only [List.replicate_zero, List.append_nil, add_loop_of_full hx, reduceCtorEq] at hadd
    | succ k =>
      rw [add_loop_of_notMem k hx, Option.some.injEq] at hadd
      refine ⟨?_, k, hadd.symm⟩
      rw [List.nodup_append]
      refine ⟨hnodup, List.nodup_singleton x, ?_⟩
      rintro a ha b hb rfl
      exact hx (List.mem_singleton.mp hb ▸ ha)

theorem Filled.remove {entries : List (Option S)} {xs : List S} (h : Filled entries xs) (x : S) :
    Filled (remove_loop x entries) (xs.erase x) := by
  obtain ⟨hnodup, k, rfl⟩ := h
  by_cases hx : x ∈ xs
  · exact ⟨hnodup.erase x, k + 1, remove_loop_of_mem k hx⟩
  · refine ⟨hnodup.erase x, k, ?_⟩
    rw [remove_loop_of_notMem k hx, List.erase_of_not_mem hx]

/-- There is room for one subscriber more, or for one that is there. -/
theorem Filled.add_isSome {x : S} {entries : List (Option S)} {xs : List S}
    (h : Filled entries xs) (hroom : x ∈ xs ∨ xs.length < entries.length) :
    (add_loop x entries).isSome = true := by
  obtain ⟨-, k, rfl⟩ := h
  by_cases hx : x ∈ xs
  · rw [add_loop_of_mem k hx]
    rfl
  · have hlength := hroom.resolve_left hx
    rw [List.length_append, List.length_map, List.length_replicate] at hlength
    obtain ⟨k', rfl⟩ : ∃ k', k = k' + 1 := ⟨k - 1, by omega⟩
    rw [add_loop_of_notMem k' hx]
    rfl

omit [DecidableEq S] in
theorem Filled.entries_eq {entries : List (Option S)} {xs : List S} (h : Filled entries xs) :
    entries = xs.map some ++ List.replicate (entries.length - xs.length) none := by
  obtain ⟨-, k, rfl⟩ := h
  rw [List.length_append, List.length_map, List.length_replicate, Nat.add_sub_cancel_left]

omit [DecidableEq S] in
/-- The loop over the subscribers stops at the first NULL. -/
theorem Filled.callbacks {entries : List (Option S)} {xs : List S} (h : Filled entries xs) :
    (entries.takeWhile Option.isSome).reduceOption = xs := by
  obtain ⟨-, k, rfl⟩ := h
  have htake : (xs.map some ++ List.replicate k (none : Option S)).takeWhile Option.isSome =
      xs.map some := by
    rw [List.takeWhile_append_of_pos (by simp)]
    cases k <;> simp [List.replicate_succ]
  rw [htake]
  simp [List.reduceOption]

/-- The subscriber is in the row of the code. -/
def subscribed (list : event_dispatch_list S) (x : S) (i : Fin EVENT_LIST_TYPE_MAX_EVENTS) :
    Prop :=
  some x ∈ (list i).entries

instance (list : event_dispatch_list S) (x : S) (i : Fin EVENT_LIST_TYPE_MAX_EVENTS) :
    Decidable (subscribed list x i) :=
  inferInstanceAs (Decidable (some x ∈ (list i).entries))

/-- Every row is filled from its start, without a repetition. -/
def RowsFilled (list : event_dispatch_list S) : Prop := ∀ i, ∃ xs, Filled (list i).entries xs

omit [DecidableEq S] in
theorem rowsFilled_init : RowsFilled (event_dispatch_list_init : event_dispatch_list S) :=
  fun _ => ⟨[], List.nodup_nil, EVENT_DISPATCH_LIST_MAX_SUBSCRIBERS, by simp [event_dispatch_list_init]⟩

omit [DecidableEq S] in
theorem not_subscribed_init (x : S) (i : Fin EVENT_LIST_TYPE_MAX_EVENTS) :
    ¬ subscribed event_dispatch_list_init x i := by
  simp [subscribed, event_dispatch_list_init, List.mem_replicate]

theorem event_subs.add_eq_some {subs subs' : event_subs S} {x : S} :
    subs.add x = some subs' ↔ add_loop x subs.entries = some subs'.entries := by
  obtain ⟨entries', hlength⟩ := subs'
  unfold event_subs.add
  split
  · rename_i hloop
    simp [hloop]
  · rename_i entries hloop
    simp [hloop]

section

variable {list : event_dispatch_list S} (hlist : RowsFilled list)
include hlist

/-- The subscribers after an addition that returned 0. -/
theorem RowsFilled.add (x : S) (event : Int) :
    RowsFilled (event_dispatch_list_add list x event).1 ∧
      ((event_dispatch_list_add list x event).2 ≠ 0 →
        (event_dispatch_list_add list x event).1 = list) ∧
      ((event_dispatch_list_add list x event).2 = 0 → ∃ e, event_index event = some e ∧
        ∀ y i, subscribed (event_dispatch_list_add list x event).1 y i ↔
          subscribed list y i ∨ (y = x ∧ i = e)) := by
  unfold event_dispatch_list_add
  split
  · exact ⟨hlist, fun _ => rfl, fun h => by simp [EINVAL] at h⟩
  · rename_i e he
    split
    · exact ⟨hlist, fun _ => rfl, fun h => by simp [ENOMEM] at h⟩
    · rename_i subs hsubs
      rw [event_subs.add_eq_some] at hsubs
      obtain ⟨xs, hxs⟩ := hlist e
      have hnew := hxs.add hsubs
      refine ⟨fun i => ?_, fun h => absurd rfl h, fun _ => ⟨e, he, fun y i => ?_⟩⟩
      · rcases eq_or_ne i e with rfl | hne
        · simp only [Function.update_self]
          exact ⟨_, hnew⟩
        · simp only [Function.update_of_ne hne]
          exact hlist i
      · rcases eq_or_ne i e with rfl | hne
        · simp only [subscribed, Function.update_self, hnew.mem, hxs.mem, and_true]
          split_ifs with hx
          · constructor
            · exact .inl
            · rintro (hy | rfl)
              · exact hy
              · exact hx
          · simp
        · simp [subscribed, hne]

theorem RowsFilled.remove (x : S) (i : Fin EVENT_LIST_TYPE_MAX_EVENTS) :
    (∃ xs, Filled ((list i).remove x).entries xs) ∧
      ∀ y, some y ∈ ((list i).remove x).entries ↔ some y ∈ (list i).entries ∧ y ≠ x := by
  obtain ⟨xs, hxs⟩ := hlist i
  have hnew : Filled ((list i).remove x).entries (xs.erase x) := hxs.remove x
  refine ⟨⟨_, hnew⟩, fun y => ?_⟩
  rw [hnew.mem, hxs.mem, hxs.1.mem_erase_iff, and_comm]

theorem RowsFilled.remove_all (x : S) :
    RowsFilled (event_dispatch_list_remove_all list x) ∧
      ∀ y i, subscribed (event_dispatch_list_remove_all list x) y i ↔
        subscribed list y i ∧ y ≠ x :=
  ⟨fun i => (hlist.remove x i).1, fun y i => (hlist.remove x i).2 y⟩

theorem RowsFilled.remove_one (x : S) (event : Int) :
    RowsFilled (event_dispatch_list_remove list x event) ∧
      ∀ y i, subscribed (event_dispatch_list_remove list x event) y i ↔
        subscribed list y i ∧ ¬ (y = x ∧ event_index event = some i) := by
  unfold event_dispatch_list_remove
  split
  · rename_i he
    exact ⟨hlist, fun y i => by simp [he]⟩
  · rename_i e he
    refine ⟨fun i => ?_, fun y i => ?_⟩
    · rcases eq_or_ne i e with rfl | hne
      · rw [Function.update_self]
        exact (hlist.remove x i).1
      · rw [Function.update_of_ne hne]
        exact hlist i
    · rcases eq_or_ne i e with rfl | hne
      · simp only [subscribed, Function.update_self, (hlist.remove x i).2 y, he, and_true]
      · simp [subscribed, Function.update_of_ne hne, he, hne.symm]

omit [DecidableEq S] in
/-- The callback is called once for every subscriber of the code. -/
theorem RowsFilled.for_all_subscribers (event : Int) :
    (event_dispatch_list_for_all_subscribers list event).Nodup ∧
      ∀ x, x ∈ event_dispatch_list_for_all_subscribers list event ↔
        ∃ i, event_index event = some i ∧ subscribed list x i := by
  unfold event_dispatch_list_for_all_subscribers
  cases event_index event with
  | none => simp
  | some i =>
    obtain ⟨xs, hxs⟩ := hlist i
    dsimp only
    rw [hxs.callbacks]
    refine ⟨hxs.1, fun x => ?_⟩
    rw [← hxs.mem]
    constructor
    · exact fun hx => ⟨i, rfl, hx⟩
    · rintro ⟨i', hi, hx⟩
      cases hi
      exact hx

omit hlist in
/-- Where only `ptrs` are subscribed, and they are few, there is room in every row for each
of them. -/
theorem room_of_live {ptrs : List S} (hfew : ptrs.length ≤ EVENT_DISPATCH_LIST_MAX_SUBSCRIBERS)
    (hlive : ∀ x i, subscribed list x i → x ∈ ptrs) {x : S} (hx : x ∈ ptrs)
    {i : Fin EVENT_LIST_TYPE_MAX_EVENTS} {xs : List S} (hxs : Filled (list i).entries xs) :
    x ∈ xs ∨ xs.length < EVENT_DISPATCH_LIST_MAX_SUBSCRIBERS := by
  by_cases hmem : x ∈ xs
  · exact .inl hmem
  · right
    have hsub : x :: xs ⊆ ptrs := by
      intro y hy
      obtain rfl | hy := List.mem_cons.mp hy
      · exact hx
      · exact hlive y i (hxs.mem.mpr hy)
    have hle := ((List.nodup_cons.mpr ⟨hmem, hxs.1⟩).subperm hsub).length_le
    rw [List.length_cons] at hle
    omega

/-- Where there is room in the row, an addition only fails for a wrong code. -/
theorem RowsFilled.add_ret (x : S) (event : Int)
    (hroom : ∀ i xs, event_index event = some i → Filled (list i).entries xs →
      x ∈ xs ∨ xs.length < EVENT_DISPATCH_LIST_MAX_SUBSCRIBERS) :
    (event_dispatch_list_add list x event).2 = if (event_index event).isSome then 0 else -EINVAL := by
  unfold event_dispatch_list_add
  cases hindex : event_index event with
  | none => rfl
  | some i =>
    obtain ⟨xs, hxs⟩ := hlist i
    have hsome := hxs.add_isSome ((list i).length_eq ▸ hroom i xs hindex hxs)
    dsimp only
    cases hadd : (list i).add x with
    | none =>
      obtain ⟨entries, hentries⟩ := Option.isSome_iff_exists.mp hsome
      have hlength := (add_loop_length hentries).trans (list i).length_eq
      rw [event_subs.add_eq_some.mpr (by exact hentries : _ = some (event_subs.mk entries hlength).entries)]
        at hadd
      cases hadd
    | some subs => rfl

omit [DecidableEq S] in
/-- The codes that the hardware is told of are those with a subscriber. -/
theorem RowsFilled.all_subscriptions (i : Fin EVENT_LIST_TYPE_MAX_EVENTS) :
    event_dispatch_list_add_subscribed_events list event_list_clear i = true ↔
      ∃ x, subscribed list x i := by
  obtain ⟨xs, hxs⟩ := hlist i
  simp only [event_dispatch_list_add_subscribed_events, event_list_clear, Bool.false_or]
  exact hxs.head_isSome

end

end evrma.event_list
