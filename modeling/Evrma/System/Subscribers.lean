import Evrma.EventList.Rows
import Evrma.System.Vdevs

namespace evrma.system

open evrma.event_list evrma.ioctl evrma.lib evrma.mng_dev evrma.rm evrma.virt_dev

variable {H A O : Type}

/-- Every row holds living VIRT_DEVs, each once, and then NULLs. So an addition only
fails for a wrong code, the callbacks go once to every subscriber, a removal removes one
pair, and the hardware is told of the codes that have a subscriber. -/
structure TableExact (m : mngdev_data H) : Prop where
  row : ∀ i, ∃ xs : List Nat, xs.Nodup ∧
    (m.event_dispatch_list i).entries =
      xs.map some ++ List.replicate (EVENT_DISPATCH_LIST_MAX_SUBSCRIBERS - xs.length) none ∧
    ∀ ptr ∈ xs, ∃ v ∈ m.vdev_list, v.ptr = ptr
  add : ∀ v ∈ m.vdev_list, ∀ event,
    (event_dispatch_list_add m.event_dispatch_list v.ptr event).2 =
      if (event_index event).isSome then 0 else -EINVAL
  callbacks : ∀ event,
    (event_dispatch_list_for_all_subscribers m.event_dispatch_list event).Nodup ∧
      ∀ ptr, ptr ∈ event_dispatch_list_for_all_subscribers m.event_dispatch_list event ↔
        ∃ i, event_index event = some i ∧ subscribed m.event_dispatch_list ptr i
  remove : ∀ ptr event ptr' i,
    subscribed (event_dispatch_list_remove m.event_dispatch_list ptr event) ptr' i ↔
      subscribed m.event_dispatch_list ptr' i ∧ ¬ (ptr' = ptr ∧ event_index event = some i)
  all_events : ∀ i,
    event_dispatch_list_add_subscribed_events m.event_dispatch_list event_list_clear i = true ↔
      ∃ ptr, subscribed m.event_dispatch_list ptr i

/-- A request for the subscriptions of a VIRT_DEV. -/
inductive subscription_request where
  | keep
  | subscribe (ptr : Nat) (event : Int)
  | unsubscribe (ptr : Nat) (event : Int)
  | clear (ptr : Nat)

/-- The relation after a request. -/
def subscription_request.apply (subs : Nat → Fin EVENT_LIST_TYPE_MAX_EVENTS → Prop) :
    subscription_request → Nat → Fin EVENT_LIST_TYPE_MAX_EVENTS → Prop
  | .keep => subs
  | .subscribe ptr event => fun ptr' i => subs ptr' i ∨ (ptr' = ptr ∧ event_index event = some i)
  | .unsubscribe ptr event =>
    fun ptr' i => subs ptr' i ∧ ¬ (ptr' = ptr ∧ event_index event = some i)
  | .clear ptr => fun ptr' i => subs ptr' i ∧ ptr' ≠ ptr

/-- What the action of a SUBSCRIBE ioctl requests. -/
def action_request (ptr : Nat) (event : Int) (action : BitVec 8) : subscription_request :=
  if action = VIRT_DEV_IOCTL_SUBSCRIBE_ACTION_SUBSCRIBE then .subscribe ptr event
  else if action = VIRT_DEV_IOCTL_SUBSCRIBE_ACTION_UNSUBSCRIBE then .unsubscribe ptr event
  else if action = VIRT_DEV_IOCTL_SUBSCRIBE_ACTION_CLEAR then .clear ptr
  else .keep

/-- What an operation requests: a SUBSCRIBE ioctl that gets through its action, the
last close of a VIRT_DEV and its destruction that it is subscribed to nothing. -/
def requested (m : mngdev_data H) : op A → subscription_request
  | .vdev_ioctl _ ptr cmd arg =>
    if m.ref.ref_ptr = true ∧ cmd = VIRT_DEV_IOC_SUBSCRIBE ∧ arg.access_ok = true then
      match arg.subscribe with
      | some args => action_request ptr args.event args.action
      | none => .keep
    else .keep
  | .vdev_release _ ptr =>
    match vdev_at m ptr with
    | some v => if v.usage_counter - 1 < 1 then .clear ptr else .keep
    | none => .keep
  | .mngdev_ioctl _ cmd arg =>
    if m.ref.ref_ptr = true ∧ cmd = MNG_DEV_IOC_DESTROY ∧ arg.access_ok = true then
      match arg.destroy.bind fun args => list_find_vdev m args.id with
      | some v => .clear v.ptr
      | none => .keep
    else .keep
  | _ => .keep

/-- An operation changes the relation as it requests, and not otherwise. -/
def SubscriptionsFollow (hs : modac_hw_support_def H A O) (s : modac_state H) (a : op A) : Prop :=
  ∀ u m m', step hs s a = some u → s.mngdev = some m → u.mngdev = some m' → ∀ ptr i,
    subscribed m'.event_dispatch_list ptr i ↔
      (requested m a).apply (subscribed m.event_dispatch_list) ptr i

/-- The rows are filled with living VIRT_DEVs. -/
structure SubscribersInv (u : usage_state) : Prop where
  ptrs : PtrsGiven u
  ids : ∀ d, u.device = some d → IdsOwn d
  rows : ∀ d, u.device = some d → RowsFilled d.event_dispatch_list
  live : ∀ d, u.device = some d → ∀ ptr i, subscribed d.event_dispatch_list ptr i →
    ∃ r ∈ d.vdevs, r.ptr = ptr

/-- The VIRT_DEVs, a given one maybe left out, are there afterwards. -/
def VdevsStay (d d' : mngdev_usage) (except : Nat → Prop) : Prop :=
  ∀ r ∈ d.vdevs, ¬ except r.ptr → ∃ r' ∈ d'.vdevs, r'.ptr = r.ptr

theorem VdevsStay.of_ptrs {d d' : mngdev_usage}
    (h : d'.vdevs.map vdev_usage.ptr = d.vdevs.map vdev_usage.ptr) (except : Nat → Prop) :
    VdevsStay d d' except := by
  intro r hr _
  have hmem : r.ptr ∈ d'.vdevs.map vdev_usage.ptr := h ▸ List.mem_map_of_mem hr
  exact List.mem_map.mp hmem

/-- How a step changes the table of the subscribers. -/
inductive dispatch_change (d d' : mngdev_usage) : Prop where
  | keep (hlist : d'.event_dispatch_list = d.event_dispatch_list)
      (hstay : VdevsStay d d' fun _ => False)
  | clear (ptr : Nat)
      (hlist : d'.event_dispatch_list = event_dispatch_list_remove_all d.event_dispatch_list ptr)
      (hstay : VdevsStay d d' (· = ptr))
  | request (r : vdev_usage) (event : Int) (action : BitVec 8) (hr : r ∈ d.vdevs)
      (hlist : d'.event_dispatch_list =
        subscriptions_after d.event_dispatch_list r.ptr event action)
      (hstay : VdevsStay d d' fun _ => False)

theorem dispatch_change_of_effect {u u' : usage_state} {a : op A} (heffect : usage_effect u a u')
    {d' : mngdev_usage} (hd' : u'.device = some d') :
    ∃ d, u.device = some d ∧ dispatch_change d d' := by
  cases heffect with
  | none => exact ⟨d', hd', .keep rfl (.of_ptrs (by rfl) _)⟩
  | mngdev_open d i kmalloc hd hret =>
    cases hd'
    exact ⟨d, hd, .keep rfl (.of_ptrs (by rfl) _)⟩
  | mngdev_open_busy => exact ⟨d', hd', .keep rfl (.of_ptrs (by rfl) _)⟩
  | mngdev_open_finish d i pid hd hi hpid =>
    cases hd'
    exact ⟨d, hd, .keep rfl (.of_ptrs (by rfl) _)⟩
  | mngdev_release d i hd hfile =>
    rw [put_device hd']
    exact ⟨d, hd, .keep rfl (.of_ptrs (by rfl) _)⟩
  | create d r i cmd arg imngdev ivdev hd =>
    cases hd'
    exact ⟨d, hd, .keep rfl fun r' hr' _ => ⟨r', List.mem_cons_of_mem _ hr', rfl⟩⟩
  | destroy d r i cmd arg args hd =>
    cases hd'
    exact ⟨d, hd, .clear r.ptr rfl fun r' hr' hne => ⟨r', mem_destroy.mpr ⟨hr', hne⟩, rfl⟩⟩
  | alloc d r i cmd arg args rm_data index t k hd =>
    cases hd'
    exact ⟨d, hd, .keep rfl (.of_ptrs (by exact update_field _ _ _ fun r => add_res_ptr r t k) _)⟩
  | vdev_open d r i kmalloc imngdev ivdev hd hr hslot hret =>
    cases hd'
    exact ⟨d, hd, .keep rfl (.of_ptrs (by exact update_field _ _ _ fun _ => rfl) _)⟩
  | vdev_release d r i hd hr hfile =>
    have hptrs : (d.leave r).vdevs.map vdev_usage.ptr = d.vdevs.map vdev_usage.ptr :=
      update_field d r.ptr _ fun _ => rfl
    rw [put_device hd']
    refine ⟨d, hd, ?_⟩
    by_cases hlast : r.usage_counter - 1 < 1
    · exact .clear r.ptr (if_pos hlast) (.of_ptrs (by exact hptrs) _)
    · exact .keep (if_neg hlast) (.of_ptrs (by exact hptrs) _)
  | subscribe d r i cmd arg event action hd hr hfile =>
    cases hd'
    exact ⟨d, hd, .request r event action hr rfl (.of_ptrs (by rfl) _)⟩
  | destroy_unlist => exact ⟨d', hd', .keep rfl (.of_ptrs (by rfl) _)⟩
  | destroy_finish d hd hunplug =>
    rw [put_device hd']
    exact ⟨d, hd, .keep rfl (.of_ptrs (by rfl) _)⟩

/-- The living VIRT_DEVs leave room for each of them in every row. -/
theorem SubscribersInv.room {u : usage_state} (h : SubscribersInv u) {d : mngdev_usage}
    (hd : u.device = some d) {r : vdev_usage} (hr : r ∈ d.vdevs)
    {i : Fin EVENT_LIST_TYPE_MAX_EVENTS} {xs : List Nat}
    (hxs : Filled (d.event_dispatch_list i).entries xs) :
    r.ptr ∈ xs ∨ xs.length < EVENT_DISPATCH_LIST_MAX_SUBSCRIBERS := by
  have hfew : (d.vdevs.map vdev_usage.ptr).length ≤ EVENT_DISPATCH_LIST_MAX_SUBSCRIBERS := by
    rw [List.length_map]
    exact (h.ids d hd).length_le
  refine room_of_live hfew (fun ptr j hsub => ?_) (List.mem_map_of_mem hr) hxs
  obtain ⟨r', hr', rfl⟩ := h.live d hd ptr j hsub
  exact List.mem_map_of_mem hr'

theorem subscriptions_after_apply {list : event_dispatch_list Nat} (hlist : RowsFilled list)
    (ptr : Nat) (event : Int) (action : BitVec 8)
    (hret : (event_dispatch_list_add list ptr event).2 =
      if (event_index event).isSome then 0 else -EINVAL) :
    RowsFilled (subscriptions_after list ptr event action) ∧
      ∀ ptr' i, subscribed (subscriptions_after list ptr event action) ptr' i ↔
        (action_request ptr event action).apply (subscribed list) ptr' i := by
  unfold subscriptions_after action_request
  split_ifs
  · obtain ⟨hrows, hfail, hok⟩ := hlist.add ptr event
    refine ⟨hrows, fun ptr' i => ?_⟩
    cases hindex : event_index event with
    | none =>
      rw [hindex] at hret
      rw [hfail (by rw [hret]; decide)]
      simp [subscription_request.apply, hindex]
    | some e =>
      rw [hindex] at hret
      obtain ⟨e', he', hiff⟩ := hok hret
      obtain rfl := Option.some.inj (hindex.symm.trans he')
      rw [hiff]
      simp [subscription_request.apply, hindex, eq_comm]
  · exact hlist.remove_one ptr event
  · exact hlist.remove_all ptr
  · exact ⟨hlist, fun _ _ => Iff.rfl⟩

theorem SubscribersInv.add_ret {u : usage_state} (h : SubscribersInv u) {d : mngdev_usage}
    (hd : u.device = some d) {r : vdev_usage} (hr : r ∈ d.vdevs) (event : Int) :
    (event_dispatch_list_add d.event_dispatch_list r.ptr event).2 =
      if (event_index event).isSome then 0 else -EINVAL :=
  (h.rows d hd).add_ret r.ptr event fun _ _ _ hxs => h.room hd hr hxs

theorem SubscribersInv.step {u u' : usage_state} {a : op A} (h : SubscribersInv u)
    (heffect : usage_effect u a u') : SubscribersInv u' := by
  have hlists : ∀ d', u'.device = some d' → RowsFilled d'.event_dispatch_list ∧
      ∀ ptr i, subscribed d'.event_dispatch_list ptr i → ∃ r' ∈ d'.vdevs, r'.ptr = ptr := by
    intro d' hd'
    obtain ⟨d, hd, hchange⟩ := dispatch_change_of_effect heffect hd'
    cases hchange with
    | keep hlist hstay =>
      rw [hlist]
      refine ⟨h.rows d hd, fun ptr i hsub => ?_⟩
      obtain ⟨r, hr, rfl⟩ := h.live d hd ptr i hsub
      exact hstay r hr id
    | clear ptr hlist hstay =>
      obtain ⟨hrows, hiff⟩ := (h.rows d hd).remove_all ptr
      rw [hlist]
      refine ⟨hrows, fun ptr' i hsub => ?_⟩
      obtain ⟨hsub, hne⟩ := (hiff ptr' i).mp hsub
      obtain ⟨r, hr, rfl⟩ := h.live d hd ptr' i hsub
      exact hstay r hr hne
    | request r event action hr hlist hstay =>
      obtain ⟨hrows, hiff⟩ := subscriptions_after_apply (h.rows d hd) r.ptr event action
        (h.add_ret hd hr event)
      rw [hlist]
      refine ⟨hrows, fun ptr' i hsub => ?_⟩
      have hold : subscribed d.event_dispatch_list ptr' i ∨ ptr' = r.ptr := by
        have happly := (hiff ptr' i).mp hsub
        unfold action_request at happly
        split_ifs at happly
        · exact happly.imp_right And.left
        · exact .inl happly.1
        · exact .inl happly.1
        · exact .inl happly
      obtain hsub | rfl := hold
      · obtain ⟨r₀, hr₀, rfl⟩ := h.live d hd ptr' i hsub
        exact hstay r₀ hr₀ id
      · exact hstay r hr id
  constructor
  · exact h.ptrs.step heffect
  · intro d' hd'
    obtain ⟨d, hd, hchange⟩ := vdevs_change_of_effect heffect hd'
    exact (h.ids d hd).step hchange
  · intro d' hd'
    exact (hlists d' hd').1
  · intro d' hd'
    exact (hlists d' hd').2

theorem subscribersInv_of_create {hs : modac_hw_support_def H A O} {des : modac_mngdev_des} {hw : H}
    {hw_res_defs : List modac_hw_res_def} {s : modac_state H}
    (h : modac_mngdev_create hs des hw hw_res_defs = .ok s) : SubscribersInv (usage_of s) := by
  obtain ⟨rm_data, -, heq⟩ := usage_of_create h
  refine ⟨ptrsGiven_of_create h, ?_, ?_, ?_⟩
  · rw [heq]
    intro d hd
    cases hd
    exact ⟨List.nodup_nil, by simp⟩
  · rw [heq]
    intro d hd
    cases hd
    exact rowsFilled_init
  · rw [heq]
    intro d hd ptr i hsub
    cases hd
    exact absurd hsub (not_subscribed_init ptr i)

theorem SubscribersInv.tableExact {s : modac_state H} (h : SubscribersInv (usage_of s))
    {m : mngdev_data H} (hm : s.mngdev = some m) : TableExact m := by
  have hd := usage_of_device hm
  have hrows : RowsFilled m.event_dispatch_list := h.rows _ hd
  constructor
  · intro i
    obtain ⟨xs, hxs⟩ := hrows i
    have hentries := hxs.entries_eq
    rw [(m.event_dispatch_list i).length_eq] at hentries
    refine ⟨xs, hxs.1, hentries, fun ptr hptr => ?_⟩
    obtain ⟨r, hr, rfl⟩ := h.live _ hd ptr i (hxs.mem.mpr hptr)
    obtain ⟨v, hv, rfl⟩ := List.mem_map.mp hr
    exact ⟨v, hv, rfl⟩
  · intro v hv event
    exact h.add_ret hd (List.mem_map_of_mem hv) event
  · exact hrows.for_all_subscribers
  · intro ptr event
    exact (hrows.remove_one ptr event).2
  · exact hrows.all_subscriptions

/-- Only three operations change the table. -/
theorem dispatch_same_of_effect {u u' : usage_state} {a : op A} (heffect : usage_effect u a u')
    {d' : mngdev_usage} (hd' : u'.device = some d')
    (hmngdev : ∀ i cmd arg, a ≠ .mngdev_ioctl i cmd arg)
    (hioctl : ∀ i ptr cmd arg, a ≠ .vdev_ioctl i ptr cmd arg)
    (hrelease : ∀ i ptr, a ≠ .vdev_release i ptr) :
    ∃ d, u.device = some d ∧ d'.event_dispatch_list = d.event_dispatch_list := by
  cases heffect with
  | none => exact ⟨d', hd', rfl⟩
  | mngdev_open d i kmalloc hd hret =>
    cases hd'
    exact ⟨d, hd, rfl⟩
  | mngdev_open_busy => exact ⟨d', hd', rfl⟩
  | mngdev_open_finish d i pid hd hi hpid =>
    cases hd'
    exact ⟨d, hd, rfl⟩
  | mngdev_release d i hd hfile =>
    rw [put_device hd']
    exact ⟨d, hd, rfl⟩
  | create => exact absurd rfl (hmngdev _ _ _)
  | destroy => exact absurd rfl (hmngdev _ _ _)
  | alloc => exact absurd rfl (hmngdev _ _ _)
  | vdev_open d r i kmalloc imngdev ivdev hd hr hslot hret =>
    cases hd'
    exact ⟨d, hd, rfl⟩
  | vdev_release => exact absurd rfl (hrelease _ _)
  | subscribe => exact absurd rfl (hioctl _ _ _ _)
  | destroy_unlist => exact ⟨d', hd', rfl⟩
  | destroy_finish d hd hunplug =>
    rw [put_device hd']
    exact ⟨d, hd, rfl⟩

/-- An ioctl of the MNG_DEV ends the subscriptions of the VIRT_DEV that it destroys. -/
theorem mngdev_ioctl_dispatch {hs : modac_hw_support_def H A O} {m : mngdev_data H}
    {slots : vdev_slots} {next_ptr : Nat} (hnew : ∀ w ∈ m.vdev_list, w.ptr ≠ next_ptr) (i : inode)
    (cmd : ioctl_cmd) (arg : mngdev_ioctl_arg A) (hrows : RowsFilled m.event_dispatch_list)
    (ptr : Nat) (j : Fin EVENT_LIST_TYPE_MAX_EVENTS) :
    subscribed (mngdev_unlocked_ioctl hs m slots next_ptr cmd arg).mngdev.event_dispatch_list ptr j ↔
      (requested m (.mngdev_ioctl i cmd arg)).apply (subscribed m.event_dispatch_list) ptr j := by
  by_cases hdestroy : ∃ args v, DestroyFor m cmd arg args v
  · obtain ⟨args, v, hfor⟩ := hdestroy
    have hrequested : requested m (.mngdev_ioctl i cmd arg) = .clear v.ptr := by
      simp only [requested, hfor.valid, hfor.cmd_eq, hfor.access, hfor.args_eq, and_self, if_true,
        Option.bind_some, hfor.find]
    have hlist := congrArg mngdev_usage.event_dispatch_list (mngdev_usage_of_destroy hs m slots v)
    rw [hrequested, hfor.ioctl_eq]
    exact (congrArg (subscribed · ptr j) hlist).to_iff.trans ((hrows.remove_all v.ptr).2 ptr j)
  · have hrequested : requested m (.mngdev_ioctl i cmd arg) = .keep := by
      simp only [requested]
      split_ifs with hcmd
      · cases hargs : arg.destroy with
        | none => rfl
        | some args =>
          cases hfind : list_find_vdev m args.id with
          | none => simp [hfind]
          | some v =>
            exact absurd ⟨args, v, hcmd.1, hcmd.2.1, hcmd.2.2, hargs, hfind⟩ hdestroy
      · rfl
    have heffect : mngdev_ioctl_effect hs m slots next_ptr cmd arg _ _ :=
      mngdev_unlocked_ioctl_effect hnew
    rw [hrequested]
    generalize (mngdev_unlocked_ioctl hs m slots next_ptr cmd arg).mngdev = m' at heffect ⊢
    generalize (mngdev_unlocked_ioctl hs m slots next_ptr cmd arg).vdev_slots = slots' at heffect
    cases heffect with
    | none => exact Iff.rfl
    | hw_ioctl => exact Iff.rfl
    | create => exact Iff.rfl
    | destroy v args hvalid hcmd haccess hargs hfind =>
      exact absurd ⟨args, v, hvalid, hcmd, haccess, hargs, hfind⟩ hdestroy
    | alloc => exact Iff.rfl

/-- A SUBSCRIBE ioctl reaches only the table and the hardware. -/
theorem modac_c_vdev_subscribe_eq (hs : modac_hw_support_def H A O) (m : mngdev_data H) (ptr : Nat)
    (event : Int) (action : BitVec 8) :
    ∃ hw, (modac_c_vdev_subscribe hs m ptr event action).1 =
      { m with
        event_dispatch_list := subscriptions_after m.event_dispatch_list ptr event action
        hw } := by
  have hchange : (change_subscriptions m ptr event action).1 =
      { m with
        event_dispatch_list := subscriptions_after m.event_dispatch_list ptr event action } := by
    unfold change_subscriptions subscriptions_after
    split_ifs <;> rfl
  unfold modac_c_vdev_subscribe
  dsimp only
  split_ifs
  · exact ⟨m.hw, hchange⟩
  · obtain ⟨hw, heq⟩ := on_subscribe_change_eq hs (change_subscriptions m ptr event action).1
    rw [heq, hchange]
    exact ⟨hw, rfl⟩

/-- An ioctl of a VIRT_DEV changes the subscriptions of this one, as it says. -/
theorem vdev_ioctl_dispatch {hs : modac_hw_support_def H A O} {m : mngdev_data H}
    {v : modac_vdev_des} (hrows : RowsFilled m.event_dispatch_list)
    (hret : ∀ event, (event_dispatch_list_add m.event_dispatch_list v.ptr event).2 =
      if (event_index event).isSome then 0 else -EINVAL)
    (i : inode) (cmd : ioctl_cmd) (arg : vdev_ioctl_arg A) (ptr : Nat)
    (j : Fin EVENT_LIST_TYPE_MAX_EVENTS) :
    subscribed (vdev_unlocked_ioctl hs m v cmd arg).1.event_dispatch_list ptr j ↔
      (requested m (.vdev_ioctl i v.ptr cmd arg)).apply (subscribed m.event_dispatch_list) ptr j := by
  by_cases hsubscribe : ∃ args, SubscribeFor m cmd arg args
  · obtain ⟨args, hfor⟩ := hsubscribe
    have hrequested : requested m (.vdev_ioctl i v.ptr cmd arg) =
        action_request v.ptr args.event args.action := by
      simp only [requested, hfor.valid, hfor.cmd_eq, hfor.access, hfor.args_eq, and_self, if_true]
    obtain ⟨hw, heq⟩ := modac_c_vdev_subscribe_eq hs m v.ptr args.event args.action
    rw [hrequested, hfor.ioctl_eq, heq]
    exact (subscriptions_after_apply hrows v.ptr args.event args.action (hret args.event)).2 ptr j
  · have hrequested : requested m (.vdev_ioctl i v.ptr cmd arg) = .keep := by
      simp only [requested]
      split_ifs with hcmd
      · cases hargs : arg.subscribe with
        | none => rfl
        | some args => exact absurd ⟨args, hcmd.1, hcmd.2.1, hcmd.2.2, hargs⟩ hsubscribe
      · rfl
    have heffect := vdev_unlocked_ioctl_effect hs m v cmd arg
    rw [hrequested]
    generalize (vdev_unlocked_ioctl hs m v cmd arg).1 = m' at heffect ⊢
    cases heffect with
    | none => exact Iff.rfl
    | direct_ioctl => exact Iff.rfl
    | hw_ioctl => exact Iff.rfl
    | subscribe args hvalid hcmd haccess hargs =>
      exact absurd ⟨args, hvalid, hcmd, haccess, hargs⟩ hsubscribe

theorem SubscribersInv.follow {hs : modac_hw_support_def H A O} {s : modac_state H}
    (h : SubscribersInv (usage_of s)) (a : op A) : SubscriptionsFollow hs s a := by
  intro u m m' hstep hm hm' ptr j
  have hd := usage_of_device hm
  have hrows : RowsFilled m.event_dispatch_list := h.rows _ hd
  have hother : (∀ i cmd arg, a ≠ .mngdev_ioctl i cmd arg) →
      (∀ i ptr cmd arg, a ≠ .vdev_ioctl i ptr cmd arg) → (∀ i ptr, a ≠ .vdev_release i ptr) →
      m'.event_dispatch_list = m.event_dispatch_list := by
    intro hmngdev hioctl hrelease
    obtain ⟨d, hd', hlist⟩ := dispatch_same_of_effect (usage_effect_of_step h.ptrs hstep)
      (usage_of_device hm') hmngdev hioctl hrelease
    obtain rfl := Option.some.inj (hd.symm.trans hd')
    exact hlist
  cases a with
  | mngdev_ioctl i cmd arg =>
    obtain ⟨m₀, hm₀, -, rfl⟩ := step_mngdev_ioctl hstep
    obtain rfl := Option.some.inj (hm.symm.trans hm₀)
    obtain rfl := Option.some.inj hm'
    refine mngdev_ioctl_dispatch (fun w hw => ?_) i cmd arg hrows ptr j
    exact Nat.ne_of_lt (h.ptrs.lt _ hd (vdev_usage_of w) (List.mem_map_of_mem hw))
  | vdev_ioctl i p cmd arg =>
    obtain ⟨r, hexec, rfl⟩ := Option.map_eq_some_iff.mp hstep
    obtain ⟨m₀, v, hm₀, hv, rfl, -, hexec⟩ := on_vdev_file_eq_some hexec
    obtain rfl := Option.some.inj (hm.symm.trans hm₀)
    obtain rfl := Option.some.inj hexec
    obtain rfl := Option.some.inj hm'
    exact vdev_ioctl_dispatch hrows (fun event => h.add_ret hd (vdev_at_usage hv) event) i cmd arg
      ptr j
  | vdev_release i p =>
    obtain ⟨r, hexec, rfl⟩ := Option.map_eq_some_iff.mp hstep
    obtain ⟨m₀, v, hm₀, hv, rfl, -, hexec⟩ := on_vdev_file_eq_some hexec
    obtain rfl := Option.some.inj (hm.symm.trans hm₀)
    obtain rfl := Option.some.inj hexec
    have hput := usage_of_put_reference hs { s with files := s.files.erase ⟨i, .vdev v.ptr⟩ }
      (vdev_leave hs m v) (some i) (some v.ptr)
    have hd' := usage_of_device hm'
    rw [vdev_release, modac_c_vdev_on_close, hput, mngdev_usage_of_leave] at hd'
    have hlist : m'.event_dispatch_list =
        if v.usage_counter - 1 < 1 then event_dispatch_list_remove_all m.event_dispatch_list v.ptr
        else m.event_dispatch_list :=
      congrArg mngdev_usage.event_dispatch_list (put_device hd')
    rw [hlist]
    simp only [requested, hv]
    split_ifs
    · exact (hrows.remove_all v.ptr).2 ptr j
    · exact Iff.rfl
  | _ =>
    rw [hother (by simp) (by simp) (by simp)]
    exact Iff.rfl

/-- In every state of every run the table is exactly the relation of the subscriptions,
which each operation changes as it requests. -/
theorem subscriptions_exact {hs : modac_hw_support_def H A O} {des : modac_mngdev_des} {hw : H}
    {hw_res_defs : List modac_hw_res_def} {s : modac_state H}
    (hcreate : modac_mngdev_create hs des hw hw_res_defs = .ok s) (ops : List (op A)) :
    StatesMeet (step hs) (fun s => ∀ m, s.mngdev = some m → TableExact m) s ops ∧
      StepsMeet (step hs) (SubscriptionsFollow hs) s ops := by
  have hkeep : ∀ (s : modac_state H) (a : op A) u, SubscribersInv (usage_of s) →
      step hs s a = some u → SubscribersInv (usage_of u) := by
    intro s a u hinv hstep
    exact hinv.step (usage_effect_of_step hinv.ptrs hstep)
  constructor
  · apply statesMeet_of_invariant (I := fun s => SubscribersInv (usage_of s))
    · intro s hinv m hm
      exact hinv.tableExact hm
    · exact hkeep
    · exact subscribersInv_of_create hcreate
  · apply stepsMeet_of_invariant (I := fun s => SubscribersInv (usage_of s)) hkeep
    · intro s a t hinv _
      exact hinv.follow a
    · exact subscribersInv_of_create hcreate

/-- Two VIRT_DEVs subscribe; one of the subscriptions is cancelled, then that VIRT_DEV is closed. -/
def subscribe_and_close : List (op Unit) :=
  open_first ++ [create_vdev [0x61], create_vdev [0x62], .vdev_open ⟨2, 1⟩ true,
    .vdev_open ⟨3, 2⟩ true,
    subscribe_vdev ⟨2, 1⟩ 0 40 VIRT_DEV_IOCTL_SUBSCRIBE_ACTION_SUBSCRIBE,
    subscribe_vdev ⟨2, 1⟩ 0 41 VIRT_DEV_IOCTL_SUBSCRIBE_ACTION_SUBSCRIBE,
    subscribe_vdev ⟨3, 2⟩ 1 40 VIRT_DEV_IOCTL_SUBSCRIBE_ACTION_SUBSCRIBE,
    subscribe_vdev ⟨2, 1⟩ 0 40 VIRT_DEV_IOCTL_SUBSCRIBE_ACTION_UNSUBSCRIBE,
    .vdev_release ⟨2, 1⟩ 0]

theorem subscriptions_exact_subscribe_and_close :
    ∃ s u m, modac_mngdev_create recording_hw_support first_mngdev [] [] = .ok s ∧
      run (step recording_hw_support) s subscribe_and_close = some u ∧ u.mngdev = some m ∧
      ((event_dispatch_list_for_all_subscribers m.event_dispatch_list 40) = [1] ∧
        (event_dispatch_list_for_all_subscribers m.event_dispatch_list 41) = []) ∧
      StatesMeet (step recording_hw_support) (fun s => ∀ m, s.mngdev = some m → TableExact m) s
        subscribe_and_close ∧
      StepsMeet (step recording_hw_support) (SubscriptionsFollow recording_hw_support) s
        subscribe_and_close := by
  have hrun : ∃ s, modac_mngdev_create recording_hw_support first_mngdev [] [] = .ok s ∧
      ((run (step recording_hw_support) s subscribe_and_close).any fun u => u.mngdev.any fun m =>
        decide (event_dispatch_list_for_all_subscribers m.event_dispatch_list 40 = [1]) &&
          decide (event_dispatch_list_for_all_subscribers m.event_dispatch_list 41 = [])) = true :=
    ⟨_, rfl, by decide +kernel⟩
  simp only [Option.any_eq_true, Bool.and_eq_true, decide_eq_true_eq] at hrun
  obtain ⟨s, hcreate, u, hrun, m, hm, hrows⟩ := hrun
  exact ⟨s, u, m, hcreate, hrun, hm, hrows, subscriptions_exact hcreate _⟩

end evrma.system
