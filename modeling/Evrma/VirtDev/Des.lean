import Evrma.EventList
import Evrma.HwSupport
import Evrma.PacketQueue.Buffer

namespace evrma.virt_dev

open evrma.event_list evrma.ioctl evrma.packet_queue

abbrev MODAC_RES_PER_VIRT_DEV_MAX_COUNT : Nat := 32

/-- The resources of one type, `res_alloc_index[0 .. res_alloc_count)`. -/
structure res_type_data where
  res_alloc_index : List Int
  res_alloc_count_le : res_alloc_index.length ≤ MODAC_RES_PER_VIRT_DEV_MAX_COUNT

def res_type_data.empty : res_type_data := ⟨[], by decide⟩

/-- `modac_vdev_des` with its `vdev_data`, which live and die together; `ptr` is
where they are in memory. A direct access counts itself only while it lasts. -/
structure modac_vdev_des where
  ptr : Nat
  id : BitVec 8
  major : Int
  minor : Int
  name : name_field
  res_type_data : Nat → res_type_data
  usage_counter : Int
  direct_access_denied : Bool
  leave_res_set_on_last_close : BitVec 32
  notified_events : event_list_type
  cb_events : modac_circ_buf

/-- `cb_events` is allocated with arbitrary contents. -/
def init_dev (v : modac_vdev_des) (cb_events : modac_circ_buf) : modac_vdev_des :=
  { v with
    cb_events := modac_cb_init cb_events
    direct_access_denied := false
    notified_events := event_list_clear }

def modac_vdev_notify (v : modac_vdev_des) (event : Int) : modac_vdev_des :=
  { v with notified_events := event_list_add v.notified_events event }

def modac_vdev_put_cb (v : modac_vdev_des) (event : Int) (data : List (BitVec 8)) :
    modac_vdev_des :=
  { v with cb_events := (modac_cb_put v.cb_events event data).1 }

def read_has_data (v : modac_vdev_des) : Bool :=
  modac_cb_available v.cb_events || !event_list_is_empty v.notified_events

/-- A notified event has only its code. `none` stands for the returned 0. -/
@[irreducible]
def read_get (v : modac_vdev_des) : modac_vdev_des × Option cb_read :=
  let event := event_list_extract_one v.notified_events
  if 0 ≤ event then
    ({ v with notified_events := event_list_remove v.notified_events event },
      some { event := BitVec.ofInt 16 event, data := [], n := 2 })
  else
    let (cb_events, got) := modac_cb_get v.cb_events
    ({ v with cb_events }, got)

/-- The place of one full event in the buffer. -/
abbrev READ_MIN : Int := 2 + 12

/-- The loop of `vdev_read`, from the state after the records `got`. `none` means
that the reader goes to sleep, which it only does before it has a record. The bound
is on the number of records, which the queue and the notified events limit. -/
def read_loop (nonblock : Bool) (copy_to_user : Nat → Bool) :
    (bound : Nat) → modac_vdev_des → (buf_still_free : Int) → (got : List cb_read) →
    Option (modac_vdev_des × Int × List cb_read)
  | 0, v, _, got => some (v, (got.map cb_read.n).sum, got)
  | bound + 1, v, buf_still_free, got =>
    -- compared as unsigned numbers
    if READ_MIN ≤ buf_still_free ∨ buf_still_free < 0 then
      match read_get v with
      | (v, none) =>
        if got ≠ [] then some (v, (got.map cb_read.n).sum, got)
        else if nonblock then some (v, -EAGAIN, [])
        else none
      | (v, some r) =>
        if copy_to_user got.length then
          read_loop nonblock copy_to_user bound v (buf_still_free - r.n) (got ++ [r])
        else some (v, -EFAULT, got)
    else some (v, (got.map cb_read.n).sum, got)

/-- The returned value and the records that are in the user's buffer. -/
def vdev_read (v : modac_vdev_des) (buf_len : Nat) (nonblock : Bool) (copy_to_user : Nat → Bool) :
    Option (modac_vdev_des × Int × List cb_read) :=
  if v.direct_access_denied then some (v, -ENODEV, [])
  else if (buf_len : Int) < READ_MIN then some (v, -EINVAL, [])
  else
    read_loop nonblock copy_to_user (EVENT_LIST_TYPE_MAX_EVENTS + CBUF_EVENT_COUNT) v buf_len []

/-- `POLLIN | POLLRDNORM` -/
abbrev POLL_READABLE : Int := 0x41

def vdev_poll (v : modac_vdev_des) : Int :=
  if v.direct_access_denied then -ENODEV
  else if read_has_data v then POLL_READABLE
  else 0

end evrma.virt_dev
