import Mathlib.Algebra.Group.Nat.Defs
import VosStack.Basic

/-!
# The list of pending events

`CFSEventQueueBase` is a list of events with its size kept beside it, in a `DWORD`. `PostEvent`
appends, or destroys the event when the queue is stopped. `PopPendingEvents` takes the whole list
by a swap when it is not longer than the maximum, and moves events one by one otherwise.

The size is the length of the list modulo `2 ^ 32` (`SizeOk`). A pop takes the front of the list
whatever the size says; as long as fewer than `2 ^ 32` events are pending it takes as many as it
may (`popPendingEvents_of_lt`).
-/

namespace VosStack.EventQueue

/-- `MAX_GET_ONCE`. -/
def maxGetOnce : BitVec 32 := 100000

structure CFSEventQueueBase (ε : Type*) where
  /-- `m_Events` -/
  events : List ε
  /-- `m_dwSize` -/
  dwSize : BitVec 32
  /-- `m_bIsStopped` -/
  isStopped : Bool
  deriving DecidableEq, Repr

namespace CFSEventQueueBase

variable {ε : Type*}

/-- The event at the end of the list. -/
def append (q : CFSEventQueueBase ε) (aEvent : ε) : CFSEventQueueBase ε :=
  { q with events := q.events ++ [aEvent], dwSize := q.dwSize + 1 }

/-- `PostEvent`; with `CAW_ERROR_NOT_INITIALIZED` the event has been destroyed. -/
def postEvent (q : CFSEventQueueBase ε) (aEvent : ε) : CFSEventQueueBase ε × CAWResult :=
  if q.isStopped then (q, .notInitialized) else (q.append aEvent, .ok)

/-- `PostEventWithOldSize`: also `*aOldSize`. -/
def postEventWithOldSize (q : CFSEventQueueBase ε) (aEvent : ε) :
    CFSEventQueueBase ε × CAWResult × BitVec 32 :=
  ((q.postEvent aEvent).1, (q.postEvent aEvent).2, q.dwSize)

/-- The `for` loop of `PopPendingEvents`, `n` rounds before its end. It does not meet an empty list
(`popLoop_eq`). -/
def popLoop : ℕ → CFSEventQueueBase ε → List ε → CFSEventQueueBase ε × List ε
  | 0, q, aEvents => (q, aEvents)
  | n + 1, q, aEvents =>
    match q.events with
    | [] => (q, aEvents)
    | e :: events => popLoop n { q with events, dwSize := q.dwSize - 1 } (aEvents ++ [e])

/-- `PopPendingEvents`: the queue after it, `aEvents` and `*aRemainSize`; none for
`CAW_ERROR_NOT_FOUND`. -/
def popPendingEvents (q : CFSEventQueueBase ε) (aMaxCount : BitVec 32) :
    Option (CFSEventQueueBase ε × List ε × BitVec 32) :=
  let dwTotal := q.dwSize
  if dwTotal = 0 then none
  else if dwTotal ≤ aMaxCount then some ({ q with events := [], dwSize := 0 }, q.events, 0)
  else
    let (q', aEvents) := popLoop aMaxCount.toNat q []
    some (q', aEvents, q'.dwSize)

/-- `PopOnePendingEvent`. -/
def popOnePendingEvent (q : CFSEventQueueBase ε) :
    Option (CFSEventQueueBase ε × ε × BitVec 32) :=
  if q.dwSize = 0 then none
  else
    match q.events with
    | [] => none
    | e :: events => some ({ q with events, dwSize := q.dwSize - 1 }, e, q.dwSize - 1)

def stop (q : CFSEventQueueBase ε) : CFSEventQueueBase ε := { q with isStopped := true }

/-- `DestoryPendingEvents`, after the calls of `OnDestorySelf`. `m_dwSize` is not touched. -/
def destoryPendingEvents (q : CFSEventQueueBase ε) : CFSEventQueueBase ε := { q with events := [] }

/-! ### What they do -/

/-- The size is right, as far as a `DWORD` can hold it. -/
def SizeOk (q : CFSEventQueueBase ε) : Prop := q.dwSize = BitVec.ofNat 32 q.events.length

variable {q q' : CFSEventQueueBase ε}

theorem SizeOk.toNat_eq (h : q.SizeOk) : q.dwSize.toNat = q.events.length % 2 ^ 32 := by
  rw [h, BitVec.toNat_ofNat]

theorem SizeOk.toNat_le (h : q.SizeOk) : q.dwSize.toNat ≤ q.events.length := by
  rw [h.toNat_eq]
  exact Nat.mod_le _ _

theorem SizeOk.append (h : q.SizeOk) (aEvent : ε) : (q.append aEvent).SizeOk := by
  rw [SizeOk, CFSEventQueueBase.append, List.length_append, List.length_singleton,
    BitVec.ofNat_add, ← h]
  rfl

theorem postEvent_of_stopped (h : q.isStopped = true) (aEvent : ε) :
    q.postEvent aEvent = (q, .notInitialized) := if_pos h

theorem postEvent_of_not_stopped (h : q.isStopped = false) (aEvent : ε) :
    q.postEvent aEvent = (q.append aEvent, .ok) := by
  rw [postEvent, h, if_neg Bool.false_ne_true]

theorem postEventWithOldSize_of_stopped (h : q.isStopped = true) (aEvent : ε) :
    q.postEventWithOldSize aEvent = (q, .notInitialized, q.dwSize) := by
  rw [postEventWithOldSize, postEvent_of_stopped h]

theorem postEventWithOldSize_of_not_stopped (h : q.isStopped = false) (aEvent : ε) :
    q.postEventWithOldSize aEvent = (q.append aEvent, .ok, q.dwSize) := by
  rw [postEventWithOldSize, postEvent_of_not_stopped h]

theorem SizeOk.tail (h : q.SizeOk) {e : ε} {events : List ε} (he : q.events = e :: events) :
    SizeOk { q with events, dwSize := q.dwSize - 1 } := by
  rw [SizeOk] at h ⊢
  rw [h, he, List.length_cons, BitVec.ofNat_add]
  exact BitVec.add_sub_cancel ..

/-- The loop takes the first `n` events. -/
theorem popLoop_eq (n : ℕ) (h : q.SizeOk) (hn : n ≤ q.events.length) (aEvents : List ε) :
    popLoop n q aEvents =
      (⟨q.events.drop n, BitVec.ofNat 32 (q.events.drop n).length, q.isStopped⟩,
        aEvents ++ q.events.take n) := by
  induction n generalizing q aEvents with
  | zero =>
    rw [popLoop, List.drop_zero, List.take_zero, List.append_nil, ← h]
  | succ n ih =>
    cases he : q.events with
    | nil =>
      rw [he, List.length_nil] at hn
      omega
    | cons e events =>
      rw [he, List.length_cons] at hn
      rw [popLoop, he]
      dsimp only
      rw [ih (h.tail he) (Nat.le_of_succ_le_succ hn), List.append_assoc]
      rfl

theorem popLoop_append (n : ℕ) (q : CFSEventQueueBase ε) (aEvents : List ε) :
    (popLoop n q aEvents).2 ++ (popLoop n q aEvents).1.events = aEvents ++ q.events ∧
      (popLoop n q aEvents).1.isStopped = q.isStopped := by
  induction n generalizing q aEvents with
  | zero => exact ⟨rfl, rfl⟩
  | succ n ih =>
    rw [popLoop]
    split
    · exact ⟨rfl, rfl⟩
    · next e events he =>
      obtain ⟨happend, hstopped⟩ := ih { q with events, dwSize := q.dwSize - 1 } (aEvents ++ [e])
      refine ⟨happend.trans ?_, hstopped⟩
      rw [he, List.append_assoc]
      rfl

/-- **A pop** takes the front of the list, however many events are pending. -/
theorem popPendingEvents_append {aMaxCount dwRemain : BitVec 32} {aEvents : List ε}
    (hpop : q.popPendingEvents aMaxCount = some (q', aEvents, dwRemain)) :
    aEvents ++ q'.events = q.events ∧ q'.isStopped = q.isStopped ∧ dwRemain = q'.dwSize := by
  rw [popPendingEvents] at hpop
  dsimp only at hpop
  split at hpop
  · contradiction
  split at hpop
  · obtain ⟨rfl, rfl, rfl⟩ := hpop
    exact ⟨List.append_nil _, rfl, rfl⟩
  · obtain ⟨happend, hstopped⟩ := popLoop_append aMaxCount.toNat q []
    obtain ⟨rfl, rfl, rfl⟩ := hpop
    exact ⟨happend, hstopped, rfl⟩

theorem SizeOk.popPendingEvents (h : q.SizeOk) {aMaxCount dwRemain : BitVec 32} {aEvents : List ε}
    (hpop : q.popPendingEvents aMaxCount = some (q', aEvents, dwRemain)) : q'.SizeOk := by
  rw [CFSEventQueueBase.popPendingEvents] at hpop
  dsimp only at hpop
  split at hpop
  · contradiction
  split at hpop
  · obtain ⟨rfl, rfl, rfl⟩ := hpop
    rfl
  · next hle =>
    have hlt : aMaxCount.toNat < q.dwSize.toNat := BitVec.lt_def.mp (BitVec.not_le.mp hle)
    rw [popLoop_eq aMaxCount.toNat h (Nat.le_trans (Nat.le_of_lt hlt) h.toNat_le)] at hpop
    obtain ⟨rfl, rfl, rfl⟩ := hpop
    rfl

/-- The size says that nothing is pending exactly when the number of events is a multiple of
`2 ^ 32`. -/
theorem SizeOk.dwSize_eq_zero_iff (h : q.SizeOk) :
    q.dwSize = 0 ↔ q.events.length % 2 ^ 32 = 0 := by
  rw [← h.toNat_eq]
  exact BitVec.toNat_inj.symm

theorem popPendingEvents_eq_none_iff {aMaxCount : BitVec 32} :
    q.popPendingEvents aMaxCount = none ↔ q.dwSize = 0 := by
  rw [popPendingEvents]
  dsimp only
  split
  · next hzero => exact iff_of_true rfl hzero
  · next hne =>
    refine iff_of_false ?_ hne
    split <;> exact Option.some_ne_none _

/-- **The oldest events.** Fewer than `2 ^ 32` events are pending: a pop takes as many as it may
and reports how many remain. -/
theorem popPendingEvents_of_lt (h : q.SizeOk) (hpos : q.events ≠ [])
    (hlt : q.events.length < 2 ^ 32) (aMaxCount : BitVec 32) :
    q.popPendingEvents aMaxCount =
      some (⟨q.events.drop (min aMaxCount.toNat q.events.length),
          BitVec.ofNat 32 (q.events.drop (min aMaxCount.toNat q.events.length)).length,
          q.isStopped⟩,
        q.events.take (min aMaxCount.toNat q.events.length),
        BitVec.ofNat 32 (q.events.drop (min aMaxCount.toNat q.events.length)).length) := by
  have htotal : q.dwSize.toNat = q.events.length := by
    rw [h.toNat_eq, Nat.mod_eq_of_lt hlt]
  have hne : q.dwSize ≠ 0 := by
    rw [Ne, h.dwSize_eq_zero_iff, Nat.mod_eq_of_lt hlt, List.length_eq_zero_iff]
    exact hpos
  have hle : q.dwSize ≤ aMaxCount ↔ q.events.length ≤ aMaxCount.toNat := by
    rw [BitVec.le_def, htotal]
  rw [popPendingEvents]
  dsimp only
  rw [if_neg hne]
  simp only [hle]
  split
  · next hall => rw [Nat.min_eq_right hall, List.drop_length, List.take_length]; rfl
  · next hgt =>
    have hgt := Nat.le_of_not_le hgt
    rw [popLoop_eq aMaxCount.toNat h hgt, Nat.min_eq_left hgt]
    rfl

/-- `PopOnePendingEvent` takes the oldest event. -/
theorem popOnePendingEvent_append (h : q.SizeOk) {e : ε} {dwRemain : BitVec 32}
    (hpop : q.popOnePendingEvent = some (q', e, dwRemain)) :
    e :: q'.events = q.events ∧ q'.isStopped = q.isStopped ∧ q'.SizeOk := by
  rw [popOnePendingEvent] at hpop
  split at hpop
  · contradiction
  split at hpop
  · contradiction
  · next he =>
    obtain ⟨rfl, rfl, rfl⟩ := hpop
    exact ⟨he.symm, rfl, h.tail he⟩

/-! ### Events under other names -/

variable {δ : Type*}

/-- The queue with `f e` for the event `e`. -/
def map (f : ε → δ) (q : CFSEventQueueBase ε) : CFSEventQueueBase δ :=
  ⟨q.events.map f, q.dwSize, q.isStopped⟩

theorem map_congr {f g : ε → δ} (h : ∀ e ∈ q.events, f e = g e) : q.map f = q.map g := by
  rw [map, List.map_congr_left h]
  rfl

theorem append_map (f : ε → δ) (q : CFSEventQueueBase ε) (e : ε) :
    (q.append e).map f = (q.map f).append (f e) := by
  rw [map, append, List.map_append]
  rfl

theorem popLoop_map (f : ε → δ) (n : ℕ) (q : CFSEventQueueBase ε) (aEvents : List ε) :
    popLoop n (q.map f) (aEvents.map f) =
      ((popLoop n q aEvents).1.map f, (popLoop n q aEvents).2.map f) := by
  induction n generalizing q aEvents with
  | zero => rfl
  | succ n ih =>
    rw [popLoop, popLoop]
    cases he : q.events with
    | nil => rw [map, he]; rfl
    | cons e events =>
      have hrest := ih { q with events, dwSize := q.dwSize - 1 } (aEvents ++ [e])
      rw [List.map_append] at hrest
      rw [map, he]
      exact hrest

/-- A pop does not look at the events. -/
theorem popPendingEvents_map (f : ε → δ) (q : CFSEventQueueBase ε) (aMaxCount : BitVec 32) :
    (q.map f).popPendingEvents aMaxCount =
      (q.popPendingEvents aMaxCount).map fun r => (r.1.map f, r.2.1.map f, r.2.2) := by
  rw [popPendingEvents, popPendingEvents, show (q.map f).dwSize = q.dwSize from rfl]
  dsimp only
  split
  · rfl
  split
  · rfl
  · have hloop := popLoop_map f aMaxCount.toNat q []
    rw [List.map_nil] at hloop
    rw [hloop]
    rfl

end CFSEventQueueBase

end VosStack.EventQueue
