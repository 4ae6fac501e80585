import Mathlib.Data.Int.Notation
import Mathlib.Logic.Function.Basic
import VosStack.Basic
import VosStack.Transition.Run

/-!
# Opening and closing the reactor

`CFSReactorEpoll::Open` creates the epoll descriptor, the timer queue and the notify pipe, and
registers the pipe. `Close` closes the pipe and deletes the timer queue; the **epoll descriptor is
closed by the destructor only**, and `m_nEpollFd` keeps its number.

Two things follow. An `Open` that fails after the epoll descriptor was created leaves it open. And
an `Open` after a `Close`, or after such a failure, finds `m_nEpollFd > 0` and returns `CAW_OK`
without a timer queue and without a notify pipe.

Descriptor 0 is a case of its own: the test does not see it, so that `Open` creates a second epoll
descriptor, and the first one is lost if that fails.

What the kernel answers is an input, and so is the result of `RegisterHandler`: with
`CAW_ERROR_FOUND` the pipe is bound to its handler although the call fails. The descriptors that
the reactor has opened and not closed are in `mine`.
-/

namespace VosStack.OpenClose

open Transition

structure World where
  /-- `m_nEpollFd` -/
  epollFd : ℤ
  /-- `m_pTimerQueue` is not `NULL` -/
  timerQueue : Bool
  /-- the two handles of `m_PipeNotify`, none for `-1` -/
  pipe : Option (ℤ × ℤ)
  /-- `m_pReactor` of `m_Notify` is not `NULL` -/
  attached : Bool
  /-- the read end of the pipe is bound in `m_EhRepository` -/
  bound : Bool
  /-- it is registered with the epoll descriptor -/
  registered : Bool
  /-- ghost: the descriptors of the reactor that are open -/
  mine : ℤ → Bool
  /-- ghost: what `Open` has returned, if that was the last call -/
  last : Option CAWResult

def init : World := ⟨-1, false, none, false, false, false, fun _ => false, none⟩

inductive Register
  | ok
  | failure
  /-- bound, with `CAW_ERROR_FOUND` -/
  | found
  deriving DecidableEq, Repr

def Register.rv : Register → CAWResult
  | .ok => .ok
  | .failure => .failure
  | .found => .found

/-- What an `Open` meets. -/
structure Attempt where
  /-- `vos_epoll_create`, none for `-1` -/
  epollCreate : Option ℤ
  /-- there is memory for a timer queue -/
  newTimerQueue : Bool
  /-- `vos_sock_socketpair` -/
  socketpair : Option (ℤ × ℤ)
  /-- `RegisterHandler` of the notify handler -/
  registerHandler : Register
  deriving DecidableEq, Repr

namespace World

/-- `vos_epoll_create`: a descriptor that is not open. -/
def epollCreate (w : World) (s : Attempt) : World :=
  match s.epollCreate with
  | none => { w with epollFd := -1 }
  | some fd =>
    if fd < 0 ∨ w.mine fd then { w with epollFd := -1 }
    else { w with epollFd := fd, mine := Function.update w.mine fd true }

/-- `CFSReactorBase::Open`. -/
def openBase (w : World) (s : Attempt) : World × CAWResult :=
  if w.timerQueue then (w, .ok)
  else if s.newTimerQueue then ({ w with timerQueue := true }, .ok)
  else (w, .outOfMemory)

/-- `CFSPipe::Open`. -/
def openPipe (w : World) (s : Attempt) : World × CAWResult :=
  match s.socketpair with
  | none => (w, .failure)
  | some (a, b) =>
    if a < 0 ∨ b < 0 ∨ a = b ∨ w.mine a ∨ w.mine b then (w, .failure)
    else
      ({ w with
        pipe := some (a, b)
        mine := Function.update (Function.update w.mine a true) b true }, .ok)

/-- `CFSPipe::Close`. -/
def closePipe (w : World) : World :=
  match w.pipe with
  | none => w
  | some (a, b) =>
    { w with pipe := none, mine := Function.update (Function.update w.mine a false) b false }

/-- `CFSReactorNotifyPipe::Close`. -/
def closeNotify (w : World) : World :=
  if w.attached then closePipe { w with bound := false, registered := false, attached := false }
  else w.closePipe

/-- `CFSReactorNotifyPipe::Open`. -/
def openNotify (w : World) (s : Attempt) : World × CAWResult :=
  let (w, rv) := openPipe { w with attached := true } s
  if rv.failed then (w, rv)
  else
    match s.registerHandler with
    | .ok => ({ w with bound := true, registered := true }, .ok)
    | .failure => (w.closeNotify, .failure)
    | .found => (closeNotify { w with bound := true }, .found)

/-- `CFSReactorEpoll::Close`. -/
def close (w : World) : World := { w.closeNotify with timerQueue := false }

/-- `CFSReactorEpoll::Open` after `vos_epoll_create`. -/
def openRest (w : World) (s : Attempt) : World × CAWResult :=
  let (w, rv) := w.openBase s
  if rv.failed then (w.close, rv)
  else
    let (w, rv) := w.openNotify s
    if rv.failed then (w.close, rv) else (w, .ok)

/-- `CFSReactorEpoll::Open`. -/
def openReactor (w : World) (s : Attempt) : World × CAWResult :=
  if 0 < w.epollFd then (w, .ok)
  else
    let w := w.epollCreate s
    if w.epollFd < 0 then (w.close, .failure) else w.openRest s

end World

inductive Action
  | openReactor (s : Attempt)
  | close
  deriving DecidableEq, Repr

def step (w : World) : Action → Option World
  | .openReactor s =>
    let (w, rv) := w.openReactor s
    some { w with last := some rv }
  | .close => some { w.close with last := none }

/-! ### The contract -/

/-- The epoll descriptor is open, there is a timer queue, and the notify pipe is open and
registered. -/
structure Complete (w : World) : Prop where
  epoll : w.mine w.epollFd = true
  timerQueue : w.timerQueue = true
  pipe : ∃ a b, w.pipe = some (a, b) ∧ w.mine a = true ∧ w.mine b = true
  bound : w.bound = true
  registered : w.registered = true

/-- No descriptor is open, and nothing is left. -/
structure Closed (w : World) : Prop where
  mine : ∀ fd, w.mine fd = false
  epoll : w.epollFd = -1
  timerQueue : w.timerQueue = false
  pipe : w.pipe = none
  attached : w.attached = false
  bound : w.bound = false

structure OpenOk (w : World) : Prop where
  ok : w.last = some .ok → Complete w
  failed : ∀ rv, w.last = some rv → rv ≠ .ok → Closed w

/-- There are two new descriptors for the pipe. -/
def Attempt.Pair (mine : ℤ → Bool) (s : Attempt) (a b : ℤ) : Prop :=
  s.socketpair = some (a, b) ∧ ¬ (a < 0 ∨ b < 0 ∨ a = b ∨ mine a ∨ mine b)

/-- No step after `vos_epoll_create` fails. -/
def Attempt.Succeeds (w : World) (s : Attempt) : Prop :=
  (w.timerQueue = true ∨ s.newTimerQueue = true) ∧
    (∃ a b, s.Pair (w.epollCreate s).mine a b) ∧ s.registerHandler = .ok

/-- The condition: a reactor that looks open is complete; no step of an `Open` fails after
`vos_epoll_create`, and this one fails only when there is no epoll descriptor yet. -/
def Sound (w : World) : Action → Prop
  | .openReactor s =>
    (0 < w.epollFd → Complete w) ∧
    (w.epollFd ≤ 0 → (w.epollCreate s).epollFd < 0 → w.epollFd ≠ 0) ∧
    (w.epollFd ≤ 0 → 0 ≤ (w.epollCreate s).epollFd → s.Succeeds w)
  | .close => True

/-! ### Descriptors that stay -/

section holds

variable {w : World} {s : Attempt} {fd : ℤ}

/-- The descriptor is open, and it is not one of the pipe. -/
structure Holds (fd : ℤ) (w : World) : Prop where
  mine : w.mine fd = true
  pipe : ∀ a b, w.pipe = some (a, b) → a ≠ fd ∧ b ≠ fd

theorem Holds.not_closed (h : Holds fd w) : ¬ Closed w := by
  intro hclosed
  exact Bool.false_ne_true ((hclosed.mine fd).symm.trans h.mine)

theorem Holds.closePipe (h : Holds fd w) : Holds fd w.closePipe := by
  unfold World.closePipe
  split
  · exact h
  · next a b hpipe =>
    obtain ⟨ha, hb⟩ := h.pipe a b hpipe
    refine ⟨?_, fun _ _ hnone => nomatch hnone⟩
    exact (Function.update_of_ne hb.symm _ _).trans
      ((Function.update_of_ne ha.symm _ _).trans h.mine)

theorem Holds.closeNotify (h : Holds fd w) : Holds fd w.closeNotify := by
  unfold World.closeNotify
  split
  · exact Holds.closePipe ⟨h.mine, h.pipe⟩
  · exact h.closePipe

theorem Holds.close (h : Holds fd w) : Holds fd w.close :=
  ⟨h.closeNotify.mine, h.closeNotify.pipe⟩

theorem Holds.openBase (h : Holds fd w) : Holds fd (w.openBase s).1 := by
  unfold World.openBase
  split
  · exact h
  split
  · exact ⟨h.mine, h.pipe⟩
  · exact h

/-- A new pipe has other descriptors. -/
theorem Holds.openPipe (h : Holds fd w) : Holds fd (w.openPipe s).1 := by
  unfold World.openPipe
  split
  · exact h
  · next a b _ =>
    split
    · exact h
    · next hnew =>
      have ha : a ≠ fd := by
        rintro rfl
        exact hnew (.inr (.inr (.inr (.inl h.mine))))
      have hb : b ≠ fd := by
        rintro rfl
        exact hnew (.inr (.inr (.inr (.inr h.mine))))
      refine ⟨?_, fun a' b' hpipe => ?_⟩
      · exact (Function.update_of_ne hb.symm _ _).trans
          ((Function.update_of_ne ha.symm _ _).trans h.mine)
      · cases hpipe
        exact ⟨ha, hb⟩

theorem Holds.openNotify (h : Holds fd w) : Holds fd (w.openNotify s).1 := by
  have hpipe : Holds fd (World.openPipe { w with attached := true } s).1 :=
    Holds.openPipe ⟨h.mine, h.pipe⟩
  unfold World.openNotify
  dsimp only
  split
  · exact hpipe
  split
  · exact ⟨hpipe.mine, hpipe.pipe⟩
  · exact hpipe.closeNotify
  · exact Holds.closeNotify ⟨hpipe.mine, hpipe.pipe⟩

end holds

/-! ### An `Open` -/

section opening

variable {w : World} {s : Attempt}

theorem openBase_of_timerQueue (h : w.timerQueue = true ∨ s.newTimerQueue = true) :
    w.openBase s = ({ w with timerQueue := true }, .ok) := by
  unfold World.openBase
  split
  · next ht => rw [← ht]
  · next ht => exact if_pos (h.resolve_left ht)

theorem openBase_of_not (h : ¬ (w.timerQueue = true ∨ s.newTimerQueue = true)) :
    w.openBase s = (w, .outOfMemory) := by
  obtain ⟨ht, hs⟩ := not_or.mp h
  rw [World.openBase, if_neg ht, if_neg hs]

theorem openPipe_of_pair {a b : ℤ} (h : s.Pair w.mine a b) :
    w.openPipe s =
      ({ w with
        pipe := some (a, b)
        mine := Function.update (Function.update w.mine a true) b true }, .ok) := by
  rw [World.openPipe, h.1]
  exact if_neg h.2

theorem openPipe_of_not (h : ¬ ∃ a b, s.Pair w.mine a b) : (w.openPipe s).2 = .failure := by
  unfold World.openPipe
  split
  · rfl
  · next a b hpair =>
    split
    · rfl
    · next hnew => exact absurd ⟨a, b, hpair, hnew⟩ h

theorem openNotify_of_pair {a b : ℤ} (h : s.Pair w.mine a b) (hreg : s.registerHandler = .ok) :
    w.openNotify s =
      ({ w with
        attached := true
        pipe := some (a, b)
        mine := Function.update (Function.update w.mine a true) b true
        bound := true
        registered := true }, .ok) := by
  rw [World.openNotify, openPipe_of_pair (w := { w with attached := true }) h, hreg]
  rfl

theorem openNotify_failed (h : ¬ ((∃ a b, s.Pair w.mine a b) ∧ s.registerHandler = .ok)) :
    (w.openNotify s).2 ≠ .ok := by
  by_cases hpair : ∃ a b, s.Pair w.mine a b
  · have hreg : s.registerHandler ≠ .ok := fun hreg => h ⟨hpair, hreg⟩
    obtain ⟨a, b, hab⟩ := hpair
    rw [World.openNotify, openPipe_of_pair (w := { w with attached := true }) hab]
    cases hs : s.registerHandler with
    | ok => exact absurd hs hreg
    | failure => exact (by decide : CAWResult.failure ≠ .ok)
    | found => exact (by decide : CAWResult.found ≠ .ok)
  · have hrv : (World.openPipe { w with attached := true } s).2 = .failure := openPipe_of_not hpair
    rw [World.openNotify]
    dsimp only
    rw [hrv, if_pos (by decide)]
    exact (by decide : CAWResult.failure ≠ .ok)

/-- A step fails: what was open before stays open. -/
theorem openRest_failed {fd : ℤ} (h : Holds fd w)
    (hnot : ¬ ((w.timerQueue = true ∨ s.newTimerQueue = true) ∧ (∃ a b, s.Pair w.mine a b) ∧
      s.registerHandler = .ok)) :
    Holds fd (w.openRest s).1 ∧ (w.openRest s).2 ≠ .ok := by
  unfold World.openRest
  by_cases htimer : w.timerQueue = true ∨ s.newTimerQueue = true
  · have hnotify := fun hn => hnot ⟨htimer, hn⟩
    have hrv : (World.openNotify { w with timerQueue := true } s).2 ≠ .ok :=
      openNotify_failed hnotify
    have hholds : Holds fd (World.openNotify { w with timerQueue := true } s).1 :=
      Holds.openNotify ⟨h.mine, h.pipe⟩
    rw [openBase_of_timerQueue htimer]
    dsimp only
    rw [if_neg (by decide), if_pos (CAWResult.failed_iff.mpr hrv)]
    exact ⟨hholds.close, hrv⟩
  · rw [openBase_of_not htimer]
    exact ⟨h.close, (by decide : CAWResult.outOfMemory ≠ .ok)⟩

theorem openRest_of_pair {a b : ℤ} (htimer : w.timerQueue = true ∨ s.newTimerQueue = true)
    (h : s.Pair w.mine a b) (hreg : s.registerHandler = .ok) :
    w.openRest s =
      ({ w with
        timerQueue := true
        attached := true
        pipe := some (a, b)
        mine := Function.update (Function.update w.mine a true) b true
        bound := true
        registered := true }, .ok) := by
  rw [World.openRest, openBase_of_timerQueue htimer]
  dsimp only
  rw [if_neg (by decide), openNotify_of_pair (w := { w with timerQueue := true }) h hreg]
  rfl

/-- What an `Open` comes to. -/
inductive Outcome (w : World) (s : Attempt) : World × CAWResult → Prop
  | already (h : 0 < w.epollFd) : Outcome w s (w, .ok)
  | noEpoll (h : w.epollFd ≤ 0) (hfd : (w.epollCreate s).epollFd < 0) :
      Outcome w s (World.close { w with epollFd := -1 }, .failure)
  /-- the new epoll descriptor is left open -/
  | leaks {w' : World} {rv : CAWResult} {fd : ℤ} (h : w.epollFd ≤ 0)
      (hfd : 0 ≤ (w.epollCreate s).epollFd) (hnot : ¬ s.Succeeds w) (hrv : rv ≠ .ok)
      (hholds : Holds fd w') : Outcome w s (w', rv)
  | opens {a b fd : ℤ} (h : w.epollFd ≤ 0) (hfd : 0 ≤ fd)
      (heq : w.epollCreate s = { w with epollFd := fd, mine := Function.update w.mine fd true })
      (hs : s.Succeeds w) (ha : a ≠ fd) (hb : b ≠ fd) :
      Outcome w s
        ({ w with
          epollFd := fd
          timerQueue := true
          attached := true
          pipe := some (a, b)
          mine := Function.update (Function.update (Function.update w.mine fd true) a true) b true
          bound := true
          registered := true }, .ok)

/-- `vos_epoll_create` gives a new descriptor, or none. -/
theorem epollCreate_cases (w : World) (s : Attempt) :
    w.epollCreate s = { w with epollFd := -1 } ∨
      ∃ fd, 0 ≤ fd ∧ w.mine fd = false ∧
        w.epollCreate s = { w with epollFd := fd, mine := Function.update w.mine fd true } := by
  unfold World.epollCreate
  split
  · exact .inl rfl
  · next fd _ =>
    split
    · exact .inl rfl
    · next hnew =>
      obtain ⟨hneg, hmine⟩ := not_or.mp hnew
      exact .inr ⟨fd, Int.not_lt.mp hneg, eq_false_of_ne_true hmine, rfl⟩

/-- The new epoll descriptor is not one of an earlier pipe. -/
theorem holds_epollCreate {fd : ℤ} (hmine : w.mine fd = false)
    (hpipe : ∀ a b, w.pipe = some (a, b) → w.mine a = true ∧ w.mine b = true) :
    Holds fd { w with epollFd := fd, mine := Function.update w.mine fd true } := by
  refine ⟨Function.update_self .., fun a b hab => ?_⟩
  obtain ⟨ha, hb⟩ := hpipe a b hab
  constructor
  · rintro rfl
    exact Bool.false_ne_true (hmine.symm.trans ha)
  · rintro rfl
    exact Bool.false_ne_true (hmine.symm.trans hb)

theorem outcome (hpipe : ∀ a b, w.pipe = some (a, b) → w.mine a = true ∧ w.mine b = true)
    (s : Attempt) : Outcome w s (w.openReactor s) := by
  rw [World.openReactor]
  split
  · next hpos => exact .already hpos
  · next hpos =>
    have hle : w.epollFd ≤ 0 := Int.not_lt.mp hpos
    dsimp only
    rcases epollCreate_cases w s with heq | ⟨fd, hfd, hmine, heq⟩
    · have hlow : (w.epollCreate s).epollFd < 0 := by
        rw [heq]
        exact Int.negSucc_lt_zero 0
      rw [if_pos hlow, heq]
      exact .noEpoll hle hlow
    · have hge : 0 ≤ (w.epollCreate s).epollFd := by
        rw [heq]
        exact hfd
      have hholds : Holds fd (w.epollCreate s) := by
        rw [heq]
        exact holds_epollCreate hmine hpipe
      have hkept : (w.epollCreate s).timerQueue = w.timerQueue := by rw [heq]
      rw [if_neg (Int.not_lt.mpr hge)]
      by_cases hs : s.Succeeds w
      · obtain ⟨htimer, ⟨a, b, hab⟩, hreg⟩ := id hs
        rw [openRest_of_pair (by rw [hkept]; exact htimer) hab hreg]
        have ha : a ≠ fd := by
          rintro rfl
          exact hab.2 (.inr (.inr (.inr (.inl hholds.mine))))
        have hb : b ≠ fd := by
          rintro rfl
          exact hab.2 (.inr (.inr (.inr (.inr hholds.mine))))
        rw [heq]
        exact .opens hle hfd heq hs ha hb
      · rw [Attempt.Succeeds, ← hkept] at hs
        obtain ⟨hholds', hrv⟩ := openRest_failed hholds hs
        rw [hkept] at hs
        exact .leaks hle hge hs hrv hholds'

end opening

/-! ### Runs -/

/-- The invariant of the runs in which every `Open` has kept its promise. -/
structure Inv (w : World) : Prop where
  openOk : OpenOk w
  low : -1 ≤ w.epollFd
  closed : w.epollFd = -1 → Closed w
  holds : w.epollFd ≠ -1 → Holds w.epollFd w
  pipe : ∀ a b, w.pipe = some (a, b) → w.mine a = true ∧ w.mine b = true
  detached : w.attached = false → w.bound = false

theorem closed_init : Closed init := ⟨fun _ => rfl, rfl, rfl, rfl, rfl, rfl⟩

theorem inv_init : Inv init :=
  ⟨⟨nofun, nofun⟩, by decide, fun _ => closed_init, fun h => absurd rfl h, nofun, fun _ => rfl⟩

variable {w w' : World}

/-- `Close` of a closed reactor, whatever is in `m_nEpollFd`. -/
theorem Closed.close (h : Closed w) : Closed w.close := by
  have heq : w.close = w := by
    rw [World.close, World.closeNotify, if_neg (by rw [h.attached]; decide), World.closePipe,
      h.pipe]
    dsimp only
    rw [← h.timerQueue]
  rw [heq]
  exact h

theorem closePipe_frame (w : World) :
    w.closePipe.pipe = none ∧ w.closePipe.epollFd = w.epollFd ∧
      w.closePipe.attached = w.attached ∧ w.closePipe.bound = w.bound := by
  unfold World.closePipe
  split
  · next h => exact ⟨h, rfl, rfl, rfl⟩
  · exact ⟨rfl, rfl, rfl, rfl⟩

theorem close_frame (w : World) :
    w.close.pipe = none ∧ w.close.epollFd = w.epollFd ∧ w.close.attached = false ∧
      (w.bound = false → w.close.bound = false) ∧ (w.attached = true → w.close.bound = false) := by
  rw [World.close, World.closeNotify]
  cases hw : w.attached with
  | false =>
    obtain ⟨hpipe, hfd, hattached, hbound⟩ := closePipe_frame w
    exact ⟨hpipe, hfd, hattached.trans hw, fun h => hbound.trans h, nofun⟩
  | true =>
    obtain ⟨hpipe, hfd, hattached, hbound⟩ :=
      closePipe_frame { w with bound := false, registered := false, attached := false }
    exact ⟨hpipe, hfd, hattached, fun _ => hbound, fun _ => hbound⟩

theorem Closed.withLast (h : Closed w) (last : Option CAWResult) : Closed { w with last } :=
  ⟨h.mine, h.epoll, h.timerQueue, h.pipe, h.attached, h.bound⟩

/-- What an `Open` that succeeds has made. -/
theorem complete_opens {a b fd : ℤ} (ha : a ≠ fd) (hb : b ≠ fd) (last : Option CAWResult) :
    Complete { w with
      epollFd := fd
      timerQueue := true
      attached := true
      pipe := some (a, b)
      mine := Function.update (Function.update (Function.update w.mine fd true) a true) b true
      bound := true
      registered := true
      last } := by
  refine ⟨?_, rfl, ⟨a, b, rfl, ?_, Function.update_self ..⟩, rfl, rfl⟩
  · change Function.update (Function.update (Function.update w.mine fd true) a true) b true fd =
      true
    rw [Function.update_of_ne hb.symm, Function.update_of_ne ha.symm, Function.update_self]
  · change Function.update (Function.update (Function.update w.mine fd true) a true) b true a = true
    by_cases hab : a = b
    · rw [hab, Function.update_self]
    · rw [Function.update_of_ne hab, Function.update_self]

theorem openOk_ok_iff :
    OpenOk { w with last := some .ok } ↔ Complete { w with last := some .ok } := by
  refine ⟨fun h => h.ok rfl, fun h => ⟨fun _ => h, fun rv hlast hne => ?_⟩⟩
  cases hlast
  exact absurd rfl hne

theorem openOk_failed_iff {rv : CAWResult} (hrv : rv ≠ .ok) :
    OpenOk { w with last := some rv } ↔ Closed { w with last := some rv } := by
  refine ⟨fun h => h.failed rv rfl hrv, fun h => ⟨fun hlast => ?_, fun _ _ _ => h⟩⟩
  exact absurd (Option.some_inj.mp hlast) hrv

theorem Complete.withLast (h : Complete w) (last : Option CAWResult) : Complete { w with last } :=
  ⟨h.epoll, h.timerQueue, h.pipe, h.bound, h.registered⟩

/-- Without an epoll descriptor nothing is left exactly if there was none before. -/
theorem closed_noEpoll_iff (h : Inv w) (hle : w.epollFd ≤ 0) (last : Option CAWResult) :
    Closed { World.close { w with epollFd := -1 } with last } ↔ w.epollFd ≠ 0 := by
  constructor
  · intro hclosed hzero
    have hholds : Holds w.epollFd (World.close { w with epollFd := -1 }) := by
      have hw := h.holds (by omega)
      exact Holds.close ⟨hw.mine, hw.pipe⟩
    exact hholds.not_closed (hclosed.withLast (World.close { w with epollFd := -1 }).last)
  · intro hne
    have hlow := h.low
    have hw := h.closed (by omega)
    have hw' : Closed { w with epollFd := -1 } :=
      ⟨hw.mine, rfl, hw.timerQueue, hw.pipe, hw.attached, hw.bound⟩
    exact hw'.close.withLast last

/-- A step is sound exactly when an `Open` keeps its promise. -/
theorem sound_iff (h : Inv w) (a : Action) : Sound w a ↔ ∀ w' ∈ step w a, OpenOk w' := by
  cases a with
  | close =>
    refine iff_of_true trivial ?_
    rintro _ ⟨rfl⟩
    exact ⟨nofun, nofun⟩
  | openReactor s =>
    have hout := outcome h.pipe s
    rw [step]
    generalize w.openReactor s = result at hout ⊢
    simp only [Option.mem_def, Option.some_inj, forall_eq']
    rw [Sound]
    cases hout with
    | already hpos =>
      rw [openOk_ok_iff]
      constructor
      · exact fun hs => (hs.1 hpos).withLast _
      · intro hc
        refine ⟨fun _ => hc.withLast w.last, fun hle => ?_, fun hle => ?_⟩
        · omega
        · omega
    | noEpoll hle hfd =>
      rw [openOk_failed_iff (by decide : CAWResult.failure ≠ .ok), closed_noEpoll_iff h hle]
      constructor
      · exact fun hs => hs.2.1 hle hfd
      · intro hne
        refine ⟨fun hpos => ?_, fun _ _ => hne, fun _ hge => ?_⟩
        · omega
        · omega
    | leaks hle hge hnot hrv hholds =>
      rw [openOk_failed_iff hrv]
      refine iff_of_false (fun hs => hnot (hs.2.2 hle hge)) fun hc => ?_
      exact hholds.not_closed (hc.withLast _)
    | opens hle hfd heq hs ha hb =>
      rw [openOk_ok_iff]
      refine iff_of_true ⟨fun hpos => ?_, fun _ hlow => ?_, fun _ _ => hs⟩ (complete_opens ha hb _)
      · omega
      · rw [heq] at hlow
        exact absurd hfd (Int.not_le.mpr hlow)

theorem inv_step {a : Action} (h : Inv w) (hstep : step w a = some w') (hok : OpenOk w') :
    Inv w' := by
  cases a with
  | close =>
    obtain ⟨hpipe, hfd, _, hbound, hattached⟩ := close_frame w
    cases hstep
    refine ⟨hok, ?_, ?_, ?_, ?_, ?_⟩
    · exact hfd ▸ h.low
    · exact fun hnone => (h.closed (hfd ▸ hnone)).close.withLast _
    · intro hsome
      have hholds := (h.holds (hfd ▸ hsome)).close
      rw [← hfd] at hholds
      exact ⟨hholds.mine, hholds.pipe⟩
    · intro a b hab
      rw [hpipe] at hab
      contradiction
    · intro _
      cases hw : w.attached with
      | true => exact hattached hw
      | false => exact hbound (h.detached hw)
  | openReactor s =>
    have hout := outcome h.pipe s
    rw [step] at hstep
    generalize w.openReactor s = result at hout hstep
    obtain ⟨rfl⟩ := hstep
    cases hout with
    | already _ =>
      refine ⟨hok, h.low, fun hnone => (h.closed hnone).withLast _, fun hsome => ?_, h.pipe,
        h.detached⟩
      exact ⟨(h.holds hsome).mine, (h.holds hsome).pipe⟩
    | noEpoll hle _ =>
      have hclosed := (openOk_failed_iff (by decide : CAWResult.failure ≠ .ok)).mp hok
      refine ⟨hok, ?_, fun _ => hclosed, fun hsome => absurd hclosed.epoll hsome, ?_,
        fun _ => hclosed.bound⟩
      · exact Int.le_of_eq hclosed.epoll.symm
      · intro a b hab
        rw [hclosed.pipe] at hab
        contradiction
    | leaks _ _ _ hrv hholds =>
      exact absurd (((openOk_failed_iff hrv).mp hok).withLast _) hholds.not_closed
    | @opens a b fd _ hfd _ _ ha hb =>
      have hcomplete := openOk_ok_iff.mp hok
      refine ⟨hok, ?_, fun hnone => ?_, fun _ => ⟨hcomplete.epoll, fun a' b' hab => ?_⟩, ?_, nofun⟩
      · exact Int.le_trans (by decide) hfd
      · have hlow : fd = -1 := hnone
        omega
      · cases hab
        exact ⟨ha, hb⟩
      · intro a' b' hab
        obtain ⟨a₁, b₁, hpipe, hmine⟩ := hcomplete.pipe
        cases hab
        cases hpipe
        exact hmine

/-- **Opening and closing.** All along a run every `Open` keeps its promise exactly when every step
of the run is sound. -/
theorem openOk_iff_sound (as : List Action) :
    Always step OpenOk init as ↔ Admitted step Sound init as :=
  always_iff_admitted (fun _ h => h.openOk) (fun _ a h => sound_iff h a)
    (fun _ _ _ h hstep hok => inv_step h hstep hok) as inv_init

/-- All goes well. -/
def smooth : Attempt := ⟨some 3, true, some (4, 5), .ok⟩

/-- After `Close` the reactor still looks open; and when no pipe can be made the epoll descriptor
stays open. -/
theorem not_openOk :
    (∃ w, exec step init [.openReactor smooth, .close, .openReactor smooth] = some w ∧
      w.last = some .ok ∧ w.timerQueue = false ∧ w.pipe = none ∧ ¬ OpenOk w) ∧
    ∃ w, exec step init [.openReactor { smooth with socketpair := none }] = some w ∧
      w.last = some .failure ∧ w.mine 3 = true ∧ ¬ OpenOk w := by
  refine ⟨⟨_, rfl, rfl, rfl, rfl, fun h => ?_⟩, ⟨_, rfl, rfl, rfl, fun h => ?_⟩⟩
  · exact Bool.false_ne_true (h.ok rfl).timerQueue
  · exact Bool.false_ne_true ((h.failed _ rfl (by decide)).mine 3).symm

end VosStack.OpenClose
