import VosStack.Epoll.Concurrent
import Mathlib.Tactic.SplitIfs

/-!
# What a step of a kqueue can do

`World.Trans` lists the transitions of the kqueue with its threads, one constructor for each
way through a section under the lock, with the conditions that lead there. `trans_of_step` is
the only place where the step function is taken apart.
-/

namespace VosStack.Epoll.Concurrent.World

variable {Tid : Type*} [DecidableEq Tid]

/-- The entry at the head keeps a scan of `t` waiting. -/
def Blocks (w : World Tid) (t : Tid) : Entry Tid → Prop
  | .marker u => u ≠ t
  | .knote k => ∃ kn, w.knotes k = some kn ∧ kn.influx = true

/-- What a step can do. -/
inductive Trans (w : World Tid) : World Tid → Prop
  | scanNone (t : Tid) :
      Trans w { w with returned := w.returned ++ [(t, 0, [])] }
  | scanCall (t : Tid) (m : ℕ) (hpc : w.pc t = .idle) (hm : m ≠ 0) :
      Trans w (w.setPc t (.retry m))
  | sleep (t : Tid) (m : ℕ) (hpc : w.pc t = .retry m) (hc : w.count = 0) :
      Trans w ({ w with sleepFlag := true }.setPc t (.asleep m))
  | poll (t : Tid) (m : ℕ) (hpc : w.pc t = .retry m ∨ w.pc t = .asleep m) :
      Trans w (w.scanDone t m [])
  | enter (t : Tid) (m : ℕ) (hpc : w.pc t = .retry m) (hc : w.count ≠ 0) :
      Trans w ((w.insertTail (.marker t)).setPc t (.loop ⟨m, [], false⟩))
  | full (t : Tid) (c : ScanCall) (hpc : w.pc t = .loop c) (hc : c.out.length = c.maxevents) :
      Trans w ({ w with queue := w.queue.erase (.marker t) }.scanDone t c.maxevents c.out)
  | atMarker (t : Tid) (c : ScanCall) (rest : List (Entry Tid)) (hpc : w.pc t = .loop c)
      (hc : c.out.length ≠ c.maxevents) (hq : w.queue = .marker t :: rest) :
      Trans w (w.atMarker t c rest)
  | waitFlux (t : Tid) (c : ScanCall) (e : Entry Tid) (rest : List (Entry Tid))
      (hpc : w.pc t = .loop c) (hc : c.out.length ≠ c.maxevents) (hq : w.queue = e :: rest)
      (he : w.Blocks t e) : Trans w (w.waitFlux t c)
  | takeDisabled (t : Tid) (c : ScanCall) (k : Key) (kn : LiveKnote) (rest : List (Entry Tid))
      (hpc : w.pc t = .loop c) (hq : w.queue = .knote k :: rest) (hkn : w.knotes k = some kn)
      (hi : kn.influx = false) (hd : kn.disabled = true) : Trans w (w.takeDisabled k kn rest)
  | takeDrop (t : Tid) (c : ScanCall) (k : Key) (kn : LiveKnote) (rest : List (Entry Tid))
      (hpc : w.pc t = .loop c) (hc : c.out.length ≠ c.maxevents)
      (hq : w.queue = .knote k :: rest) (hkn : w.knotes k = some kn)
      (hi : kn.influx = false) : Trans w (w.takeDrop t c k kn rest)
  | takeOneshot (t : Tid) (c : ScanCall) (k : Key) (kn : LiveKnote) (rest : List (Entry Tid))
      (r : Reading) (hpc : w.pc t = .loop c) (hc : c.out.length ≠ c.maxevents)
      (hq : w.queue = .knote k :: rest)
      (hkn : w.knotes k = some kn) (hi : kn.influx = false) (hd : kn.disabled = false)
      (ho : kn.flags.has evOneshot = true) : Trans w (w.takeOneshot t c k kn rest r)
  | takeExam (t : Tid) (c : ScanCall) (k : Key) (kn : LiveKnote) (rest : List (Entry Tid))
      (hpc : w.pc t = .loop c) (hc : c.out.length ≠ c.maxevents)
      (hq : w.queue = .knote k :: rest) (hkn : w.knotes k = some kn)
      (hi : kn.influx = false) (hd : kn.disabled = false)
      (ho : kn.flags.has evOneshot = false) : Trans w (w.takeExam t c k kn rest)
  | examIdle (t : Tid) (c : ScanCall) (k : Key) (kn : LiveKnote) (hpc : w.pc t = .exam k c)
      (hkn : w.knotes k = some kn) (hr : w.ready k = false) : Trans w (w.examIdle t c k kn)
  | examClear (t : Tid) (c : ScanCall) (k : Key) (kn : LiveKnote) (r : Reading)
      (hpc : w.pc t = .exam k c) (hkn : w.knotes k = some kn)
      (hf : kn.flags.has (evClear ||| evDispatch) = true) :
      Trans w ((w.examClear k kn r).countReport t { c with influx := true } (kn.report k r))
  | examAgain (t : Tid) (c : ScanCall) (k : Key) (kn : LiveKnote) (r : Reading)
      (hpc : w.pc t = .exam k c) (hkn : w.knotes k = some kn)
      (hf : kn.flags.has (evClear ||| evDispatch) = false) :
      Trans w ((w.examAgain k kn r).countReport t { c with influx := true } (kn.report k r))
  | countOneshot (t : Tid) (c : ScanCall) (kev : Kevent) (hpc : w.pc t = .oneshot c kev) :
      Trans w (w.countReport t c kev)
  | knoteDrop (t : Tid) (k : Key) (after : After) (kn : LiveKnote)
      (hpc : w.pc t = .drop k after) (hkn : w.knotes k = some kn) :
      Trans w (((w.dequeueIf k kn).setKnote k none).setPc t after.next).fluxWakeup
  | refusedInval (kev : Kevent) (hf : kev.flags.has evEnable ∧ kev.flags.has evDisable) :
      Trans w (w.record (.refused kev .einval) w.table)
  | registerCall (t : Tid) (kev : Kevent) (hpc : w.pc t = .idle)
      (hf : ¬ (kev.flags.has evEnable ∧ kev.flags.has evDisable)) :
      Trans w (w.setPc t (.findkn kev))
  | attachNew (t : Tid) (kev : Kevent) (hpc : w.pc t = .findkn kev)
      (hkn : w.knotes kev.key = none) (ha : kev.flags.has evAdd = true) :
      Trans w (w.attachNew t kev)
  | refusedNoent (t : Tid) (kev : Kevent) (hpc : w.pc t = .findkn kev)
      (hkn : w.knotes kev.key = none) (ha : kev.flags.has evAdd = false) :
      Trans w ((w.record (.refused kev .enoent) w.table).setPc t .idle)
  | findknWait (t : Tid) (kev : Kevent) (kn : LiveKnote) (hpc : w.pc t = .findkn kev)
      (hkn : w.knotes kev.key = some kn) (hi : kn.influx = true) :
      Trans w ({ w with fluxFlag := true }.setPc t (.findknWait kev))
  | deleteOld (t : Tid) (kev : Kevent) (kn : LiveKnote) (hpc : w.pc t = .findkn kev)
      (hkn : w.knotes kev.key = some kn) (hi : kn.influx = false)
      (hd : kev.flags.has evDelete = true) : Trans w (w.deleteOld t kev kn)
  | touchOld (t : Tid) (kev : Kevent) (kn : LiveKnote) (hpc : w.pc t = .findkn kev)
      (hkn : w.knotes kev.key = some kn) (hi : kn.influx = false)
      (hd : kev.flags.has evDelete = false) : Trans w (w.touchOld t kev kn)
  | settle (t : Tid) (kev : Kevent) (kn : LiveKnote)
      (hpc : w.pc t = .attach kev ∨ w.pc t = .touch kev) (hkn : w.knotes kev.key = some kn) :
      Trans w (w.settleKnote t kev kn)
  | closeCall (t : Tid) (fd : ℕ) (hpc : w.pc t = .idle) : Trans w (w.setPc t (.close fd false))
  | closeWait (t : Tid) (fd : ℕ) (f : Filter) (influx : Bool) (kn : LiveKnote)
      (hpc : w.pc t = .close fd influx) (hkn : w.knotes (fd, f) = some kn)
      (hi : kn.influx = true) : Trans w (w.closeWait t fd influx)
  | closeDrop (t : Tid) (fd : ℕ) (f : Filter) (influx : Bool) (kn : LiveKnote)
      (hpc : w.pc t = .close fd influx) (hkn : w.knotes (fd, f) = some kn)
      (hi : kn.influx = false) : Trans w (w.closeDrop t fd f kn)
  | closeDone (t : Tid) (fd : ℕ) (influx : Bool) (hpc : w.pc t = .close fd influx) :
      Trans w (w.setPc t .idle).fluxWakeup
  | setReady (k : Key) (ready : Bool)
      (h : ready = true → ∀ kn, w.knotes k = some kn → kn.influx = true) :
      Trans w (w.setReady k ready)
  | activate (k : Key) (kn : LiveKnote) (hkn : w.knotes k = some kn) :
      Trans w ((w.setReady k true).knoteActivate k kn)

variable {w w' : World Tid}

private theorem trans_of_retry {t : Tid} {wait : Bool} (h : w.retry t wait = some w') :
    Trans w w' := by
  unfold retry at h
  split at h
  case h_2 => simp at h
  case h_1 m hpc =>
    split_ifs at h with hc hw <;> obtain rfl := Option.some.inj h
    · exact .sleep t m hpc hc
    · exact .poll t m (.inl hpc)
    · exact .enter t m hpc hc

private theorem trans_of_loopTurn {t : Tid} {r : Reading} (h : w.loopTurn t r = some w') :
    Trans w w' := by
  unfold loopTurn at h
  split at h
  case h_2 => simp at h
  case h_1 c hpc =>
    split at h
    case isTrue hc =>
      obtain rfl := Option.some.inj h
      exact .full t c hpc hc
    case isFalse hc =>
      split at h
      case h_1 => simp at h
      case h_2 u rest hq =>
        split_ifs at h with hu <;> obtain rfl := Option.some.inj h
        · exact .atMarker t c rest hpc hc (hu ▸ hq)
        · exact .waitFlux t c (.marker u) rest hpc hc hq hu
      case h_3 k rest hq =>
        split at h
        case h_1 => simp at h
        case h_2 kn hkn =>
          split_ifs at h with hi hd hdrop ho <;> obtain rfl := Option.some.inj h
          · exact .waitFlux t c (.knote k) rest hpc hc hq ⟨kn, hkn, hi⟩
          · exact .takeDisabled t c k kn rest hpc hq hkn (by simpa using hi) hd
          · exact .takeDrop t c k kn rest hpc hc hq hkn (by simpa using hi)
          · exact .takeOneshot t c k kn rest r hpc hc hq hkn (by simpa using hi)
              (by simpa using hd) ho
          · exact .takeExam t c k kn rest hpc hc hq hkn (by simpa using hi)
              (by simpa using hd) (by simpa using ho)

private theorem trans_of_exam {t : Tid} {r : Reading} (h : w.exam t r = some w') :
    Trans w w' := by
  unfold exam at h
  split at h
  case h_2 => simp at h
  case h_1 k c hpc =>
    split at h
    case h_1 => simp at h
    case h_2 kn hkn =>
      split at h <;> obtain rfl := Option.some.inj h
      · split
        case isTrue hf => exact .examClear t c k kn r hpc hkn hf
        case isFalse hf => exact .examAgain t c k kn r hpc hkn (by simpa using hf)
      case isFalse hr => exact .examIdle t c k kn hpc hkn (by simpa using hr)

private theorem trans_of_findkn {t : Tid} (h : w.findkn t = some w') : Trans w w' := by
  unfold findkn at h
  split at h
  case h_2 => simp at h
  case h_1 kev hpc =>
    split at h
    case h_1 hkn =>
      split_ifs at h with ha <;> obtain rfl := Option.some.inj h
      · exact .attachNew t kev hpc hkn ha
      · exact .refusedNoent t kev hpc hkn (by simpa using ha)
    case h_2 kn hkn =>
      split_ifs at h with hi hd <;> obtain rfl := Option.some.inj h
      · exact .findknWait t kev kn hpc hkn hi
      · exact .deleteOld t kev kn hpc hkn (by simpa using hi) hd
      · exact .touchOld t kev kn hpc hkn (by simpa using hi) (by simpa using hd)

private theorem trans_of_settle {t : Tid} (h : w.settle t = some w') : Trans w w' := by
  unfold settle at h
  split at h
  case h_3 => simp at h
  case h_1 kev hpc =>
    split at h
    case h_1 => simp at h
    case h_2 kn hkn =>
      obtain rfl := Option.some.inj h
      exact .settle t kev kn (.inl hpc) hkn
  case h_2 kev hpc =>
    split at h
    case h_1 => simp at h
    case h_2 kn hkn =>
      obtain rfl := Option.some.inj h
      exact .settle t kev kn (.inr hpc) hkn

private theorem trans_of_closeTurn {t : Tid} {f : Filter} (h : w.closeTurn t f = some w') :
    Trans w w' := by
  unfold closeTurn at h
  split at h
  case h_2 => simp at h
  case h_1 fd influx hpc =>
    split at h
    case h_1 => simp at h
    case h_2 kn hkn =>
      split_ifs at h with hi <;> obtain rfl := Option.some.inj h
      · exact .closeWait t fd f influx kn hpc hkn hi
      · exact .closeDrop t fd f influx kn hpc hkn (by simpa using hi)

private theorem trans_of_signal {k : Key} {ready : Bool} : Trans w (w.signal k ready) := by
  unfold signal
  split
  case h_1 hkn => exact .setReady k ready fun _ kn hkn' => by simp [hkn] at hkn'
  case h_2 kn hkn =>
    split_ifs with hi hr
    · refine .setReady k ready fun _ kn' hkn' => ?_
      obtain rfl : kn = kn' := by simpa [hkn] using hkn'
      simp_all
    · exact .activate k kn hkn
    · exact .setReady k false (by simp)

theorem trans_of_step {a : Action Tid} (h : w.step a = some w') : Trans w w' := by
  cases a with
  | kqueueScan t m =>
    simp only [step, kqueueScan] at h
    split at h
    case h_2 => simp at h
    case h_1 hpc =>
      split_ifs at h with hm <;> obtain rfl := Option.some.inj h
      · exact .scanNone t
      · exact .scanCall t m hpc hm
  | retry t wait => exact trans_of_retry h
  | timeout t =>
    simp only [step, timeout] at h
    split at h
    case h_2 => simp at h
    case h_1 m hpc =>
      obtain rfl := Option.some.inj h
      exact .poll t m (.inr hpc)
  | loopTurn t r => exact trans_of_loopTurn h
  | exam t r => exact trans_of_exam h
  | countOneshot t =>
    simp only [step, countOneshot] at h
    split at h
    case h_2 => simp at h
    case h_1 c kev hpc =>
      obtain rfl := Option.some.inj h
      exact .countOneshot t c kev hpc
  | knoteDrop t =>
    simp only [step, knoteDrop] at h
    split at h
    case h_2 => simp at h
    case h_1 k after hpc =>
      split at h
      case h_1 => simp at h
      case h_2 kn hkn =>
        obtain rfl := Option.some.inj h
        exact .knoteDrop t k after kn hpc hkn
  | kqueueRegister t kev =>
    simp only [step, kqueueRegister] at h
    split at h
    case h_2 => simp at h
    case h_1 hpc =>
      split_ifs at h with hf <;> obtain rfl := Option.some.inj h
      · exact .refusedInval _ hf
      · exact .registerCall t _ hpc hf
  | findkn t => exact trans_of_findkn h
  | settle t => exact trans_of_settle h
  | knoteFdclose t fd =>
    simp only [step, knoteFdclose] at h
    split at h
    case h_2 => simp at h
    case h_1 hpc =>
      obtain rfl := Option.some.inj h
      exact .closeCall t fd hpc
  | closeTurn t f => exact trans_of_closeTurn h
  | closeDone t =>
    simp only [step, closeDone] at h
    split at h
    case h_2 => simp at h
    case h_1 fd influx hpc =>
      split_ifs at h
      obtain rfl := Option.some.inj h
      exact .closeDone t fd influx hpc
  | signal k ready =>
    obtain rfl := Option.some.inj h
    exact trans_of_signal

end VosStack.Epoll.Concurrent.World
