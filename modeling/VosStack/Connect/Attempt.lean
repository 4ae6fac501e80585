import VosStack.Connect.Proxy

/-!
# Whose indication a sink gets

An indication in the user's queue carries no trace of the call it answers. `CancelConnect`
and `StopListen` only set the stop flag and clear the sink; the next `AsycConnect` or
`StartListen` undoes both, and an indication of the attempt before, still queued or still
to be produced by the old actual connector, then passes the tests of `OnEventFire` and goes
to the new sink.

`Fresh` is the condition under which this does not happen: a new attempt is started only
when nothing of an earlier one is left, no indication in the queue, no start event pending
and no actual connector or acceptor at work. Then everything in flight belongs to the
current attempt (`Located`), and what the sinks got is read off the log (`Ledger`).
-/

namespace VosStack.Connect

open Transition

/-- What `OnEventFire` does with an indication of a stopped proxy. -/
def Indication.refused (e : Indication) : Outcome :=
  if e.trpt.isSome then .disconnected else .ignored

namespace NetEvent

/-- The attempt that the event starts. -/
def starts : NetEvent → Option ℕ
  | .asycConnect n _ => some n
  | .startListen n => some n
  | _ => none

/-- The event stops the actual connector or acceptor. -/
def halts (e : NetEvent) : Bool := e.starts.isNone

end NetEvent

/-- The entry fires an indication of the attempt `n`. -/
def LogEntry.isFiredBy (n : ℕ) : LogEntry → Bool
  | .fired e _ => e.attempt == n
  | .cancelled _ => false

namespace World

/-! ### The transitions -/

/-- The transitions of a proxy. -/
inductive Trans (w : World) : Action → World → Prop
  | connectPosted (timeout : Bool) (hk : w.kind = .connector) (hu : w.user = .idle)
      (hs : w.stopped = true) (hq : w.netStopped = false) :
      Trans w (.asycConnect timeout)
        { w with
          netQueue := w.netQueue ++ [.asycConnect (w.attempts + 1) timeout]
          attempts := w.attempts + 1
          sinkActual := some (w.attempts + 1)
          stopped := false }
  | connectRejected (timeout : Bool) (hk : w.kind = .connector) (hu : w.user = .idle)
      (hs : w.stopped = true) (hq : w.netStopped = true) :
      Trans w (.asycConnect timeout)
        { w with
          attempts := w.attempts + 1, sinkActual := some (w.attempts + 1), stopped := true }
  | listenPosted (hk : w.kind = .acceptor) (hu : w.user = .idle) (hs : w.stopped = true)
      (hq : w.netStopped = false) :
      Trans w .startListen
        { w with
          attempts := w.attempts + 1
          sinkActual := some (w.attempts + 1)
          netQueue := w.netQueue ++ [.startListen (w.attempts + 1)]
          user := .listenWait }
  | listenRejected (hk : w.kind = .acceptor) (hu : w.user = .idle) (hs : w.stopped = true)
      (hn : w.sinkActual = none) (hq : w.netStopped = true) :
      Trans w .startListen { w with attempts := w.attempts + 1 }
  | listenFailed (rv : CAWResult) (hu : w.user = .listenResult rv) :
      Trans w .listenReturn { w with sinkActual := none, user := .idle }
  | listenOk (rv : CAWResult) (hu : w.user = .listenResult rv) :
      Trans w .listenReturn { w with stopped := false, user := .idle }
  | haltAgain (a : Action) (ha : a = .cancelConnect ∨ a = .stopListen) : Trans w a w
  | halt (a : Action) (ha : a = .cancelConnect ∨ a = .stopListen) (q : List NetEvent)
      (hq : w.netQueue = q ∨ ∃ e, e.halts = true ∧ w.netQueue ++ [e] = q)
      (hu : w.user = .idle) (hs : w.stopped = false) :
      Trans w a
        { w with
          netQueue := q
          stopped := true
          sinkActual := none
          log := w.log ++ [.cancelled w.attempts] }
  | fireStopped (e : Indication) (es : List Indication) (hu : w.user = .idle)
      (hq : w.userQueue = e :: es) (hs : w.stopped = true) :
      Trans w .fireUser { w with userQueue := es, log := w.log ++ [.fired e e.refused] }
  | fireConnector (e : Indication) (es : List Indication) (hk : w.kind = .connector)
      (hu : w.user = .idle) (hq : w.userQueue = e :: es) (hs : w.stopped = false)
      (o : Outcome) (ho : ∀ n, o = .delivered n → w.sinkActual = some n) :
      Trans w .fireUser
        { w with
          userQueue := es, sinkActual := none, stopped := true, log := w.log ++ [.fired e o] }
  | fireAcceptor (e : Indication) (es : List Indication) (hk : w.kind = .acceptor)
      (hu : w.user = .idle) (hq : w.userQueue = e :: es) (hs : w.stopped = false)
      (o : Outcome) (ho : ∀ n, o = .delivered n → w.sinkActual = some n) :
      Trans w .fireUser { w with userQueue := es, log := w.log ++ [.fired e o] }
  | netConnect (start : Start) (n : ℕ) (timeout : Bool) (es : List NetEvent)
      (hq : w.netQueue = .asycConnect n timeout :: es) :
      Trans w (.fireNet start)
        { w with netQueue := es, actual := startConnector n timeout start }
  | netListen (start : Start) (n : ℕ) (es : List NetEvent) (rv : CAWResult)
      (hq : w.netQueue = .startListen n :: es) (act : Option Actual)
      (ha : act = none ∨ act = some (.acceptor n)) :
      Trans w (.fireNet start)
        { w with netQueue := es, actual := act, user := .listenResult rv }
  | netHalt (start : Start) (e : NetEvent) (es : List NetEvent) (he : e.halts = true)
      (hq : w.netQueue = e :: es) :
      Trans w (.fireNet start) { w with netQueue := es, actual := none }
  | indicate (ev : ConnectorEvent) (c c' : CFSConnectorWrapper)
      (hact : w.actual = some (.connector c))
      (hl : c.registered = true ∨ c.timer ≠ none) (hc' : c'.closed = true)
      (hset : c.closed = false → c'.registered = false ∧ c'.timer = none)
      (es : List Indication)
      (he : es = [] ∧ w.kind = .acceptor ∨ ∃ e, es = [e] ∧ e.attempt = c.attempt) (t : ℕ) :
      Trans w (.connectorEvent ev)
        { w with
          actual := some (.connector c'), userQueue := w.userQueue ++ es, trpts := t }
  | accepted (rv : CAWResult) (n : ℕ) (hact : w.actual = some (.acceptor n))
      (es : List Indication) (he : es = [] ∨ ∃ e, es = [e] ∧ e.attempt = n) (t : ℕ) :
      Trans w (.accept rv) { w with userQueue := w.userQueue ++ es, trpts := t }
  | stopQueue : Trans w .stopQueue { w with netStopped := true }

variable {w w' : World} {a : Action}

/-- An indication appends at most one event, and it carries the attempt. -/
theorem onConnectIndication_eq (w : World) (n : ℕ) (reason rv : CAWResult) :
    ∃ es t, w.onConnectIndication n reason rv =
        { w with userQueue := w.userQueue ++ es, trpts := t } ∧
      (es = [] ∧ w.kind = .acceptor ∨ ∃ e, es = [e] ∧ e.attempt = n) := by
  unfold onConnectIndication
  split_ifs with hr ho hk
  · exact ⟨[_], _, rfl, .inr ⟨_, rfl, rfl⟩⟩
  · exact ⟨[_], _, rfl, .inr ⟨_, rfl, rfl⟩⟩
  · refine ⟨[], w.trpts, by simp, .inl ⟨rfl, ?_⟩⟩
    cases h : w.kind with
    | connector => exact absurd h hk
    | acceptor => rfl
  · exact ⟨[_], _, rfl, .inr ⟨_, rfl, rfl⟩⟩

/-- `PostEvent` of a stop event leaves the queue or appends to it. -/
private theorem postNet_halts (w : World) (e : NetEvent) (he : e.halts = true) :
    ∃ q, w.postNet e = { w with netQueue := q } ∧
      (w.netQueue = q ∨ ∃ e, e.halts = true ∧ w.netQueue ++ [e] = q) := by
  unfold postNet
  split
  · exact ⟨_, rfl, .inl rfl⟩
  · exact ⟨_, rfl, .inr ⟨e, he, rfl⟩⟩

private theorem trans_of_asycConnect {timeout : Bool}
    (h : w.asycConnect timeout = some w') : Trans w (.asycConnect timeout) w' := by
  unfold asycConnect at h
  split at h
  case isFalse => simp at h
  case isTrue hc =>
  obtain ⟨hk, hu, hs, -⟩ := hc
  obtain rfl := Option.some.inj h
  cases hq : w.netStopped with
  | false => simpa [postNet, hq] using Trans.connectPosted timeout hk hu hs hq
  | true => simpa [postNet, hq] using Trans.connectRejected timeout hk hu hs hq

private theorem trans_of_startListen (h : w.startListen = some w') :
    Trans w .startListen w' := by
  unfold startListen at h
  split at h
  case isFalse => simp at h
  case isTrue hc =>
  obtain ⟨hk, hu, hs, hn⟩ := hc
  dsimp only at h
  split at h <;> obtain rfl := Option.some.inj h
  case isTrue hq => exact .listenRejected hk hu hs hn hq
  case isFalse hq => exact .listenPosted hk hu hs (by simpa using hq)

private theorem trans_of_listenReturn (h : w.listenReturn = some w') :
    Trans w .listenReturn w' := by
  unfold listenReturn at h
  split at h
  case h_2 => simp at h
  case h_1 rv hu =>
  split at h <;> obtain rfl := Option.some.inj h
  case isTrue => exact .listenFailed rv hu
  case isFalse => exact .listenOk rv hu

private theorem trans_of_halt {a : Action} {k : Kind} (e : NetEvent)
    (ha : a = .cancelConnect ∨ a = .stopListen) (he : e.halts = true)
    (h : (if w.kind = k ∧ w.user = .idle then
        if w.stopped then some w
        else some { w.postNet e with
          stopped := true, sinkActual := none, log := w.log ++ [.cancelled w.attempts] }
      else none) = some w') : Trans w a w' := by
  split at h
  case isFalse => simp at h
  case isTrue hc =>
  split at h <;> obtain rfl := Option.some.inj h
  case isTrue => exact .haltAgain a ha
  case isFalse hs =>
    obtain ⟨q, hpost, hq⟩ := postNet_halts w e he
    rw [hpost]
    exact .halt a ha q hq hc.2 (by simpa using hs)

/-- An indication of a running proxy goes to the sink, if there is one, and stops a connector
proxy. -/
private theorem fire_of_running (hs : w.stopped = false) (e : Indication) :
    ∃ o, (∀ n, o = .delivered n → w.sinkActual = some n) ∧
      w.fire e = { w.setStopFlag with log := w.log ++ [.fired e o] } := by
  rcases hn : w.sinkActual with _ | n
  · refine ⟨.ignored, nofun, ?_⟩
    simp only [fire, hs, hn, Bool.false_eq_true, if_false]
  · refine ⟨.delivered n, ?_, ?_⟩
    · rintro m ⟨⟩
      rfl
    · simp only [fire, hs, hn, Bool.false_eq_true, if_false]

private theorem trans_of_fireUser (h : w.fireUser = some w') : Trans w .fireUser w' := by
  unfold fireUser at h
  split at h
  case isFalse => simp at h
  case isTrue hu =>
  split at h
  case h_1 => simp at h
  case h_2 e es hq =>
  obtain rfl := Option.some.inj h
  rcases Bool.eq_false_or_eq_true w.stopped with hs | hs
  · simpa [fire, hs, Indication.refused] using Trans.fireStopped e es hu hq hs
  · obtain ⟨o, ho, heq⟩ := @fire_of_running { w with userQueue := es } hs e
    rw [heq]
    rcases hk : w.kind with _ | _
    · simpa [setStopFlag, hk] using Trans.fireConnector e es hk hu hq hs o ho
    · simpa [setStopFlag, hk] using Trans.fireAcceptor e es hk hu hq hs o ho

private theorem trans_of_fireNet {start : Start} (h : w.fireNet start = some w') :
    Trans w (.fireNet start) w' := by
  unfold fireNet at h
  split at h
  case h_1 => simp at h
  case h_2 n timeout es hq =>
    obtain rfl := Option.some.inj h
    exact .netConnect start n timeout es hq
  case h_3 es hq =>
    obtain rfl := Option.some.inj h
    exact .netHalt start _ es rfl hq
  case h_4 n es hq =>
    split at h <;> obtain rfl := Option.some.inj h
    case h_1 => exact .netListen _ n es .ok hq _ (.inr rfl)
    case h_2 => exact .netListen _ n es .failure hq _ (.inl rfl)
  case h_5 es hq =>
    obtain rfl := Option.some.inj h
    exact .netHalt start _ es rfl hq

/-- A connector that reports a result is closed by it. -/
private theorem trans_indicate (ev : ConnectorEvent) {c : CFSConnectorWrapper}
    (c' : CFSConnectorWrapper) (hact : w.actual = some (.connector c))
    (hl : c.registered = true ∨ c.timer ≠ none) (hc : c'.closed = c.closed)
    (reason rv : CAWResult) :
    Trans w (.connectorEvent ev)
      (World.onConnectIndication { w with actual := some (.connector c'.close_i) }
        c.attempt reason rv) := by
  obtain ⟨es, t, heq, he⟩ := onConnectIndication_eq
    { w with actual := some (.connector c'.close_i) } c.attempt reason rv
  rw [heq]
  refine .indicate ev c c'.close_i hact hl c'.close_i_closed (fun hopen => ?_) es he t
  simp [CFSConnectorWrapper.close_i, hc, hopen]

private theorem trans_of_connectorEvent {ev : ConnectorEvent}
    (h : w.connectorEvent ev = some w') : Trans w (.connectorEvent ev) w' := by
  unfold connectorEvent at h
  split at h
  case h_2 => simp at h
  case h_1 c hact =>
  cases ev with
  | onOutput rv =>
    dsimp only at h
    split at h
    case isFalse => simp at h
    case isTrue hreg =>
    obtain rfl := Option.some.inj h
    exact trans_indicate _ c hact (.inl hreg) rfl _ _
  | onClose =>
    dsimp only at h
    split at h
    case isFalse => simp at h
    case isTrue hreg =>
    obtain rfl := Option.some.inj h
    exact trans_indicate _ { c with registered := false } hact (.inl hreg) rfl _ _
  | onTimeout =>
    dsimp only at h
    split at h
    case h_2 => simp at h
    case h_1 rv ht =>
    obtain rfl := Option.some.inj h
    exact trans_indicate _ { c with timer := none } hact (.inr (by simp [ht])) rfl _ _

/-- **Inversion.** Every step is one of the transitions. -/
theorem trans_of_step (h : step w a = some w') : Trans w a w' := by
  cases a with
  | asycConnect timeout => exact trans_of_asycConnect h
  | cancelConnect => exact trans_of_halt .cancelConnect (.inl rfl) rfl h
  | startListen => exact trans_of_startListen h
  | listenReturn => exact trans_of_listenReturn h
  | stopListen => exact trans_of_halt .stopListen (.inr rfl) rfl h
  | fireUser => exact trans_of_fireUser h
  | fireNet start => exact trans_of_fireNet h
  | connectorEvent ev => exact trans_of_connectorEvent h
  | accept rv =>
    simp only [step, accept] at h
    split at h
    case h_2 => simp at h
    case h_1 n hact =>
    obtain rfl := Option.some.inj h
    obtain ⟨es, t, heq, he⟩ := onConnectIndication_eq w n .ok rv
    rw [heq]
    exact .accepted rv n hact es (he.imp_left And.left) t
  | stopQueue =>
    obtain rfl := Option.some.inj h
    exact .stopQueue

/-! ### The condition -/

/-- The attempt for which an actual connector or acceptor can still report. -/
def working (w : World) : Option ℕ :=
  match w.actual with
  | some (.connector c) => if c.closed then none else some c.attempt
  | some (.acceptor n) => some n
  | none => none

/-- Nothing of an earlier attempt is left. -/
def Clear (w : World) : Prop :=
  w.userQueue = [] ∧ (∀ e ∈ w.netQueue, e.halts = true) ∧ w.working = none

instance (w : World) : Decidable w.Clear :=
  inferInstanceAs (Decidable (_ ∧ _ ∧ _))

/-- The condition on a step: an attempt is started only when nothing of an earlier one is
left. -/
def Fresh (w : World) : Action → Prop
  | .asycConnect _ => w.Clear
  | .startListen => w.Clear
  | _ => True

instance (w : World) : ∀ a, Decidable (Fresh w a)
  | .asycConnect _ | .startListen => inferInstanceAs (Decidable w.Clear)
  | .cancelConnect | .listenReturn | .stopListen | .fireUser | .fireNet _ | .connectorEvent _
  | .accept _ | .stopQueue => inferInstanceAs (Decidable True)

/-! ### Everything in flight belongs to the current attempt -/

/-- The start events waiting in the network thread's queue. -/
def pendingStarts (w : World) : ℕ := w.netQueue.countP fun e => e.starts.isSome

/-- Every event, the actual connector or acceptor if it is at work, and the sink are those
of the current attempt. -/
structure Located (w : World) : Prop where
  queued : ∀ e ∈ w.userQueue, e.attempt = w.attempts
  started : ∀ e ∈ w.netQueue, ∀ n, e.starts = some n → n = w.attempts
  worker : ∀ n, w.working = some n → n = w.attempts
  sink : ∀ n, w.sinkActual = some n → n = w.attempts
  /-- a closed connector reports nothing more -/
  settled : ∀ c, w.actual = some (.connector c) → c.closed = true →
    c.registered = false ∧ c.timer = none
  single : w.pendingStarts ≤ 1
  /-- the user waits while its `StartListen` is queued -/
  blocked : ∀ n, .startListen n ∈ w.netQueue → w.kind = .acceptor ∧ w.user = .listenWait
  acceptor : ∀ n, w.actual = some (.acceptor n) → w.kind = .acceptor

theorem located_init (kind : Kind) : Located (init kind) := by
  constructor <;> simp [init, working, pendingStarts]

theorem starts_eq_none_of_halts {e : NetEvent} (h : e.halts = true) : e.starts = none := by
  simpa [NetEvent.halts] using h

/-- With a clear proxy there is no start event in the queue. -/
theorem Clear.pendingStarts (h : w.Clear) : w.pendingStarts = 0 := by
  refine List.countP_eq_zero.mpr fun e he => ?_
  simp [starts_eq_none_of_halts (h.2.1 e he)]

theorem working_startConnector {n m : ℕ} {timeout : Bool} {start : Start}
    (hact : w.actual = startConnector n timeout start) (h : w.working = some m) : m = n := by
  cases start <;> simp_all [working, startConnector]

/-- The queue of a new attempt's start: the event is the only start in it. -/
private theorem Clear.post (h : w.Clear) {e : NetEvent} {n : ℕ} (he : e.starts = some n) :
    (∀ e' ∈ w.netQueue ++ [e], ∀ m, e'.starts = some m → m = n) ∧
      (w.netQueue ++ [e]).countP (fun e => e.starts.isSome) ≤ 1 := by
  have hzero : w.netQueue.countP (fun e => e.starts.isSome) = 0 := h.pendingStarts
  refine ⟨fun e' he' m hm => ?_, by simp [hzero, he]⟩
  rcases List.mem_append.mp he' with hold | hnew
  · simp [starts_eq_none_of_halts (h.2.1 e' hold)] at hm
  · obtain rfl := List.mem_singleton.mp hnew
    exact Option.some.inj (hm.symm.trans he)

/-- A queue with a stop event more has the starts it had. -/
private theorem halted_queue {q : List NetEvent}
    (hq : w.netQueue = q ∨ ∃ e, e.halts = true ∧ w.netQueue ++ [e] = q) :
    (∀ e ∈ q, ∀ n, e.starts = some n → e ∈ w.netQueue) ∧
      q.countP (fun e => e.starts.isSome) = w.pendingStarts := by
  rcases hq with rfl | ⟨e, he, rfl⟩
  · exact ⟨fun _ h _ _ => h, rfl⟩
  · have hnone := starts_eq_none_of_halts he
    refine ⟨fun e' he' n hn => ?_, by simp [hnone, pendingStarts]⟩
    rcases List.mem_append.mp he' with hold | hnew
    · exact hold
    · obtain rfl := List.mem_singleton.mp hnew
      simp [hnone] at hn

/-- The queue without its front event. -/
private theorem Located.pop (hw : Located w) {e : NetEvent} {es : List NetEvent}
    (hq : w.netQueue = e :: es) :
    (∀ e' ∈ es, ∀ n, e'.starts = some n → n = w.attempts) ∧
      es.countP (fun e => e.starts.isSome) + e.starts.isSome.toNat = w.pendingStarts ∧
      ∀ n, .startListen n ∈ es → w.kind = .acceptor ∧ w.user = .listenWait := by
  refine ⟨fun e' he' => hw.started e' (by simp [hq, he']), ?_, fun n hn => ?_⟩
  · rw [pendingStarts, hq, List.countP_cons]
    cases e.starts.isSome <;> rfl
  · exact hw.blocked n (by simp [hq, hn])

/-- A `StartListen` that has its result has no event in the queue. -/
private theorem Located.not_starting (hw : Located w) {rv : CAWResult}
    (hu : w.user = .listenResult rv) (n : ℕ) : .startListen n ∉ w.netQueue := by
  intro hn
  have hwait := (hw.blocked n hn).2
  rw [hu] at hwait
  exact absurd hwait nofun

/-- A connector that reports was not closed. -/
theorem Located.open_of_live (hw : Located w) {c : CFSConnectorWrapper}
    (hact : w.actual = some (.connector c)) (hl : c.registered = true ∨ c.timer ≠ none) :
    c.closed = false := by
  by_contra hne
  have hset := hw.settled c hact (by simpa using hne)
  simp_all

/-- Appending the indications of the current attempt. -/
private theorem Located.queue_append (hw : Located w) {es : List Indication}
    (he : ∀ e ∈ es, e.attempt = w.attempts) :
    ∀ e ∈ w.userQueue ++ es, e.attempt = w.attempts := by
  intro e hm
  rcases List.mem_append.mp hm with hold | hnew
  · exact hw.queued e hold
  · exact he e hnew

/-- A new attempt that starts clear: only its own event is in flight. -/
private theorem Clear.located (hw : Located w) (hc : w.Clear) {s : World} {n : ℕ}
    (hqueue : s.userQueue = w.userQueue) (hactual : s.actual = w.actual)
    (hkind : s.kind = w.kind) (hn : s.attempts = n)
    (hstart : ∀ e ∈ s.netQueue, ∀ m, e.starts = some m → m = n) (hone : s.pendingStarts ≤ 1)
    (hsink : ∀ m, s.sinkActual = some m → m = n)
    (hblock : ∀ m, .startListen m ∈ s.netQueue → s.kind = .acceptor ∧ s.user = .listenWait) :
    Located s where
  queued := by simp [hqueue, hc.1]
  started := hn ▸ hstart
  worker m hm := by
    have hidle : s.working = none := by rw [working, hactual]; exact hc.2.2
    exact absurd (hm.symm.trans hidle) nofun
  sink := hn ▸ hsink
  settled := hactual ▸ hw.settled
  single := hone
  blocked := hblock
  acceptor := by rw [hactual, hkind]; exact hw.acceptor

theorem Located.trans (hw : Located w) (ha : Fresh w a) (h : Trans w a w') : Located w' := by
  cases h with
  | connectPosted timeout hk hu hs hq =>
    -- a call that starts is where the condition is used: nothing else is in flight
    obtain ⟨hstart, hone⟩ := Clear.post ha (e := .asycConnect (w.attempts + 1) timeout) rfl
    refine Clear.located hw ha rfl rfl rfl rfl hstart hone (by simp) fun n hn => ?_
    have hold : NetEvent.startListen n ∈ w.netQueue := by simpa using hn
    exact absurd (ha.2.1 _ hold) nofun
  | connectRejected timeout hk hu hs hq =>
    refine Clear.located hw ha rfl rfl rfl rfl (fun e he n hn => ?_) hw.single (by simp)
      hw.blocked
    simp [starts_eq_none_of_halts (ha.2.1 e he)] at hn
  | listenPosted hk hu hs hq =>
    obtain ⟨hstart, hone⟩ := Clear.post ha (e := .startListen (w.attempts + 1)) rfl
    exact Clear.located hw ha rfl rfl rfl rfl hstart hone (by simp) fun _ _ => ⟨hk, rfl⟩
  | listenRejected hk hu hs hn hq =>
    refine Clear.located hw ha rfl rfl rfl rfl (fun e he n hn => ?_) hw.single (by simp [hn])
      hw.blocked
    simp [starts_eq_none_of_halts (ha.2.1 e he)] at hn
  | listenFailed rv hu =>
    exact { hw with sink := by simp, blocked := fun n hn => absurd hn (hw.not_starting hu n) }
  | listenOk rv hu =>
    exact { hw with blocked := fun n hn => absurd hn (hw.not_starting hu n) }
  | halt a ha q hq hu hs =>
    obtain ⟨hmem, hcount⟩ := halted_queue hq
    exact { hw with
      started := fun e he n hn => hw.started e (hmem e he n hn) n hn
      sink := by simp
      single := Nat.le_trans (Nat.le_of_eq hcount) hw.single
      blocked := fun n hn => hw.blocked n (hmem _ hn n rfl) }
  | fireStopped e es hu hq hs =>
    exact { hw with queued := fun e' he' => hw.queued e' (by simp [hq, he']) }
  | fireConnector e es hk hu hq hs o ho =>
    exact { hw with queued := fun e' he' => hw.queued e' (by simp [hq, he']), sink := by simp }
  | fireAcceptor e es hk hu hq hs o ho =>
    exact { hw with queued := fun e' he' => hw.queued e' (by simp [hq, he']) }
  | netConnect start n timeout es hq =>
    obtain ⟨hstart, hone, hblock⟩ := hw.pop hq
    have hn := hw.started (.asycConnect n timeout) (by simp [hq]) n rfl
    refine { hw with
      started := hstart
      single := Nat.le_trans (Nat.le_of_add_right_le (Nat.le_of_eq hone)) hw.single
      blocked := hblock
      worker := fun m hm => (working_startConnector rfl hm).trans hn
      settled := fun c hc hclosed => ?_
      acceptor := fun m hm => ?_ }
    · cases start <;> simp [startConnector] at hc <;> simp [← hc] at hclosed
    · cases start <;> simp [startConnector] at hm
  | netListen start n es rv hq act hact =>
    obtain ⟨hstart, hone, -⟩ := hw.pop hq
    obtain rfl := hw.started (.startListen n) (by simp [hq]) n rfl
    obtain ⟨hk, -⟩ := hw.blocked _ (hq ▸ List.mem_cons_self)
    -- the event that fires was the only start in the queue
    have hzero : es.countP (fun e => e.starts.isSome) = 0 := by
      have hsingle := hone ▸ hw.single
      simpa [NetEvent.starts] using hsingle
    refine { hw with
      started := hstart
      single := Nat.le_trans (Nat.le_of_eq hzero) (Nat.zero_le 1)
      blocked := fun m hm => absurd (List.countP_eq_zero.mp hzero _ hm) (by simp [NetEvent.starts])
      worker := fun m hm => ?_
      settled := fun c hc => ?_
      acceptor := fun _ _ => hk }
    · rcases hact with rfl | rfl <;> simp_all [working]
    · rcases hact with rfl | rfl <;> simp at hc
  | netHalt start e es he hq =>
    obtain ⟨hstart, hone, hblock⟩ := hw.pop hq
    exact { hw with
      started := hstart
      single := Nat.le_trans (Nat.le_of_add_right_le (Nat.le_of_eq hone)) hw.single
      blocked := hblock
      worker := by simp [working]
      settled := by simp
      acceptor := by simp }
  | indicate ev c c' hact hl hc' hset es he t =>
    -- the report closes the connector, so it is the last of its attempt
    have hopen := hw.open_of_live hact hl
    have hc : c.attempt = w.attempts := hw.worker _ (by simp [working, hact, hopen])
    refine { hw with
      queued := hw.queue_append fun e hm => ?_
      worker := by simp [working, hc']
      settled := fun c'' hc'' _ => ?_
      acceptor := by simp }
    · rcases he with ⟨rfl, -⟩ | ⟨e', rfl, hea⟩
      · simp at hm
      · rw [List.mem_singleton.mp hm, hea, hc]
    · obtain rfl : c' = c'' := by simpa using hc''
      exact hset hopen
  | accepted rv n hact es he t =>
    have hn : n = w.attempts := hw.worker _ (by simp [working, hact])
    refine { hw with queued := hw.queue_append fun e hm => ?_ }
    rcases he with rfl | ⟨e', rfl, hea⟩
    · simp at hm
    · rw [List.mem_singleton.mp hm, hea, hn]
  | _ => exact { hw with }

theorem located_of_reach {kind : Kind} (h : Reach step Fresh (init kind) w) : Located w :=
  h.induct (located_init kind) fun _ _ _ hw ha hs => hw.trans ha (trans_of_step hs)

/-! ### The log -/

/-- All that an attempt of a connector can still get, with what it got. -/
def budget (w : World) : ℕ :=
  w.log.countP (LogEntry.isFiredBy w.attempts) + w.userQueue.length + w.pendingStarts +
    w.working.isSome.toNat

/-- What the log says in runs of fresh attempts. -/
structure Ledger (w : World) : Prop where
  past : ∀ e o, .fired e o ∈ w.log → e.attempt ≤ w.attempts
  /-- a cancelled attempt is over, or the proxy is still stopped -/
  ended : ∀ m, .cancelled m ∈ w.log →
    m < w.attempts ∨ m = w.attempts ∧ w.stopped = true ∧ w.user = .idle
  own : ∀ e n, .fired e (.delivered n) ∈ w.log → n = e.attempt
  budget : w.kind = .connector → w.budget ≤ 1
  once : w.kind = .connector → ∀ n, w.log.countP (LogEntry.isFiredBy n) ≤ 1
  refused : w.log.Pairwise fun x y => ∀ m e o, x = .cancelled m → y = .fired e o →
    e.attempt = m → o = e.refused

theorem ledger_init (kind : Kind) : Ledger (init kind) := by
  constructor <;> simp [init, World.budget, pendingStarts, working]

/-- What a transition adds to the log. -/
theorem log_trans (h : Trans w a w') :
    w'.log = w.log ∧ w.attempts ≤ w'.attempts ∨
      w'.attempts = w.attempts ∧
        (w'.log = w.log ++ [.cancelled w.attempts] ∨
          ∃ e es o, w.userQueue = e :: es ∧ w'.log = w.log ++ [.fired e o] ∧
            (w.stopped = true → o = e.refused) ∧
            ∀ n, o = .delivered n → w.sinkActual = some n) := by
  cases h with
  | connectPosted timeout hk hu hs hq => exact .inl ⟨rfl, Nat.le_succ _⟩
  | connectRejected timeout hk hu hs hq => exact .inl ⟨rfl, Nat.le_succ _⟩
  | listenPosted hk hu hs hq => exact .inl ⟨rfl, Nat.le_succ _⟩
  | listenRejected hk hu hs hn hq => exact .inl ⟨rfl, Nat.le_succ _⟩
  | halt a ha q hq hu hs => exact .inr ⟨rfl, .inl rfl⟩
  | fireStopped e es hu hq hs =>
    refine .inr ⟨rfl, .inr ⟨e, es, _, hq, rfl, fun _ => rfl, fun n hn => ?_⟩⟩
    unfold Indication.refused at hn
    split at hn <;> simp at hn
  | fireConnector e es hk hu hq hs o ho =>
    exact .inr ⟨rfl, .inr ⟨e, es, o, hq, rfl, by simp [hs], ho⟩⟩
  | fireAcceptor e es hk hu hq hs o ho =>
    exact .inr ⟨rfl, .inr ⟨e, es, o, hq, rfl, by simp [hs], ho⟩⟩
  | _ => exact .inl ⟨rfl, Nat.le_refl _⟩

theorem Ledger.past_trans (hL : Ledger w) (hw : Located w) (h : Trans w a w')
    (e : Indication) (o : Outcome) (hm : .fired e o ∈ w'.log) : e.attempt ≤ w'.attempts := by
  rcases log_trans h with ⟨hl, hle⟩ | ⟨ha, hl | ⟨e', es, o', hq, hl, -, -⟩⟩
  · exact Nat.le_trans (hL.past e o (hl ▸ hm)) hle
  · rw [ha]
    exact hL.past e o (by simpa [hl] using hm)
  · rw [ha]
    rw [hl, List.mem_append, List.mem_singleton] at hm
    rcases hm with hold | hnew
    · exact hL.past e o hold
    · cases hnew
      exact Nat.le_of_eq (hw.queued _ (by simp [hq]))

theorem Ledger.ended_trans (hL : Ledger w) (hw : Located w) (h : Trans w a w') (m : ℕ)
    (hm : .cancelled m ∈ w'.log) :
    m < w'.attempts ∨ m = w'.attempts ∧ w'.stopped = true ∧ w'.user = .idle := by
  have hended := hL.ended m
  have hle : .cancelled m ∈ w.log → m < w.attempts + 1 := fun hm => by
    have := hended hm
    omega
  cases h with
  | connectPosted timeout hk hu hs hq => exact .inl (hle hm)
  | connectRejected timeout hk hu hs hq => exact .inl (hle hm)
  | listenPosted hk hu hs hq => exact .inl (hle hm)
  | listenRejected hk hu hs hn hq => exact .inl (hle hm)
  | netListen start n es rv hq act hact =>
    have hwait := (hw.blocked n (by simp [hq])).2
    simpa [hwait] using hended hm
  | halt a ha q hq hu hs =>
    rcases List.mem_append.mp hm with hold | hnew
    · exact .inl (by simpa [hs] using hended hold)
    · exact .inr ⟨by simpa using hnew, rfl, hu⟩
  | _ => simp_all

theorem Ledger.own_trans (hL : Ledger w) (hw : Located w) (h : Trans w a w')
    (e : Indication) (n : ℕ) (hm : .fired e (.delivered n) ∈ w'.log) : n = e.attempt := by
  rcases log_trans h with ⟨hl, -⟩ | ⟨-, hl | ⟨e', es, o', hq, hl, -, hsink⟩⟩
  · exact hL.own e n (hl ▸ hm)
  · exact hL.own e n (by simpa [hl] using hm)
  · rw [hl, List.mem_append, List.mem_singleton] at hm
    rcases hm with hold | hnew
    · exact hL.own e n hold
    · cases hnew
      rw [hw.sink n (hsink n rfl), hw.queued e (by simp [hq])]

theorem Ledger.refused_trans (hL : Ledger w) (hw : Located w) (h : Trans w a w') :
    w'.log.Pairwise fun x y => ∀ m e o, x = .cancelled m → y = .fired e o →
      e.attempt = m → o = e.refused := by
  rcases log_trans h with ⟨hl, -⟩ | ⟨-, hl | ⟨e', es, o', hq, hl, hstop, -⟩⟩
  · exact hl ▸ hL.refused
  · rw [hl]
    refine pairwise_snoc hL.refused ?_
    rintro x - m e o - ⟨⟩
  · rw [hl]
    refine pairwise_snoc hL.refused ?_
    rintro x hx m e o hxe ⟨⟩ hem
    -- the indication is of the current attempt, which is cancelled only while stopped
    have hcur := hw.queued e' (by simp [hq])
    rcases hL.ended m (hxe ▸ hx) with hlt | ⟨-, hs, -⟩
    · omega
    · exact hstop hs

/-- Nothing has been fired for an attempt that is still to come. -/
theorem Ledger.countP_next (hL : Ledger w) :
    w.log.countP (LogEntry.isFiredBy (w.attempts + 1)) = 0 := by
  refine List.countP_eq_zero.mpr fun x hx => ?_
  cases x with
  | cancelled m => simp [LogEntry.isFiredBy]
  | fired e o =>
    have := hL.past e o hx
    simp [LogEntry.isFiredBy]
    omega

/-- Firing an indication moves it from the queue to the log. -/
private theorem Located.budget_fire (hw : Located w) {e : Indication} {es : List Indication}
    (hq : w.userQueue = e :: es) (o : Outcome) :
    (w.log ++ [LogEntry.fired e o]).countP (LogEntry.isFiredBy w.attempts) + es.length =
      w.log.countP (LogEntry.isFiredBy w.attempts) + w.userQueue.length := by
  have hcur := hw.queued e (by simp [hq])
  have hone : LogEntry.isFiredBy w.attempts (.fired e o) = true := by
    simp [LogEntry.isFiredBy, hcur]
  simp only [List.countP_append, List.countP_singleton, hone, hq, List.length_cons, if_true]
  omega

/-- An attempt of a connector spends its one indication at most once: the start event, the
connector at work, the queued indication and the fired one replace each other. -/
theorem Ledger.budget_trans (hL : Ledger w) (hw : Located w) (ha : Fresh w a)
    (h : Trans w a w') (hk' : w'.kind = .connector) : w'.budget ≤ 1 := by
  have hk : w.kind = .connector := by cases h <;> exact hk'
  have hb := hL.budget hk
  have hnext := hL.countP_next
  unfold World.budget at hb ⊢
  have hbit : ∀ o : Option ℕ, o.isSome.toNat ≤ 1 := fun o => by cases o <;> simp
  cases h with
  | connectPosted timeout hk hu hs hq =>
    have hone := (Clear.post ha (e := .asycConnect (w.attempts + 1) timeout) rfl).2
    change _ + _ + List.countP _ (w.netQueue ++ _) + w.working.isSome.toNat ≤ 1
    simp only [hnext, ha.1, ha.2.2, List.length_nil, Option.isSome_none, Bool.toNat_false]
    omega
  | connectRejected timeout hk hu hs hq =>
    change _ + _ + w.pendingStarts + w.working.isSome.toNat ≤ 1
    simp [hnext, ha.1, ha.2.2, Clear.pendingStarts ha]
  | listenPosted hacc hu hs hq => exact absurd (hk.symm.trans hacc) nofun
  | listenRejected hacc hu hs hn hq => exact absurd (hk.symm.trans hacc) nofun
  | halt a ha q hq hu hs =>
    have hcount := (halted_queue hq).2
    change _ + _ + List.countP _ q + w.working.isSome.toNat ≤ 1
    rw [hcount]
    simpa [LogEntry.isFiredBy] using hb
  | fireStopped e es hu hq hs =>
    have hmove := hw.budget_fire hq e.refused
    change _ + _ + w.pendingStarts + w.working.isSome.toNat ≤ 1
    dsimp only
    omega
  | fireConnector e es hk hu hq hs o ho =>
    have hmove := hw.budget_fire hq o
    change _ + _ + w.pendingStarts + w.working.isSome.toNat ≤ 1
    dsimp only
    omega
  | fireAcceptor e es hacc hu hq hs o ho => exact absurd (hk.symm.trans hacc) nofun
  | netConnect start n timeout es hq =>
    have hone := (hw.pop hq).2.1
    have hle := hbit (World.working
      { w with netQueue := es, actual := startConnector n timeout start })
    have hthis : (NetEvent.asycConnect n timeout).starts.isSome.toNat = 1 := rfl
    change _ + _ + List.countP _ es + _ ≤ 1
    dsimp only at hle ⊢
    omega
  | netListen start n es rv hq act hact =>
    exact absurd (hk.symm.trans (hw.blocked n (by simp [hq])).1) nofun
  | netHalt start e es he hq =>
    have hone := (hw.pop hq).2.1
    change _ + _ + List.countP _ es + 0 ≤ 1
    dsimp only
    omega
  | indicate ev c c' hact hl hc' hset es he t =>
    have hopen := hw.open_of_live hact hl
    have hwas : w.working.isSome.toNat = 1 := by simp [working, hact, hopen]
    have hnow : (World.working { w with actual := some (.connector c') }).isSome.toNat = 0 := by
      simp [working, hc']
    have hlen : es.length ≤ 1 := by
      rcases he with ⟨rfl, -⟩ | ⟨e, rfl, -⟩ <;> simp
    change _ + _ + w.pendingStarts +
      (World.working { w with actual := some (.connector c') }).isSome.toNat ≤ 1
    simp only [List.length_append, hnow]
    omega
  | accepted rv n hact es he t => exact absurd (hk.symm.trans (hw.acceptor n hact)) nofun
  | _ => exact hb

theorem Ledger.once_trans (hL : Ledger w) (hw : Located w) (ha : Fresh w a)
    (h : Trans w a w') (hk' : w'.kind = .connector) (n : ℕ) :
    w'.log.countP (LogEntry.isFiredBy n) ≤ 1 := by
  have hk : w.kind = .connector := by cases h <;> exact hk'
  have honce := hL.once hk n
  rcases log_trans h with ⟨hl, -⟩ | ⟨hatt, hl | ⟨e, es, o, hq, hl, -, -⟩⟩
  · rwa [hl]
  · simpa [hl, LogEntry.isFiredBy] using honce
  · by_cases hn : n = w'.attempts
    · have hb := hL.budget_trans hw ha h hk'
      unfold World.budget at hb
      rw [hn]
      omega
    · have hcur := hw.queued e (by simp [hq])
      have hother : LogEntry.isFiredBy n (.fired e o) = false := by
        simp [LogEntry.isFiredBy, hcur, ← hatt, Ne.symm hn]
      simpa [hl, hother] using honce

theorem Ledger.trans (hL : Ledger w) (hw : Located w) (ha : Fresh w a) (h : Trans w a w') :
    Ledger w' where
  past := hL.past_trans hw h
  ended := hL.ended_trans hw h
  own := hL.own_trans hw h
  budget := hL.budget_trans hw ha h
  once := hL.once_trans hw ha h
  refused := hL.refused_trans hw h

/-! ### The results -/

/-- **Indications of fresh attempts.** In every state reached by runs in which an attempt
is started only when nothing of an earlier one is left: an indication goes to the sink of
the attempt that produced it; a connect attempt gets at most one; and after its attempt was
cancelled an indication is not delivered, and its transport is disconnected. -/
theorem indications_of_fresh (kind : Kind) (h : Reach step Fresh (init kind) w) :
    (∀ e n, .fired e (.delivered n) ∈ w.log → n = e.attempt) ∧
      (kind = .connector → ∀ n, w.log.countP (LogEntry.isFiredBy n) ≤ 1) ∧
      ∀ before after m, w.log = before ++ .cancelled m :: after →
        ∀ e o, .fired e o ∈ after → e.attempt = m →
          o = if e.trpt.isSome then .disconnected else .ignored := by
  have hL : Ledger w := h.induct_of (fun _ hs => located_of_reach hs) (ledger_init kind)
    fun _ _ _ hw hs ha hstep => hs.trans hw ha (trans_of_step hstep)
  have hkind : w.kind = kind := h.induct (I := fun s => s.kind = kind) rfl
    fun s s' a hs _ hstep => by
      rw [← hs]
      cases trans_of_step hstep <;> rfl
  refine ⟨hL.own, fun hk => hL.once (hkind.trans hk), fun before after m hl e o hm hem => ?_⟩
  have hp := hL.refused
  rw [hl] at hp
  exact rel_of_pairwise hp hm m e o rfl rfl hem

/-- A connect cancelled with its indication queued, then a second one that is delivered. -/
theorem indications_of_fresh_cancelled :
    ∃ w, Reach step Fresh (init .connector) w ∧
      w.log = [.cancelled 1, .fired ⟨1, .ok, some 0⟩ .disconnected,
        .fired ⟨2, .ok, some 1⟩ (.delivered 2)] ∧
      (∀ e n, .fired e (.delivered n) ∈ w.log → n = e.attempt) ∧
      (Kind.connector = .connector → ∀ n, w.log.countP (LogEntry.isFiredBy n) ≤ 1) ∧
      ∀ before after m, w.log = before ++ .cancelled m :: after →
        ∀ e o, .fired e o ∈ after → e.attempt = m →
          o = if e.trpt.isSome then .disconnected else .ignored := by
  have hrun : Reach step Fresh (init .connector) _ := reach_of_exec
    [.asycConnect false, .fireNet .started, .connectorEvent (.onOutput .ok), .cancelConnect,
      .fireUser, .fireNet .started, .asycConnect true, .fireNet .started,
      .connectorEvent (.onOutput .ok), .fireUser]
    (by decide) rfl
  exact ⟨_, hrun, rfl, indications_of_fresh .connector hrun⟩

/-- **The next attempt's sink gets the cancelled attempt's transport.** A connector whose
first attempt is cancelled with its indication still queued, and an acceptor stopped with
an accepted connection still queued: the second attempt clears the stop flag and sets its
sink before the event fires. -/
theorem delivered_to_next_attempt :
    (∃ w, Reachable step (init .connector) w ∧
      w.log = [.cancelled 1, .fired ⟨1, .ok, some 0⟩ (.delivered 2)]) ∧
    ∃ w, Reachable step (init .acceptor) w ∧
      w.log = [.cancelled 1, .fired ⟨1, .ok, some 0⟩ (.delivered 2)] := by
  have hcon : Reachable step (init .connector) _ := reachable_of_exec
    [.asycConnect false, .fireNet .started, .connectorEvent (.onOutput .ok), .cancelConnect,
      .asycConnect false, .fireUser] rfl
  have hacc : Reachable step (init .acceptor) _ := reachable_of_exec
    [.startListen, .fireNet .started, .listenReturn, .accept .ok, .stopListen, .startListen,
      .fireNet .started, .fireNet .started, .listenReturn, .fireUser] rfl
  exact ⟨⟨_, hcon, rfl⟩, _, hacc, rfl⟩

end World

end VosStack.Connect
