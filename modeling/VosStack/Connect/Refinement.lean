import VosStack.Connect.Proxy
import VosStack.Connect.Wrapper

/-!
# The proxy's connector is the connector wrapper

`Connect.Proxy` knows three things of its actual connector: whether it is closed, whether its
handler is registered, and which timer it has. `Connect.Wrapper` has the transport, the bindings
in the reactor and all timers. Here the first is shown to be an abstraction of the second
(`Represents`):

* an `AsycConnect` of the wrapper is one of the starts of the proxy's connector
  (`exists_startConnector`);
* whatever the reactor then calls on the wrapper is a `connectorEvent` of the proxy, with the reason
  that the wrapper reports (`connectorEvent_of_step`), so that a run of the wrapper is followed by a
  run of the proxy (`reachable_proxy`).

The proxy makes one attempt with each wrapper, and cancels it by destroying the wrapper.
-/

namespace VosStack.Connect

open Transition
open Handlers (Masks isBound_iff)
open Wrapper (Timer Script Entry)

/-- The argument of a timer of the wrapper. -/
def reason : Timer → Option CAWResult
  | .error => some .networkConnectError
  | .timeout => some .networkConnectTimeout
  | .connector => none

/-- The wrapper may still hear of its socket: the handler is bound, or the `CFSConnectorUdpT` has
its timer. -/
def Hears (eh : ℕ) (w : Wrapper.World) : Prop :=
  (∃ fd, w.reactor.isBound eh fd = true) ∨ .connector ∈ w.timers

/-- `c` is what the proxy knows of the wrapper. -/
structure Represents (eh : ℕ) (w : Wrapper.World) (c : CFSConnectorWrapper) : Prop where
  closed : c.closed = w.closed
  registered : Hears eh w → c.registered = true
  timer : ∀ t ∈ w.timers, ∀ rv, reason t = some rv → c.timer = some rv

variable {M : Masks} {type : CType} {eh : ℕ} {w w' : Wrapper.World} {c : CFSConnectorWrapper}

/-- Nothing more is heard of a wrapper that has been cleared. -/
theorem represents_of_clear (h : Wrapper.Clear eh w.left) (hc : c.closed = true) :
    Represents eh w c := by
  have htimers : w.timers = [] := h.timers
  refine ⟨hc.trans h.closed.symm, ?_, fun t ht => ?_⟩
  · rintro (⟨fd, hbound⟩ | hmem)
    · obtain ⟨ele, hele, heh⟩ := isBound_iff.mp hbound
      exact absurd heh (h.unbound fd ele hele)
    · rw [htimers] at hmem
      exact absurd hmem List.not_mem_nil
  · rw [htimers] at ht
    exact absurd ht List.not_mem_nil

/-! ### The start -/

theorem timers_scheduleTimer (w : Wrapper.World) (s : Script) (t : Timer) :
    ∀ t' ∈ (w.scheduleTimer s t).timers, t' ∈ w.timers ∨ t' = t := by
  intro t' ht'
  rw [Wrapper.World.scheduleTimer] at ht'
  split at ht'
  · exact (List.mem_append.mp ht').imp_right List.mem_singleton.mp
  · exact .inl ht'

theorem timers_connect_i (w : Wrapper.World) (s : Script) :
    (w.connect_i M eh s).1.timers = w.timers := by
  have htimers := (Wrapper.openPeer_frame w s).2.2
  rw [Wrapper.World.connect_i]
  dsimp only
  split
  · exact htimers
  split
  · exact htimers
  split
  · exact htimers
  split
  · exact htimers
  split <;> exact htimers

/-- `Connect` adds at most the timer of the UDP connector. -/
theorem timers_connect (type : CType) (w : Wrapper.World) (s : Script) :
    ∀ t ∈ (w.connect M type eh s).1.timers, t ∈ w.timers ∨ t = .connector := by
  intro t ht
  cases type with
  | tcp =>
    rw [Wrapper.World.connect, Wrapper.World.connectTcp] at ht
    split at ht
    · exact .inl ht
    · dsimp only at ht
      split at ht
      · exact .inl (timers_connect_i w s ▸ ht)
      split at ht <;> exact .inl (timers_connect_i w s ▸ ht)
  | udp =>
    have htimers := (Wrapper.openPeer_frame w s).2.2
    rw [Wrapper.World.connect, Wrapper.World.connectUdp] at ht
    split at ht
    · exact .inl ht
    split at ht
    · exact .inl ht
    dsimp only at ht
    split at ht
    · exact .inl (htimers ▸ ht)
    split at ht
    · exact (timers_scheduleTimer _ s .connector t ht).imp_left fun h => htimers ▸ h
    · exact .inl (htimers ▸ ht)

/-- **The start.** A new attempt of the wrapper is what the proxy takes it for. -/
theorem exists_startConnector (h : Wrapper.Inv M type eh w) (hclosed : w.closed = true)
    (s : Script) (aTimeout : Bool) (attempt : ℕ) :
    ∃ start c, World.startConnector attempt aTimeout start = some (.connector c) ∧
      Represents eh (w.asycConnect M type eh s aTimeout) c := by
  have hclear := h.clear hclosed
  have hnil : w.timers = [] := hclear.timers
  have hframe := (Wrapper.connect_spec (M := M)
    (w := { w with sink := some w.next, closed := false, next := w.next + 1 }) type s
    hclear.unbound fun t ht => absurd (hnil ▸ ht) List.not_mem_nil).1
  -- so far there is no timer of the wrapper itself
  have hnone : ∀ t ∈ (Wrapper.World.connect M type eh
      { w with sink := some w.next, closed := false, next := w.next + 1 } s).1.timers,
      reason t = none := by
    intro t ht
    rcases timers_connect type _ s t ht with ht | rfl
    · exact absurd (hnil ▸ ht) List.not_mem_nil
    · rfl
  rw [Wrapper.World.asycConnect]
  dsimp only
  split
  · refine ⟨.failed true, _, rfl, ?_, fun _ => rfl, fun t ht rv hrv => ?_⟩
    · exact ((Wrapper.scheduleTimer_frame _ s .error).closed.trans hframe.closed).symm
    · rcases timers_scheduleTimer _ s .error t ht with ht | rfl
      · exact absurd (hrv.symm.trans (hnone t ht)) (Option.some_ne_none rv)
      · exact hrv
  split
  · next htimeout =>
    refine ⟨.started, _, rfl, ?_, fun _ => rfl, fun t ht rv hrv => ?_⟩
    · exact ((Wrapper.scheduleTimer_frame _ s .timeout).closed.trans hframe.closed).symm
    · rcases timers_scheduleTimer _ s .timeout t ht with ht | rfl
      · exact absurd (hrv.symm.trans (hnone t ht)) (Option.some_ne_none rv)
      · rw [if_pos htimeout]
        exact hrv
  · refine ⟨.started, _, rfl, hframe.closed.symm, fun _ => rfl, fun t ht rv hrv => ?_⟩
    exact absurd (hrv.symm.trans (hnone t ht)) (Option.some_ne_none rv)

/-! ### The calls of the reactor -/

/-- The reason decides alone when it is a failure. -/
theorem onConnectIndication_of_failed {p : World} {attempt : ℕ} {reason : CAWResult}
    (h : reason ≠ .ok) (rv rv' : CAWResult) :
    p.onConnectIndication attempt reason rv = p.onConnectIndication attempt reason rv' := by
  have hnot : ¬ reason.succeeded = true := fun hok => h (CAWResult.succeeded_iff.mp hok)
  rw [World.onConnectIndication, World.onConnectIndication, if_neg hnot, if_neg hnot]

/-- The proxy with the wrapper `c` takes an event: the sink of the wrapper is told `reason`, and the
wrapper is then `c'`. -/
def Takes (p : World) (c c' : CFSConnectorWrapper) (reason rvOpen : CAWResult) : Prop :=
  ∃ ev, p.connectorEvent ev =
    some (World.onConnectIndication { p with actual := some (.connector c') } c.attempt reason
      rvOpen)

section takes

variable {p : World} (hp : p.actual = some (.connector c))

include hp

theorem takes_onOutput (hreg : c.registered = true) (rvOpen : CAWResult) :
    Takes p c c.close_i .ok rvOpen := by
  refine ⟨.onOutput rvOpen, ?_⟩
  rw [World.connectorEvent, hp]
  exact if_pos hreg

theorem takes_onClose (hreg : c.registered = true) (rvOpen : CAWResult) :
    Takes p c { c with registered := false }.close_i .networkSocketError rvOpen := by
  refine ⟨.onClose, ?_⟩
  rw [World.connectorEvent, hp]
  exact (if_pos hreg).trans (congrArg some (onConnectIndication_of_failed (by decide) .ok rvOpen))

theorem takes_onTimeout {rv : CAWResult} (ht : c.timer = some rv) (hrv : rv ≠ .ok)
    (rvOpen : CAWResult) : Takes p c { c with timer := none }.close_i rv rvOpen := by
  refine ⟨.onTimeout, ?_⟩
  rw [World.connectorEvent, hp]
  dsimp only
  rw [ht]
  dsimp only
  rw [onConnectIndication_of_failed hrv rvOpen .ok]

end takes

/-- The wrapper has told its sink `reason`, and is closed. -/
structure Told (eh : ℕ) (w w' : Wrapper.World) (reason : CAWResult) : Prop where
  log : w'.log = w.log ++ [.indicate w.sink reason w'.left]
  clear : Wrapper.Clear eh w'.left

theorem closed_close_i (M : Masks) (type : CType) (eh : ℕ) (w : Wrapper.World) :
    (w.close_i M type eh).closed = true := by
  rw [Wrapper.World.close_i]
  split
  · assumption
  · exact (Wrapper.closeConnector_frame M type eh { w with closed := true }).closed

theorem told_callSink {v : Wrapper.World} {rv : CAWResult} (hsink : v.sink = w.sink)
    (hlog : v.log = w.log) (h : Wrapper.Inv M type eh ((v.close_i M type eh).callSink rv)) :
    Told eh w ((v.close_i M type eh).callSink rv) rv := by
  obtain ⟨hsink', -, hlog'⟩ := Wrapper.close_i_frame M type eh v
  refine ⟨?_, h.clear (closed_close_i M type eh v)⟩
  rw [Wrapper.World.callSink, hsink', hlog', hsink, hlog]
  rfl

/-- The steps that are calls of the reactor. The proxy makes no second attempt with a wrapper and
does not call `CancelConnect` before it destroys it. -/
def Called (_ : Wrapper.World) : Wrapper.Action → Prop
  | .asycConnect _ _ | .cancelConnect => False
  | .output _ | .close _ | .timer _ | .other _ => True

/-- **The calls.** What the reactor calls on the wrapper is an event of the proxy's connector. -/
theorem connectorEvent_of_step (h : Wrapper.Inv M type eh w) (hr : Represents eh w c)
    {a : Wrapper.Action} (ha : Called w a) (hstep : Wrapper.step M type eh w a = some w') :
    Represents eh w' c ∨
      ∃ rv c', Told eh w w' rv ∧ Represents eh w' c' ∧
        ∀ p : World, p.actual = some (.connector c) → ∀ rvOpen, Takes p c c' rv rvOpen := by
  have hinv := Wrapper.inv_step h hstep
  cases a with
  | asycConnect s aTimeout => exact absurd ha id
  | cancelConnect => exact absurd ha id
  | output fd =>
    obtain ⟨hbound, ⟨rfl⟩⟩ := Option.ite_none_right_eq_some.mp hstep
    have htold := told_callSink (w := w) rfl rfl hinv
    refine .inr ⟨.ok, c.close_i, htold, represents_of_clear htold.clear c.close_i_closed, ?_⟩
    exact fun p hp => takes_onOutput hp (hr.registered (.inl ⟨fd, hbound⟩))
  | close fd =>
    obtain ⟨hbound, ⟨rfl⟩⟩ := Option.ite_none_right_eq_some.mp hstep
    obtain ⟨ele, hele, heh⟩ := isBound_iff.mp hbound
    -- only a TCP connector has a binding
    obtain ⟨rfl, -⟩ := h.bindings.bound fd ele hele heh
    have hframe := Wrapper.closeConnector_frame M .tcp eh
      { w with reactor := (w.reactor.unBind fd).onHandleRemoved fd }
    have htold := told_callSink (w := w) hframe.sink hframe.log hinv
    refine .inr ⟨.networkSocketError, CFSConnectorWrapper.close_i { c with registered := false },
      htold, represents_of_clear htold.clear (CFSConnectorWrapper.close_i_closed _), ?_⟩
    exact fun p hp => takes_onClose hp (hr.registered (.inl ⟨fd, hbound⟩))
  | timer t =>
    obtain ⟨ht, ⟨rfl⟩⟩ := Option.ite_none_right_eq_some.mp hstep
    cases t with
    | error =>
      have htold := told_callSink (w := w) (v := { w with timers := w.timers.erase .error })
        rfl rfl hinv
      refine .inr ⟨.networkConnectError, CFSConnectorWrapper.close_i { c with timer := none },
        htold, represents_of_clear htold.clear (CFSConnectorWrapper.close_i_closed _), ?_⟩
      exact fun p hp => takes_onTimeout hp (hr.timer .error ht _ rfl) (by decide)
    | timeout =>
      have htold := told_callSink (w := w) (v := { w with timers := w.timers.erase .timeout })
        rfl rfl hinv
      refine .inr ⟨.networkConnectTimeout, CFSConnectorWrapper.close_i { c with timer := none },
        htold, represents_of_clear htold.clear (CFSConnectorWrapper.close_i_closed _), ?_⟩
      exact fun p hp => takes_onTimeout hp (hr.timer .timeout ht _ rfl) (by decide)
    | connector =>
      have htold := told_callSink (w := w)
        (v := { w with timers := w.timers.erase .connector, transport := none }) rfl rfl hinv
      refine .inr ⟨.ok, c.close_i, htold, represents_of_clear htold.clear c.close_i_closed, ?_⟩
      exact fun p hp => takes_onOutput hp (hr.registered (.inr ht))
  | other o =>
    obtain ⟨ho, ⟨rfl⟩⟩ := Option.ite_none_right_eq_some.mp hstep
    refine .inl ⟨hr.closed, fun hears => hr.registered ?_, hr.timer⟩
    refine hears.imp_left ?_
    rintro ⟨fd, hbound⟩
    obtain ⟨ele', hele', heh⟩ := isBound_iff.mp hbound
    obtain ⟨ele, hele, hsame, -⟩ := Handlers.other_within ho hele' heh
    exact ⟨fd, isBound_iff.mpr ⟨ele, hele, hsame.trans heh⟩⟩

theorem actual_onConnectIndication (p : World) (attempt : ℕ) (rv rvOpen : CAWResult) :
    (p.onConnectIndication attempt rv rvOpen).actual = p.actual := by
  rw [World.onConnectIndication]
  split_ifs <;> rfl

/-- **The proxy simulates the wrapper.** From the start of an attempt on, whatever the reactor calls
on the wrapper, the proxy has a run that ends with what it knows of the wrapper. -/
theorem reachable_proxy {w₁ : Wrapper.World} {c₁ : CFSConnectorWrapper} {p₁ : World}
    (h₁ : Wrapper.Inv M type eh w₁) (hr₁ : Represents eh w₁ c₁)
    (hp₁ : p₁.actual = some (.connector c₁))
    (h : Reach (Wrapper.step M type eh) Called w₁ w) :
    ∃ p, Reachable World.step p₁ p ∧ Wrapper.Inv M type eh w ∧
      ∃ c, p.actual = some (.connector c) ∧ Represents eh w c := by
  refine h.simulate (R := fun w (p : World) => Wrapper.Inv M type eh w ∧
    ∃ c, p.actual = some (.connector c) ∧ Represents eh w c) ⟨h₁, c₁, hp₁, hr₁⟩ ?_
  rintro w w' a p ⟨hinv, c, hp, hr⟩ ha hstep
  have hinv' := Wrapper.inv_step hinv hstep
  rcases connectorEvent_of_step hinv hr ha hstep with hr' | ⟨rv, c', -, hr', htakes⟩
  · exact ⟨p, .refl, hinv', c, hp, hr'⟩
  · obtain ⟨ev, hev⟩ := htakes p hp .ok
    refine ⟨_, .tail .refl trivial (a := .connectorEvent ev) hev, hinv', c', ?_, hr'⟩
    rw [actual_onConnectIndication]

end VosStack.Connect
