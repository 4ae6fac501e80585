import VosStack.Transport.Inversion

/-!
# What the user's sink sees

The bytes read from the socket pass from `OnEpollInput` to the proxy's `OnReceive`, wait in
a `CFSEventOnReceive` of the user's queue and reach the sink when the event fires. Three
tests can drop them on the way: the actual transport's sink pointer, the proxy's stop flag
and the proxy's `m_pSinkActual`. The first is set as long as the reactor delivers to the
transport (`Wired`). The second is set only by an `OnDisconnect` that was delivered, by the
user's `Disconnect` or by the release of the last reference, and it stays set. The third is
where `Opens` is used: the indication is the first event of the
queue, so once the user opens the transport inside its `OnConnectIndication` no data event
finds the pointer empty.

After a close event the actual transport has neither sink nor handler (`Shut`): it reads no
more, and the data events before the `CFSEventOnDisconnect` are all there will be.
-/

namespace VosStack

open Transition

/-! ### Reading a log -/

namespace LogEntry

/-- The bytes that the entry hands to the sink. -/
def deliveredBytes : LogEntry → Bytes
  | .onReceive d => d
  | _ => []

/-- The entry is an upcall made on the sink. -/
def isUpcall : LogEntry → Bool
  | .onReceive _ => true
  | .onSend => true
  | .onDisconnect => true
  | _ => false

/-- The entry ends the delivery: an `OnDisconnect`, or the return of a `Disconnect`. -/
def isLast : LogEntry → Bool
  | .onDisconnect => true
  | .disconnect => true
  | _ => false

end LogEntry

namespace World

/-- The `OnReceive` bytes of a log, in order. -/
def deliveredBytes (log : List LogEntry) : Bytes := log.flatMap LogEntry.deliveredBytes

/-- The bytes of the data events still queued. -/
def pendingBytes (q : List UserEvent) : Bytes :=
  q.flatMap fun e => match e with
    | .onReceive d => d
    | _ => []

/-- The bytes that the network thread has read and not yet posted. -/
def postingBytes : NetPos → Bytes
  | .receivePost d _ => d
  | _ => []

@[simp] theorem deliveredBytes_append (l l' : List LogEntry) :
    deliveredBytes (l ++ l') = deliveredBytes l ++ deliveredBytes l' :=
  List.flatMap_append

@[simp] theorem deliveredBytes_cons (e : LogEntry) (l : List LogEntry) :
    deliveredBytes (e :: l) = e.deliveredBytes ++ deliveredBytes l := rfl

@[simp] theorem deliveredBytes_nil : deliveredBytes [] = [] := rfl

@[simp] theorem pendingBytes_append (q q' : List UserEvent) :
    pendingBytes (q ++ q') = pendingBytes q ++ pendingBytes q' :=
  List.flatMap_append

@[simp] theorem pendingBytes_onReceive_cons (d : Bytes) (q : List UserEvent) :
    pendingBytes (.onReceive d :: q) = d ++ pendingBytes q := rfl

@[simp] theorem pendingBytes_onSend_cons (q : List UserEvent) :
    pendingBytes (.onSend :: q) = pendingBytes q := rfl

@[simp] theorem pendingBytes_onDisconnect_cons (q : List UserEvent) :
    pendingBytes (.onDisconnect :: q) = pendingBytes q := rfl

@[simp] theorem pendingBytes_onConnectIndication_cons (q : List UserEvent) :
    pendingBytes (.onConnectIndication :: q) = pendingBytes q := rfl

@[simp] theorem pendingBytes_nil : pendingBytes [] = [] := rfl

/-- A log without upcalls delivers nothing. -/
theorem deliveredBytes_eq_nil {l : List LogEntry} (h : ∀ e ∈ l, e.isUpcall = false) :
    deliveredBytes l = [] := by
  refine List.flatMap_eq_nil_iff.mpr fun e he => ?_
  have hu := h e he
  cases e <;> simp_all [LogEntry.isUpcall, LogEntry.deliveredBytes]

/-! ### The proviso -/

/-- The condition on a step: the user takes the next event of its queue only after it has
opened the transport it was given (or given it up). -/
def Opens (w : World) : Action → Prop
  | .fireUser _ => w.indicated = true → w.opened = true ∨ w.proxy.stopped = true
  | _ => True

instance (w : World) : ∀ a, Decidable (Opens w a)
  | .fireUser _ => inferInstanceAs (Decidable (_ → _))
  | .sendData _ | .openWithSink | .disconnect | .release | .userNext | .fireNet _
  | .onOutput _ | .onInput | .recv _ | .onTimer _ | .closeEvent | .netNext
  | .stopQueue => inferInstanceAs (Decidable True)

/-! ### The invariant -/

/-- The actual transport is closed: it reads no more and has nothing left to post. -/
structure Shut (w : World) : Prop where
  sink : w.tcp.sink = false
  bound : w.bound = false
  posting : postingBytes w.net = []

/-- What the runs in which the user opens its transport keep. -/
structure DeliveryInv (w : World) : Prop where
  /-- the indication is the first event of the queue -/
  indication : w.indicated = false → w.proxy.stopped = false →
    w.userQueue.head? = some .onConnectIndication
  sinkActual : w.opened = true → w.proxy.stopped = false → w.proxy.sinkActual = true
  /-- unless the proxy is stopped, nothing that was read is missing -/
  bytes : w.proxy.stopped = false →
    deliveredBytes w.log ++ pendingBytes w.userQueue ++ postingBytes w.net = w.rcvd
  delivered : deliveredBytes w.log <+: w.rcvd
  shut : w.net = .onDisconnectPost ∨ .onDisconnect ∈ w.userQueue ∨ .onDisconnect ∈ w.log →
    Shut w
  /-- a `CFSEventOnDisconnect` is behind all data events -/
  last : ∀ q₁ q₂, w.userQueue = q₁ ++ .onDisconnect :: q₂ → pendingBytes q₂ = []
  complete : .onDisconnect ∈ w.log → deliveredBytes w.log = w.rcvd
  stopped : w.user = .disconnectPost ∨ (∃ e ∈ w.log, e.isLast = true) →
    w.proxy.stopped = true
  quiet : w.log.Pairwise fun e e' => e.isLast = true → e'.isUpcall = false

variable {w w' : World} {a : Action}

theorem deliveryInv_init (fd : ℕ) : DeliveryInv (init fd) where
  indication _ _ := rfl
  sinkActual := by simp [init]
  bytes _ := rfl
  delivered := List.prefix_rfl
  shut := by simp [init]
  last q₁ q₂ h := by
    have hm : UserEvent.onDisconnect ∈ (init fd).userQueue := by simp [h]
    simp [init] at hm
  complete := by simp [init]
  stopped := by simp [init]
  quiet := List.Pairwise.nil

/-- The stop flag stays set. -/
theorem stopped_trans (h : Trans w a w') (hs : w.proxy.stopped = true) :
    w'.proxy.stopped = true := by
  cases h <;> simp_all

/-- A transition adds to what was read only while the sink pointer is set, and then what it
adds is about to be posted unless the proxy is stopped. -/
theorem rcvd_trans (hJ : Wired w) (h : Trans w a w') :
    w'.rcvd = w.rcvd ∨ w.tcp.sink = true ∧ w.rcvd <+: w'.rcvd ∧ postingBytes w.net = [] ∧
      w'.userQueue = w.userQueue ∧ w'.log = w.log ∧
      (w.proxy.stopped = false → w'.rcvd = w.rcvd ++ postingBytes w'.net) := by
  have hloop : w.net = .inputLoop → w.tcp.sink = true := fun hn =>
    hJ.sink_of_bound (hJ.bound_of_inLoop (by rw [hn]; rfl))
  cases h with
  | recvDrop b bs hn hd =>
    have hk := hloop hn
    exact .inr ⟨hk, List.prefix_append _ _, by rw [hn]; rfl, rfl, rfl, by simp_all⟩
  | recvPost b bs hn hk hs =>
    exact .inr ⟨hk, List.prefix_append _ _, by rw [hn]; rfl, rfl, rfl, fun _ => rfl⟩
  | timerDrop b bs hn ht hd =>
    have hk := hJ.sink_of_rereceive ht
    exact .inr ⟨hk, List.prefix_append _ _, by rw [hn]; rfl, rfl, rfl, by simp_all⟩
  | timerPost b bs hn ht hk hs =>
    exact .inr ⟨hk, List.prefix_append _ _, by rw [hn]; rfl, rfl, rfl, fun _ => rfl⟩
  | _ => exact .inl rfl

/-- A transition adds at most one entry to the log: an upcall only while the proxy is not
stopped, an entry that ends the delivery only with the proxy stopped afterwards. -/
theorem log_trans (hw : DeliveryInv w) (h : Trans w a w') :
    w'.log = w.log ∨ ∃ e, w'.log = w.log ++ [e] ∧
      (e.isUpcall = true → w.proxy.stopped = false) ∧
      (e.isLast = true → w'.proxy.stopped = true) := by
  cases h with
  | sendStopped d hu hs => exact .inr ⟨_, rfl, nofun, nofun⟩
  | disconnectAgain hu hs => exact .inr ⟨_, rfl, nofun, fun _ => hs⟩
  | sendRefuse d hu hp => exact .inr ⟨_, rfl, nofun, nofun⟩
  | sendReject d hu hq => exact .inr ⟨_, rfl, nofun, nofun⟩
  | sendAccept d hu hq => exact .inr ⟨_, rfl, nofun, nofun⟩
  | disconnectReject hu hq => exact .inr ⟨_, rfl, nofun, fun _ => hw.stopped (.inl hu)⟩
  | disconnectAccept hu hq => exact .inr ⟨_, rfl, nofun, fun _ => hw.stopped (.inl hu)⟩
  | fireReceive c d es hu hq hs hk => exact .inr ⟨_, rfl, fun _ => hs, nofun⟩
  | fireOnSend c es hu hq hs hk hn => exact .inr ⟨_, rfl, fun _ => hs, nofun⟩
  | fireDisconnect c es hu hq hs hk => exact .inr ⟨_, rfl, fun _ => hs, fun _ => rfl⟩
  | _ => exact .inl rfl

/-- A closed transport stays closed. -/
theorem Shut.trans (hS : Shut w) (h : Trans w a w') : Shut w' := by
  obtain ⟨hk, hb, hp⟩ := hS
  cases h with
  | recvPost b bs hn hk' hs => simp [hk] at hk'
  | timerPost b bs hn ht hk' hs => simp [hk] at hk'
  | flag₂ exit upcall hn =>
    refine ⟨hk, hb, ?_⟩
    dsimp only
    split <;> rfl
  | postReceive d loop hn =>
    refine ⟨hk, hb, ?_⟩
    dsimp only
    split <;> rfl
  | _ => constructor <;> simp_all [postingBytes, CFSTransportTcp.disconnect]

/-- A closed transport reads nothing. -/
theorem Shut.rcvd_trans (hS : Shut w) (hJ : Wired w) (h : Trans w a w') :
    w'.rcvd = w.rcvd := by
  refine (World.rcvd_trans hJ h).resolve_right fun hr => ?_
  simp [hS.sink] at hr

/-- A transition takes the front event of the user's queue or adds one at its end; the
bytes it adds are those that the network thread was about to post. -/
theorem userQueue_trans (h : Trans w a w') :
    w'.userQueue = w.userQueue ∨ (∃ e, w.userQueue = e :: w'.userQueue) ∨
      ∃ e, w'.userQueue = w.userQueue ++ [e] ∧ pendingBytes [e] = postingBytes w.net := by
  cases h with
  | fireIgnored c e es hu hq hd => exact .inr (.inl ⟨_, hq⟩)
  | fireCancelled es hu hq hs => exact .inr (.inl ⟨_, hq⟩)
  | fireIndication es hu hq => exact .inr (.inl ⟨_, hq⟩)
  | fireReceive c d es hu hq hs hk => exact .inr (.inl ⟨_, hq⟩)
  | fireOnSend c es hu hq hs hk hn => exact .inr (.inl ⟨_, hq⟩)
  | fireDisconnect c es hu hq hs hk => exact .inr (.inl ⟨_, hq⟩)
  | fireDisconnectNoSink c es hu hq hs hk => exact .inr (.inl ⟨_, hq⟩)
  | postOnSend hn => exact .inr (.inr ⟨_, rfl, by rw [hn]; rfl⟩)
  | postReceive d loop hn =>
    exact .inr (.inr ⟨_, rfl, by simp [hn, postingBytes]⟩)
  | postDisconnect hn => exact .inr (.inr ⟨_, rfl, by rw [hn]; rfl⟩)
  | _ => exact .inl rfl

/-! ### Each part is kept -/

/-- Before a transition that leaves the proxy running it was running. -/
private theorem running_of_trans (h : Trans w a w') (hs' : w'.proxy.stopped = false) :
    w.proxy.stopped = false := by
  by_contra hne
  simp [stopped_trans h (by simpa using hne)] at hs'

theorem DeliveryInv.indication_trans (hw : DeliveryInv w) (h : Trans w a w')
    (hi : w'.indicated = false) (hs' : w'.proxy.stopped = false) :
    w'.userQueue.head? = some .onConnectIndication := by
  have hs := running_of_trans h hs'
  have hfront := hw.indication
  have hpost : ∀ e, w.userQueue.head? = some .onConnectIndication →
      (w.userQueue ++ [e]).head? = some .onConnectIndication := by
    intro e he
    simp [List.head?_append, he]
  cases h <;> simp_all

theorem DeliveryInv.sinkActual_trans (hw : DeliveryInv w) (h : Trans w a w')
    (ho : w'.opened = true) (hs' : w'.proxy.stopped = false) :
    w'.proxy.sinkActual = true := by
  have hs := running_of_trans h hs'
  have hsink := hw.sinkActual
  cases h <;> simp_all

/-- A data event does not find the proxy running without a sink. -/
theorem DeliveryInv.sinkActual_of_onReceive (hw : DeliveryInv w) {c : Bool}
    (ha : Opens w (.fireUser c)) (hs : w.proxy.stopped = false) {d : Bytes}
    {es : List UserEvent} (hq : w.userQueue = .onReceive d :: es) :
    w.proxy.sinkActual = true := by
  have hi : w.indicated = true := by
    by_contra hne
    have hfront := hw.indication (by simpa using hne) hs
    simp [hq] at hfront
  rcases ha hi with ho | hstop
  · exact hw.sinkActual ho hs
  · simp [hs] at hstop

theorem DeliveryInv.bytes_trans (hJ : Wired w) (hw : DeliveryInv w) (ha : Opens w a)
    (h : Trans w a w') (hs' : w'.proxy.stopped = false) :
    deliveredBytes w'.log ++ pendingBytes w'.userQueue ++ postingBytes w'.net = w'.rcvd := by
  have hs := running_of_trans h hs'
  have hbytes := hw.bytes hs
  rcases rcvd_trans hJ h with hr | ⟨-, -, hp, hq, hl, hr⟩
  · rw [hr]
    cases h with
    | fireIgnored c e es hu hq hd =>
      simp only [hs, Bool.false_eq_true, false_or] at hd
      rcases hd with ⟨rfl, -⟩ | ⟨hk, rfl | ⟨d, rfl⟩⟩
      · simpa [hq] using hbytes
      · simpa [hq] using hbytes
      · simp [hw.sinkActual_of_onReceive ha hs hq] at hk
    | flag₂ exit upcall hn =>
      dsimp only
      split <;> simpa [hn, postingBytes] using hbytes
    | postReceive d loop hn =>
      dsimp only
      split <;> simpa [hn, postingBytes] using hbytes
    | closeNoSink a hn hk =>
      rcases hn.net with hn | hn <;> simpa [hn, postingBytes] using hbytes
    | closePost a hn hk hs =>
      rcases hn.net with hn | hn <;> simpa [hn, postingBytes] using hbytes
    | _ => simp_all [postingBytes, LogEntry.deliveredBytes]
  · rw [hr hs, hq, hl, ← hbytes, hp, List.append_nil]

theorem DeliveryInv.delivered_trans (hJ : Wired w) (hw : DeliveryInv w) (ha : Opens w a)
    (h : Trans w a w') : deliveredBytes w'.log <+: w'.rcvd := by
  have hr : w.rcvd <+: w'.rcvd := by
    rcases rcvd_trans hJ h with hr | ⟨-, hr, -⟩
    · exact hr ▸ List.prefix_rfl
    · exact hr
  have hkept : deliveredBytes w'.log = deliveredBytes w.log →
      deliveredBytes w'.log <+: w'.rcvd := fun he => he ▸ hw.delivered.trans hr
  cases h with
  | fireReceive c d es hu hq hs hk =>
    rw [← hw.bytes_trans hJ ha (.fireReceive c d es hu hq hs hk) hs, List.append_assoc]
    exact List.prefix_append _ _
  | _ => exact hkept (by simp [LogEntry.deliveredBytes])

theorem DeliveryInv.shut_trans (hw : DeliveryInv w) (h : Trans w a w')
    (hd : w'.net = .onDisconnectPost ∨ .onDisconnect ∈ w'.userQueue ∨
      .onDisconnect ∈ w'.log) : Shut w' := by
  have hkept := fun hS => Shut.trans hS h
  have hshut := hw.shut
  cases h with
  | closePost a hn hk hs => exact ⟨rfl, rfl, rfl⟩
  | fireIgnored c e es hu hq hi =>
    refine hkept (hshut (hd.imp_right (Or.imp_left fun hm => ?_)))
    exact hq ▸ List.mem_cons_of_mem e hm
  | flag₂ exit upcall hn =>
    refine hkept (hshut (.inr (hd.resolve_left fun hne => ?_)))
    dsimp only at hne
    split at hne <;> simp at hne
  | postReceive d loop hn =>
    refine hkept (hshut (.inr ?_))
    have hd' := hd.resolve_left fun hne => by cases loop <;> simp at hne
    simpa using hd'
  | _ => exact hkept (hshut (by simp_all))

theorem DeliveryInv.last_trans (hw : DeliveryInv w) (h : Trans w a w')
    (q₁ q₂ : List UserEvent) (hq' : w'.userQueue = q₁ ++ .onDisconnect :: q₂) :
    pendingBytes q₂ = [] := by
  rcases userQueue_trans h with hq | ⟨e, hq⟩ | ⟨e, hq, he⟩
  · exact hw.last q₁ q₂ (hq ▸ hq')
  · exact hw.last (e :: q₁) q₂ (by rw [hq, hq', List.cons_append])
  · rw [hq] at hq'
    rcases List.eq_nil_or_concat q₂ with rfl | ⟨q₂', e', rfl⟩
    · rfl
    · -- the new event is behind an `OnDisconnect`, so the transport is closed
      have hsplit : w.userQueue ++ [e] = (q₁ ++ .onDisconnect :: q₂') ++ [e'] := by
        simpa using hq'
      obtain ⟨hold, hee⟩ := List.append_inj' hsplit rfl
      obtain rfl : e = e' := by simpa using hee
      have hS := hw.shut (.inr (.inl (by simp [hold])))
      simp [hw.last q₁ q₂' hold, he, hS.posting]

theorem DeliveryInv.complete_trans (hJ : Wired w) (hw : DeliveryInv w) (h : Trans w a w')
    (hd : .onDisconnect ∈ w'.log) : deliveredBytes w'.log = w'.rcvd := by
  have hkept : .onDisconnect ∈ w.log → deliveredBytes w'.log = deliveredBytes w.log →
      deliveredBytes w'.log = w'.rcvd := fun hm he => by
    rw [he, (hw.shut (.inr (.inr hm))).rcvd_trans hJ h]
    exact hw.complete hm
  have hrun := fun hm => hw.stopped (.inr ⟨.onDisconnect, hm, rfl⟩)
  cases h with
  | fireReceive c d es hu hq hs hk =>
    have hm : LogEntry.onDisconnect ∈ w.log := by simpa using hd
    simp [hrun hm] at hs
  | fireDisconnect c es hu hq hs hk =>
    have hS := hw.shut (.inr (.inl (by simp [hq])))
    have hbytes := hw.bytes hs
    simpa [hq, hS.posting, hw.last [] es hq, LogEntry.deliveredBytes] using hbytes
  | _ => exact hkept (by simpa using hd) (by simp [LogEntry.deliveredBytes])

theorem DeliveryInv.stopped_trans (hw : DeliveryInv w) (h : Trans w a w')
    (hd : w'.user = .disconnectPost ∨ ∃ e ∈ w'.log, e.isLast = true) :
    w'.proxy.stopped = true := by
  rcases hd with hu | ⟨e, he, hlast⟩
  · have hkept := fun hu => World.stopped_trans h (hw.stopped (.inl hu))
    cases h <;> simp_all
  · have hkept := fun hm => World.stopped_trans h (hw.stopped (.inr ⟨e, hm, hlast⟩))
    rcases log_trans hw h with hl | ⟨e', hl, -, hlast'⟩
    · exact hkept (hl ▸ he)
    · rw [hl, List.mem_append, List.mem_singleton] at he
      rcases he with hm | rfl
      · exact hkept hm
      · exact hlast' hlast

theorem DeliveryInv.quiet_trans (hw : DeliveryInv w) (h : Trans w a w') :
    w'.log.Pairwise fun e e' => e.isLast = true → e'.isUpcall = false := by
  rcases log_trans hw h with hl | ⟨e', hl, hrun, -⟩
  · exact hl ▸ hw.quiet
  · rw [hl]
    refine pairwise_snoc hw.quiet ?_
    intro e he hlast
    by_contra hup
    have hs := hrun (by simpa using hup)
    simp [hw.stopped (.inr ⟨e, he, hlast⟩)] at hs

theorem DeliveryInv.trans (hJ : Wired w) (hw : DeliveryInv w) (ha : Opens w a)
    (h : Trans w a w') : DeliveryInv w' where
  indication := hw.indication_trans h
  sinkActual := hw.sinkActual_trans h
  bytes := hw.bytes_trans hJ ha h
  delivered := hw.delivered_trans hJ ha h
  shut := hw.shut_trans h
  last := hw.last_trans h
  complete := hw.complete_trans hJ h
  stopped := hw.stopped_trans h
  quiet := hw.quiet_trans h

/-! ### The result -/

/-- **Delivery.** In every state reached by runs in which the user opens the transport with
its sink inside `OnConnectIndication`: the `OnReceive` bytes are a prefix of the bytes read
from the socket; at most one `OnDisconnect` is delivered, and every byte read has been
delivered before it; and no upcall follows an `OnDisconnect` or the return of a
`Disconnect`. -/
theorem delivery_of_opens (fd : ℕ) (h : Reach step Opens (init fd) w) :
    deliveredBytes w.log <+: w.rcvd ∧
      w.log.count .onDisconnect ≤ 1 ∧
      (∀ before after, w.log = before ++ .onDisconnect :: after →
        deliveredBytes before = w.rcvd) ∧
      ∀ before e after, w.log = before ++ e :: after →
        e = .onDisconnect ∨ e = .disconnect → ∀ e' ∈ after, e'.isUpcall = false := by
  have hI : DeliveryInv w := h.induct_of (fun _ hs => wired_of_reach hs) (deliveryInv_init fd)
    fun _ _ _ hJ hs ha hstep => hs.trans hJ ha (trans_of_step hstep)
  have hquiet : ∀ before e after, w.log = before ++ e :: after →
      e = .onDisconnect ∨ e = .disconnect → ∀ e' ∈ after, e'.isUpcall = false := by
    intro before e after hl he e' hm
    have hp := hI.quiet
    rw [hl] at hp
    refine rel_of_pairwise hp hm ?_
    rcases he with rfl | rfl <;> rfl
  refine ⟨hI.delivered, ?_, fun before after hl => ?_, hquiet⟩
  · by_cases hm : LogEntry.onDisconnect ∈ w.log
    · obtain ⟨before, after, hl, hb⟩ := List.eq_append_cons_of_mem hm
      have ha : LogEntry.onDisconnect ∉ after := fun hma => by
        simpa [LogEntry.isUpcall] using hquiet before _ after hl (.inl rfl) _ hma
      simp [hl, List.count_eq_zero_of_not_mem hb, List.count_eq_zero_of_not_mem ha]
    · simp [List.count_eq_zero_of_not_mem hm]
  · have hall := hI.complete (by simp [hl])
    have hnil := deliveredBytes_eq_nil (hquiet before _ after hl (.inl rfl))
    simpa [hl, hnil, LogEntry.deliveredBytes] using hall

/-- Data read before the indication fires, more data, then a close by the peer: everything
is delivered, then `OnDisconnect`; the `Disconnect` the user still calls returns. -/
theorem delivery_of_opens_closed_by_peer :
    ∃ w, Reach step Opens (init 3) w ∧ w.rcvd = [1, 2] ∧
      w.log = [.onReceive [1], .onReceive [2], .onDisconnect, .disconnect] ∧
      deliveredBytes w.log <+: w.rcvd ∧
      w.log.count .onDisconnect ≤ 1 ∧
      (∀ before after, w.log = before ++ .onDisconnect :: after →
        deliveredBytes before = w.rcvd) ∧
      ∀ before e after, w.log = before ++ e :: after →
        e = .onDisconnect ∨ e = .disconnect → ∀ e' ∈ after, e'.isUpcall = false := by
  have hrun : Reach step Opens (init 3) _ := reach_of_exec
    [.onInput, .recv (.data 1 []), .netNext, .recv (.wouldBlock false), .fireUser false,
      .openWithSink, .fireUser false, .onInput, .recv (.data 2 []), .netNext, .recv .closed,
      .netNext, .fireUser false, .fireUser false, .disconnect]
    (by decide) rfl
  exact ⟨_, hrun, rfl, rfl, delivery_of_opens 3 hrun⟩

end World

end VosStack
