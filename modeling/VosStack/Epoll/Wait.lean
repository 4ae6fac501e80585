import VosStack.Epoll.Shim
import VosStack.Reactor.Handlers

/-!
# From the kernel's reports to the reactor's masks

`vos_epoll_wait` hands the kernel a callback. The kernel collects kevents and copies them out in
batches; `kevent_copyout` calls `vos_event_to_epoll` for each of a batch, which writes the next
entry of the caller's array and advances the cursor `uap->eventlist`. `RunEventLoop` then makes a
mask of every entry.

The kernel is a parameter: it fails, or it delivers at most as many kevents as it was asked for,
**in any batches**. The memory is everything from the caller's `events` on, also beyond the array.
What `RunEventLoop` does with a mask is in `VosStack.Reactor.Handlers`.
-/

namespace VosStack.Epoll

open Handlers (MASK Masks Interest)

/-! ### Copying out -/

/-- The caller's memory from `events` on. -/
abbrev Entries := ℕ → EpollEvent

/-- `struct sys_kevent_args`, as `kevent_copyout` uses it. -/
structure SysKeventArgs where
  /-- the entry that is written next -/
  eventlist : ℕ
  entries : Entries

/-- `uap->do_each(&(uap->eventlist), ke)`, where `do_each` is `vos_event_to_epoll`. -/
def doEach (uap : SysKeventArgs) (ke : Kevent) : SysKeventArgs where
  eventlist := uap.eventlist + 1
  entries := Function.update uap.entries uap.eventlist
    (vosEventToEpoll (uap.entries uap.eventlist) ke)

/-- `kevent_copyout`. -/
def keventCopyout (uap : SysKeventArgs) (kevp : List Kevent) : SysKeventArgs :=
  kevp.foldl doEach uap

/-! ### Waiting -/

structure Timespec where
  sec : ℤ
  nsec : ℤ
  deriving DecidableEq, Repr

/-- What the kernel delivers when it is asked for at most `nevents` kevents. -/
structure Delivery (nevents : ℕ) where
  batches : List (List Kevent)
  length_le : batches.flatten.length ≤ nevents

/-- `kern_kevent` with no changes: an error number, or a delivery. -/
abbrev Kernel := (nevents : ℕ) → Option Timespec → Except ℕ (Delivery nevents)

/-- `ff_kevent_do_each` with no changes. -/
def ffKeventDoEach (kernel : Kernel) (eventlist : Entries) (nevents : ℕ)
    (timeout : Option Timespec) : ℤ × Entries :=
  match kernel nevents timeout with
  | .error _ => (-1, eventlist)
  | .ok d => (d.batches.flatten.length, (d.batches.foldl keventCopyout ⟨0, eventlist⟩).entries)

/-- `short_wait` of `vos_epoll_wait`; there is none for `-1`. -/
def shortWait (timeout : ℤ) : Option Timespec :=
  if timeout = -1 then none
  else some ⟨timeout.tdiv 1000, timeout.tmod 1000 * 1000 * 1000⟩

/-- `vos_epoll_wait`: the result, and the caller's memory if there is an array. -/
def vosEpollWait (kernel : Kernel) (events : Option Entries) (maxevents timeout : ℤ) :
    ℤ × Option Entries :=
  match events with
  | none => (-1, none)
  | some entries =>
      if maxevents < 1 then (-1, some entries)
      else
        let (rc, entries) := ffKeventDoEach kernel entries maxevents.toNat (shortWait timeout)
        (rc, some entries)

/-! ### The reactor -/

/-- A call `ProcessHandleEvent(fdSig, maskSig, rvError, FALSE)`. -/
structure Signal where
  fdSig : BitVec 32
  maskSig : MASK
  rvError : CAWResult
  deriving DecidableEq, Repr

/-- The events of an entry that `RunEventLoop` looks at. -/
def EpollEvent.interest (e : EpollEvent) : Interest := ⟨e.has soEpollIn, e.has soEpollOut⟩

/-- The loop of `RunEventLoop` over the entries of `m_pEpollEvents`; `connected n` is what
`IsConnected` says of the descriptor of the entry `n`. -/
def signals (M : Masks) (connected : ℕ → Bool) (events : Entries) (nfds : ℤ) : List Signal :=
  (List.range nfds.toNat).map fun n =>
    ⟨(events n).data.setWidth 32, M.maskSig (events n).interest (connected n),
      if (events n).interest.output ∧ connected n = false then .networkSocketClose else .ok⟩

/-! ### One entry -/

/-- The entry says of the kevent what it has to. -/
structure Reports (kev : Kevent) (e : EpollEvent) : Prop where
  input : e.has soEpollIn = true ↔ kev.filter = .read
  output : e.has soEpollOut = true ↔ kev.filter = .write
  hup : e.has soEpollHup = true ↔ kev.flags.has evEof = true
  err : e.has soEpollErr = true ↔
    kev.flags.has evError = true ∨
      kev.flags.has evEof = true ∧ (kev.fflags ≠ 0 ∨ kev.filter = .write)
  ptr : kev.udata ≠ 0 → e.data = kev.udata
  fd : kev.udata = 0 → e.data.setWidth 32 = BitVec.ofNat 32 kev.ident

/-- The bits of an entry, by the reason for each. -/
def eventBits (read hup err : Bool) : BitVec 32 :=
  (if read then soEpollIn else soEpollOut) ||| (if hup then soEpollHup else 0) |||
    (if err then soEpollErr else 0)

/-- `SO_EPOLLERR` is set. -/
def Kevent.errs (kev : Kevent) : Bool :=
  kev.flags.has evError || kev.flags.has evEof && (decide (kev.fflags ≠ 0) || kev.filter == .write)

/-- Each bit is set for one reason: the read filter sets `SO_EPOLLIN` without end of file in the
first test, and with it in the last. -/
theorem eventOne_eq (kev : Kevent) :
    eventOne kev = eventBits (kev.filter == .read) (kev.flags.has evEof) kev.errs := by
  rw [eventOne, Kevent.errs]
  cases kev.filter <;> cases kev.flags.has evEof <;> cases kev.flags.has evError <;>
    by_cases hfflags : kev.fflags = 0#32 <;> by_cases hdata : kev.data = 0#64 <;>
      simp [hfflags, hdata] <;> decide

theorem reports_vosEventToEpoll (old : EpollEvent) (kev : Kevent) :
    Reports kev (vosEventToEpoll old kev) := by
  have hhas : ∀ mask, (vosEventToEpoll old kev).has mask =
      (eventBits (kev.filter == .read) (kev.flags.has evEof) kev.errs &&& mask != 0) := by
    intro mask
    rw [← eventOne_eq]
    rfl
  have hin : ∀ r h e, (eventBits r h e &&& soEpollIn != 0) = r := by decide
  have hout : ∀ r h e, (eventBits r h e &&& soEpollOut != 0) = !r := by decide
  have hhup : ∀ r h e, (eventBits r h e &&& soEpollHup != 0) = h := by decide
  have herr : ∀ r h e, (eventBits r h e &&& soEpollErr != 0) = e := by decide
  constructor
  · rw [hhas, hin, beq_iff_eq]
  · rw [hhas, hout]
    cases kev.filter <;> decide
  · rw [hhas, hhup]
  · rw [hhas, herr, Kevent.errs]
    simp
  · exact fun hptr => if_pos hptr
  · intro hfd
    have hdata : (vosEventToEpoll old kev).data =
        (old.data &&& 0xFFFFFFFF00000000) ||| (BitVec.ofNat 32 kev.ident).setWidth 64 :=
      if_neg (not_not_intro hfd)
    -- the lower half of the union is the descriptor
    have hupper : (0xFFFFFFFF00000000 : BitVec 64).setWidth 32 = 0#32 := rfl
    rw [hdata, BitVec.setWidth_or, BitVec.setWidth_and, hupper, BitVec.and_zero, BitVec.zero_or,
      BitVec.setWidth_setWidth_of_le _ (by decide), BitVec.setWidth_eq]

/-! ### All entries -/

theorem eventlist_doEach (uap : SysKeventArgs) (ke : Kevent) :
    (doEach uap ke).eventlist = uap.eventlist + 1 := rfl

theorem entries_doEach (uap : SysKeventArgs) (ke : Kevent) (i : ℕ) :
    (doEach uap ke).entries i =
      if i = uap.eventlist then vosEventToEpoll (uap.entries i) ke else uap.entries i := by
  split_ifs with hi
  · rw [hi]
    exact Function.update_self _ _ _
  · exact Function.update_of_ne hi _ _

/-- The kernel's batches make no difference. -/
theorem foldl_keventCopyout (uap : SysKeventArgs) (batches : List (List Kevent)) :
    batches.foldl keventCopyout uap = keventCopyout uap batches.flatten :=
  List.foldl_flatten.symm

/-- A list of kevents is written from the cursor on, and nothing else. -/
theorem entries_keventCopyout (uap : SysKeventArgs) (kevs : List Kevent) (i : ℕ) :
    (keventCopyout uap kevs).entries i =
      if uap.eventlist ≤ i then
        (kevs[i - uap.eventlist]?).elim (uap.entries i) (vosEventToEpoll (uap.entries i))
      else uap.entries i := by
  induction kevs generalizing uap with
  | nil => exact (ite_self _).symm
  | cons kev kevs ih =>
    rw [keventCopyout, List.foldl_cons, ← keventCopyout, ih, eventlist_doEach, entries_doEach]
    rcases Nat.lt_trichotomy i uap.eventlist with hlt | heq | hgt
    · rw [if_neg (by omega), if_neg (by omega), if_neg (by omega)]
    · rw [if_neg (by omega), if_pos heq, if_pos (by omega), heq, Nat.sub_self]
      rfl
    · have hnext : i - uap.eventlist = i - (uap.eventlist + 1) + 1 := by omega
      rw [if_pos (by omega), if_neg (by omega), if_pos (by omega), hnext,
        List.getElem?_cons_succ]

/-- What the caller has to find in its array. -/
structure Delivers (kevs : List Kevent) (old new : Entries) : Prop where
  entry : ∀ i kev, kevs[i]? = some kev → Reports kev (new i)
  rest : ∀ i, kevs.length ≤ i → new i = old i

theorem delivers_keventCopyout (entries : Entries) (kevs : List Kevent) :
    Delivers kevs entries (keventCopyout ⟨0, entries⟩ kevs).entries where
  entry := by
    intro i kev hkev
    rw [entries_keventCopyout, if_pos (Nat.zero_le i), Nat.sub_zero, hkev]
    exact reports_vosEventToEpoll (entries i) kev
  rest := by
    intro i hi
    rw [entries_keventCopyout, if_pos (Nat.zero_le i), Nat.sub_zero,
      List.getElem?_eq_none_iff.mpr hi]
    rfl

/-- The mask of a kevent that is reported for `filter`. -/
def filterMask (M : Masks) (filter : Filter) (connected : Bool) : MASK :=
  match filter with
  | .read => M.read ||| M.accept ||| M.connect
  | .write => M.write ||| M.connect ||| if connected then 0#32 else M.close

/-- What `RunEventLoop` has to make of the entry `e` of a kevent. -/
structure Signalled (M : Masks) (kev : Kevent) (e : EpollEvent) (connected : Bool) (s : Signal) :
    Prop where
  fd : s.fdSig = e.data.setWidth 32
  mask : s.maskSig = filterMask M kev.filter connected
  error : s.rvError = .networkSocketClose ↔ kev.filter = .write ∧ connected = false

theorem filterMask_ne {M : Masks} (hM : M.connect ≠ 0#32) (filter : Filter) (connected : Bool) :
    filterMask M filter connected ≠ 0#32 := by
  intro hzero
  cases filter with
  | read => exact hM (BitVec.or_eq_zero_iff.mp hzero).2
  | write => exact hM (BitVec.or_eq_zero_iff.mp (BitVec.or_eq_zero_iff.mp hzero).1).2

/-- An entry has the events of one filter. -/
theorem Reports.interest_eq {kev : Kevent} {e : EpollEvent} (h : Reports kev e) :
    e.interest = ⟨kev.filter == .read, kev.filter == .write⟩ := by
  have hin : e.has soEpollIn = (kev.filter == .read) :=
    Bool.eq_iff_iff.mpr (h.input.trans beq_iff_eq.symm)
  have hout : e.has soEpollOut = (kev.filter == .write) :=
    Bool.eq_iff_iff.mpr (h.output.trans beq_iff_eq.symm)
  rw [EpollEvent.interest, hin, hout]

theorem length_signals (M : Masks) (connected : ℕ → Bool) (events : Entries) (n : ℕ) :
    (signals M connected events n).length = n := by
  rw [signals, List.length_map, List.length_range, Int.toNat_natCast]

/-- The loop makes the call of an entry at its turn. -/
theorem Reports.signalled {kev : Kevent} {events : Entries} {i n : ℕ} (h : Reports kev (events i))
    (hi : i < n) (M : Masks) (connected : ℕ → Bool) :
    ∃ s, (signals M connected events n)[i]? = some s ∧
      Signalled M kev (events i) (connected i) s := by
  have hs : (signals M connected events n)[i]? =
      some ⟨(events i).data.setWidth 32, M.maskSig (events i).interest (connected i),
        if (events i).interest.output ∧ connected i = false then .networkSocketClose else .ok⟩ := by
    rw [signals, List.getElem?_map, Int.toNat_natCast, List.getElem?_range hi, Option.map_some]
  refine ⟨_, hs, rfl, ?_, ?_⟩
  · rw [h.interest_eq]
    cases kev.filter <;> simp [Masks.maskSig, filterMask]
  · rw [h.interest_eq]
    cases kev.filter <;> cases connected i <;> simp

theorem ffKeventDoEach_of_ok {kernel : Kernel} {nevents : ℕ} {timeout : Option Timespec}
    {d : Delivery nevents} (hd : kernel nevents timeout = .ok d) (entries : Entries) :
    ffKeventDoEach kernel entries nevents timeout =
      ((d.batches.flatten.length : ℤ), (keventCopyout ⟨0, entries⟩ d.batches.flatten).entries) := by
  simp only [ffKeventDoEach, hd, foldl_keventCopyout]

/-- **Delivery.** Whatever the kernel delivers to a call of `vos_epoll_wait`, in whatever batches:
the call returns the number of kevents, the caller's array holds one entry for each of them in
order and is otherwise untouched, and `RunEventLoop` makes one call of each entry in order, for the
descriptor of the entry and with the mask of the kevent's filter, which is not empty. -/
theorem vosEpollWait_delivers (kernel : Kernel) (entries : Entries) {maxevents : ℤ}
    (timeout : ℤ) (hmax : 1 ≤ maxevents) {d : Delivery maxevents.toNat}
    (hd : kernel maxevents.toNat (shortWait timeout) = .ok d) :
    ∃ entries', vosEpollWait kernel (some entries) maxevents timeout =
        ((d.batches.flatten.length : ℤ), some entries') ∧
      Delivers d.batches.flatten entries entries' ∧
      ∀ (M : Masks) (connected : ℕ → Bool),
        (signals M connected entries' d.batches.flatten.length).length =
            d.batches.flatten.length ∧
          ∀ i kev, d.batches.flatten[i]? = some kev →
            ∃ s, (signals M connected entries' d.batches.flatten.length)[i]? = some s ∧
              Signalled M kev (entries' i) (connected i) s ∧
              (M.connect ≠ 0#32 → s.maskSig ≠ 0#32) := by
  have hdelivers := delivers_keventCopyout entries d.batches.flatten
  refine ⟨(keventCopyout ⟨0, entries⟩ d.batches.flatten).entries, ?_, hdelivers, ?_⟩
  · rw [vosEpollWait, if_neg (by omega), ffKeventDoEach_of_ok hd]
  · intro M connected
    refine ⟨length_signals M connected _ _, fun i kev hkev => ?_⟩
    obtain ⟨s, hs, hsignalled⟩ := (hdelivers.entry i kev hkev).signalled
      (List.getElem?_eq_some_iff.mp hkev).1 M connected
    refine ⟨s, hs, hsignalled, fun hM => ?_⟩
    rw [hsignalled.mask]
    exact filterMask_ne hM kev.filter (connected i)

/-- A kernel that reports descriptor 3 as readable and descriptor 4 as closed by its peer, in two
batches. -/
def twoBatches : Kernel := fun nevents _ =>
  if h : 2 ≤ nevents then
    .ok ⟨[[⟨3, .read, evClear, 0, 10, 3⟩], [⟨4, .write, evClear ||| evEof, 0, 0, 4⟩]], h⟩
  else .error 22

/-- The two kevents arrive, and the reactor takes the second one for a closed connection. -/
theorem vosEpollWait_delivers_twoBatches :
    ∃ entries', vosEpollWait twoBatches (some fun _ => ⟨0, 0⟩) 1024 (-1) = (2, some entries') ∧
      (entries' 0).has soEpollIn = true ∧ (entries' 1).has soEpollHup = true ∧
      ∃ s, (signals Handlers.oneBitMasks (fun _ => false) entries' 2)[1]? = some s ∧
        s.fdSig = 4 ∧ s.maskSig = 0x1a ∧ s.rvError = .networkSocketClose := by
  have hd : twoBatches (1024 : ℤ).toNat (shortWait (-1)) = .ok ⟨_, _⟩ := rfl
  obtain ⟨entries', hwait, hdelivers, hsignals⟩ :=
    vosEpollWait_delivers twoBatches (fun _ => ⟨0, 0⟩) (-1) (by decide) hd
  obtain ⟨s, hs, hsignalled, -⟩ := (hsignals Handlers.oneBitMasks fun _ => false).2 1 _ rfl
  have hdata : (entries' 1).data = 4 := (hdelivers.entry 1 _ rfl).ptr (by decide)
  refine ⟨entries', hwait, (hdelivers.entry 0 _ rfl).input.mpr rfl,
    (hdelivers.entry 1 _ rfl).hup.mpr rfl, s, hs, ?_, hsignalled.mask,
    hsignalled.error.mpr ⟨rfl, rfl⟩⟩
  rw [hsignalled.fd, hdata]
  rfl

end VosStack.Epoll
